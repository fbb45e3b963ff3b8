import UsageAudit.Script.Operator

/-!
# Rules for annotations

An annotation is an expression in most cases; a name with parameters in brackets is read as a generic
class, and such classes may be joined by bars.
-/

namespace UsageAudit.Script

variable (self : Grammar)

/-- Annotations in brackets. -/
def typeParameters : Reader (List Tree) := do
  let start ← sign .openBracket
  let (row, _) ← commaSeparated false (self (.hint false true))
  return enclose .typeParameter (start ++ row ++ (← sign .closeBracket))

/-- Whether a name followed by an opening bracket is ahead that can be a generic class. -/
def genericAhead (rest : List Char) : Bool :=
  namedAhead .openBracket rest &&
    [Word.awaitWord, .printWord, .execWord, .asyncWord, .matchWord].all fun w => !wordAhead w rest

/-- A starred name as an annotation. -/
def splatType : Reader (List Tree) := do
  let (_, star) ← signWhere fun s => s == .times || s == .power
  let name ← anyName
  Reader.guarded fun rest => !isSuffix rest
  return enclose .splatType (star ++ name)

/-- An annotation that is not made of others by a bar. -/
def hintHead (ends : Bool) : Reader (List Tree) := do
  let inner ←
    match ← Reader.look signAhead with
    | some .times => splatType <|> self (.expression ends 0)
    | some .power => splatType
    | _ =>
      if ← Reader.look genericAhead then
        let name ← anyName
        let parameters ← typeParameters self
        pure (enclose .genericType (name ++ parameters))
      else self (.expression ends 0)
  return enclose .hint inner

/-- What may take in the annotation on its left. -/
def hintTail (ends bounded : Bool) (left : List Tree) : Reader (List Tree) := do
  unlessEnded ends
  match ← Reader.look signAhead with
  | some .bitOr =>
    let mark ← sign .bitOr
    let right ← hintHead self ends
    return enclose .hint (enclose .unionType (left ++ mark ++ right))
  | some .dot =>
    let dot ← sign .dot
    let name ← anyName
    return enclose .hint (enclose .memberType (left ++ dot ++ name))
  | some .colon =>
    if bounded then
      let colon ← sign .colon
      let bound ← self (.hint ends bounded)
      return enclose .hint (enclose .constrainedType (left ++ colon ++ bound))
    else Reader.stuck
  | _ => Reader.stuck

/-- An annotation; `bounded` if a bound may follow after a colon. -/
def hint (ends bounded : Bool) : Reader (List Tree) := do
  Reader.grow (hintTail self ends bounded) (← hintHead self ends)

end UsageAudit.Script
