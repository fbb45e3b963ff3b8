import UsageAudit.Script.Text
import UsageAudit.Script.Number
import UsageAudit.Script.Target

/-!
# Rules for expressions

Operators bind by their levels, members, calls and subscripts bind tightest, and inside brackets a
first member decides whether a collection or a comprehension is read.
-/

namespace UsageAudit.Script

variable (self : Grammar)

/-- Whether a name followed by the given sign is ahead, the name being none of the words that always
are more than a name at the start of an expression. -/
def namedAhead (s : Sign) (rest : List Char) : Bool :=
  match splitName (gap rest).rest with
  | some (name, rest) =>
    signAhead rest == some s &&
      [Word.notWord, .lambdaWord, .trueWord, .falseWord, .noneWord].all fun w => w.text != name
  | none => false

/-- Whether a clause of a comprehension is ahead. -/
def clauseAhead (rest : List Char) : Bool :=
  wordAhead .forWord rest || wordAhead .asyncWord rest

/-- A name, or one of the three constant words. -/
def nameOrConstant : Reader (List Tree) := fun rest =>
  match nameAhead rest with
  | some name =>
    let kind : Kind :=
      if name == Word.trueWord.text then .trueLiteral
      else if name == Word.falseWord.text then .falseLiteral
      else if name == Word.noneWord.text then .noneLiteral
      else .identifier
    readToken kind splitName rest
  | none => Reader.stuck rest

/-- A number. -/
def number : Reader (List Tree) := fun rest =>
  let g := gap rest
  match Number.split g.rest with
  | some (kind, text, rest) => ⟨none, some (g.extras ++ [.token none kind 0 g.blank text], rest)⟩
  | none => ⟨some g.rest.length, none⟩

/-- A yield, with what it hands out. -/
def yieldExpression (ends : Bool) : Reader (List Tree) := do
  let head ← word .yieldWord
  let value ← Reader.optional do
    unlessEnded ends
    if ← Reader.look (wordAhead .fromWord) then
      return (← word .fromWord) ++ (← self (.expression ends 0))
    else
      let (row, commas) ← commaSeparated ends (self (.expression ends 0))
      return if commas then enclose .expressionList row else row
  return enclose .yieldExpression (head ++ value)

/-- One or more expressions, as one node. -/
def expressions (ends : Bool) : Reader (List Tree) := do
  let (row, commas) ← commaSeparated ends (self (.expression ends 0))
  return if commas then enclose .expressionList row else row

/-- A starred expression, as a member of a collection or an argument. -/
def listSplat : Reader (List Tree) := do
  return enclose .listSplat ((← sign .times) ++ (← self (.expression false 0)))

/-- A mapping to be unpacked, as an entry of a dictionary or an argument. -/
def dictionarySplat : Reader (List Tree) := do
  return enclose .dictionarySplat ((← sign .power) ++ (← self (.expression false 0)))

/-- A member of a bracketed collection. -/
def element : Reader (List Tree) := do
  if (← Reader.look signAhead) == some .times then listSplat self
  else if ← Reader.look (wordAhead .yieldWord) then yieldExpression self false
  else self (.expression false 0)

/-- Further members of a collection, with the commas in front of them, and perhaps a last comma. -/
def moreOf (item : Reader (List Tree)) : Reader (List Tree) := do
  let more ← Reader.many do return (← sign .comma) ++ (← item)
  return more ++ (← Reader.optional (sign .comma))

/-- Members, calls and subscripts bind to the value on their left. -/
def isSuffix (rest : List Char) : Bool :=
  match signAhead rest with
  | some .dot | some .openParen | some .openBracket => true
  | _ => false

/-- One target out of several: a starred or a plain one. -/
def target : Reader (List Tree) := do
  if (← Reader.look signAhead) == some .times then
    let star ← sign .times
    let value ← self (.chain false)
    if endsInStarTarget value then return enclose .listSplatPattern (star ++ value)
    else Reader.stuck
  else
    match asTargets? (← self (.chain false)) with
    | some target => return target
    | none => Reader.stuck

/-- The targets of a loop. -/
def targets : Reader (List Tree) := do
  let first ← target self
  let more ← Reader.many do
    let comma ← sign .comma
    Reader.guarded fun rest => !wordAhead .inWord rest
    return comma ++ (← target self)
  let last ← Reader.optional (sign .comma)
  return if more.isEmpty && last.isEmpty then first
    else enclose .patternList (first ++ more ++ last)

/-- A clause of a comprehension that goes through something. -/
def forClause : Reader (List Tree) := do
  let start ← Reader.optional (word .asyncWord)
  let head ← word .forWord
  let targets ← targets self
  let middle ← word .inWord
  let first ← self .source
  let more ← Reader.many do
    let comma ← sign .comma
    Reader.guarded fun rest => !(clauseAhead rest || wordAhead .ifWord rest)
    return comma ++ (← self .source)
  let last ← Reader.optional (sign .comma)
  return enclose .forInClause (start ++ head ++ targets ++ middle ++ first ++ more ++ last)

/-- A condition of a comprehension. -/
def ifClause (level : Nat) : Reader (List Tree) := do
  return enclose .ifClause ((← word .ifWord) ++ (← self (.expression false level)))

/-- The clauses of a comprehension. -/
def clauses : Reader (List Tree) := do
  let first ← forClause self
  let more ← Reader.many do
    if ← Reader.look (wordAhead .ifWord) then ifClause self 1
    else forClause self
  return first ++ more

/-- A collection in brackets that holds nothing, one value, several values or a comprehension. -/
def collection (opening closing : Sign)
    (empty single several comprehension : Kind) : Reader (List Tree) := do
  let start ← sign opening
  if (← Reader.look signAhead) == some closing then
    return enclose empty (start ++ (← sign closing))
  let first ← element self
  if ← Reader.look clauseAhead then
    let clauses ← clauses self
    return enclose comprehension (start ++ first ++ clauses ++ (← sign closing))
  let more ← moreOf (element self)
  let kind := if more.isEmpty then single else several
  return enclose kind (start ++ first ++ more ++ (← sign closing))

/-- An entry of a dictionary whose key was read. -/
def pairFrom (key : List Tree) : Reader (List Tree) := do
  let colon ← sign .colon
  return enclose .pair (key ++ colon ++ (← self (.expression false 0)))

/-- An entry of a dictionary. -/
def entry : Reader (List Tree) := do
  if (← Reader.look signAhead) == some .power then dictionarySplat self
  else pairFrom self (← self (.expression false 0))

/-- A set, a dictionary or a comprehension of either. -/
def brace : Reader (List Tree) := do
  let start ← sign .openBrace
  let rest (kind : Kind) (first : List Tree) (item : Reader (List Tree)) : Reader (List Tree) := do
    let more ← moreOf item
    return enclose kind (start ++ first ++ more ++ (← sign .closeBrace))
  match ← Reader.look signAhead with
  | some .closeBrace => return enclose .dictionary (start ++ (← sign .closeBrace))
  | some .comma =>
    let comma ← sign .comma
    return enclose .dictionary (start ++ comma ++ (← sign .closeBrace))
  | some .power => rest .dictionary (← dictionarySplat self) (entry self)
  | _ =>
    let first ← element self
    if (← Reader.look signAhead) == some .colon then
      let pair ← pairFrom self first
      if ← Reader.look clauseAhead then
        let clauses ← clauses self
        return enclose .dictionaryComprehension (start ++ pair ++ clauses ++ (← sign .closeBrace))
      rest .dictionary pair (entry self)
    else if ← Reader.look clauseAhead then
      let clauses ← clauses self
      return enclose .setComprehension (start ++ first ++ clauses ++ (← sign .closeBrace))
    else rest .set first (element self)

/-- An argument of a call. -/
def argument : Reader (List Tree) := do
  match ← Reader.look signAhead with
  | some .times => listSplat self
  | some .power => dictionarySplat self
  | _ =>
    if ← Reader.look (namedAhead .assign) then
      let name ← anyName
      let mark ← sign .assign
      let value ← self (.expression false 0)
      return enclose .keywordArgument (label .name name ++ mark ++ label .value value)
    else self (.expression false 0)

/-- The arguments of a call, or a single comprehension in their place. -/
def arguments : Reader (List Tree) := do
  let start ← sign .openParen
  match ← Reader.look signAhead with
  | some .closeParen => return enclose .argumentList (start ++ (← sign .closeParen))
  | some .comma =>
    let comma ← sign .comma
    return enclose .argumentList (start ++ comma ++ (← sign .closeParen))
  | _ =>
    let first ← argument self
    if ← Reader.look clauseAhead then
      let clauses ← clauses self
      return enclose .generator (start ++ first ++ clauses ++ (← sign .closeParen))
    let more ← moreOf (argument self)
    return enclose .argumentList (start ++ first ++ more ++ (← sign .closeParen))

/-- One subscript: an expression or a slice. -/
def subscriptItem : Reader (List Tree) := do
  let bound ← Reader.optional (self (.expression false 0))
  if (← Reader.look signAhead) == some .colon then
    let colon ← sign .colon
    let upper ← Reader.optional (self (.expression false 0))
    let step ← Reader.optional do
      return (← sign .colon) ++ (← Reader.optional (self (.expression false 0)))
    return enclose .slice (bound ++ colon ++ upper ++ step)
  else if bound.isEmpty then Reader.stuck
  else return bound

/-- The subscripts of a value. -/
def subscripts : Reader (List Tree) := do
  let start ← sign .openBracket
  let (row, _) ← commaSeparated false (subscriptItem self)
  return start ++ row ++ (← sign .closeBracket)

/-- A member, a call or a subscript of the value on its left. -/
def suffix (ends : Bool) (left : List Tree) :
    Reader (List Tree) := do
  unlessEnded ends
  match ← Reader.look signAhead with
  | some .dot =>
    let dot ← sign .dot
    let name ← anyName
    return enclose .member (label .object left ++ dot ++ label .memberName name)
  | some .openParen =>
    let arguments ← arguments self
    return enclose .call (label .function left ++ label .arguments arguments)
  | some .openBracket => return enclose .subscript (label .value left ++ (← subscripts self))
  | _ => Reader.stuck

/-- A name, a literal or a bracketed value. -/
def atom (ends : Bool) : Reader (List Tree) := do
  let ahead ← Reader.look fun rest => (gap rest).rest
  if startsText ahead && (Quotation.opening ahead).isSome then texts self ends
  else match Sign.longest ahead with
  | some .openParen =>
    collection self .openParen .closeParen .tuple .parenthesized .tuple .generator
  | some .openBracket =>
    collection self .openBracket .closeBracket .list .list .list .listComprehension
  | some .openBrace => brace self
  | some .dots =>
    readToken .ellipsis fun rest => some (Sign.dots.text, rest.drop Sign.dots.text.length)
  | _ =>
    if (splitName ahead).isSome then nameOrConstant
    else number

/-- A value with its members, calls and subscripts. -/
def chain (ends : Bool) : Reader (List Tree) := do
  Reader.grow (suffix self ends) (← atom self ends)

end UsageAudit.Script
