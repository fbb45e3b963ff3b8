import UsageAudit.Script.Statement
import UsageAudit.Script.CasePattern

/-!
# Rules for compound statements

Statements with a body. A body is a block at a deeper column, or what follows the colon on the same
line; if the next line is no deeper, the body is empty.
-/

namespace UsageAudit.Script

variable (self : Grammar)

/-- Whether nothing but blank space and comments is left. -/
def atEnd (rest : List Char) : Bool := (gap rest).rest.isEmpty

/-- The statements of a block at the given column. -/
def statements (level : Nat) : Reader (List Tree) := do
  let row ← Reader.many do
    Reader.guarded fun rest => !(blockEnds level rest || atEnd rest)
    self (.statement level)
  Reader.guarded fun rest => blockEnds level rest || atEnd rest
  return row

/-- The body of a statement in a block at the given column. -/
def suite (level : Nat) : Reader (List Tree) := do
  match ← Reader.look indentAhead with
  | some column =>
    if level < column then return [.branch none .block 0 (← statements self column)]
    else return [.branch none .block 0 []]
  | none => return enclose .block (← simpleStatements self)

/-- A word that goes on with a statement in a block at the given column. -/
def continuing (level : Nat) (w : Word) : Reader (List Tree) := do
  Reader.guarded fun rest => !blockEnds level rest
  word w

/-- A colon and a body. -/
def body (level : Nat) : Reader (List Tree) := do
  return (← sign .colon) ++ label .body (← suite self level)

/-- What is done if no branch was taken. -/
def elseClause (level : Nat) : Reader (List Tree) := do
  return enclose .elseClause ((← continuing level .elseWord) ++ (← body self level))

/-- A conditional statement. -/
def ifStatement (level : Nat) : Reader (List Tree) := do
  let head ← word .ifWord
  let first := head ++ (← self (.expression false 0)) ++ (← body self level)
  let more ← Reader.many do
    let head ← continuing level .elifWord
    return enclose .elifClause (head ++ (← self (.expression false 0)) ++ (← body self level))
  return enclose .ifStatement (first ++ more ++ (← Reader.optional (elseClause self level)))

/-- A loop over something. -/
def forStatement (level : Nat) : Reader (List Tree) := do
  let start ← Reader.optional (word .asyncWord)
  let head ← word .forWord
  let left ← targets self
  let middle ← word .inWord
  let right ← expressions self false
  let inner ← body self level
  let other ← Reader.optional (elseClause self level)
  return enclose .forStatement (start ++ head ++ left ++ middle ++ right ++ inner ++ other)

/-- A loop with a condition. -/
def whileStatement (level : Nat) : Reader (List Tree) := do
  let head ← word .whileWord
  let inner := (← self (.expression false 0)) ++ (← body self level)
  return enclose .whileStatement (head ++ inner ++ (← Reader.optional (elseClause self level)))

/-- A handler of errors. -/
def exceptClause (level : Nat) : Reader (List Tree) := do
  let head ← continuing level .exceptWord
  let value ← Reader.optional do
    let value ← self (.expression false 0)
    let name ← Reader.optional do
      return (← sign .comma) ++ (← self (.expression false 0))
    return value ++ name
  return enclose .exceptClause (head ++ value ++ (← body self level))

/-- A handler of groups of errors. -/
def exceptGroupClause (level : Nat) : Reader (List Tree) := do
  Reader.guarded fun rest => !blockEnds level rest
  let head ← characters (Word.exceptWord.text ++ ['*'])
  let value ← self (.expression false 0)
  return enclose .exceptGroupClause (head ++ value ++ (← body self level))

/-- What is done in the end in any case. -/
def finallyClause (level : Nat) : Reader (List Tree) := do
  return enclose .finallyClause ((← continuing level .finallyWord) ++ (← body self level))

/-- A statement with handlers of errors. -/
def tryStatement (level : Nat) : Reader (List Tree) := do
  let start := (← word .tryWord) ++ (← body self level)
  let grouped ← Reader.many (exceptGroupClause self level)
  let handlers ←
    if grouped.isEmpty then Reader.many (exceptClause self level) else pure grouped
  if handlers.isEmpty then
    return enclose .tryStatement (start ++ (← finallyClause self level))
  else
    let other ← Reader.optional (elseClause self level)
    let final ← Reader.optional (finallyClause self level)
    return enclose .tryStatement (start ++ handlers ++ other ++ final)

/-- Something that is entered and left around a body. -/
def manager : Reader (List Tree) := do
  return enclose .withItem (← self (.expression false 0))

/-- The managers of a statement: several in parentheses, or else one or more expressions, each of
which may be in parentheses. -/
def managers : Reader (List Tree) := do
  let row ←
    (do
      let start ← sign .openParen
      let first ← manager self
      let second ← sign .comma
      let more ← manager self
      let rest ← moreOf (manager self)
      let final ← sign .closeParen
      Reader.guarded fun rest => signAhead rest == some .colon
      return start ++ first ++ second ++ more ++ rest ++ final) <|>
    (do
      let (row, _) ← commaSeparated false (manager self)
      return row)
  return enclose .withClause row

/-- A statement with managers. -/
def withStatement (level : Nat) : Reader (List Tree) := do
  let start ← Reader.optional (word .asyncWord)
  let head ← word .withWord
  return enclose .withStatement (start ++ head ++ (← managers self) ++ (← body self level))

/-- The parameters of a function. -/
def parameterList : Reader (List Tree) := do
  let start ← sign .openParen
  let row ← Reader.optional do
    let (row, _) ← commaSeparated false (parameter self true)
    return row
  return enclose .parameterList (start ++ row ++ (← sign .closeParen))

/-- The definition of a function. -/
def functionDefinition (level : Nat) : Reader (List Tree) := do
  let start ← Reader.optional (word .asyncWord)
  let head ← word .defWord
  let name ← anyName
  let generic ← Reader.optional (typeParameters self)
  let parameters ← parameterList self
  let result ← Reader.optional do
    return (← sign .arrow) ++ (← self (.hint false false))
  return enclose .functionDefinition
    (start ++ head ++ label .name name ++ generic ++ label .parameters parameters ++ result ++
      (← body self level))

/-- The definition of a class. -/
def classDefinition (level : Nat) : Reader (List Tree) := do
  let head ← word .classWord
  let name ← anyName
  let generic ← Reader.optional (typeParameters self)
  let bases ← Reader.optional do
    let bases ← arguments self
    if bases.any fun tree => tree.kind == .generator then Reader.stuck
    return label .superclasses bases
  return enclose .classDefinition
    (head ++ label .name name ++ generic ++ bases ++ (← body self level))

/-- A definition with decorators. -/
def decoratedDefinition (level : Nat) : Reader (List Tree) := do
  let decorator : Reader (List Tree) := do
    let mark ← sign .matrix
    let value ← self (.expression true 0)
    Reader.guarded lineEnds
    return enclose .decorator (mark ++ value)
  let first ← decorator
  let more ← Reader.many decorator
  let definition ←
    if ← Reader.look (wordAhead .classWord) then classDefinition self level
    else functionDefinition self level
  return enclose .decoratedDefinition (first ++ more ++ label .definition definition)

/-- A case of a match. -/
def caseClause (level : Nat) : Reader (List Tree) := do
  let head ← word .caseWord
  let (row, _) ← commaSeparated false (self .casePattern)
  let guard ← Reader.optional (ifClause self 0)
  return enclose .caseClause (head ++ row ++ guard ++ (← body self level))

/-- A match of values against patterns. -/
def matchStatement (level : Nat) : Reader (List Tree) := do
  let head ← word .matchWord
  unlessEnded true
  let (row, _) ← commaSeparated false (self (.expression false 0))
  let colon ← sign .colon
  match ← Reader.look indentAhead with
  | none => Reader.stuck
  | some column =>
    let cases ←
      if level < column then do
        let cases ← Reader.many do
          Reader.guarded fun rest => !(blockEnds column rest || atEnd rest)
          caseClause self column
        Reader.guarded fun rest => blockEnds column rest || atEnd rest
        pure cases
      else pure []
    return enclose .matchStatement
      (head ++ row ++ colon ++ label .body [.branch none .block 0 cases])

/-- The word after an `async`. -/
def wordAfterAsync (rest : List Char) : Option (List Char) :=
  match splitName (gap rest).rest with
  | some (_, rest) => nameAhead rest
  | none => none

/-- A statement in a block at the given column. -/
def statement (level : Nat) : Reader (List Tree) := do
  if (← Reader.look signAhead) == some .matrix then decoratedDefinition self level
  else
    let ahead := (← Reader.look nameAhead).getD []
    let after := (← Reader.look wordAfterAsync).getD []
    let is (w : Word) : Bool :=
      ahead == w.text || (ahead == Word.asyncWord.text && after == w.text)
    if ahead == Word.ifWord.text then ifStatement self level
    else if ahead == Word.whileWord.text then whileStatement self level
    else if ahead == Word.tryWord.text then tryStatement self level
    else if ahead == Word.classWord.text then classDefinition self level
    else if ahead == Word.matchWord.text then matchStatement self level <|> simpleStatements self
    else if is .forWord then forStatement self level
    else if is .withWord then withStatement self level
    else if is .defWord then functionDefinition self level
    else simpleStatements self

end UsageAudit.Script
