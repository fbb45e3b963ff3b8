import UsageAudit.Script.Hint

/-!
# Rules for simple statements

Imports, assignments and the other statements that fit on a line, and the lines they make up.
-/

namespace UsageAudit.Script

variable (self : Grammar)

/-- A dotted name. -/
def dottedName (ends : Bool) : Reader (List Tree) := do
  let first ← anyName
  let more ← Reader.many do
    unlessEnded ends
    return (← sign .dot) ++ (← anyName)
  return enclose .dottedName (first ++ more)

/-- An imported name, perhaps with a name of its own in the script. -/
def imported (ends : Bool) : Reader (List Tree) := do
  let name ← dottedName ends
  if ← Reader.look fun rest => !(ends && lineEnds rest) && wordAhead .asWord rest then
    let mark ← word .asWord
    let nickname ← anyName
    return label .name
      (enclose .aliasedImport (label .name name ++ mark ++ label .nickname nickname))
  else return label .name name

/-- Imported names up to the end of the line. -/
def importList (ends : Bool) : Reader (List Tree) := do
  let (row, _) ← commaSeparated ends (imported ends)
  return row

/-- Imported names, possibly in parentheses. -/
def importedNames : Reader (List Tree) := do
  if (← Reader.look signAhead) == some .openParen then
    return (← sign .openParen) ++ (← importList false) ++ (← sign .closeParen)
  else importList true

/-- An import of modules. -/
def importStatement : Reader (List Tree) := do
  return enclose .importStatement ((← word .importWord) ++ (← importList true))

/-- The module that names are imported from. -/
def importSource : Reader (List Tree) := do
  let dots ← Reader.many (characters ['.'])
  if dots.isEmpty then dottedName false
  else
    let name ← Reader.optional do
      Reader.guarded fun rest => !wordAhead .importWord rest
      dottedName false
    return enclose .relativeImport (enclose .importDots dots ++ name)

/-- An import of names from a module. -/
def importFrom : Reader (List Tree) := do
  let head ← word .fromWord
  if ← Reader.look (wordAhead .futureWord) then
    let future ← word .futureWord
    let middle ← word .importWord
    return enclose .futureImport (head ++ future ++ middle ++ (← importedNames))
  else
    let origin ← importSource
    let middle ← word .importWord
    let names ←
      if (← Reader.look signAhead) == some .times then
        pure (enclose .wildcardImport (← sign .times))
      else importedNames
    return enclose .importFrom (head ++ label .moduleName origin ++ middle ++ names)

/-- An assignment whose left side was read as an expression. -/
def assignmentFrom (row : List Tree) (commas : Bool) : Reader (List Tree) := do
  unlessEnded true
  match leftSide? row commas with
  | none => Reader.stuck
  | some target =>
    let left := label .left target
    match ← Reader.look signAhead with
    | some .assign =>
      let mark ← sign .assign
      return enclose .assignment (left ++ mark ++ label .right (← self .rightSide))
    | some .colon =>
      let colon ← sign .colon
      let typed := left ++ colon ++ (← self (.hint true false))
      let value ← Reader.optional do
        unlessEnded true
        let mark ← sign .assign
        return mark ++ label .right (← self .rightSide)
      return enclose .assignment (typed ++ value)
    | _ =>
      let (_, mark) ← signWhere Sign.isUpdate
      return enclose .augmentedAssignment (left ++ mark ++ label .right (← self .rightSide))

/-- Whether an assignment goes on here. -/
def assignmentAhead (rest : List Char) : Bool :=
  !lineEnds rest &&
    match signAhead rest with
    | some .assign | some .colon => true
    | some s => s.isUpdate
    | none => false

/-- The right side of an assignment, which may be an assignment itself. -/
def rightSide : Reader (List Tree) := do
  if ← Reader.look (wordAhead .yieldWord) then yieldExpression self true
  else
    let (row, commas) ← commaSeparated true (self (.expression true 0))
    if ← Reader.look assignmentAhead then assignmentFrom self row commas
    else return if commas then enclose .expressionList row else row

/-- An expression or an assignment as a statement. -/
def expressionStatement : Reader (List Tree) := do
  if ← Reader.look (wordAhead .yieldWord) then
    return enclose .expressionStatement (← yieldExpression self true)
  else
    let (row, commas) ← commaSeparated true (self (.expression true 0))
    if ← Reader.look assignmentAhead then
      return enclose .expressionStatement (← assignmentFrom self row commas)
    else return enclose .expressionStatement row

/-- Whether a simple statement may end here. -/
def statementEnds (rest : List Char) : Bool := lineEnds rest || signAhead rest == some .semicolon

/-- A print statement. -/
def printStatement : Reader (List Tree) := do
  let head ← word .printWord
  unlessEnded true
  if (← Reader.look signAhead) == some .shiftRight then
    let mark ← sign .shiftRight
    let stream ← self (.expression true 0)
    let more ← Reader.many do
      unlessEnded true
      let comma ← sign .comma
      unlessEnded true
      return comma ++ (← self (.expression true 0))
    let last ← Reader.optional do
      unlessEnded true
      sign .comma
    return enclose .printStatement (head ++ enclose .chevron (mark ++ stream) ++ more ++ last)
  else
    let (row, _) ← commaSeparated true (self (.expression true 0))
    return enclose .printStatement (head ++ row)

/-- An expression that ends the statement, or else what the second reader reads. An expression that
starts with a name for a statement is taken for an expression where that is possible. -/
def expressionOr (statement : Reader (List Tree)) : Reader (List Tree) :=
  (do
    let found ← expressionStatement self
    Reader.guarded statementEnds
    return found) <|> statement

/-- Whether `print` is followed by a stream to print to. -/
def streamAhead (rest : List Char) : Bool :=
  match splitName (gap rest).rest with
  | some (_, rest) => !lineEnds rest && signAhead rest == some .shiftRight
  | none => false

/-- Whether `exec` is followed by code. -/
def codeAhead (rest : List Char) : Bool :=
  match splitName (gap rest).rest with
  | some (_, rest) =>
    !lineEnds rest &&
      let ahead := (gap rest).rest
      (startsText ahead && (Quotation.opening ahead).isSome) ||
        ((splitName ahead).isSome &&
          [Word.andWord, .orWord, .inWord, .notWord, .isWord, .ifWord, .asWord].all fun w =>
            !wordAhead w rest)
  | none => false

/-- An exec statement. -/
def execStatement : Reader (List Tree) := do
  let head ← word .execWord
  let ahead ← Reader.look fun rest => (gap rest).rest
  let code ←
    if startsText ahead && (Quotation.opening ahead).isSome then textLiteral self
    else anyName
  let scope ← Reader.optional do
    unlessEnded true
    let mark ← word .inWord
    return mark ++ (← commaJoined true (self (.expression true 0)))
  return enclose .execStatement (head ++ code ++ scope)

/-- A type alias. -/
def typeAlias : Reader (List Tree) := do
  let head ← word .typeWord
  unlessEnded true
  let left ← self (.hint true false)
  unlessEnded true
  let mark ← sign .assign
  let right ← self (.hint true false)
  Reader.guarded statementEnds
  return enclose .typeAlias (head ++ label .left left ++ mark ++ label .right right)

/-- A statement that raises an error. -/
def raiseStatement : Reader (List Tree) := do
  let head ← word .raiseWord
  let value ← Reader.optional do
    unlessEnded true
    Reader.guarded fun rest => !wordAhead .fromWord rest
    expressions self true
  let cause ← Reader.optional do
    unlessEnded true
    let mark ← word .fromWord
    return mark ++ (← self (.expression true 0))
  return enclose .raiseStatement (head ++ value ++ cause)

/-- A statement that declares names. -/
def declaration (kind : Kind) (w : Word) : Reader (List Tree) := do
  return enclose kind ((← word w) ++ (← commaJoined true anyName))

/-- A simple statement. -/
def simpleStatement : Reader (List Tree) := do
  let ahead := (← Reader.look nameAhead).getD []
  let is (w : Word) : Bool := ahead == w.text
  if is .importWord then importStatement
  else if is .fromWord then importFrom
  else if is .printWord then
    if ← Reader.look streamAhead then printStatement self
    else expressionOr self (printStatement self)
  else if is .assertWord then
    return enclose .assertStatement
      ((← word .assertWord) ++ (← commaJoined true (self (.expression true 0))))
  else if is .returnWord then
    let head ← word .returnWord
    let value ← Reader.optional do
      unlessEnded true
      expressions self true
    return enclose .returnStatement (head ++ value)
  else if is .delWord then
    return enclose .deleteStatement ((← word .delWord) ++ (← expressions self true))
  else if is .raiseWord then raiseStatement self
  else if is .passWord then return enclose .passStatement (← word .passWord)
  else if is .breakWord then return enclose .breakStatement (← word .breakWord)
  else if is .continueWord then return enclose .continueStatement (← word .continueWord)
  else if is .globalWord then declaration .globalStatement .globalWord
  else if is .nonlocalWord then declaration .nonlocalStatement .nonlocalWord
  else if is .execWord then
    if ← Reader.look codeAhead then execStatement self
    else expressionStatement self
  else if is .typeWord then typeAlias self <|> expressionStatement self
  else expressionStatement self

/-- Simple statements up to the end of the line. -/
def simpleStatements : Reader (List Tree) := do
  let first ← simpleStatement self
  let more ← Reader.many do
    unlessEnded true
    let mark ← sign .semicolon
    unlessEnded true
    return mark ++ (← simpleStatement self)
  let last ← Reader.optional do
    unlessEnded true
    sign .semicolon
  Reader.guarded lineEnds
  return first ++ more ++ last

end UsageAudit.Script
