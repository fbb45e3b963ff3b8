import UsageAudit.Script.Operator

/-!
# Rules for the patterns of a match

A pattern is a literal, a name, a class with patterns for its parts, a sequence or a mapping of
patterns, or several alternatives of such; it may be given a name.
-/

namespace UsageAudit.Script

variable (self : Grammar)

/-- A number, as a part of a pattern, with nothing but itself. -/
def signedNumber : Reader (List Tree) := do
  let negative ← Reader.optional (sign .minus)
  let first ← number
  let more ← Reader.optional do
    let (_, mark) ← signWhere fun s => s == .plus || s == .minus
    return mark ++ (← number)
  return if more.isEmpty then negative ++ first
    else enclose .complexPattern (negative ++ first ++ more)

/-- Patterns between two brackets. -/
def patternRow (opening closing : Sign) : Reader (List Tree) := do
  let start ← sign opening
  let row ← Reader.optional do
    let (row, _) ← commaSeparated false (self .casePattern)
    return row
  return start ++ row ++ (← sign closing)

/-- A star or two, and the name of what is left over. -/
def splatPattern : Reader (List Tree) := do
  let (_, star) ← signWhere fun s => s == .times || s == .power
  let name ←
    if ← Reader.look (wordAhead .lowLine) then word .lowLine
    else anyName
  return enclose .splatPattern (star ++ name)

/-- A dotted name in a pattern, and the patterns of a class after it. -/
def namePattern : Reader (List Tree) := do
  let first ← anyName
  let more ← Reader.many do return (← sign .dot) ++ (← anyName)
  let name := enclose .dottedName (first ++ more)
  if (← Reader.look signAhead) == some .openParen then
    return enclose .classPattern (name ++ (← patternRow self .openParen .closeParen))
  else return name

/-- One alternative, given how an entry of a mapping is read. -/
def closedPatternWith (entry : Reader (List Tree)) : Reader (List Tree) := do
  let ahead ← Reader.look fun rest => (gap rest).rest
  if startsText ahead && (Quotation.opening ahead).isSome then texts self false
  else match Sign.longest ahead with
  | some .times | some .power => splatPattern
  | some .openBracket => return enclose .listPattern (← patternRow self .openBracket .closeBracket)
  | some .openParen => return enclose .tuplePattern (← patternRow self .openParen .closeParen)
  | some .openBrace =>
    let start ← sign .openBrace
    let row ← Reader.optional do
      let (row, _) ← commaSeparated false entry
      return row
    return enclose .dictPattern (start ++ row ++ (← sign .closeBrace))
  | _ =>
    if (splitName ahead).isNone then signedNumber
    else if ← Reader.look (wordAhead .lowLine) then word .lowLine
    else if ← Reader.look fun rest =>
        wordAhead .trueWord rest || wordAhead .falseWord rest || wordAhead .noneWord rest then
      nameOrConstant
    else namePattern self

/-- One or more alternatives, given how one of them is read. -/
def alternativesOf (closed : Reader (List Tree)) : Reader (List Tree) := do
  let first ← closed
  let more ← Reader.many do return (← sign .bitOr) ++ (← closed)
  return if more.isEmpty then first else enclose .unionPattern (first ++ more)

/-- An entry of a mapping: a key without braces of its own and a pattern, or what is left over. -/
def patternEntry : Reader (List Tree) := do
  match ← Reader.look signAhead with
  | some .times | some .power => splatPattern
  | _ =>
    let key ← alternativesOf (closedPatternWith self Reader.stuck)
    let colon ← sign .colon
    return key ++ colon ++ (← self .casePattern)

/-- A pattern without a name for it. -/
def simplePattern : Reader (List Tree) := alternativesOf (closedPatternWith self (patternEntry self))

/-- A pattern of a case, with its renamings. -/
def casePattern : Reader (List Tree) := do
  let first ←
    if ← Reader.look (namedAhead .assign) then
      let name ← anyName
      let mark ← sign .assign
      pure (enclose .keywordPattern (name ++ mark ++ (← simplePattern self)))
    else simplePattern self
  Reader.grow (fun left => do
    let mark ← word .asWord
    return enclose .casePattern (enclose .asPattern (left ++ mark ++ (← anyName))))
    (enclose .casePattern first)

end UsageAudit.Script
