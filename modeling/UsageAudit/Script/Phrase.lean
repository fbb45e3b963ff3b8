import UsageAudit.Script.Quotation

/-!
# Phrases of the grammar

The constructs at which the rules of the grammar come back to themselves. A rule is written against
a reader for these phrases, so that the rules for texts, expressions, annotations, patterns and
statements stand in modules of their own and are tied together once, in `Script.read`.

Many rules are told whether a line end ends them: an expression inside brackets runs on over lines,
one that may be the last part of a statement does not. An expression is told how tightly it has to
bind: level 0 takes in everything, level 1 no conditional expression, level 2 no renaming either,
and 11, 12 and 13 are the levels of disjunction, conjunction and negation.
-/

namespace UsageAudit.Script

/-- A construct that can hold itself. -/
inductive Phrase where
  /-- An expression that binds at least so tightly. -/
  | expression (ends : Bool) (level : Nat)
  /-- A value made by operators that bind at least so tightly. -/
  | arithmetic (ends : Bool) (level : Nat)
  /-- A value with its members, calls and subscripts. -/
  | chain (ends : Bool)
  /-- What a comprehension goes through. -/
  | source
  /-- An expression in braces inside a text literal, as a node of the given kind. -/
  | replacement (kind : Kind)
  /-- The annotation of a name; `bounded` if a bound may follow after a colon. -/
  | hint (ends bounded : Bool)
  /-- A pattern of a case, with its renamings. -/
  | casePattern
  /-- The right side of an assignment. -/
  | rightSide
  /-- A statement in a block at the given column. -/
  | statement (level : Nat)

/-- A reader for every phrase. -/
abbrev Grammar := Phrase → Reader (List Tree)

/-- Goes on only if no line end that matters stands here. -/
def unlessEnded (ends : Bool) : Reader Unit :=
  Reader.guarded fun rest => !(ends && lineEnds rest)

/-- Reads one or more of the same, with commas between them and perhaps one behind. Gives back the
row and whether it holds a comma. -/
def commaSeparated (ends : Bool) (item : Reader (List Tree)) : Reader (List Tree × Bool) := do
  let first ← item
  let more ← Reader.many do
    unlessEnded ends
    let comma ← sign .comma
    unlessEnded ends
    return comma ++ (← item)
  let last ← Reader.optional do
    unlessEnded ends
    sign .comma
  return (first ++ more ++ last, !(more.isEmpty && last.isEmpty))

/-- Reads one or more of the same, with commas between them and none behind. -/
def commaJoined (ends : Bool) (item : Reader (List Tree)) : Reader (List Tree) := do
  let first ← item
  let more ← Reader.many do
    unlessEnded ends
    let comma ← sign .comma
    return comma ++ (← item)
  return first ++ more

end UsageAudit.Script
