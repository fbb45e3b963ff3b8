import UsageAudit.Script.Compound

/-!
# Reading scripts

The rules of the grammar are tied together: each phrase is read by its rule, which reads the phrases
inside it. A phrase inside another starts further on in the script, so that a script of a given
length needs no more than a few times as many levels.
-/

namespace UsageAudit.Script

/-- The rule of each phrase, given how the phrases inside it are read. -/
def rules (self : Grammar) : Grammar
  | .expression ends level => expression self ends level
  | .arithmetic ends level => arithmetic self ends level
  | .chain ends => chain self ends
  | .source => source self
  | .replacement kind => replacement self kind
  | .hint ends bounded => hint self ends bounded
  | .casePattern => casePattern self
  | .rightSide => rightSide self
  | .statement level => statement self level

/-- Reads a phrase whose inner phrases nest at most so deep. -/
def read : Nat → Grammar
  | 0 => fun _ => Reader.stuck
  | depth + 1 => rules (read depth)

/-- Reads a whole script. -/
def wholeScript (depth : Nat) : Reader Tree := do
  let row ← statements (read depth) 0
  let g ← Reader.look gap
  return .branch none .script 0 (row ++ g.extras)

/-- A place in a script where reading got stuck: the number of characters behind it. -/
structure StuckAt where
  left : Nat

/-- The syntax tree of a script. Its tokens spell the script up to blank space at the end. -/
def parse (script : List Char) : Except StuckAt Tree :=
  let outcome := wholeScript (4 * (script.length + 1)) script
  match outcome.found with
  | some (tree, rest) =>
    if (gap rest).rest.isEmpty && (tree.spelling.isPrefixOf script) then .ok (tree.numbered 1)
    else .error ⟨outcome.reach.getD 0⟩
  | none => .error ⟨outcome.reach.getD 0⟩

end UsageAudit.Script
