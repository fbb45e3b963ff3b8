import UsageAudit.Script.Tree

/-!
# Expressions as targets

What stands on the left of an assignment is read as an expression first and turned into a pattern
once the sign behind it is seen. Only names, members, subscripts, and lists, tuples and stars of
such can be assigned to.
-/

namespace UsageAudit.Script

/-- Whether a node of this kind may stand behind a star on the left of an assignment. -/
def Kind.isStarTarget : Kind → Bool
  | .identifier | .member | .subscript => true
  | _ => false

/-- Whether the last tree of a row may stand behind a star on the left of an assignment. -/
def endsInStarTarget (trees : List Tree) : Bool :=
  match trees.getLast? with
  | some tree => tree.kind.isStarTarget
  | none => false

mutual

/-- The pattern that is spelled like an expression, if there is one. -/
def Tree.asTarget? : Tree → Option Tree
  | .token field kind line blank text =>
    match kind with
    | .identifier | .sign | .comment | .lineContinuation =>
      some (.token field kind line blank text)
    | _ => none
  | .branch field kind line children =>
    match kind with
    | .member | .subscript => some (.branch field kind line children)
    | .listSplat =>
      if endsInStarTarget children then some (.branch field .listSplatPattern line children)
      else none
    | .list => (asTargets? children).map (.branch field .listPattern line)
    | .tuple | .parenthesized => (asTargets? children).map (.branch field .tuplePattern line)
    | .listPattern | .tuplePattern | .listSplatPattern => some (.branch field kind line children)
    | _ => none

/-- The patterns that are spelled like a row of expressions, if there are any. -/
def asTargets? : List Tree → Option (List Tree)
  | [] => some []
  | tree :: rest =>
    match tree.asTarget?, asTargets? rest with
    | some tree, some rest => some (tree :: rest)
    | _, _ => none

end

/-- Reads a row of expressions, with or without commas, as the left side of an assignment. -/
def leftSide? (row : List Tree) (commas : Bool) : Option (List Tree) :=
  (asTargets? row).map fun row => if commas then [.branch none .patternList 0 row] else row

end UsageAudit.Script
