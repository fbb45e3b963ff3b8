/-!
# Numbered rows

Rows by number, in the order of their numbers. A row may come with a number of its own that no other
row has; otherwise it gets the number after the greatest that was ever given, so that the numbers of
rows taken away do not come back. A row may also be put in the place of another and get a number of its
own by that, which then does not count as given.
-/

namespace UsageAudit.Database

/-- Rows by number, with the greatest number that was ever given. -/
structure Numbered (ρ : Type) where
  rows : List (Int × ρ)
  last : Int
  deriving DecidableEq, Repr

namespace Numbered

variable {ρ : Type}

/-- No rows, and no numbers given. -/
def empty : Numbered ρ := ⟨[], 0⟩

/-- The numbers that can be given. -/
def greatest : Int := (Nat.pow 2 63 : Nat) - 1

/-- Puts a row into its place, if its number is free. -/
def place? (number : Int) (row : ρ) : List (Int × ρ) → Option (List (Int × ρ))
  | [] => some [(number, row)]
  | (n, other) :: rest =>
    if number < n then some ((number, row) :: (n, other) :: rest)
    else if number = n then none
    else (place? number row rest).map fun rest => (n, other) :: rest

/-- The greatest number that was ever given or that a row has. -/
def latest (table : Numbered ρ) : Int :=
  match table.rows.getLast? with
  | some (number, _) => if table.last < number then number else table.last
  | none => table.last

/-- The next number, unless there is none left. -/
def next? (table : Numbered ρ) : Option Int :=
  if table.latest < greatest then some (table.latest + 1) else none

/-- Adds a row under a number of its own or under the next one, and gives the number. -/
def insert? (own : Option Int) (row : ρ) (table : Numbered ρ) : Option (Int × Numbered ρ) := do
  let number ← own.or table.next?
  let rows ← place? number row table.rows
  return (number, ⟨rows, if table.last < number then number else table.last⟩)

/-- Takes the row of a number away. -/
def erase (number : Int) (table : Numbered ρ) : Numbered ρ :=
  { table with rows := table.rows.filter fun entry => entry.1 != number }

/-- Puts a row, under a number of its own, in the place of the row that another number has. -/
def replace? (number moved : Int) (row : ρ) (table : Numbered ρ) : Option (Numbered ρ) :=
  (place? moved row (table.erase number).rows).map fun rows => { table with rows := rows }

/-- The row of a number. -/
def get? (number : Int) (table : Numbered ρ) : Option ρ :=
  (table.rows.find? fun entry => entry.1 == number).map Prod.snd

/-- Whether there is a row of the number. -/
def has (number : Int) (table : Numbered ρ) : Bool := (table.get? number).isSome

/-- Whether a row passes a test. -/
def any (test : ρ → Bool) (table : Numbered ρ) : Bool := table.rows.any fun entry => test entry.2

end Numbered

end UsageAudit.Database
