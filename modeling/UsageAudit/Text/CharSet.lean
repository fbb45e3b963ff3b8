/-!
# Sets of characters

A set of characters is kept as the increasing list of the code points at which membership
changes: the first bound enters the set, the second leaves it, and so on.
-/

namespace UsageAudit.Text

/-- A set of code points, by the points where membership changes. -/
structure CharSet where
  /-- The code points where membership changes, in increasing order. -/
  bounds : List Nat

/-- Whether an odd number of the leading bounds is at most `code`. -/
def coveredBy : List Nat → Nat → Bool
  | [], _ => false
  | bound :: rest, code => decide (bound ≤ code) && !coveredBy rest code

/-- Whether the character lies in the set. -/
def CharSet.contains (set : CharSet) (c : Char) : Bool :=
  coveredBy set.bounds c.toNat

/-- No character lies in the empty set. -/
@[simp]
theorem CharSet.contains_empty (c : Char) : (CharSet.mk []).contains c = false := rfl

end UsageAudit.Text
