import UsageAudit.Decimal.Reading
import UsageAudit.Decimal.Shortest

/-!
# Numbers of confidence

Confidences, weights and thresholds are computed in any type of numbers that has the four operations,
decimal constants and comparisons. A program computes in doubles; in the rational numbers the same
definitions have no rounding.
-/

namespace UsageAudit

/-- The numbers in which confidences are computed. -/
class Scalar (α : Type) extends Add α, Sub α, Mul α, Div α, OfScientific α where
  /-- A count as a number. -/
  ofCount : Nat → α
  /-- The number that a text stands for, if that is a finite number. -/
  ofReading : Decimal.Reading → Option α
  /-- Whether the first number is less than the second. -/
  less : α → α → Bool
  /-- Whether the first number is at most the second. -/
  atMost : α → α → Bool
  /-- Whether the first number is not above the second in an order in which any two numbers can be
  compared. -/
  notAbove : α → α → Bool
  /-- Whether the number is finite. -/
  isFinite : α → Bool
  /-- The number with two decimals. -/
  hundredths : α → String
  /-- The number written out. -/
  display : α → String

namespace Scalar

/-- How numbers are written out: never with an exponent. -/
def displayStyle : Decimal.Style := ⟨[], -1000, 1000⟩

/-- The bit that holds the sign of a double. -/
def signBit : Nat := Nat.pow 2 63

/-- A key by which all doubles are ordered, zeros by their sign and values that are no numbers at the
ends. -/
def orderKey (x : Float) : Int :=
  let bits : Nat := x.toBits.toNat
  if bits < signBit then bits else -((bits - signBit : Nat) : Int) - 1

/-- Doubles, with the operations of the machine. -/
@[reducible]
instance : Scalar Float where
  ofCount := Float.ofNat
  ofReading reading :=
    let x := reading.toFloat
    if x.isFinite then some x else none
  less x y := decide (x < y)
  atMost x y := decide (x ≤ y)
  notAbove x y := decide (orderKey x ≤ orderKey y)
  isFinite := Float.isFinite
  hundredths := Decimal.hundredths
  display := Decimal.write displayStyle

/-- A decimal as a rational number. -/
def ratOfDecimal (negative : Bool) (digits : Nat) (exponent : Int) : Rat :=
  let size : Rat := OfScientific.ofScientific digits (decide (exponent < 0)) exponent.natAbs
  if negative then -size else size

/-- Rational numbers, which compute without rounding. -/
@[reducible]
instance : Scalar Rat where
  ofCount n := n
  ofReading
    | .finite negative digits exponent => some (ratOfDecimal negative digits exponent)
    | .infinite _ | .notANumber => none
  less x y := decide (x < y)
  atMost x y := decide (x ≤ y)
  notAbove x y := decide (x ≤ y)
  isFinite _ := true
  hundredths x := toString x
  display x := toString x

variable {α : Type} [Scalar α]

/-- The number nearest to the given one between zero and one. -/
def clampUnit (x : α) : α :=
  if less x 0.0 then 0.0 else if less 1.0 x then 1.0 else x

/-- The lesser of two numbers. -/
def least (x y : α) : α := if less y x then y else x

/-- Whether the number lies between zero and one. -/
def inUnit (x : α) : Bool := atMost 0.0 x && atMost x 1.0

/-- The sum of a list, from the left. -/
def total (xs : List α) : α := xs.foldl (· + ·) 0.0

/-- The mean of a list, if it has any numbers. -/
def mean? (xs : List α) : Option α :=
  if xs.isEmpty then none else some (total xs / ofCount xs.length)

end Scalar

end UsageAudit
