import UsageAudit.Proofs.ExactScalar

/-!
# Numbers beyond the rational ones

A source may answer with numbers that are not finite, or with what is no number at all. Here such
values stand beside the rational numbers, with the operations and comparisons of the machine but
without rounding: whatever is computed from a value that is no number is none either, and it is
neither less nor greater than any. Only where any two values have to be compared does it come last.
-/

namespace UsageAudit

/-- A rational number, an infinite one, or no number. -/
inductive Extended where
  | finite (value : Rat)
  | infinite (negative : Bool)
  | notANumber
  deriving DecidableEq, Repr

namespace Extended

/-- Whether a number is below zero. -/
def isNegative : Extended → Bool
  | .finite x => decide (x < 0)
  | .infinite negative => negative
  | .notANumber => false

/-- A number with the other sign. -/
def negated : Extended → Extended
  | .finite x => .finite (-x)
  | .infinite negative => .infinite !negative
  | .notANumber => .notANumber

instance : Add Extended where
  add
    | .finite x, .finite y => .finite (x + y)
    | .finite _, .infinite negative | .infinite negative, .finite _ => .infinite negative
    | .infinite negative, .infinite negative' =>
      if negative = negative' then .infinite negative else .notANumber
    | .notANumber, _ | _, .notANumber => .notANumber

instance : Sub Extended where
  sub x y := x + y.negated

instance : Mul Extended where
  mul
    | .finite x, .finite y => .finite (x * y)
    | .notANumber, _ | _, .notANumber => .notANumber
    | x, y =>
      if x = .finite 0 ∨ y = .finite 0 then .notANumber
      else .infinite (x.isNegative != y.isNegative)

instance : Div Extended where
  div
    | .finite x, .finite y =>
      if y ≠ 0 then .finite (x / y)
      else if x = 0 then .notANumber else .infinite (decide (x < 0))
    | .finite _, .infinite _ => .finite 0
    | .infinite negative, .finite y => .infinite (negative != decide (y < 0))
    | .infinite _, .infinite _ => .notANumber
    | .notANumber, _ | _, .notANumber => .notANumber

instance : OfScientific Extended where
  ofScientific digits negative exponent :=
    .finite (OfScientific.ofScientific digits negative exponent)

/-- Whether the first number is less than the second. -/
def less : Extended → Extended → Bool
  | .finite x, .finite y => decide (x < y)
  | .infinite true, .finite _ | .infinite true, .infinite false | .finite _, .infinite false => true
  | _, _ => false

/-- Whether the first number is at most the second. -/
def atMost : Extended → Extended → Bool
  | .finite x, .finite y => decide (x ≤ y)
  | .infinite true, .finite _ | .finite _, .infinite false => true
  | .infinite negative, .infinite negative' => negative || !negative'
  | _, _ => false

/-- A number written out. -/
def display : Extended → String
  | .finite x => toString x
  | .infinite true => "-inf"
  | .infinite false => "inf"
  | .notANumber => "NaN"

/-- Numbers that need not be finite, which compute without rounding. -/
@[reducible]
instance : Scalar Extended where
  ofCount n := .finite n
  ofReading
    | .finite negative digits exponent =>
      some (.finite (Scalar.ratOfDecimal negative digits exponent))
    | .infinite _ | .notANumber => none
  less := less
  atMost := atMost
  notAbove x y := decide (y = .notANumber) || atMost x y
  isFinite
    | .finite _ => true
    | .infinite _ | .notANumber => false
  hundredths := display
  display := display

/-- Different rational numbers are different. -/
theorem finite_injective : Function.Injective finite := by
  intro x y h
  cases h
  rfl

/-- The least similarity. -/
theorem zero_eq : (0.0 : Extended) = .finite 0 := by
  have hzero : (0.0 : Rat) = 0 := by norm_num
  rw [← hzero]
  rfl

/-- The greatest similarity. -/
theorem one_eq : (1.0 : Extended) = .finite 1 := by
  have hone : (1.0 : Rat) = 1 := by norm_num
  rw [← hone]
  rfl

/-- What nothing is known of is as likely as not. -/
theorem neutralConfidence_eq : (neutralConfidence : Extended) = .finite (1 / 2) := by
  have hhalf : (0.5 : Rat) = 1 / 2 := by norm_num
  rw [← hhalf]
  rfl

/-- Rational numbers are compared as such. -/
@[simp]
theorem atMost_finite (x y : Rat) :
    Scalar.atMost (Extended.finite x) (Extended.finite y) = decide (x ≤ y) := rfl

/-- Rational numbers are compared as such, also where any two values are. -/
@[simp]
theorem notAbove_finite (x y : Rat) :
    Scalar.notAbove (Extended.finite x) (Extended.finite y) = decide (x ≤ y) := rfl

/-- What is at most a value is at most those that this is at most. -/
theorem atMost_trans {x y z : Extended} (h : Scalar.atMost x y = true)
    (h' : Scalar.atMost y z = true) : Scalar.atMost x z = true := by
  cases y with
  | finite y =>
    cases x with
    | finite x =>
      cases z with
      | finite z =>
        rw [atMost_finite, decide_eq_true_eq] at h h' ⊢
        exact h.trans h'
      | infinite negative => cases negative <;> exact h'
      | notANumber => exact h'
    | infinite negative => cases negative <;> cases z <;> simp_all [Scalar.atMost, atMost]
    | notANumber => exact h
  | infinite negative => cases negative <;> cases x <;> cases z <;> simp_all [Scalar.atMost, atMost]
  | notANumber => cases z <;> exact absurd h' (by simp [Scalar.atMost, atMost])

/-- The sum of rational numbers is a rational number. -/
@[simp]
theorem finite_add (x y : Rat) : Extended.finite x + .finite y = .finite (x + y) := rfl

/-- A rational number is moved between zero and one as such. -/
theorem clampUnit_finite {x : Rat} (h : InUnit x) :
    Scalar.clampUnit (Extended.finite x) = .finite x := by
  have hzero : Scalar.less (Extended.finite x) (.finite 0) = false := decide_eq_false (by
    exact not_lt.mpr h.1)
  have hone : Scalar.less (Extended.finite 1) (.finite x) = false := decide_eq_false (by
    exact not_lt.mpr h.2)
  simp [Scalar.clampUnit, zero_eq, one_eq, hzero, hone]

/-- The sum of a list of rational numbers is a rational number. -/
theorem total_finite (values : List Rat) :
    Scalar.total (values.map Extended.finite) = .finite values.sum := by
  have hfold (start : Rat) : (values.map Extended.finite).foldl (· + ·) (.finite start) =
      .finite (start + values.sum) := by
    induction values generalizing start with
    | nil => simp
    | cons value rest ih => simp [ih, add_assoc]
  rw [Scalar.total, zero_eq, hfold, zero_add]

/-- A rational number is divided by a count that is not zero as such. -/
theorem finite_div_ofCount (x : Rat) {count : Nat} (h : count ≠ 0) :
    Extended.finite x / Scalar.ofCount count = .finite (x / count) := by
  have hcount : (count : Rat) ≠ 0 := by exact_mod_cast h
  change (if (count : Rat) ≠ 0 then Extended.finite (x / count) else _) = _
  rw [if_pos hcount]

end Extended

end UsageAudit
