import Mathlib
import UsageAudit.Proofs.ExtendedScalar

/-!
# The order of numbers

What is said of similarities rests on a few laws of the comparisons of numbers. They hold of doubles
as of numbers without rounding. Of the shares that are computed of a number of things it is enough
that rounding does not turn their order round.
-/

namespace UsageAudit

namespace Scalar

variable (α : Type) [Scalar α]

/-- The laws of the comparisons of numbers. -/
structure Compares : Prop where
  total : ∀ x y : α, (notAbove x y || notAbove y x) = true
  trans : ∀ x y z : α, notAbove x y = true → notAbove y z = true → notAbove x z = true
  antisymm : ∀ x y : α, notAbove x y = true → notAbove y x = true → x = y
  atMost_of_less : ∀ x y : α, less x y = true → atMost x y = true
  /-- Of two values that are numbers the first is less if the second is not at most the first. -/
  less_of_not_atMost : ∀ x y : α, atMost x x = true → atMost y y = true → atMost y x = false →
    less x y = true

variable {α}

/-- The share that some things are of a number of things. -/
def share (part count : Nat) : α := if count = 0 then 0.0 else ofCount part / ofCount count

variable (α)

/-- The laws of the shares of a number of things. -/
structure Shares (count : Nat) : Prop where
  notAbove_eq : ∀ part ≤ count, ∀ part' ≤ count,
    notAbove (share part count : α) (share part' count) =
      atMost (share part count : α) (share part' count)
  mono : ∀ part' ≤ count, ∀ part ≤ part',
    atMost (share part count : α) (share part' count) = true
  atMost_one : ∀ part ≤ count, atMost (share part count : α) 1.0 = true
  nothing : less 0.0 (share 0 count : α) = false
  positive : ∀ part ≤ count, 0 < part → less 0.0 (share part count : α) = true

end Scalar

namespace Extended

/-- Numbers without rounding are compared by the laws. -/
theorem compares : Scalar.Compares Extended where
  total x y := by
    cases x with
    | finite x =>
      cases y with
      | finite y => simpa using le_total x y
      | infinite negative => cases negative <;> rfl
      | notANumber => rfl
    | infinite negative => cases negative <;> cases y <;> simp [Scalar.notAbove, atMost]
    | notANumber => simp [Scalar.notAbove]
  trans x y z h h' := by
    simp only [Scalar.notAbove, Bool.or_eq_true, decide_eq_true_eq] at h h' ⊢
    rcases h' with rfl | h'
    · exact Or.inl rfl
    · rcases h with rfl | h
      · cases z <;> cases h'
      · exact Or.inr (atMost_trans h h')
  antisymm x y h h' := by
    cases x with
    | finite x =>
      cases y with
      | finite y =>
        simp only [notAbove_finite, decide_eq_true_eq] at h h'
        exact congrArg Extended.finite (h.antisymm h')
      | infinite negative => cases negative <;> simp_all [Scalar.notAbove, atMost]
      | notANumber => cases h'
    | infinite negative => cases negative <;> cases y <;> simp_all [Scalar.notAbove, atMost]
    | notANumber => cases y <;> simp_all [Scalar.notAbove, atMost]
  atMost_of_less x y h := by
    cases x with
    | finite x =>
      cases y with
      | finite y => exact decide_eq_true (of_decide_eq_true h).le
      | infinite negative => cases negative <;> first | rfl | cases h
      | notANumber => cases h
    | infinite negative =>
      cases negative <;> cases y <;> simp_all [Scalar.less, Scalar.atMost, less, atMost]
    | notANumber => cases h
  less_of_not_atMost x y hx hy h := by
    cases x with
    | finite x =>
      cases y with
      | finite y => exact decide_eq_true (not_le.mp (of_decide_eq_false h))
      | infinite negative => cases negative <;> first | rfl | cases h
      | notANumber => cases hy
    | infinite negative =>
      cases negative <;> cases y <;> simp_all [Scalar.less, Scalar.atMost, less, atMost]
    | notANumber => cases hx

/-- A share without rounding is the quotient. -/
theorem share_eq (part count : Nat) : (Scalar.share part count : Extended) = .finite (part / count) := by
  unfold Scalar.share
  split
  · rename_i hzero
    simp [hzero, zero_eq]
  · rename_i hsome
    exact finite_div_ofCount _ hsome

/-- Shares without rounding are in order. -/
theorem shares (count : Nat) : Scalar.Shares Extended count where
  notAbove_eq part _ part' _ := by simp only [share_eq, notAbove_finite, atMost_finite]
  mono part' _ part h := by
    simp only [share_eq, atMost_finite, decide_eq_true_eq]
    exact div_le_div_of_nonneg_right (by exact_mod_cast h) (Nat.cast_nonneg _)
  atMost_one part h := by
    simp only [share_eq, one_eq, atMost_finite, decide_eq_true_eq]
    exact div_le_one_of_le₀ (by exact_mod_cast h) (Nat.cast_nonneg _)
  nothing := by
    rw [share_eq, zero_eq]
    simp [Scalar.less, less]
  positive part h hpos := by
    rw [share_eq, zero_eq]
    have hcount := hpos.trans_le h
    exact decide_eq_true (div_pos (by exact_mod_cast hpos) (by exact_mod_cast hcount))

end Extended

/-! ## Doubles -/

namespace Double

open Float.Model (UnpackedFloat)

/-- Two doubles are compared the other way round as they are, with the outcome turned round. -/
theorem compare_swap (x y : UnpackedFloat) :
    y.compare x = (x.compare y).map Ordering.swap := by
  rcases x with (_ | _) | _ | (_ | _) | ⟨_ | _, m, e, hm⟩ <;>
    rcases y with (_ | _) | _ | (_ | _) | ⟨_ | _, m', e', hm'⟩ <;> try rfl
  · simp [UnpackedFloat.compare, Ordering.swap_then, Int.compare_swap, Nat.compare_swap]
  · simp [UnpackedFloat.compare, Ordering.swap_then, Int.compare_swap, Nat.compare_swap]

/-- Two doubles can be compared unless one of them is no number. -/
theorem compare_eq_none_iff {x y : UnpackedFloat} :
    x.compare y = none ↔ x = .notANumber ∨ y = .notANumber := by
  rcases x with (_ | _) | _ | (_ | _) | ⟨_ | _, m, e, hm⟩ <;>
    rcases y with (_ | _) | _ | (_ | _) | ⟨_ | _, m', e', hm'⟩ <;> simp [UnpackedFloat.compare]

/-- The outcome of the comparison of two doubles, if they can be compared. -/
def order? (x y : Float) : Option Ordering := x.toModel.unpack.compare y.toModel.unpack

/-- A double is less than another if the comparison says so. -/
theorem less_eq (x y : Float) : Scalar.less x y = (order? x y == some .lt) := by
  rw [Bool.eq_iff_iff]
  simp only [Scalar.less, decide_eq_true_eq, order?]
  exact decide_eq_true_iff

/-- A double is at most another if the comparison says that it is less or the same. -/
theorem atMost_eq (x y : Float) : Scalar.atMost x y = (order? x y).any Ordering.isLE := by
  rw [Bool.eq_iff_iff]
  simp only [Scalar.atMost, decide_eq_true_eq, order?]
  exact decide_eq_true_iff

/-- Doubles with the same key are the same. -/
theorem orderKey_injective : Function.Injective Scalar.orderKey := by
  intro x y h
  have hbits : x.toBits.toNat = y.toBits.toNat := by
    simp only [Scalar.orderKey] at h
    split at h <;> split at h <;> omega
  obtain ⟨⟨bits, valid⟩⟩ := x
  obtain ⟨⟨bits', valid'⟩⟩ := y
  obtain rfl : bits = bits' := UInt64.toNat.inj hbits
  rfl

/-- Doubles are compared by the laws. -/
theorem compares : Scalar.Compares Float where
  total x y := by
    simp only [Scalar.notAbove, Bool.or_eq_true, decide_eq_true_eq]
    exact le_total (Scalar.orderKey x) (Scalar.orderKey y)
  trans x y z h h' := decide_eq_true ((of_decide_eq_true h).trans (of_decide_eq_true h'))
  antisymm x y h h' :=
    orderKey_injective ((of_decide_eq_true h).antisymm (of_decide_eq_true h'))
  atMost_of_less x y h := by
    rw [less_eq, beq_iff_eq] at h
    rw [atMost_eq, h]
    rfl
  less_of_not_atMost x y hx hy h := by
    have hswap : order? x y = (order? y x).map Ordering.swap := compare_swap _ _
    rw [atMost_eq] at hx hy h
    rw [less_eq, beq_iff_eq, hswap]
    cases hcompare : order? y x with
    | none =>
      rcases compare_eq_none_iff.mp hcompare with hnone | hnone
      · rw [order?, hnone] at hy
        cases hy
      · rw [order?, hnone] at hx
        cases hx
    | some outcome =>
      rw [hcompare] at h
      cases outcome <;> first | rfl | cases h

end Double

end UsageAudit
