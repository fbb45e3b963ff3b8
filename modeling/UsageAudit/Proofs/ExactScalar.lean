import UsageAudit.Settings
import Mathlib.Algebra.BigOperators.Group.List.Basic
import Mathlib.Algebra.Order.BigOperators.Group.List
import Mathlib.Algebra.Order.Field.Rat
import Mathlib.Tactic.GCongr
import Mathlib.Tactic.Linarith
import Mathlib.Tactic.NormNum

/-!
# Confidence without rounding

In the rational numbers nothing is rounded, so that moving a number between zero and one, the lesser
of two numbers and the mean of a list are what they are in arithmetic. Settings that are read from
texts hold numbers between zero and one, whatever the texts are.
-/

namespace UsageAudit

/-- Whether a number lies between zero and one. -/
def InUnit (x : Rat) : Prop := 0 ≤ x ∧ x ≤ 1

namespace Scalar

/-- The lesser of two numbers is their minimum. -/
theorem least_eq_min (x y : Rat) : least x y = min x y := by
  simp only [least, less, decide_eq_true_eq]
  split
  · exact (min_eq_right (by linarith)).symm
  · exact (min_eq_left (by linarith)).symm

/-- The number nearest to a given one between zero and one. -/
theorem clampUnit_eq (x : Rat) : clampUnit x = max 0 (min x 1) := by
  have hzero : (0.0 : Rat) = 0 := by norm_num
  have hone : (1.0 : Rat) = 1 := by norm_num
  simp only [clampUnit, less, decide_eq_true_eq, hzero, hone]
  split
  · exact (max_eq_left (min_le_of_left_le (by linarith))).symm
  · split
    · rw [min_eq_right (by linarith), max_eq_right (by norm_num)]
    · rw [min_eq_left (by linarith), max_eq_right (by linarith)]

/-- A number is moved between zero and one. -/
theorem inUnit_clampUnit (x : Rat) : InUnit (clampUnit x) := by
  rw [clampUnit_eq]
  exact ⟨le_max_left .., max_le (by norm_num) (min_le_right ..)⟩

/-- A number between zero and one is not moved. -/
theorem clampUnit_of_inUnit {x : Rat} (h : InUnit x) : clampUnit x = x := by
  rw [clampUnit_eq, min_eq_left h.2, max_eq_right h.1]

/-- Moving numbers between zero and one keeps their order. -/
theorem clampUnit_mono {x y : Rat} (h : x ≤ y) : clampUnit x ≤ clampUnit y := by
  rw [clampUnit_eq, clampUnit_eq]
  exact max_le_max le_rfl (min_le_min_right 1 h)

/-- The sum from the left is the sum. -/
theorem total_eq_sum (xs : List Rat) : total xs = xs.sum := by
  have hzero : (0.0 : Rat) = 0 := by norm_num
  rw [total, hzero, List.sum_eq_foldl]

/-- A list of numbers that has members has a mean. -/
theorem mean?_of_ne_nil {xs : List Rat} (h : xs ≠ []) : mean? xs = some (xs.sum / xs.length) := by
  simp [mean?, h, total_eq_sum, ofCount]

/-- The length of a list that has members is positive. -/
theorem length_pos_of_ne_nil {xs : List Rat} (h : xs ≠ []) : (0 : Rat) < xs.length := by
  exact_mod_cast List.length_pos_iff.mpr h

/-- The mean of numbers that are at least a bound is so, too. -/
theorem le_of_mean? {bound mean : Rat} {xs : List Rat} (hxs : ∀ x ∈ xs, bound ≤ x)
    (h : mean? xs = some mean) : bound ≤ mean := by
  have hne : xs ≠ [] := by
    rintro rfl
    cases h
  rw [mean?_of_ne_nil hne] at h
  cases h
  rw [le_div_iff₀ (length_pos_of_ne_nil hne)]
  calc
    bound * xs.length = xs.length • bound := by rw [nsmul_eq_mul, mul_comm]
    _ ≤ xs.sum := List.card_nsmul_le_sum xs bound hxs

/-- The mean of numbers that are at most a bound is so, too. -/
theorem mean?_le {bound mean : Rat} {xs : List Rat} (hxs : ∀ x ∈ xs, x ≤ bound)
    (h : mean? xs = some mean) : mean ≤ bound := by
  have hne : xs ≠ [] := by
    rintro rfl
    cases h
  rw [mean?_of_ne_nil hne] at h
  cases h
  rw [div_le_iff₀ (length_pos_of_ne_nil hne)]
  calc
    xs.sum ≤ xs.length • bound := List.sum_le_card_nsmul xs bound hxs
    _ = bound * xs.length := by rw [nsmul_eq_mul, mul_comm]

/-- The order of numbers does not matter for their mean. -/
theorem mean?_perm {xs ys : List Rat} (h : xs.Perm ys) : mean? xs = mean? ys := by
  simp only [mean?, total_eq_sum, h.isEmpty_eq, h.sum_eq, h.length_eq]

/-- The means of two lists are in order if their members are, one by one. -/
theorem mean?_mono {xs ys : List Rat} (h : List.Forall₂ (· ≤ ·) xs ys) :
    Option.Rel (· ≤ ·) (mean? xs) (mean? ys) := by
  cases xs with
  | nil =>
    cases h
    exact .none
  | cons x xs =>
    cases ys with
    | nil => cases h
    | cons y ys =>
      rw [mean?_of_ne_nil (by simp), mean?_of_ne_nil (by simp), h.length_eq]
      refine .some ?_
      have hlength := length_pos_of_ne_nil (List.cons_ne_nil y ys)
      have hsums := h.sum_le_sum
      gcongr

end Scalar

namespace Settings

/-- What a text sets lies between zero and one if the default does. -/
theorem inUnit_unitOf (text : Option String) {default : Rat} (h : InUnit default) :
    InUnit (unitOf text default) := by
  unfold unitOf
  split
  · split
    · exact Scalar.inUnit_clampUnit _
    · exact h
  · exact h

/-- Whether all confidences, weights and thresholds lie between zero and one. -/
structure AllInUnit (settings : Settings Rat) : Prop where
  graphWeight : InUnit settings.graphWeight
  semanticWeight : InUnit settings.semanticWeight
  classFound : InUnit settings.classFound
  memberFound : InUnit settings.memberFound
  notFound : InUnit settings.notFound
  attributeNotFound : InUnit settings.attributeNotFound
  hallucination : InUnit settings.hallucination
  highSeverity : InUnit settings.highSeverity
  groundedSimilarity : InUnit settings.groundedSimilarity
  highConfidence : InUnit settings.highConfidence
  veryHighConfidence : InUnit settings.veryHighConfidence
  minSimilarity : InUnit settings.minSimilarity

/-- The standard settings lie between zero and one. -/
theorem allInUnit_standard : (standard : Settings Rat).AllInUnit := by
  constructor <;> norm_num [standard, InUnit]

/-- Settings that are read from texts lie between zero and one. -/
theorem allInUnit_ofLookup (lookup : String → Option String) :
    (ofLookup lookup : Settings Rat).AllInUnit where
  graphWeight := inUnit_unitOf _ allInUnit_standard.graphWeight
  semanticWeight := inUnit_unitOf _ allInUnit_standard.semanticWeight
  classFound := inUnit_unitOf _ allInUnit_standard.classFound
  memberFound := inUnit_unitOf _ allInUnit_standard.memberFound
  notFound := by
    have hunit := inUnit_unitOf (lookup ("GROUNDCHECK_" ++ "NOT_FOUND_CONFIDENCE"))
      allInUnit_standard.notFound
    have hbound : (notFoundBound : Rat) = 3 / 10 := by norm_num [notFoundBound]
    simp only [ofLookup, Scalar.least_eq_min, hbound]
    exact ⟨le_min hunit.1 (by norm_num), min_le_of_left_le hunit.2⟩
  attributeNotFound := inUnit_unitOf _ allInUnit_standard.attributeNotFound
  hallucination := inUnit_unitOf _ allInUnit_standard.hallucination
  highSeverity := inUnit_unitOf _ allInUnit_standard.highSeverity
  groundedSimilarity := inUnit_unitOf _ allInUnit_standard.groundedSimilarity
  highConfidence := inUnit_unitOf _ allInUnit_standard.highConfidence
  veryHighConfidence := inUnit_unitOf _ allInUnit_standard.veryHighConfidence
  minSimilarity := inUnit_unitOf _ allInUnit_standard.minSimilarity

end Settings

end UsageAudit
