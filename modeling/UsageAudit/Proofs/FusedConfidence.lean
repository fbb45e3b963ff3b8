import UsageAudit.Fusion
import UsageAudit.Proofs.ExactScalar
import Mathlib.Tactic.Ring

/-!
# The fused confidence

The confidence in a script is a mean of two means. It is at least a bound if the confidences of both
sides are, and it does not fall when any of them rises. A side without results counts as neither for
nor against the script.
-/

namespace UsageAudit

/-- What nothing is known of is as likely as not. -/
theorem neutralConfidence_eq : (neutralConfidence : Rat) = 1 / 2 := by
  norm_num [neutralConfidence]

namespace Fusion

variable {settings : Settings Rat}

/-- The weighted mean of two means, or half if they weigh nothing. -/
theorem weighted_eq (settings : Settings Rat) (graphMean semanticMean : Option Rat) :
    weighted settings graphMean semanticMean =
      if 0 < settings.graphWeight + settings.semanticWeight then
        (settings.graphWeight * graphMean.getD (1 / 2) +
          settings.semanticWeight * semanticMean.getD (1 / 2)) /
            (settings.graphWeight + settings.semanticWeight)
      else 1 / 2 := by
  have hzero : (0.0 : Rat) = 0 := by norm_num
  simp only [weighted, Scalar.less, hzero, neutralConfidence_eq, decide_eq_true_eq]

/-- What is taken for a side is at least a bound if the mean of the side is and half is. -/
theorem le_getD {bound : Rat} (hbound : bound ≤ 1 / 2) {mean : Option Rat}
    (h : ∀ value, mean = some value → bound ≤ value) : bound ≤ mean.getD (1 / 2) := by
  cases mean with
  | none => exact hbound
  | some value => exact h value rfl

/-- The mean of two sides that are at least a bound is so, too, whatever they weigh. -/
theorem le_weighted (hgraphWeight : 0 ≤ settings.graphWeight)
    (hsemanticWeight : 0 ≤ settings.semanticWeight) {bound : Rat} (hbound : bound ≤ 1 / 2)
    {graphMean semanticMean : Option Rat} (hgraph : ∀ value, graphMean = some value → bound ≤ value)
    (hsemantic : ∀ value, semanticMean = some value → bound ≤ value) :
    bound ≤ weighted settings graphMean semanticMean := by
  rw [weighted_eq]
  split
  · rename_i hpositive
    rw [le_div_iff₀ hpositive]
    calc
      bound * (settings.graphWeight + settings.semanticWeight) =
          settings.graphWeight * bound + settings.semanticWeight * bound := by ring
      _ ≤ settings.graphWeight * graphMean.getD (1 / 2) +
          settings.semanticWeight * semanticMean.getD (1 / 2) := by
        gcongr
        · exact le_getD hbound hgraph
        · exact le_getD hbound hsemantic
  · exact hbound

/-- What is taken for a side does not fall when its mean rises. -/
theorem getD_mono {mean mean' : Option Rat} (h : Option.Rel (· ≤ ·) mean mean') :
    mean.getD (1 / 2) ≤ mean'.getD (1 / 2) := by
  cases h with
  | some hle => exact hle
  | none => exact le_rfl

/-- The mean of two sides does not fall when the sides rise. -/
theorem weighted_mono (hgraphWeight : 0 ≤ settings.graphWeight)
    (hsemanticWeight : 0 ≤ settings.semanticWeight)
    {graphMean graphMean' semanticMean semanticMean' : Option Rat}
    (hgraph : Option.Rel (· ≤ ·) graphMean graphMean')
    (hsemantic : Option.Rel (· ≤ ·) semanticMean semanticMean') :
    weighted settings graphMean semanticMean ≤ weighted settings graphMean' semanticMean' := by
  have hgraphSide := getD_mono hgraph
  have hsemanticSide := getD_mono hsemantic
  rw [weighted_eq, weighted_eq]
  split
  · gcongr
  · exact le_rfl

/-- The confidences of the groundings that count. -/
def semanticConfidences (semantic : SemanticOutcome Rat) : List Rat :=
  if semantic.available then semantic.results.map fun grounding => grounding.verdict.confidence
  else []

/-- The mean of the groundings is the mean of those that count. -/
theorem semanticMean_eq (graph : GraphOutcome Rat) (semantic : SemanticOutcome Rat) :
    (fuse settings graph semantic).semanticMean = Scalar.mean? (semanticConfidences semantic) := by
  simp only [fuse, semanticConfidences]
  split <;> rfl

/-- The confidence in a script is at least a bound if those of its checks and its groundings are. -/
theorem le_overall (hsettings : settings.AllInUnit) {bound : Rat} (hbound : bound ≤ 1 / 2)
    {graph : GraphOutcome Rat} {semantic : SemanticOutcome Rat}
    (hgraph : ∀ check ∈ graph.checks, bound ≤ check.verdict.confidence)
    (hsemantic : ∀ confidence ∈ semanticConfidences semantic, bound ≤ confidence) :
    bound ≤ (fuse settings graph semantic).overall := by
  have hweighted : bound ≤ weighted settings (fuse settings graph semantic).graphMean
      (fuse settings graph semantic).semanticMean := by
    apply le_weighted hsettings.graphWeight.1 hsettings.semanticWeight.1 hbound
    · intro value hvalue
      apply Scalar.le_of_mean? _ hvalue
      simpa using hgraph
    · intro value hvalue
      rw [semanticMean_eq] at hvalue
      exact Scalar.le_of_mean? hsemantic hvalue
  have hone : bound ≤ 1 := by linarith
  calc
    bound ≤ min (weighted settings (fuse settings graph semantic).graphMean
        (fuse settings graph semantic).semanticMean) 1 := le_min hweighted hone
    _ ≤ _ := le_max_right 0 _
    _ = (fuse settings graph semantic).overall := (Scalar.clampUnit_eq _).symm

/-- The confidence in a script does not fall when those of its checks and its groundings rise. -/
theorem overall_le_overall (hsettings : settings.AllInUnit) {graph graph' : GraphOutcome Rat}
    {semantic semantic' : SemanticOutcome Rat}
    (hgraph : List.Forall₂ (fun check check' : Check Rat =>
      check.verdict.confidence ≤ check'.verdict.confidence) graph.checks graph'.checks)
    (hsemantic : List.Forall₂ (· ≤ ·) (semanticConfidences semantic)
      (semanticConfidences semantic')) :
    (fuse settings graph semantic).overall ≤ (fuse settings graph' semantic').overall := by
  have hgraphMean : Option.Rel (· ≤ ·) (fuse settings graph semantic).graphMean
      (fuse settings graph' semantic').graphMean := by
    apply Scalar.mean?_mono
    simpa [List.forall₂_map_left_iff, List.forall₂_map_right_iff] using hgraph
  have hsemanticMean : Option.Rel (· ≤ ·) (fuse settings graph semantic).semanticMean
      (fuse settings graph' semantic').semanticMean := by
    rw [semanticMean_eq, semanticMean_eq]
    exact Scalar.mean?_mono hsemantic
  exact Scalar.clampUnit_mono
    (weighted_mono hsettings.graphWeight.1 hsettings.semanticWeight.1 hgraphMean hsemanticMean)

/-- The confidence in a script does not fall when those of its checks rise. -/
theorem overall_mono (hsettings : settings.AllInUnit) {graph graph' : GraphOutcome Rat}
    (h : List.Forall₂ (fun check check' : Check Rat =>
      check.verdict.confidence ≤ check'.verdict.confidence) graph.checks graph'.checks)
    (semantic : SemanticOutcome Rat) :
    (fuse settings graph semantic).overall ≤ (fuse settings graph' semantic).overall :=
  overall_le_overall hsettings h (List.forall₂_same.mpr fun _ _ => le_rfl)

/-- A confidence that is not below the threshold of findings is no high risk. -/
theorem risk_ne_high {overall : Rat} (h : settings.hallucination ≤ overall) :
    (classify settings overall).2 ≠ .high := by
  simp only [classify, Scalar.atMost, decide_eq_true_eq, if_pos h]
  split
  · simp
  · split <;> simp

/-- A check that gives rise to no finding is not below the threshold of findings. -/
theorem le_confidence_of_structural?_eq_none {check : Check Rat}
    (h : structural? settings check = none) :
    settings.hallucination ≤ check.verdict.confidence := by
  unfold structural? at h
  split at h
  · cases h
  · rename_i hless
    simpa [Scalar.less] using hless

/-- Where nothing is found, no check gives rise to a finding, and no grounding that counts. -/
theorem eq_none_of_findings_eq_nil {graph : GraphOutcome Rat} {semantic : SemanticOutcome Rat}
    (h : findings settings graph semantic = []) :
    (∀ check ∈ graph.checks, structural? settings check = none) ∧
      (semantic.available = true →
        ∀ grounding ∈ semantic.results, semantic? settings grounding = none) := by
  have hlength := congrArg List.length h
  simp only [findings, List.length_mergeSort, List.length_append, List.length_nil,
    Nat.add_eq_zero_iff, List.length_eq_zero_iff, List.filterMap_eq_nil_iff] at hlength
  refine ⟨hlength.1, ?_⟩
  intro havailable
  simpa [havailable] using hlength.2

end Fusion

end UsageAudit
