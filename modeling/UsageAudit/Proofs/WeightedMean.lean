import UsageAudit.Proofs.FusedConfidence

/-!
# The confidence in a script as a mean

Each side counts as the mean of its confidences, or as half if it has none, and the confidence in a
script is the mean of the sides by their weights, which may be anything between zero and one and
need not add up to one. So it lies between the sides, whatever their sizes, does not depend on the
order of their members, and never falls when one of these rises. Nor does the risk of a script grow
then, even where the thresholds for it are in no order.
-/

namespace UsageAudit

/-- How good an assessment is. The best has the least rank. -/
def Assessment.rank : Assessment → Nat
  | .veryHigh => 0
  | .high => 1
  | .medium => 2
  | .low => 3

/-- How great a risk is. -/
def Risk.rank : Risk → Nat
  | .low => 0
  | .medium => 1
  | .high => 2

namespace Fusion

/-- A greater confidence never gives a worse assessment or a greater risk, whatever the
thresholds. -/
theorem classify_mono (settings : Settings Rat) {overall overall' : Rat} (h : overall ≤ overall') :
    (classify settings overall').1.rank ≤ (classify settings overall).1.rank ∧
      (classify settings overall').2.rank ≤ (classify settings overall).2.rank := by
  have hpassed (threshold : Rat) (hle : threshold ≤ overall) : threshold ≤ overall' := hle.trans h
  simp only [classify, Scalar.atMost, decide_eq_true_eq]
  by_cases hveryHigh : settings.veryHighConfidence ≤ overall
  · rw [if_pos hveryHigh, if_pos (hpassed _ hveryHigh)]
    exact ⟨le_rfl, le_rfl⟩
  rw [if_neg hveryHigh]
  by_cases hhigh : settings.highConfidence ≤ overall
  · rw [if_pos hhigh, if_pos (hpassed _ hhigh)]
    split <;> simp [Assessment.rank, Risk.rank]
  rw [if_neg hhigh]
  by_cases hmedium : settings.hallucination ≤ overall
  · rw [if_pos hmedium, if_pos (hpassed _ hmedium)]
    split
    · simp [Assessment.rank, Risk.rank]
    · split <;> simp [Assessment.rank, Risk.rank]
  rw [if_neg hmedium]
  split
  · simp [Assessment.rank, Risk.rank]
  · split
    · simp [Assessment.rank, Risk.rank]
    · split <;> simp [Assessment.rank, Risk.rank]

/-- What is taken for a side with these confidences. -/
def side (confidences : List Rat) : Rat :=
  if confidences = [] then 1 / 2 else confidences.sum / confidences.length

/-- A side has a mean if it has members, and is taken for it. -/
theorem mean?_eq (confidences : List Rat) :
    Scalar.mean? confidences = if confidences = [] then none else some (side confidences) := by
  split
  · rename_i hnone
    rw [hnone]
    rfl
  · rename_i hsome
    rw [Scalar.mean?_of_ne_nil hsome, side, if_neg hsome]

/-- A side is taken for its mean, or for half if it has none. -/
theorem getD_mean? (confidences : List Rat) :
    (Scalar.mean? confidences).getD (1 / 2) = side confidences := by
  rw [mean?_eq]
  split
  · rename_i hnone
    simp [side, hnone]
  · rfl

/-- What is taken for a side lies between zero and one if its confidences do. -/
theorem inUnit_side {confidences : List Rat} (h : ∀ confidence ∈ confidences, InUnit confidence) :
    InUnit (side confidences) := by
  rw [← getD_mean?]
  cases hmean : Scalar.mean? confidences with
  | none => norm_num [InUnit]
  | some mean =>
    exact ⟨Scalar.le_of_mean? (fun x hx => (h x hx).1) hmean,
      Scalar.mean?_le (fun x hx => (h x hx).2) hmean⟩

section Weights

variable {settings : Settings Rat}

/-- Weights between zero and one that are not both zero have a positive sum. -/
theorem weight_pos (hsettings : settings.AllInUnit)
    (h : ¬(settings.graphWeight = 0 ∧ settings.semanticWeight = 0)) :
    0 < settings.graphWeight + settings.semanticWeight := by
  have hgraph := hsettings.graphWeight.1
  have hsemantic := hsettings.semanticWeight.1
  by_contra hnot
  exact h ⟨by linarith, by linarith⟩

/-- The mean of two sides is neither below the lesser nor above the greater of them. -/
theorem weighted_between (hgraphWeight : 0 ≤ settings.graphWeight)
    (hsemanticWeight : 0 ≤ settings.semanticWeight)
    (hweight : 0 < settings.graphWeight + settings.semanticWeight)
    (graphMean semanticMean : Option Rat) :
    min (graphMean.getD (1 / 2)) (semanticMean.getD (1 / 2)) ≤
        weighted settings graphMean semanticMean ∧
      weighted settings graphMean semanticMean ≤
        max (graphMean.getD (1 / 2)) (semanticMean.getD (1 / 2)) := by
  rw [weighted_eq, if_pos hweight, le_div_iff₀ hweight, div_le_iff₀ hweight, mul_add, mul_add,
    mul_comm settings.graphWeight, mul_comm settings.semanticWeight]
  constructor
  · gcongr
    · exact min_le_left ..
    · exact min_le_right ..
  · gcongr
    · exact le_max_left ..
    · exact le_max_right ..

/-- The mean of two sides between zero and one lies there, too, whatever they weigh. -/
theorem inUnit_weighted (hsettings : settings.AllInUnit) {graphMean semanticMean : Option Rat}
    (hgraph : InUnit (graphMean.getD (1 / 2))) (hsemantic : InUnit (semanticMean.getD (1 / 2))) :
    InUnit (weighted settings graphMean semanticMean) := by
  by_cases hweight : 0 < settings.graphWeight + settings.semanticWeight
  · obtain ⟨hleast, hgreatest⟩ := weighted_between hsettings.graphWeight.1
      hsettings.semanticWeight.1 hweight graphMean semanticMean
    exact ⟨(le_min hgraph.1 hsemantic.1).trans hleast,
      hgreatest.trans (max_le hgraph.2 hsemantic.2)⟩
  · rw [weighted_eq, if_neg hweight]
    norm_num [InUnit]

end Weights

/-- The confidences of the checks. -/
def graphConfidences (graph : GraphOutcome Rat) : List Rat :=
  graph.checks.map fun check => check.verdict.confidence

/-- What the confidence in a script is to the confidences of its checks and groundings. -/
structure IsMeanOf (settings : Settings Rat) (graph : GraphOutcome Rat)
    (semantic : SemanticOutcome Rat) : Prop where
  /-- The checks have a mean if there are any, so that their number divides their sum. -/
  graphMean : (fuse settings graph semantic).graphMean =
    if graphConfidences graph = [] then none else some (side (graphConfidences graph))
  /-- So do the groundings, if they count. -/
  semanticMean : (fuse settings graph semantic).semanticMean =
    if semanticConfidences semantic = [] then none else some (side (semanticConfidences semantic))
  /-- If neither side weighs anything, a script is as likely right as not. -/
  weightless : settings.graphWeight = 0 ∧ settings.semanticWeight = 0 →
    (fuse settings graph semantic).overall = 1 / 2
  /-- In all other cases the weights have a positive sum, which divides the weighted sides. -/
  weighted : ¬(settings.graphWeight = 0 ∧ settings.semanticWeight = 0) →
    0 < settings.graphWeight + settings.semanticWeight ∧
      (fuse settings graph semantic).overall =
        (settings.graphWeight * side (graphConfidences graph) +
          settings.semanticWeight * side (semanticConfidences semantic)) /
            (settings.graphWeight + settings.semanticWeight)
  /-- The confidence is neither below the lesser nor above the greater of the sides. -/
  between : ¬(settings.graphWeight = 0 ∧ settings.semanticWeight = 0) →
    min (side (graphConfidences graph)) (side (semanticConfidences semantic)) ≤
        (fuse settings graph semantic).overall ∧
      (fuse settings graph semantic).overall ≤
        max (side (graphConfidences graph)) (side (semanticConfidences semantic))
  inUnit : InUnit (fuse settings graph semantic).overall
  /-- It need not be moved between zero and one. -/
  unmoved : (fuse settings graph semantic).overall =
    Fusion.weighted settings (fuse settings graph semantic).graphMean
      (fuse settings graph semantic).semanticMean
  /-- When confidences rise it does not fall, and no thresholds make the risk greater. -/
  rises : ∀ (graph' : GraphOutcome Rat) (semantic' : SemanticOutcome Rat),
    List.Forall₂ (· ≤ ·) (graphConfidences graph) (graphConfidences graph') →
    List.Forall₂ (· ≤ ·) (semanticConfidences semantic) (semanticConfidences semantic') →
    (fuse settings graph semantic).overall ≤ (fuse settings graph' semantic').overall ∧
      ∀ thresholds : Settings Rat,
        (classify thresholds (fuse settings graph' semantic').overall).2.rank ≤
          (classify thresholds (fuse settings graph semantic).overall).2.rank
  /-- The order of checks and groundings does not matter for it. -/
  unordered : ∀ (graph' : GraphOutcome Rat) (semantic' : SemanticOutcome Rat),
    graph.checks.Perm graph'.checks → semantic.available = semantic'.available →
    semantic.results.Perm semantic'.results →
    (fuse settings graph' semantic').overall = (fuse settings graph semantic).overall
  /-- Groundings that do not count change nothing at all. -/
  unavailable : semantic.available = false →
    ∀ (results : List (Grounding Rat)) (reason : Option String),
      fuse settings graph ⟨false, results, reason⟩ = fuse settings graph semantic

/-- Where the examples are not available, the groundings do not matter for anything. -/
theorem fuse_unavailable {α : Type} [Scalar α] (settings : Settings α) (graph : GraphOutcome α)
    {semantic : SemanticOutcome α} (h : semantic.available = false)
    (results : List (Grounding α)) (reason : Option String) :
    fuse settings graph ⟨false, results, reason⟩ = fuse settings graph semantic := by
  simp [fuse, findings, h]

/-- The order of checks and groundings does not matter for the confidence in a script. -/
theorem overall_perm (settings : Settings Rat) {graph graph' : GraphOutcome Rat}
    {semantic semantic' : SemanticOutcome Rat} (hchecks : graph.checks.Perm graph'.checks)
    (havailable : semantic.available = semantic'.available)
    (hresults : semantic.results.Perm semantic'.results) :
    (fuse settings graph' semantic').overall = (fuse settings graph semantic).overall := by
  have hgraph := Scalar.mean?_perm (hchecks.map fun check => check.verdict.confidence)
  have hsemantic := Scalar.mean?_perm (hresults.map fun grounding => grounding.verdict.confidence)
  simp only [fuse, hgraph, hsemantic, havailable]

/-- The confidence in a script is the mean of its sides by their weights, for any settings that are
read from texts and any confidences between zero and one. -/
theorem overall_isMeanOf (lookup : String → Option String) (graph : GraphOutcome Rat)
    (semantic : SemanticOutcome Rat)
    (hgraph : ∀ confidence ∈ graphConfidences graph, InUnit confidence)
    (hsemantic : ∀ confidence ∈ semanticConfidences semantic, InUnit confidence) :
    IsMeanOf (.ofLookup lookup) graph semantic := by
  have hsettings := Settings.allInUnit_ofLookup lookup
  generalize (Settings.ofLookup lookup : Settings Rat) = settings at hsettings ⊢
  have hgraphSide : (fuse settings graph semantic).graphMean.getD (1 / 2) =
      side (graphConfidences graph) := getD_mean? _
  have hsemanticSide : (fuse settings graph semantic).semanticMean.getD (1 / 2) =
      side (semanticConfidences semantic) := by
    rw [semanticMean_eq, getD_mean?]
  have hunit : InUnit (weighted settings (fuse settings graph semantic).graphMean
      (fuse settings graph semantic).semanticMean) :=
    inUnit_weighted hsettings (hgraphSide ▸ inUnit_side hgraph)
      (hsemanticSide ▸ inUnit_side hsemantic)
  have hunmoved : (fuse settings graph semantic).overall =
      weighted settings (fuse settings graph semantic).graphMean
        (fuse settings graph semantic).semanticMean := Scalar.clampUnit_of_inUnit hunit
  exact {
    graphMean := mean?_eq _
    semanticMean := by rw [semanticMean_eq, mean?_eq]
    weightless := fun hzero => by
      rw [hunmoved, weighted_eq, if_neg (by simp [hzero.1, hzero.2])]
    weighted := fun hsome => by
      have hweight := weight_pos hsettings hsome
      rw [hunmoved, weighted_eq, if_pos hweight, hgraphSide, hsemanticSide]
      exact ⟨hweight, rfl⟩
    between := fun hsome => by
      rw [hunmoved, ← hgraphSide, ← hsemanticSide]
      exact weighted_between hsettings.graphWeight.1 hsettings.semanticWeight.1
        (weight_pos hsettings hsome) _ _
    inUnit := Scalar.inUnit_clampUnit _
    unmoved := hunmoved
    rises := fun graph' semantic' hchecks hresults => by
      have hle := overall_le_overall hsettings
        (by simpa [graphConfidences, List.forall₂_map_left_iff, List.forall₂_map_right_iff]
          using hchecks) hresults
      exact ⟨hle, fun thresholds => (classify_mono thresholds hle).2⟩
    unordered := fun _ _ => overall_perm settings
    unavailable := fuse_unavailable settings graph }

/-- Texts by which the graph weighs four times as much as the examples, with thresholds in no
order. -/
def unevenLookup (name : String) : Option String :=
  if name = "GROUNDCHECK_GRAPH_WEIGHT" then some "1"
  else if name = "GROUNDCHECK_SEMANTIC_WEIGHT" then some "0.25"
  else if name = "GROUNDCHECK_HALLUCINATION_THRESHOLD" then some "0.95"
  else none

/-- Two imports, one of which is hardly known. -/
def halfKnown : GraphOutcome Rat where
  checks := [
    ⟨⟨0, .ofImport, "numpy", 1⟩, .ofImport, "numpy", .plain .valid (4 / 5) "known", []⟩,
    ⟨⟨1, .ofImport, "nunpy", 2⟩, .ofImport, "nunpy", .plain .notFound (1 / 5) "unknown", []⟩]
  skipped := 0

/-- One of them is well grounded. -/
def wellGrounded : SemanticOutcome Rat where
  available := true
  results := [.classify (.ofLookup unevenLookup) ⟨0, .ofImport, "numpy", 1⟩
    "numpy import usage example" [⟨"import numpy", 1⟩]]
  reason := none

/-- The side of the graph is a half and that of the examples is one, and their mean by the weights
is three fifths. -/
theorem overall_isMeanOf_unevenLookup :
    (∀ confidence ∈ graphConfidences halfKnown, InUnit confidence) ∧
      (∀ confidence ∈ semanticConfidences wellGrounded, InUnit confidence) ∧
      side (graphConfidences halfKnown) = 1 / 2 ∧ side (semanticConfidences wellGrounded) = 1 ∧
      (fuse (.ofLookup unevenLookup) halfKnown wellGrounded).overall = 3 / 5 ∧
      IsMeanOf (.ofLookup unevenLookup) halfKnown wellGrounded := by
  have hgraph : graphConfidences halfKnown = [4 / 5, 1 / 5] := by decide +kernel
  have hsemantic : semanticConfidences wellGrounded = [1] := by decide +kernel
  have hgraphUnit : ∀ confidence ∈ graphConfidences halfKnown, InUnit confidence := by
    rw [hgraph]
    norm_num [InUnit]
  have hsemanticUnit : ∀ confidence ∈ semanticConfidences wellGrounded, InUnit confidence := by
    rw [hsemantic]
    norm_num [InUnit]
  refine ⟨hgraphUnit, hsemanticUnit, ?_, ?_, ?_,
    overall_isMeanOf unevenLookup halfKnown wellGrounded hgraphUnit hsemanticUnit⟩
  · rw [hgraph]
    norm_num [side]
  · rw [hsemantic]
    norm_num [side]
  · decide +kernel

end Fusion

end UsageAudit
