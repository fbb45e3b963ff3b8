import UsageAudit.Proofs.GraphFindings
import UsageAudit.Proofs.Rows
import UsageAudit.Proofs.SurveyOutcomes

/-!
# The list of findings

Two rows of findings are put into one list: those of the checks, and those of the groundings. The
list goes by the elements of the script, and of one element it has first what the checks found and
then what the groundings did, each in the order in which it was found. No finding is lost, none
comes up twice, and none is made up: each has one check or one grounding behind it, whose confidence
decides how bad it is.
-/

namespace UsageAudit

variable {α : Type}

/-- Whether a list of findings is made of two rows in such a way that nothing is lost or added, the
elements are in order, and the findings of one element are those of the first row, followed by those
of the second, as they stand there. -/
structure Hallucination.IsStableMerge (first second merged : List (Hallucination α)) : Prop where
  complete : merged.Perm (first ++ second)
  ordered : merged.Pairwise fun finding later => finding.element.index ≤ later.element.index
  stable : ∀ index : Nat,
    (merged.filter fun finding => finding.element.index == index) =
      (first.filter fun finding => finding.element.index == index) ++
        second.filter fun finding => finding.element.index == index

/-- Sorting one row after another by the elements merges the two. -/
theorem Hallucination.isStableMerge_mergeSort (first second : List (Hallucination α)) :
    IsStableMerge first second
      ((first ++ second).mergeSort fun finding other =>
        decide (finding.element.index ≤ other.element.index)) := by
  refine ⟨List.mergeSort_perm .., ?_, ?_⟩
  · exact (List.pairwise_mergeSort index_trans index_total _).imp of_decide_eq_true
  · intro index
    rw [filter_mergeSort index_trans index_total, List.mergeSort_of_pairwise, List.filter_append]
    apply List.pairwise_of_forall_mem_list
    intro finding hfinding later hlater
    have hindex : finding.element.index = index := by simpa using (List.mem_filter.mp hfinding).2
    have hindex' : later.element.index = index := by simpa using (List.mem_filter.mp hlater).2
    simp [hindex, hindex']

namespace Grounding

/-- Whether there are examples of a usage, but none that is similar enough. -/
def isWeak (grounding : Grounding α) : Bool :=
  decide (grounding.exampleCount ≠ 0) && !grounding.grounded

/-- How similar a usage is to its examples, or how far it is trusted if there is no word on that. -/
def similarity (grounding : Grounding α) : α := grounding.mean.getD grounding.verdict.confidence

/-- A weak grounding that was drawn from an answer is trusted as far as the usage is similar to its
examples. -/
theorem confidence_of_isWeak [Scalar α] {settings : Settings α} {grounding : Grounding α}
    (hdrawn : grounding.Drawn settings) (hweak : grounding.isWeak = true) :
    grounding.verdict.confidence = Scalar.clampUnit grounding.similarity := by
  cases hdrawn with
  | malformed element query reason => simp [isWeak, malformed] at hweak
  | classified element query hits =>
    unfold classify at hweak ⊢
    split
    · rename_i hbad
      simp [hbad, isWeak, malformed] at hweak
    · rename_i hgood
      rw [hgood] at hweak
      cases hits with
      | nil => simp [isWeak, unsupported] at hweak
      | cons first rest =>
        have hgrounded : (ofHits settings element query first rest).grounded = false := by
          simpa [isWeak, ofHits] using hweak
        have hbest : Scalar.atMost settings.groundedSimilarity
            (rest.foldl better first).similarity = false := hgrounded
        simp [ofHits, similarity, hbest, Verdict.withDetail, Verdict.withSuggestion, Verdict.plain]

end Grounding

namespace Fusion

variable [Scalar α] (settings : Settings α)

/-- Whether a check is below the threshold of findings. -/
def isDoubted (check : Check α) : Bool :=
  Scalar.less check.verdict.confidence settings.hallucination

/-- Whether a finding says what a check does. -/
structure FromCheck (check : Check α) (finding : Hallucination α) : Prop where
  evidence : finding.evidence = .structural
  category : finding.category = check.kind.name
  element : finding.element = check.element
  confidence : finding.confidence = check.verdict.confidence
  severity : finding.severity = settings.severityOf check.verdict.confidence
  description : finding.description = check.verdict.message
  suggestion : finding.suggestion = check.verdict.suggestions.head?

/-- Whether a finding says what a grounding does. -/
structure FromGrounding (grounding : Grounding α) (finding : Hallucination α) : Prop where
  evidence : finding.evidence = .semantic
  category : finding.category = grounding.element.kind.name
  element : finding.element = grounding.element
  confidence : finding.confidence = grounding.similarity
  severity : finding.severity = settings.severityOf grounding.similarity
  description : finding.description = grounding.verdict.message
  suggestion : finding.suggestion = grounding.verdict.suggestions.head?

/-- The checks that are below the threshold give rise to a finding each, and no others do. -/
theorem forall₂_structural (checks : List (Check α)) :
    List.Forall₂ (FromCheck settings) (checks.filter (isDoubted settings))
      (checks.filterMap (structural? settings)) := by
  apply forall₂_filterMap
  · intro check hdoubted
    unfold isDoubted at hdoubted
    unfold structural?
    rw [if_pos hdoubted]
    exact ⟨_, rfl, rfl, rfl, rfl, rfl, rfl, rfl, rfl⟩
  · intro check htrusted
    unfold isDoubted at htrusted
    simp [structural?, htrusted]

/-- The groundings that are weak give rise to a finding each, and no others do. -/
theorem forall₂_semantic (groundings : List (Grounding α)) :
    List.Forall₂ (FromGrounding settings) (groundings.filter Grounding.isWeak)
      (groundings.filterMap (semantic? settings)) := by
  apply forall₂_filterMap
  · intro grounding hweak
    have hcounts : grounding.exampleCount ≠ 0 ∧ !grounding.grounded := by
      simpa [Grounding.isWeak] using hweak
    unfold semantic?
    rw [if_pos hcounts]
    exact ⟨_, rfl, rfl, rfl, rfl, rfl, rfl, rfl, rfl⟩
  · intro grounding hstrong
    have hcounts : ¬(grounding.exampleCount ≠ 0 ∧ !grounding.grounded) := by
      simpa [Grounding.isWeak] using hstrong
    unfold semantic?
    exact if_neg hcounts

/-- The findings are a merge of two rows by the elements of the script. The first has one finding
for each check below the threshold, the second one for each weak grounding if the examples are
available, and both are in the order of what they come from. A finding has the confidence of what it
comes from: that of the verdict on the check, or the similarity to the examples, which is the
confidence of the verdict wherever that was drawn from an answer. -/
theorem hallucinations_isStableMerge (graph : GraphOutcome α) (semantic : SemanticOutcome α) :
    let groundings := if semantic.available then semantic.results else []
    ∃ structural weak : List (Hallucination α),
      List.Forall₂ (FromCheck settings) (graph.checks.filter (isDoubted settings)) structural ∧
      List.Forall₂ (FromGrounding settings) (groundings.filter Grounding.isWeak) weak ∧
      Hallucination.IsStableMerge structural weak
        (fuse settings graph semantic).hallucinations ∧
      ∀ grounding ∈ groundings.filter Grounding.isWeak, grounding.Drawn settings →
        grounding.verdict.confidence = Scalar.clampUnit grounding.similarity := by
  intro groundings
  have hweak : (if semantic.available then semantic.results.filterMap (semantic? settings)
      else []) = groundings.filterMap (semantic? settings) := by
    simp only [groundings]
    split <;> rfl
  refine ⟨_, _, forall₂_structural settings graph.checks, forall₂_semantic settings groundings, ?_,
    fun grounding hmem hdrawn =>
      Grounding.confidence_of_isWeak hdrawn (List.mem_filter.mp hmem).2⟩
  simp only [fuse, findings]
  rw [hweak]
  exact Hallucination.isStableMerge_mergeSort _ _

/-- Checks of three elements in no order, one of which was checked twice. -/
def scatteredChecks : GraphOutcome Rat where
  checks := [
    ⟨⟨2, .ofImport, "nunpy", 3⟩, .ofImport, "nunpy", .plain .notFound (1 / 5) "unknown", []⟩,
    ⟨⟨0, .ofImport, "pandas", 1⟩, .ofImport, "pandas", .plain .uncertain (2 / 5) "doubted", []⟩,
    ⟨⟨1, .ofImport, "numpy", 2⟩, .ofImport, "numpy", .plain .valid (4 / 5) "known", []⟩,
    ⟨⟨0, .ofImport, "pandas", 1⟩, .ofImport, "pandas", .plain .notFound (1 / 5) "unknown", []⟩]
  skipped := 0

/-- What examples say of the same elements. One is grounded, and of one there are none. -/
def scatteredGroundings : SemanticOutcome Rat where
  available := true
  results := [
    .classify .standard ⟨2, .ofImport, "nunpy", 3⟩ "nunpy" [⟨"import numpy", 3 / 5⟩],
    .classify .standard ⟨0, .ofImport, "pandas", 1⟩ "pandas" [⟨"import", 1 / 5⟩],
    .classify .standard ⟨1, .ofImport, "numpy", 2⟩ "numpy" [⟨"import numpy", 1⟩],
    .classify .standard ⟨1, .ofImport, "numpy", 2⟩ "numpy" []]
  reason := none

/-- Three checks and two groundings give rise to findings, and all five are in the list. -/
theorem hallucinations_isStableMerge_scattered :
    ∃ structural weak : List (Hallucination Rat),
      List.Forall₂ (FromCheck .standard)
        (scatteredChecks.checks.filter (isDoubted .standard)) structural ∧
      List.Forall₂ (FromGrounding .standard)
        (scatteredGroundings.results.filter Grounding.isWeak) weak ∧
      Hallucination.IsStableMerge structural weak
        (fuse .standard scatteredChecks scatteredGroundings).hallucinations ∧
      structural.length = 3 ∧ weak.length = 2 ∧
      (fuse .standard scatteredChecks scatteredGroundings).hallucinations.length = 5 := by
  obtain ⟨structural, weak, hstructural, hweak, hmerge, -⟩ :=
    hallucinations_isStableMerge .standard scatteredChecks scatteredGroundings
  have hthree : structural.length = 3 := by
    rw [← hstructural.length_eq]
    decide +kernel
  have htwo : weak.length = 2 := by
    rw [← hweak.length_eq]
    decide +kernel
  have hfive := hmerge.complete.length_eq
  rw [List.length_append, hthree, htwo] at hfive
  exact ⟨structural, weak, hstructural, hweak, hmerge, hthree, htwo, hfive⟩

/-- A usage with one example, which is hardly like it, and of which an outcome says that it is half to
be trusted. -/
def unlikeOutcome : SemanticOutcome Rat where
  available := true
  results := [⟨⟨0, .ofImport, "e", 1⟩, "q", ⟨.uncertain, 1 / 2, "m", [], ["s"]⟩, 1, some (1 / 10),
    some (1 / 10), false, none⟩]
  reason := none

/-- The finding of a grounding has the similarity to the examples for its confidence. It may be worse
than the confidence of the verdict says. -/
theorem finding_unlike_verdict :
    (unlikeOutcome.results.map fun grounding => grounding.verdict.confidence) = [1 / 2] ∧
      (Settings.standard : Settings Rat).severityOf (1 / 2) = .medium ∧
      ((fuse .standard ⟨[], 0⟩ unlikeOutcome).hallucinations.map fun finding =>
        (finding.confidence, finding.severity)) = [(1 / 10, .high)] := by
  refine ⟨?_, ?_, ?_⟩ <;> decide +kernel

end Fusion

end UsageAudit
