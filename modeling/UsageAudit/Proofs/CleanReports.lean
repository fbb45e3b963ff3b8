import UsageAudit.Proofs.FusedConfidence
import UsageAudit.Proofs.SurveyOutcomes

/-!
# Reports without findings

Two tests decide what is listed in a report: a check is listed by its confidence, and a grounding by
the examples that were found for it. A grounding that is not listed has a confidence of a half or
more, so that a report that lists nothing cannot come to a high risk, unless the thresholds lie on
the wrong sides of a half.
-/

namespace UsageAudit

section Verdict

variable {α : Type} (verdict : Verdict α)

/-- A detail leaves the confidence. -/
@[simp]
theorem Verdict.confidence_withDetail (name : String) (value : Datum α) :
    (verdict.withDetail name value).confidence = verdict.confidence := rfl

/-- A suggestion leaves the confidence. -/
@[simp]
theorem Verdict.confidence_withSuggestion (suggestion : String) :
    (verdict.withSuggestion suggestion).confidence = verdict.confidence := rfl

end Verdict

/-- A plain verdict has its confidence moved between zero and one. -/
@[simp]
theorem Verdict.confidence_plain {α : Type} [Scalar α] (status : Status) (confidence : α)
    (message : String) :
    (plain status confidence message).confidence = Scalar.clampUnit confidence :=
  rfl

namespace Grounding

variable {settings : Settings Rat}

/-- Half is between zero and one. -/
theorem clampUnit_neutralConfidence : Scalar.clampUnit (neutralConfidence : Rat) = 1 / 2 := by
  rw [neutralConfidence_eq]
  exact Scalar.clampUnit_of_inUnit (by norm_num [InUnit])

/-- Of a malformed answer nothing is known. -/
theorem confidence_malformed (element : ElementRef) (query message : String) :
    (malformed element query message : Grounding Rat).verdict.confidence = 1 / 2 := by
  simp [malformed, clampUnit_neutralConfidence]

/-- Of a usage without examples nothing is known. -/
theorem confidence_unsupported (element : ElementRef) (query : String) :
    (unsupported element query : Grounding Rat).verdict.confidence = 1 / 2 := by
  simp [unsupported, clampUnit_neutralConfidence]

/-- A usage with examples that is not listed as a finding has one that is similar enough. -/
theorem half_le_confidence_ofHits (hgrounded : 1 / 2 ≤ settings.groundedSimilarity)
    {element : ElementRef} {query : String} {first : Hit Rat} {rest : List (Hit Rat)}
    (h : Fusion.semantic? settings (ofHits settings element query first rest) = none) :
    1 / 2 ≤ (ofHits settings element query first rest).verdict.confidence := by
  by_cases hbest : settings.groundedSimilarity ≤ (rest.foldl better first).similarity
  · have hconfidence : (ofHits settings element query first rest).verdict.confidence =
        Scalar.clampUnit (rest.foldl better first).similarity := by
      simp [ofHits, Scalar.atMost, hbest]
    rw [hconfidence, Scalar.clampUnit_eq]
    exact le_max_of_le_right (le_min (hgrounded.trans hbest) (by norm_num))
  · simp [Fusion.semantic?, ofHits, Scalar.atMost, hbest] at h

/-- What is drawn from an answer and not listed as a finding has a confidence of a half or more. -/
theorem half_le_confidence (hgrounded : 1 / 2 ≤ settings.groundedSimilarity)
    {grounding : Grounding Rat} (hdrawn : grounding.Drawn settings)
    (h : Fusion.semantic? settings grounding = none) : 1 / 2 ≤ grounding.verdict.confidence := by
  cases hdrawn with
  | malformed element query reason => rw [confidence_malformed]
  | classified element query hits =>
    unfold classify at h ⊢
    split
    · rw [confidence_malformed]
    · rename_i hgood
      rw [hgood] at h
      cases hits with
      | nil => rw [confidence_unsupported]
      | cons first rest => exact half_le_confidence_ofHits hgrounded h

end Grounding

namespace Fusion

/-- Where nothing is found, the confidence in the script is not below the threshold of findings. -/
theorem hallucination_le_overall {settings : Settings Rat} (hsettings : settings.AllInUnit)
    (hthreshold : settings.hallucination ≤ 1 / 2) (hgrounded : 1 / 2 ≤ settings.groundedSimilarity)
    {graph : GraphOutcome Rat} {semantic : SemanticOutcome Rat} (hdrawn : semantic.Drawn settings)
    (hnone : findings settings graph semantic = []) :
    settings.hallucination ≤ (fuse settings graph semantic).overall := by
  obtain ⟨hstructural, hweak⟩ := eq_none_of_findings_eq_nil hnone
  apply le_overall hsettings hthreshold
  · intro check hcheck
    exact le_confidence_of_structural?_eq_none (hstructural check hcheck)
  · intro confidence hconfidence
    unfold semanticConfidences at hconfidence
    split at hconfidence
    · rename_i havailable
      obtain ⟨grounding, hmem, rfl⟩ := List.mem_map.mp hconfidence
      exact hthreshold.trans
        (Grounding.half_le_confidence hgrounded (hdrawn grounding hmem)
          (hweak havailable grounding hmem))
    · cases hconfidence

end Fusion

/-- A report lists nothing if and only if nothing was found. -/
theorem Report.findings_eq_nil_iff {α : Type} [Scalar α] (settings : Settings α)
    (analysis : Analysis) (graph : GraphOutcome α) (semantic : SemanticOutcome α)
    (fusion : Fusion α) (options : ReportOptions) :
    (build settings analysis graph semantic fusion options).findings.all = [] ↔
      fusion.hallucinations = [] := by
  simp only [build]
  split <;> simp

namespace Auditor

variable {σ τ : Type}

/-- If the threshold of findings is at most a half, and examples have to be at least half similar to
ground a usage, then a report that lists no findings states a confidence that is not below the
threshold, and no high risk: whatever the sources answer, in whichever order they are asked, and
whatever the two sides weigh. -/
theorem risk_ne_high_of_no_findings (schedule : List Side) (sources : Sources Rat σ τ)
    (lookup : String → Option String) (options : ReportOptions) (script path : String)
    (cancelled : Bool) (auditor : Auditor σ τ)
    (hthreshold : (Settings.ofLookup lookup : Settings Rat).hallucination ≤ 0.5)
    (hgrounded : 0.5 ≤ (Settings.ofLookup lookup : Settings Rat).groundedSimilarity)
    {report : Report Rat}
    (hreport : (auditor.checkInTurns schedule sources (.ofLookup lookup) options script path
      cancelled).response = .success report) (hnone : report.findings.all = []) :
    (Settings.ofLookup lookup : Settings Rat).hallucination ≤ report.summary.confidence ∧
      report.summary.risk ≠ .high := by
  have hhalf : (0.5 : Rat) = 1 / 2 := by norm_num
  rw [hhalf] at hthreshold hgrounded
  obtain ⟨analysis, graph, semantic, -, hdrawn, rfl⟩ := exists_outcomes_of_success hreport
  have hoverall := Fusion.hallucination_le_overall (Settings.allInUnit_ofLookup lookup) hthreshold
    hgrounded hdrawn ((Report.findings_eq_nil_iff ..).mp hnone)
  exact ⟨hoverall, Fusion.risk_ne_high hoverall⟩

/-- A graph that knows every symbol, and no signature. -/
def knowingGraph : KnowledgeGraph Unit where
  findSymbol _ _ state := ⟨.ok (.found ["numpy"]), state, false⟩
  findMethodSignature _ _ state := ⟨.ok none, state, false⟩
  findFunctionSignature _ _ state := ⟨.ok none, state, false⟩
  close := id

/-- An index with one example that is half similar to every usage. -/
def halfIndex : ExampleIndex Rat Unit where
  search _ _ _ state := ⟨.ok [⟨"import numpy", 1 / 2⟩], state, false⟩
  close := id

/-- Texts by which half similar examples ground a usage, and neither side weighs anything. -/
def weightlessLookup (name : String) : Option String :=
  if name = "GROUNDCHECK_GROUNDED_SIMILARITY" then some "0.5"
  else if name = "GROUNDCHECK_GRAPH_WEIGHT" ∨ name = "GROUNDCHECK_SEMANTIC_WEIGHT" then some "0"
  else none

/-- What comes of a script with an import. The index is asked before the graph. -/
def weightlessAccount : Account Rat Unit Unit :=
  (fresh () ()).checkInTurns [.examples] ⟨knowingGraph, some halfIndex⟩ (.ofLookup weightlessLookup)
    ⟨true, true⟩ "import numpy\n" "arrays.py" false

/-- A report that lists nothing states no high risk, also where neither side weighs anything and
all numbers lie on the bounds. -/
theorem risk_ne_high_weightlessAccount :
    ∃ report, weightlessAccount.response = .success report ∧ report.findings.all = [] ∧
      (Settings.ofLookup weightlessLookup : Settings Rat).hallucination ≤
        report.summary.confidence ∧ report.summary.risk ≠ .high := by
  have hsuccess : (match weightlessAccount.response with
      | .success report => report.findings.all.isEmpty
      | .failure .. => false) = true := by decide +kernel
  have hthreshold : (Settings.ofLookup weightlessLookup : Settings Rat).hallucination ≤ 0.5 := by
    decide +kernel
  have hgrounded :
      0.5 ≤ (Settings.ofLookup weightlessLookup : Settings Rat).groundedSimilarity := by
    decide +kernel
  cases hresponse : weightlessAccount.response with
  | failure path problem phase => simp [hresponse] at hsuccess
  | success report =>
    have hnone : report.findings.all = [] := by simpa [hresponse] using hsuccess
    exact ⟨report, rfl, hnone,
      risk_ne_high_of_no_findings [.examples] ⟨knowingGraph, some halfIndex⟩ weightlessLookup
        ⟨true, true⟩ "import numpy\n" "arrays.py" false (fresh () ()) hthreshold hgrounded hresponse
        hnone⟩

end Auditor

end UsageAudit
