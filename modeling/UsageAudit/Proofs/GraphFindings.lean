import UsageAudit.Auditor
import Mathlib.Data.List.Basic

/-!
# What a report owes to the graph

A report puts findings of two kinds in one order. Those that rest on the graph stand in it as they
would if there were no others, so that this part of a report does not depend on the examples.
-/

namespace UsageAudit

variable {α β : Type}

section Sorting

variable {before : β → β → Bool}
  (htrans : ∀ first second third, before first second → before second third → before first third)
  (htotal : ∀ first second, before first second || before second first)
include htrans htotal

/-- Sorting puts a further first member between the members that do not come after it and those that
do, in the order in which these are sorted. -/
theorem exists_split_mergeSort_cons (first : β) (rest : List β) :
    ∃ front back, (first :: rest).mergeSort before = front ++ first :: back ∧
      rest.mergeSort before = front ++ back ∧
      front = (rest.mergeSort before).filter (fun member => !before first member) ∧
      back = (rest.mergeSort before).filter (before first) := by
  obtain ⟨front, back, hsorted, hrest, hfront⟩ := List.mergeSort_cons htrans htotal first rest
  have hordered := List.pairwise_mergeSort htrans htotal (first :: rest)
  rw [hsorted] at hordered
  have hback : ∀ member ∈ back, before first member = true :=
    fun member hmember => List.rel_of_pairwise_cons (List.pairwise_append.mp hordered).2.1 hmember
  refine ⟨front, back, hsorted, hrest, ?_, ?_⟩
  · rw [hrest, List.filter_append, List.filter_eq_self.mpr hfront,
      List.filter_eq_nil_iff.mpr (by simpa using hback), List.append_nil]
  · rw [hrest, List.filter_append, List.filter_eq_self.mpr hback,
      List.filter_eq_nil_iff.mpr (by simpa using hfront), List.nil_append]

/-- Sorting keeps the members that pass a test in the order in which they would be sorted by
themselves. -/
theorem filter_mergeSort (test : β → Bool) (members : List β) :
    (members.mergeSort before).filter test = (members.filter test).mergeSort before := by
  induction members with
  | nil => simp
  | cons first rest ih =>
    obtain ⟨front, back, hsorted, hrest, hfront, hback⟩ :=
      exists_split_mergeSort_cons htrans htotal first rest
    cases htest : test first with
    | false =>
      calc
        _ = front.filter test ++ back.filter test := by simp [hsorted, htest]
        _ = (rest.mergeSort before).filter test := by rw [hrest, List.filter_append]
        _ = _ := by simp [ih, htest]
    | true =>
      obtain ⟨front', back', hsorted', _, hfront', hback'⟩ :=
        exists_split_mergeSort_cons htrans htotal first (rest.filter test)
      rw [← ih, List.filter_comm] at hfront' hback'
      rw [← hfront] at hfront'
      rw [← hback] at hback'
      simp [hsorted, hsorted', htest, hfront', hback']

end Sorting

/-- Findings in the order of their elements are so, too, if others are left out between them. -/
theorem Hallucination.index_trans (first second third : Hallucination α)
    (h : decide (first.element.index ≤ second.element.index) = true)
    (h' : decide (second.element.index ≤ third.element.index) = true) :
    decide (first.element.index ≤ third.element.index) = true := by
  simp only [decide_eq_true_eq] at h h' ⊢
  omega

/-- Of two findings one may stand before the other. -/
theorem Hallucination.index_total (first second : Hallucination α) :
    (decide (first.element.index ≤ second.element.index) ||
      decide (second.element.index ≤ first.element.index)) = true := by
  simp only [Bool.or_eq_true, decide_eq_true_eq]
  omega

/-- Whether a finding rests on the graph. -/
def Hallucination.restsOnGraph (finding : Hallucination α) : Bool := finding.evidence == .structural

namespace Fusion

variable [Scalar α] (settings : Settings α)

/-- The findings that checks against the graph give rise to rest on the graph. -/
theorem restsOnGraph_of_structural? {check : Check α} {finding : Hallucination α}
    (h : structural? settings check = some finding) : finding.restsOnGraph = true := by
  unfold structural? at h
  split at h <;> cases h
  rfl

/-- The findings that groundings give rise to do not. -/
theorem restsOnGraph_of_semantic? {grounding : Grounding α} {finding : Hallucination α}
    (h : semantic? settings grounding = some finding) : finding.restsOnGraph = false := by
  unfold semantic? at h
  split at h <;> cases h
  rfl

/-- The findings that rest on the graph are those of the checks, sorted by themselves. -/
theorem filter_findings (graph : GraphOutcome α) (semantic : SemanticOutcome α) :
    (findings settings graph semantic).filter Hallucination.restsOnGraph =
      (graph.checks.filterMap (structural? settings)).mergeSort fun first second =>
        decide (first.element.index ≤ second.element.index) := by
  have hstructural : ∀ finding ∈ graph.checks.filterMap (structural? settings),
      finding.restsOnGraph = true := by
    intro finding hmem
    obtain ⟨check, _, hcheck⟩ := List.mem_filterMap.mp hmem
    exact restsOnGraph_of_structural? settings hcheck
  have hweak : ∀ finding ∈
      (if semantic.available then semantic.results.filterMap (semantic? settings) else []),
      finding.restsOnGraph = false := by
    intro finding hmem
    split at hmem
    · obtain ⟨grounding, _, hgrounding⟩ := List.mem_filterMap.mp hmem
      exact restsOnGraph_of_semantic? settings hgrounding
    · cases hmem
  unfold findings
  dsimp only
  rw [filter_mergeSort Hallucination.index_trans Hallucination.index_total, List.filter_append,
    List.filter_eq_self.mpr hstructural, List.filter_eq_nil_iff.mpr (by simpa using hweak),
    List.append_nil]

end Fusion

/-- Whether two reports say the same as far as they rest on the graph. -/
structure Report.SameByGraph (report report' : Report α) : Prop where
  path : report.path = report'.path
  checks : (report.details.map fun details => details.graph) =
    report'.details.map fun details => details.graph
  graphChecks : report.coverage.graphChecks = report'.coverage.graphChecks
  skipped : report.coverage.skipped = report'.coverage.skipped
  graphConfidence : report.coverage.graphConfidence = report'.coverage.graphConfidence
  critical : report.findings.critical.filter Hallucination.restsOnGraph =
    report'.findings.critical.filter Hallucination.restsOnGraph
  moderate : report.findings.moderate.filter Hallucination.restsOnGraph =
    report'.findings.moderate.filter Hallucination.restsOnGraph
  all : report.findings.all.filter Hallucination.restsOnGraph =
    report'.findings.all.filter Hallucination.restsOnGraph

/-- The findings that a report shows: without suggestions, unless these are asked for. -/
def Report.shown (options : ReportOptions) (fusion : Fusion α) : List (Hallucination α) :=
  if options.includeSuggestions then fusion.hallucinations
  else fusion.hallucinations.map fun finding => { finding with suggestion := none }

/-- A report lists the findings that it shows by their severity. -/
theorem Report.findings_build [Scalar α] (settings : Settings α) (analysis : Analysis)
    (graph : GraphOutcome α) (semantic : SemanticOutcome α) (fusion : Fusion α)
    (options : ReportOptions) :
    (build settings analysis graph semantic fusion options).findings =
      ⟨(shown options fusion).filter fun finding => finding.severity == .high,
        (shown options fusion).filter fun finding => finding.severity == .medium,
        shown options fusion⟩ := rfl

/-- Reports on the same checks say the same as far as they rest on the graph. -/
theorem Report.sameByGraph_build [Scalar α] (settings : Settings α) (analysis : Analysis)
    (graph : GraphOutcome α) (semantic semantic' : SemanticOutcome α) (options : ReportOptions) :
    (build settings analysis graph semantic (Fusion.fuse settings graph semantic)
        options).SameByGraph
      (build settings analysis graph semantic' (Fusion.fuse settings graph semantic')
        options) := by
  have hfindings : (Fusion.fuse settings graph semantic).hallucinations.filter
      Hallucination.restsOnGraph =
      (Fusion.fuse settings graph semantic').hallucinations.filter Hallucination.restsOnGraph := by
    simp only [Fusion.fuse, Fusion.filter_findings]
  have hall : (shown options (Fusion.fuse settings graph semantic)).filter
      Hallucination.restsOnGraph =
      (shown options (Fusion.fuse settings graph semantic')).filter
        Hallucination.restsOnGraph := by
    unfold shown
    split
    · exact hfindings
    · simp only [List.filter_map, Function.comp_def]
      exact congrArg (List.map _) hfindings
  constructor
  · rfl
  · cases hdetailed : options.detailed <;> simp [build, hdetailed]
  · rfl
  · rfl
  · rfl
  · simp only [findings_build]
    rw [List.filter_comm, hall, List.filter_comm]
  · simp only [findings_build]
    rw [List.filter_comm, hall, List.filter_comm]
  · simpa only [findings_build] using hall

end UsageAudit
