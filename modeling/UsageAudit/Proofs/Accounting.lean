import UsageAudit.Proofs.CleanReports
import UsageAudit.Proofs.ImportedNames

/-!
# Every usage is accounted for

Three walks go over the elements of a script, and each decides for itself which of them are usages:
the one that plans the lookups, the one that makes the queries, and the one that counts. They agree
on every list of elements. So the numbers in a report add up: each usage was checked or skipped, and
if there are groundings at all there is one for each usage.
-/

namespace UsageAudit

variable {α σ τ : Type}

/-- The number of usages among the elements that were counted. -/
def ElementCounts.usages (counts : ElementCounts) : Nat :=
  counts.imports + counts.methodCalls + counts.functionCalls + counts.attributeAccesses

/-- The counts tell how many usages there are. -/
theorem ElementCounts.usages_of (elements : List Element) :
    (ElementCounts.of elements).usages = elements.countP Element.isUsage := by
  induction elements with
  | nil => rfl
  | cons element rest ih =>
    have hfirst : (if element.kind == .ofImport then 1 else 0) +
        (if element.kind == .methodCall then 1 else 0) +
        (if element.kind == .functionCall then 1 else 0) +
        (if element.kind == .attributeAccess then 1 else 0) =
          if element.isUsage then 1 else 0 := by
      cases element <;> rfl
    simp only [usages, of, List.countP_cons] at ih ⊢
    omega

/-- Whether a plan accounts for all usages among the elements. -/
structure Plan.Accounts (plan : Plan) (elements : List Element) : Prop where
  /-- The targets stand in the order of their elements, no two at one position. -/
  ascending : plan.targets.Pairwise fun first second => first.element.index < second.element.index
  /-- Each target is that of the usage at its position. -/
  usage : ∀ target ∈ plan.targets, ∃ element, elements[target.element.index]? = some element ∧
    element.isUsage = true ∧ target.element = element.ref target.element.index
  /-- What a target is checked as goes with the form of its name. -/
  kind : ∀ target ∈ plan.targets, target.kind = target.name.kind
  /-- Each usage is a target or is skipped. -/
  complete : plan.targets.length + plan.skipped = elements.countP Element.isUsage

namespace Plan

/-- Only usages are looked up, and what they are checked as goes with the form of the name. -/
theorem isUsage_of_target? {names : Names} {element : Element} {name : TargetName}
    {kind : CheckKind} {arguments : Option CallArguments}
    (h : target? names element = some (name, kind, arguments)) :
    element.isUsage = true ∧ kind = name.kind := by
  cases element with
  | ofImport e =>
    simp only [target?] at h
    split at h <;> cases h
    exact ⟨rfl, rfl⟩
  | functionCall e =>
    simp only [target?, Option.bind_eq_some_iff, Option.map_eq_some_iff] at h
    obtain ⟨referent, -, name, hcall, ⟨⟩⟩ := h
    refine ⟨rfl, ?_⟩
    cases referent with
    | ofClass path =>
      cases hcall
      rfl
    | ofModule path =>
      obtain ⟨parts, -, rfl⟩ := Option.map_eq_some_iff.mp hcall
      rfl
  | methodCall e =>
    obtain ⟨referent, -, ⟨⟩⟩ := Option.map_eq_some_iff.mp h
    refine ⟨rfl, ?_⟩
    unfold methodKind methodTarget
    split <;> cases referent <;> rfl
  | attributeAccess e =>
    obtain ⟨referent, -, ⟨⟩⟩ := Option.map_eq_some_iff.mp h
    cases referent <;> exact ⟨rfl, rfl⟩
  | classDef e => cases h
  | functionDef e => cases h
  | variableAssign e => cases h

/-- The targets of a plan stand in the order of their elements. -/
theorem pairwise_planFrom (names : Names) (index : Nat) (elements : List Element) :
    (planFrom names index elements).targets.Pairwise fun first second =>
      first.element.index < second.element.index := by
  induction elements generalizing names index with
  | nil => exact .nil
  | cons element rest ih =>
    have hrest := ih (namesAfter names element) (index + 1)
    simp only [planFrom]
    split
    · refine .cons ?_ hrest
      intro target htarget
      exact le_index_of_mem_planFrom htarget
    · split <;> exact hrest

/-- As many usages are planned or skipped as there are. -/
theorem length_planFrom (names : Names) (index : Nat) (elements : List Element) :
    (planFrom names index elements).targets.length + (planFrom names index elements).skipped =
      elements.countP Element.isUsage := by
  induction elements generalizing names index with
  | nil => rfl
  | cons element rest ih =>
    have hrest := ih (namesAfter names element) (index + 1)
    simp only [planFrom, List.countP_cons]
    split
    · rename_i name kind arguments htarget
      simp only [List.length_cons, (isUsage_of_target? htarget).1, if_true]
      omega
    · split <;> simp only [*] <;> omega

/-- The plan of a script accounts for all its usages. -/
theorem accounts_ofElements (elements : List Element) :
    (ofElements elements).Accounts elements where
  ascending := pairwise_planFrom .empty 0 elements
  usage := by
    intro target htarget
    obtain ⟨position, element, helement, href, hname⟩ := exists_at_of_mem_planFrom htarget
    have hindex : target.element.index = position := by simp [href, Element.ref]
    refine ⟨element, by rw [hindex, helement], (isUsage_of_target? hname).1, ?_⟩
    rw [hindex, href, Nat.zero_add]
  kind := by
    intro target htarget
    obtain ⟨names, element, -, hname⟩ := exists_of_mem_planFrom htarget
    exact (isUsage_of_target? hname).2
  complete := length_planFrom .empty 0 elements

end Plan

/-- Whether a check is that of a target. -/
structure Check.Answers (check : Check α) (target : Target) : Prop where
  element : check.element = target.element
  kind : check.kind = target.kind
  target : check.target = target.name.qualified

/-- Whether the checks of a script are those of the targets of a plan, one after the other. -/
structure GraphOutcome.Covers (outcome : GraphOutcome α) (plan : Plan) : Prop where
  checks : List.Forall₂ (fun target check => check.Answers target) plan.targets outcome.checks
  skipped : outcome.skipped = plan.skipped

/-- Whether there is one grounding for each query, unless nothing is said of the script at all. -/
def SemanticOutcome.Covers (jobs : List (ElementRef × String)) (outcome : SemanticOutcome α) :
    Prop :=
  outcome.results.map (fun grounding => (grounding.element, grounding.query)) =
    if outcome.available then jobs else []

section Outcomes

variable [Scalar α] (settings : Settings α)

/-- What a script can come to at the graph covers its plan. -/
theorem GraphCheck.yields_covers (analysis : Analysis) :
    (checkScript Inquiry.lookups settings analysis).Yields
      (fun _ outcome => outcome.Covers analysis.plan) true := by
  refine (yields_checkScript settings analysis).mono ?_
  rintro all outcome ⟨hchecks, hskipped⟩
  refine ⟨?_, hskipped⟩
  have hkinds := (Plan.accounts_ofElements analysis.elements).kind
  have hboth := (List.forall₂_and_left _ _).mpr ⟨hkinds, hchecks⟩
  refine hboth.imp ?_
  rintro target check ⟨hkind, own, -, hof⟩
  exact ⟨hof.element, hof.kind.trans hkind.symm, hof.target⟩

/-- What examples say of a usage names the usage and the query. -/
theorem Grounding.about_classify (element : ElementRef) (query : String) (hits : List (Hit α)) :
    ((classify settings element query hits).element,
      (classify settings element query hits).query) = (element, query) := by
  unfold classify
  split
  · rfl
  · cases hits <;> rfl

namespace Survey

/-- What the survey of further usages can come to covers them and those before them. -/
theorem leads_covers_ofQueries (before jobs : List (ElementRef × String))
    {found : List (Grounding α)}
    (hfound : found.map (fun grounding => (grounding.element, grounding.query)) = before) :
    (ofQueries settings found jobs).Leads (SemanticOutcome.Covers (before ++ jobs)) := by
  induction jobs generalizing before found with
  | nil => exact .done _ (by simpa [SemanticOutcome.Covers] using hfound)
  | cons job rest ih =>
    obtain ⟨element, query⟩ := job
    have hmore {grounding : Grounding α}
        (habout : (grounding.element, grounding.query) = (element, query)) :
        (ofQueries settings (found ++ [grounding]) rest).Leads
          (SemanticOutcome.Covers (before ++ (element, query) :: rest)) := by
      rw [List.append_cons]
      exact ih _ (by rw [List.map_append, hfound, List.map_singleton, habout])
    refine .ask query _ ?_
    rintro ((reason | reason) | hits)
    · exact .done _ rfl
    · exact hmore rfl
    · exact hmore (Grounding.about_classify settings element query hits)

/-- What the survey of a script can come to covers its usages. -/
theorem leads_covers (indexed : Bool) (analysis : Analysis) :
    (ofScript settings indexed analysis).Leads
      (SemanticOutcome.Covers (ExampleSearch.queries analysis)) := by
  unfold ofScript
  split
  · split
    · exact leads_covers_ofQueries settings [] _ rfl
    · exact .done _ rfl
  · exact .done _ rfl

end Survey

end Outcomes

/-- A query is made for each usage. -/
theorem ExampleSearch.length_queries (analysis : Analysis) :
    (queries analysis).length = analysis.elements.countP Element.isUsage := by
  have hasks (element : Element) : element.query?.isSome = element.isUsage := by
    cases element <;> rfl
  rw [queries, List.length_filterMap_eq_countP, Analysis.refs, List.countP_map]
  conv_rhs => rw [← List.zipIdx_map_fst 0 analysis.elements, List.countP_map]
  refine List.countP_congr ?_
  rintro ⟨element, index⟩ -
  simp [hasks]

/-- Each usage of a script whose plan is covered was checked or skipped. -/
theorem GraphOutcome.Covers.length_checks {outcome : GraphOutcome α} {analysis : Analysis}
    (h : outcome.Covers analysis.plan) :
    outcome.checks.length + outcome.skipped = analysis.counts.usages := by
  have hcomplete := (Plan.accounts_ofElements analysis.elements).complete
  rw [h.skipped, ← h.checks.length_eq, Analysis.counts, ElementCounts.usages_of]
  exact hcomplete

/-- Each usage of a script whose queries are covered has a grounding, unless there are none. -/
theorem SemanticOutcome.Covers.length_results {outcome : SemanticOutcome α} {analysis : Analysis}
    (h : outcome.Covers (ExampleSearch.queries analysis)) :
    outcome.results.length = if outcome.available then analysis.counts.usages else 0 := by
  have hlength := congrArg List.length h
  rw [List.length_map] at hlength
  rw [hlength, Analysis.counts, ElementCounts.usages_of, ← ExampleSearch.length_queries]
  split <;> rfl

namespace Auditor

variable [Scalar α]

/-- Every usage is accounted for, from the plan to the report. The targets of the plan of a script
are those of usages, in their order, and the others are skipped. A graph that answers makes one
check for each target, for its element, under its name and of its kind. So in every report, in
whichever order the sources were asked, the checks and the skipped usages are as many as the usages
that were counted, and so are the groundings, unless there are none. -/
theorem usages_accounted (settings : Settings α) :
    (∀ analysis : Analysis, analysis.plan.Accounts analysis.elements ∧
      analysis.counts.usages = analysis.elements.countP Element.isUsage) ∧
    (∀ (graph : KnowledgeGraph σ) (analysis : Analysis) (desk after : Desk (Cached σ))
      (outcome : GraphOutcome α),
      (GraphCheck.checkScript (cachedLookups graph) settings analysis).start desk =
          (.ok outcome, after) → outcome.Covers analysis.plan) ∧
    ∀ (schedule : List Side) (sources : Sources α σ τ) (options : ReportOptions)
      (script path : String) (cancelled : Bool) (auditor : Auditor σ τ) (report : Report α),
      (auditor.checkInTurns schedule sources settings options script path cancelled).response =
          .success report →
        ∃ analysis, Analysis.ofScript script path = .ok analysis ∧
          report.coverage.counts = analysis.counts ∧
          report.coverage.graphChecks + report.coverage.skipped = analysis.counts.usages ∧
          report.coverage.semanticChecks =
            if report.coverage.semanticAvailable then analysis.counts.usages else 0 := by
  refine ⟨?_, ?_, ?_⟩
  · intro analysis
    exact ⟨Plan.accounts_ofElements analysis.elements, ElementCounts.usages_of analysis.elements⟩
  · intro graph analysis desk after outcome hrun
    rw [← GraphCheck.run_checkScript] at hrun
    obtain ⟨-, hcovers⟩ := (GraphCheck.yields_covers settings analysis).of_start_run hrun
    exact hcovers
  · intro schedule sources options script path cancelled auditor report hreport
    obtain ⟨analysis, graph, semantic, hscript, hgraph, hexamples, rfl⟩ :=
      exists_outcomes_of_leads (GraphCheck.yields_covers settings)
        (Survey.leads_covers settings) hreport
    exact ⟨analysis, hscript, rfl, hgraph.length_checks, hexamples.length_results⟩

/-- A script with an import, two calls that it leads to, and a call of something unknown. -/
def mixedSource : String := "import numpy as np\nx = np.array([1])\nnp.Grid(2)\nprint(x)\n"

/-- What comes of that script. The index is asked once before the graph, and then now and again. -/
def mixedAccount : Account Rat Unit Unit :=
  (fresh () ()).checkInTurns [.examples, .graph, .graph, .examples] ⟨knowingGraph, some halfIndex⟩
    .standard ⟨true, true⟩ mixedSource "arrays.py" false

/-- What comes of looking a script up in a graph that knows everything. -/
def knownOutcome : Except Problem (GraphOutcome Rat) × Desk (Cached Unit) :=
  (GraphCheck.checkScript (cachedLookups knowingGraph) .standard Operation.arrayScript).start
    ⟨⟨.empty, ()⟩, false⟩

/-- Of four usages three were checked and one was skipped, and all were grounded. A script is
covered by its checks. -/
theorem usages_accounted_mixedAccount :
    (∃ report, mixedAccount.response = .success report ∧
      report.coverage.counts.usages = 4 ∧ report.coverage.skipped = 1 ∧
      report.coverage.graphChecks + report.coverage.skipped = 4 ∧
      report.coverage.semanticChecks = 4) ∧
    ∃ outcome after, knownOutcome = (.ok outcome, after) ∧
      outcome.Covers Operation.arrayScript.plan := by
  have haccounted := @usages_accounted Rat Unit Unit _ .standard
  constructor
  · have hsuccess : (match mixedAccount.response with
        | .success report => report.coverage.counts.usages == 4 && report.coverage.skipped == 1 &&
          report.coverage.semanticAvailable
        | .failure .. => false) = true := by decide +kernel
    cases hresponse : mixedAccount.response with
    | failure path problem phase => simp [hresponse] at hsuccess
    | success report =>
      simp only [hresponse, Bool.and_eq_true, beq_iff_eq] at hsuccess
      obtain ⟨⟨hcounts, hskipped⟩, havailable⟩ := hsuccess
      obtain ⟨analysis, -, hanalysis, hchecks, hgroundings⟩ :=
        haccounted.2.2 _ _ _ _ _ _ _ report hresponse
      rw [← hanalysis, hcounts] at hchecks hgroundings
      rw [havailable] at hgroundings
      exact ⟨report, rfl, hcounts, hskipped, hchecks, hgroundings⟩
  · have hok : knownOutcome.1.toOption.isSome = true := by decide +kernel
    rcases houtcome : knownOutcome with ⟨problem | outcome, after⟩
    · rw [houtcome] at hok
      cases hok
    · exact ⟨outcome, after, rfl, haccounted.2.1 knowingGraph _ _ after outcome houtcome⟩

end Auditor

end UsageAudit
