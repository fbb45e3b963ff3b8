import UsageAudit.Proofs.BothSides
import UsageAudit.Proofs.CheckedTargets

/-!
# What a survey can come to

Whatever the searches answer, every grounding of a script is drawn from examples that were
retrieved, or says that an answer was malformed. This is seen on the tree of queries, whose leaves
are all that a survey can come to, and holds of the groundings in every report. In the same way what
holds of all leaves of the questions to the graph holds of the checks in every report.
-/

namespace UsageAudit

variable {α σ τ : Type}

/-- Whether a grounding is what is said of a usage by the answer to a query. -/
inductive Grounding.Drawn [Scalar α] (settings : Settings α) : Grounding α → Prop where
  | classified (element : ElementRef) (query : String) (hits : List (Hit α)) :
      Drawn settings (classify settings element query hits)
  | malformed (element : ElementRef) (query reason : String) :
      Drawn settings (.malformed element query reason)

/-- Whether all groundings of a script are drawn from answers. -/
def SemanticOutcome.Drawn [Scalar α] (settings : Settings α) (outcome : SemanticOutcome α) : Prop :=
  ∀ grounding ∈ outcome.results, grounding.Drawn settings

/-- What is left of an inquiry after a turn can come to nothing else. -/
theorem Inquiry.Yields.of_start_turn {β : Type} {holds : Bool → β → Prop} {recalled : Bool}
    {inquiry : Inquiry β} (h : inquiry.Yields holds recalled) {lookups : Lookups (Request τ)}
    {desk after : Desk τ} {rest : Inquiry β}
    (hturn : (inquiry.turn lookups).start desk = (.ok rest, after)) :
    ∃ recalled, rest.Yields holds recalled := by
  cases h with
  | done recalled value h =>
    cases hturn
    exact ⟨recalled, .done recalled value h⟩
  | ask recalled question next h =>
    rw [start_turn_ask] at hturn
    rcases hlooked : (lookups.ask question).start desk with ⟨problem | fetch, between⟩
    · simp [hlooked, Except.map] at hturn
    · rw [hlooked] at hturn
      cases hturn
      exact ⟨_, h fetch⟩

namespace Survey

/-- Whether something holds of all that a survey can come to. -/
inductive Leads (holds : SemanticOutcome α → Prop) : Survey α → Prop where
  | done (outcome : SemanticOutcome α) (h : holds outcome) : Leads holds (.done outcome)
  | ask (query : String) (next : Except SourceFault (List (Hit α)) → Survey α)
      (h : ∀ answer, Leads holds (next answer)) : Leads holds (.ask query next)

namespace Leads

variable {holds : SemanticOutcome α → Prop} {survey : Survey α}
  {search : String → Request τ (Except SourceFault (List (Hit α)))} {desk after : Desk τ}

/-- What a survey comes to is one of the things that it can come to. -/
theorem of_start_run (h : survey.Leads holds) {outcome : SemanticOutcome α}
    (hrun : (survey.run search).start desk = (.ok outcome, after)) : holds outcome := by
  induction h generalizing desk with
  | done outcome h =>
    cases hrun
    exact h
  | ask query next _ ih =>
    rw [start_run_ask] at hrun
    rcases hsearch : (search query).start desk with ⟨problem | answer, between⟩
    · simp [hsearch] at hrun
    · rw [hsearch] at hrun
      exact ih answer hrun

/-- What is left of a survey after a turn can come to nothing else. -/
theorem of_start_turn (h : survey.Leads holds) {rest : Survey α}
    (hturn : (survey.turn search).start desk = (.ok rest, after)) : rest.Leads holds := by
  cases h with
  | done outcome h =>
    cases hturn
    exact .done outcome h
  | ask query next h =>
    rw [start_turn_ask] at hturn
    rcases hsearch : (search query).start desk with ⟨problem | answer, between⟩
    · simp [hsearch, Except.map] at hturn
    · rw [hsearch] at hturn
      cases hturn
      exact h answer

end Leads

variable [Scalar α] (settings : Settings α)

/-- The groundings of further usages are drawn from answers if those before them are. -/
theorem leads_ofQueries (jobs : List (ElementRef × String)) {found : List (Grounding α)}
    (hfound : ∀ grounding ∈ found, grounding.Drawn settings) :
    (ofQueries settings found jobs).Leads (SemanticOutcome.Drawn settings) := by
  induction jobs generalizing found with
  | nil => exact .done _ hfound
  | cons job rest ih =>
    obtain ⟨element, query⟩ := job
    have hmore {grounding : Grounding α} (h : grounding.Drawn settings) :
        ∀ other ∈ found ++ [grounding], other.Drawn settings := by
      intro other hother
      rcases List.mem_append.mp hother with hother | hother
      · exact hfound other hother
      · rwa [List.mem_singleton.mp hother]
    refine .ask query _ ?_
    rintro ((reason | reason) | hits)
    · refine .done _ ?_
      intro grounding hmem
      simp [SemanticOutcome.degraded] at hmem
    · exact ih (hmore (.malformed element query reason))
    · exact ih (hmore (.classified element query hits))

/-- All groundings of a script are drawn from answers. -/
theorem leads_ofScript (indexed : Bool) (analysis : Analysis) :
    (ofScript settings indexed analysis).Leads (SemanticOutcome.Drawn settings) := by
  have hdegraded (reason : String) : (SemanticOutcome.degraded reason).Drawn settings := by
    intro grounding hmem
    simp [SemanticOutcome.degraded] at hmem
  unfold ofScript
  split
  · split
    · exact leads_ofQueries settings _ (by simp)
    · exact .done _ (hdegraded _)
  · exact .done _ (hdegraded _)

end Survey

namespace Examination

variable {sources : Sources α σ τ} {settings : Settings α} {examination : Examination α σ τ}
  {holdsGraph : GraphOutcome α → Prop} {holdsExamples : SemanticOutcome α → Prop}

/-- Whether something holds of all that each side of a request can come to. -/
structure Leads (holdsGraph : GraphOutcome α → Prop) (holdsExamples : SemanticOutcome α → Prop)
    (examination : Examination α σ τ) : Prop where
  graph : ∀ inquiry, examination.graphSide = .ok inquiry →
    ∃ recalled, inquiry.Yields (fun _ => holdsGraph) recalled
  examples : ∀ survey, examination.exampleSide = .ok survey → survey.Leads holdsExamples

/-- After a turn the sides can come to nothing else. -/
theorem Leads.turn (h : examination.Leads holdsGraph holdsExamples) (side : Side) :
    (examination.turn sources settings side).Leads holdsGraph holdsExamples := by
  obtain ⟨desk, graphSide, exampleSide⟩ := examination
  cases side with
  | graph =>
    refine ⟨?_, h.examples⟩
    intro rest hrest
    cases graphSide with
    | error problem => cases hrest
    | ok inquiry =>
      have hturn : ((inquiry.turn (cachedLookups sources.graph.shared)).start desk).1 =
          .ok rest := hrest
      obtain ⟨recalled, hyields⟩ := h.graph inquiry rfl
      exact hyields.of_start_turn (Prod.ext hturn rfl)
  | examples =>
    refine ⟨h.graph, ?_⟩
    intro rest hrest
    cases exampleSide with
    | error problem => cases hrest
    | ok survey =>
      have hturn : ((survey.turn (exampleSearch (sources.examples.map ExampleIndex.shared)
          settings)).start desk).1 = .ok rest := hrest
      exact (h.examples survey rfl).of_start_turn (Prod.ext hturn rfl)

/-- After any turns the sides can come to nothing else. -/
theorem Leads.turns (h : examination.Leads holdsGraph holdsExamples) (schedule : List Side) :
    (examination.turns sources settings schedule).Leads holdsGraph holdsExamples := by
  induction schedule generalizing examination with
  | nil => exact h
  | cons side rest ih => exact ih (h.turn side)

/-- What the graph side has come to is one of the things that it could come to. -/
theorem Leads.graph_of_finish (h : examination.Leads holdsGraph holdsExamples)
    {outcome : GraphOutcome α}
    (hfinish : (examination.finish sources settings).graph = .ok outcome) :
    holdsGraph outcome := by
  obtain ⟨desk, graphSide, exampleSide⟩ := examination
  cases graphSide with
  | error problem => cases hfinish
  | ok inquiry =>
    obtain ⟨recalled, hyields⟩ := h.graph inquiry rfl
    obtain ⟨-, hholds⟩ := hyields.of_start_run (Prod.ext hfinish rfl)
    exact hholds

/-- What the example side has come to is one of the things that it could come to. -/
theorem Leads.examples_of_finish (h : examination.Leads holdsGraph holdsExamples)
    {outcome : SemanticOutcome α}
    (hfinish : (examination.finish sources settings).examples = .ok outcome) :
    holdsExamples outcome := by
  obtain ⟨desk, graphSide, exampleSide⟩ := examination
  cases exampleSide with
  | error problem => cases hfinish
  | ok survey => exact (h.examples survey rfl).of_start_run (Prod.ext hfinish rfl)

end Examination

/-- A report is built of the outcomes of both sides. -/
theorem Completion.exists_of_result [Scalar α] {settings : Settings α} {options : ReportOptions}
    {analysis : Analysis} {completion : Completion α σ τ} {report : Report α}
    (h : completion.result settings options analysis = .ok report) :
    ∃ graph semantic, completion.graph = .ok graph ∧ completion.examples = .ok semantic ∧
      report = Report.build settings analysis graph semantic (Fusion.fuse settings graph semantic)
        options := by
  obtain ⟨desk, graph, examples⟩ := completion
  cases graph <;> cases examples <;> simp only [result, Auditor.conclude] at h <;> try contradiction
  split at h <;> cases h
  exact ⟨_, _, rfl, rfl, rfl⟩

namespace Auditor

variable [Scalar α] {schedule : List Side} {sources : Sources α σ τ} {settings : Settings α}
  {options : ReportOptions} {script path : String} {cancelled : Bool} {auditor : Auditor σ τ}
  {report : Report α}

/-- A request that succeeds has reported on a script and on what the two sides have come to, of
which all holds that does of whatever they can come to. -/
theorem exists_outcomes_of_leads {holdsGraph : Analysis → GraphOutcome α → Prop}
    {holdsExamples : Analysis → SemanticOutcome α → Prop}
    (hgraph : ∀ analysis, (GraphCheck.checkScript Inquiry.lookups settings analysis).Yields
      (fun _ => holdsGraph analysis) true)
    (hexamples : ∀ indexed analysis,
      (Survey.ofScript settings indexed analysis).Leads (holdsExamples analysis))
    (h : (auditor.checkInTurns schedule sources settings options script path
      cancelled).response = .success report) :
    ∃ analysis graph semantic, Analysis.ofScript script path = .ok analysis ∧
      holdsGraph analysis graph ∧ holdsExamples analysis semantic ∧
      report = Report.build settings analysis graph semantic
        (Fusion.fuse settings graph semantic) options := by
  unfold checkInTurns at h
  split at h
  · cases h
  · split at h
    · cases h
    · rename_i analysis hscript
      split at h
      · cases h
      · have hleads : (Examination.ofAnalysis sources settings analysis auditor).Leads
            (holdsGraph analysis) (holdsExamples analysis) := by
          constructor
          · rintro _ ⟨⟩
            exact ⟨true, hgraph analysis⟩
          · rintro _ ⟨⟩
            exact hexamples _ analysis
        dsimp only [Completion.account] at h
        split at h
        · rename_i hresult
          cases h
          obtain ⟨graph, semantic, hdone, hsearched, hreport⟩ :=
            Completion.exists_of_result hresult
          exact ⟨analysis, graph, semantic, hscript,
            (hleads.turns schedule).graph_of_finish hdone,
            (hleads.turns schedule).examples_of_finish hsearched, hreport⟩
        · cases h

/-- A request that succeeds has reported on a script, on checks of it and on groundings that are
drawn from answers. -/
theorem exists_outcomes_of_success
    (h : (auditor.checkInTurns schedule sources settings options script path
      cancelled).response = .success report) :
    ∃ analysis graph semantic, Analysis.ofScript script path = .ok analysis ∧
      semantic.Drawn settings ∧ report = Report.build settings analysis graph semantic
        (Fusion.fuse settings graph semantic) options := by
  have hany (analysis : Analysis) :
      (GraphCheck.checkScript Inquiry.lookups settings analysis).Yields (fun _ _ => True) true :=
    .of_forall (fun _ _ => trivial) true _
  obtain ⟨analysis, graph, semantic, hscript, -, hdrawn, hreport⟩ :=
    exists_outcomes_of_leads hany (Survey.leads_ofScript settings) h
  exact ⟨analysis, graph, semantic, hscript, hdrawn, hreport⟩

end Auditor

end UsageAudit
