import UsageAudit.Proofs.Cancellation
import UsageAudit.Proofs.GraphFindings

/-!
# How requests end

A request that is never cancelled ends as the auditor, the script and the graph would have it. As
long as the request stands, the graph side looks up what it would look up by itself, whatever is
searched for in between, and the example side comes to no problem of its own. So the index of
examples decides neither whether there is a report, nor what the report says by the graph, nor what
the cache keeps.
-/

namespace UsageAudit

variable {α β σ τ τ' : Type}

/-- A request that stands after a turn stood before it. -/
theorem Turn.live_before {desk after : SharedDesk σ τ} {side : Side} {outcome : Except Problem β}
    (h : Turn desk side outcome after) (hlive : after.cancelled = false) :
    desk.cancelled = false := by
  cases h with
  | quiet side value after calls flag => rw [← flag, hlive]
  | stopped side after fired calls flag => simp [flag] at hlive
  | called side value call after live calls flag reached => exact live
  | lost reason call after live calls flag lost => exact live

namespace Examination

section Standing

variable (sources : Sources α σ τ) (settings : Settings α) {examination : Examination α σ τ}

/-- What comes of the graph side if it goes on by itself, with the cache and the graph that it
leaves. -/
def graphAlone (graph : KnowledgeGraph σ) (examination : Examination α σ τ) :
    Except Problem (GraphOutcome α) × Desk (Cached σ) :=
  Request.resume examination.graphSide (Inquiry.run (cachedLookups graph))
    examination.desk.graphPart

/-- A request that stands after a turn of an examination stood before it. -/
theorem live_of_turn {side : Side}
    (hlive : (examination.turn sources settings side).desk.cancelled = false) :
    examination.desk.cancelled = false := by
  cases side with
  | graph =>
    cases hside : examination.graphSide with
    | error problem => rwa [turn_graph_of_error sources settings hside] at hlive
    | ok inquiry => exact (turn_graph_of_ok sources settings hside).1.live_before hlive
  | examples =>
    cases hside : examination.exampleSide with
    | error problem => rwa [turn_examples_of_error sources settings hside] at hlive
    | ok survey => exact (turn_examples_of_ok sources settings hside).1.live_before hlive

/-- A request that stands after the turns of a schedule stood before them. -/
theorem live_of_turns (schedule : List Side)
    (hlive : (examination.turns sources settings schedule).desk.cancelled = false) :
    examination.desk.cancelled = false := by
  induction schedule generalizing examination with
  | nil => exact hlive
  | cons side rest ih => exact live_of_turn sources settings (ih hlive)

/-- A turn of the graph side is a part of what it does by itself. -/
theorem graphAlone_turn_graph :
    (examination.turn sources settings .graph).graphAlone sources.graph =
      examination.graphAlone sources.graph := by
  obtain ⟨desk, graphSide, exampleSide⟩ := examination
  rcases graphSide with problem | inquiry
  · rfl
  · cases inquiry with
    | done value => rfl
    | ask question next =>
      have hlookup := (start_lookup_shared sources.graph question desk).1
      rw [turn_graph_ask]
      simp only [graphAlone, Request.resume, Inquiry.start_run_ask, hlookup]
      generalize ((cachedLookups sources.graph.shared).ask question).start desk = looked
      obtain ⟨problem | fetch, after⟩ := looked <;> rfl

/-- A turn of the example side that leaves the request standing makes no difference to the graph
side. -/
theorem graphAlone_turn_examples
    (hlive : (examination.turn sources settings .examples).desk.cancelled = false) :
    (examination.turn sources settings .examples).graphAlone sources.graph =
      examination.graphAlone sources.graph := by
  have hbefore := live_of_turn sources settings hlive
  obtain ⟨desk, graphSide, exampleSide⟩ := examination
  rcases exampleSide with problem | survey
  · rfl
  · cases survey with
    | done outcome => rfl
    | ask query next =>
      obtain ⟨-, hcache, hgraph, -⟩ :=
        start_search_shared sources.examples settings query desk
      rw [turn_examples_ask] at hlive ⊢
      generalize (exampleSearch (sources.examples.map ExampleIndex.shared) settings
        query).start desk = searched at hcache hgraph hlive ⊢
      have hpart : searched.2.graphPart = desk.graphPart := by
        dsimp only at hlive hbefore
        simp only [Desk.graphPart, hcache, hgraph, hlive, hbefore]
      simp only [graphAlone, hpart]

/-- As long as the request stands, no turn makes a difference to what comes of the graph side. -/
theorem graphAlone_turn {side : Side}
    (hlive : (examination.turn sources settings side).desk.cancelled = false) :
    (examination.turn sources settings side).graphAlone sources.graph =
      examination.graphAlone sources.graph := by
  cases side with
  | graph => exact graphAlone_turn_graph sources settings
  | examples => exact graphAlone_turn_examples sources settings hlive

/-- As long as the request stands, no schedule makes a difference to the graph side. -/
theorem graphAlone_turns (schedule : List Side)
    (hlive : (examination.turns sources settings schedule).desk.cancelled = false) :
    (examination.turns sources settings schedule).graphAlone sources.graph =
      examination.graphAlone sources.graph := by
  induction schedule generalizing examination with
  | nil => rfl
  | cons side rest ih =>
    have hturn := live_of_turns sources settings rest hlive
    exact (ih hlive).trans (graphAlone_turn sources settings hturn)

end Standing

variable [Scalar α] (sources : Sources α σ τ) (settings : Settings α)

/-- What comes of the graph side of a request that is never cancelled, and what it leaves of the
cache and the graph, is what comes of the check without another side. -/
theorem graph_of_live (schedule : List Side) (analysis : Analysis) (auditor : Auditor σ τ)
    {completion : Completion α σ τ}
    (hcompletion : ((ofAnalysis sources settings analysis auditor).turns sources settings
      schedule).finish sources settings = completion)
    (hlive : completion.desk.cancelled = false) :
    (completion.graph, completion.desk.graphPart) =
      (GraphCheck.checkScript (cachedLookups sources.graph) settings analysis).start
        ⟨⟨auditor.cache, auditor.graph⟩, false⟩ := by
  obtain ⟨rest, hrest⟩ := exists_turns_finish sources settings
    ((ofAnalysis sources settings analysis auditor).turns sources settings schedule)
  rw [← turns_append, hcompletion] at hrest
  have hstanding : ((ofAnalysis sources settings analysis auditor).turns sources settings
      (schedule ++ rest)).desk.cancelled = false := by
    rw [hrest]
    exact hlive
  calc
    _ = ((ofAnalysis sources settings analysis auditor).turns sources settings
          (schedule ++ rest)).graphAlone sources.graph := by
      rw [hrest]
      obtain ⟨desk, graph, examples⟩ := completion
      cases graph <;> rfl
    _ = (ofAnalysis sources settings analysis auditor).graphAlone sources.graph :=
      graphAlone_turns sources settings (schedule ++ rest) hstanding
    _ = _ := by
      simp only [graphAlone, ofAnalysis, Request.resume, GraphCheck.run_checkScript]
      rfl

end Examination

namespace Orderly

variable {desk : SharedDesk σ τ} {graphSide : Except Problem β} {exampleSide : Except Problem α}

/-- While the request stands, the graph side has no problem but a graph out of reach. -/
theorem exists_lost_of_live (h : Orderly desk graphSide exampleSide)
    (hlive : desk.cancelled = false) {problem : Problem} (hproblem : graphSide = .error problem) :
    ∃ call ∈ desk.calls, ∃ reason, call.graphLost? = some reason := by
  rcases h.graphProblem problem hproblem with ⟨_, hfired⟩ | ⟨reason, rfl⟩
  · rw [hlive] at hfired
    cases hfired
  · obtain ⟨call, hmem, hlost⟩ := (h.lost reason).mp hproblem
    exact ⟨call, hmem, reason, hlost⟩

/-- While the request stands, the example side has no problem. -/
theorem exists_ok_of_live (h : Orderly desk graphSide exampleSide)
    (hlive : desk.cancelled = false) : ∃ value, exampleSide = .ok value := by
  cases exampleSide with
  | ok value => exact ⟨value, rfl⟩
  | error problem =>
    have hfired := (h.exampleProblem problem rfl).2
    rw [hlive] at hfired
    cases hfired

end Orderly

/-- Whether a request fails on a path with a problem and in a phase of the given names. -/
def Response.FailsWith (response : Response α) (path problemName phaseName : String) : Prop :=
  ∃ problem phase, response = .failure path problem phase ∧ problem.name = problemName ∧
    phase.name = phaseName

/-- Whether two requests fail alike, or come to reports that say the same by the graph. -/
inductive Response.SameByGraph : Response α → Response α → Prop
  | success {report report' : Report α} (same : report.SameByGraph report') :
    SameByGraph (.success report) (.success report')
  | failure (path : String) (problem : Problem) (phase : Phase) :
    SameByGraph (.failure path problem phase) (.failure path problem phase)

/-- What says the same by the graph as a report is a report. -/
theorem Response.SameByGraph.exists_report {report : Report α} {response : Response α}
    (h : (Response.success report).SameByGraph response) :
    ∃ report', response = .success report' ∧ report.SameByGraph report' := by
  cases h with
  | success same => exact ⟨_, rfl, same⟩

namespace Account

/-- Whether no call has cancelled the request. -/
def Live (account : Account α σ τ) : Prop := ∀ call ∈ account.calls, call.cancels = false

/-- Whether a request has ended by the first of the causes that keep it from a report, and has come
to one without them. -/
structure Ends (account : Account α σ τ) (auditor : Auditor σ τ) (script path : String) : Prop where
  /-- A closed auditor does nothing. -/
  closed : auditor.closed = true →
    account.response.FailsWith path "collaborator_unavailable" "analyze" ∧
      account.calls = [] ∧ account.auditor = auditor
  /-- Nothing is done for a text that is no script. -/
  unparsable : auditor.closed = false → ∀ error, Analysis.ofScript script path = .error error →
    account.response.FailsWith path "parse_error" "analyze" ∧
      account.calls = [] ∧ account.auditor = auditor
  /-- The graph could not be reached. -/
  lost : auditor.Admits script path → (∃ call ∈ account.calls, call.graphLost? ≠ none) →
    account.response.FailsWith path "collaborator_unavailable" "graph_validate"
  reported : auditor.Admits script path → (∀ call ∈ account.calls, call.graphLost? = none) →
    ∃ report, account.response = .success report

/-- Whether two requests have come to the same as far as the graph goes, and leave the same cache
and the same graph. -/
structure SameByGraph (account : Account α σ τ) (account' : Account α σ τ') : Prop where
  response : account.response.SameByGraph account'.response
  checks : account.graph = account'.graph
  cache : account.auditor.cache = account'.auditor.cache
  graph : account.auditor.graph = account'.auditor.graph

end Account

/-- A request that its calls did not cancel still stands. -/
theorem Prompt.live_of_calls {desk : SharedDesk σ τ} (h : Prompt desk)
    (hlive : ∀ call ∈ desk.calls, call.cancels = false) : desk.cancelled = false := by
  rw [h.fired, List.any_eq_false]
  intro call hmem
  simp [hlive call hmem]

namespace Completion

variable [Scalar α] (settings : Settings α) (options : ReportOptions) (analysis : Analysis)
  (path : String) (auditor : Auditor σ τ) {completion : Completion α σ τ}
  (h : Orderly completion.desk completion.graph completion.examples)
include h

/-- A request that still stands comes to what its graph side has come to: a problem of this side, or
else a report. -/
theorem exists_response_of_live (hlive : completion.desk.cancelled = false) :
    ∃ semantic, (completion.account settings options analysis path auditor).response =
      match completion.graph with
      | .error problem => .failure path problem .graph
      | .ok graph =>
        .success (Report.build settings analysis graph semantic
          (Fusion.fuse settings graph semantic) options) := by
  obtain ⟨semantic, hsemantic⟩ := h.exists_ok_of_live hlive
  refine ⟨semantic, ?_⟩
  cases hgraph : completion.graph with
  | error problem => simp [account, result, Auditor.conclude, hgraph]
  | ok outcome => simp [account, result, Auditor.conclude, hgraph, hsemantic, hlive]

/-- A request that still stands fails if the graph could not be reached. -/
theorem failsWith_of_lost (hlive : completion.desk.cancelled = false)
    (hlost : ∃ call ∈ completion.desk.calls, call.graphLost? ≠ none) :
    (completion.account settings options analysis path auditor).response.FailsWith path
      "collaborator_unavailable" "graph_validate" := by
  obtain ⟨call, hmem, hcall⟩ := hlost
  obtain ⟨reason, hreason⟩ := Option.ne_none_iff_exists'.mp hcall
  have hgraph := (h.lost reason).mpr ⟨call, hmem, hreason⟩
  obtain ⟨semantic, hresponse⟩ :=
    exists_response_of_live settings options analysis path auditor h hlive
  rw [hgraph] at hresponse
  exact ⟨.unavailable reason, .graph, hresponse, rfl, rfl⟩

/-- A request that still stands has a report if the graph could be reached. -/
theorem exists_report_of_reached (hlive : completion.desk.cancelled = false)
    (hreached : ∀ call ∈ completion.desk.calls, call.graphLost? = none) :
    ∃ report, (completion.account settings options analysis path auditor).response =
      .success report := by
  obtain ⟨semantic, hresponse⟩ :=
    exists_response_of_live settings options analysis path auditor h hlive
  cases hgraph : completion.graph with
  | error problem =>
    obtain ⟨call, hmem, reason, hlost⟩ := h.exists_lost_of_live hlive hgraph
    rw [hreached call hmem] at hlost
    cases hlost
  | ok outcome =>
    rw [hgraph] at hresponse
    exact ⟨_, hresponse⟩

/-- Requests that still stand and whose graph sides have come to the same come to the same as far as
the graph goes. -/
theorem sameByGraph_of_live {auditor' : Auditor σ τ'} {completion' : Completion α σ τ'}
    (h' : Orderly completion'.desk completion'.graph completion'.examples)
    (hlive : completion.desk.cancelled = false) (hlive' : completion'.desk.cancelled = false)
    (hside : (completion.graph, completion.desk.graphPart) =
      (completion'.graph, completion'.desk.graphPart)) :
    (completion.account settings options analysis path auditor).SameByGraph
      (completion'.account settings options analysis path auditor') := by
  obtain ⟨semantic, hresponse⟩ :=
    exists_response_of_live settings options analysis path auditor h hlive
  obtain ⟨semantic', hresponse'⟩ :=
    exists_response_of_live settings options analysis path auditor' h' hlive'
  simp only [Prod.mk.injEq, Desk.graphPart, Desk.mk.injEq, Cached.mk.injEq] at hside
  obtain ⟨hgraph, ⟨hcache, hstate⟩, -⟩ := hside
  constructor
  · rw [hresponse, hresponse', ← hgraph]
    cases completion.graph with
    | error problem => exact .failure path problem .graph
    | ok outcome =>
      exact .success (Report.sameByGraph_build settings analysis outcome semantic semantic' options)
  · exact congrArg some hgraph
  · exact hcache
  · exact hstate

end Completion

namespace Auditor

/-- The auditor with another index of examples, in the given state. -/
def withExamples (auditor : Auditor σ τ) (examples : τ') : Auditor σ τ' :=
  ⟨auditor.cache, auditor.graph, examples, auditor.closed⟩

variable [Scalar α] (schedule schedule' : List Side) (graph : KnowledgeGraph σ)
  (settings : Settings α) (options : ReportOptions) (script path : String)

/-- A request that is never cancelled ends by the first cause that keeps it from a report. -/
theorem ends_checkInTurns (sources : Sources α σ τ) (auditor : Auditor σ τ)
    (hlive : (auditor.checkInTurns schedule sources settings options script path false).Live) :
    (auditor.checkInTurns schedule sources settings options script path false).Ends auditor script
      path := by
  cases hclosed : auditor.closed with
  | true =>
    rw [checkInTurns_of_closed schedule sources settings options false hclosed]
    have hrefused := not_admits_of_closed hclosed script path
    exact
      { closed := fun _ => ⟨⟨_, _, rfl, rfl, rfl⟩, rfl, rfl⟩
        unparsable := fun hopen => by simp [hclosed] at hopen
        lost := fun hadmits => absurd hadmits hrefused
        reported := fun hadmits => absurd hadmits hrefused }
  | false =>
    cases hscript : Analysis.ofScript script path with
    | error error =>
      rw [checkInTurns_of_unparsable schedule sources settings options false hclosed hscript]
      have hrefused := not_admits_of_unparsable auditor hscript
      exact
        { closed := fun hclosed' => by simp [hclosed] at hclosed'
          unparsable := fun _ _ _ => ⟨⟨_, _, rfl, rfl, rfl⟩, rfl, rfl⟩
          lost := fun hadmits => absurd hadmits hrefused
          reported := fun hadmits => absurd hadmits hrefused }
    | ok analysis =>
      have horder := Examination.orderly_finish sources settings schedule analysis auditor
      rw [checkInTurns_of_live schedule sources settings options hclosed hscript] at hlive ⊢
      generalize ((Examination.ofAnalysis sources settings analysis auditor).turns sources
        settings schedule).finish sources settings = completion at hlive horder ⊢
      have hstanding := horder.prompt.live_of_calls hlive
      exact
        { closed := fun hclosed' => by simp [hclosed] at hclosed'
          unparsable := fun _ error herror => by simp [hscript] at herror
          lost := fun _ hlost =>
            Completion.failsWith_of_lost settings options analysis path auditor horder hstanding
              hlost
          reported := fun _ hreached =>
            Completion.exists_report_of_reached settings options analysis path auditor horder
              hstanding hreached }

/-- Requests that are never cancelled come to the same as far as the graph goes, whatever index of
examples is searched and whichever side is faster. -/
theorem sameByGraph_checkInTurns (examples : Option (ExampleIndex α τ))
    (examples' : Option (ExampleIndex α τ')) (auditor : Auditor σ τ) (state : τ')
    (hlive : (auditor.checkInTurns schedule ⟨graph, examples⟩ settings options script path
      false).Live)
    (hlive' : ((auditor.withExamples state).checkInTurns schedule' ⟨graph, examples'⟩ settings
      options script path false).Live) :
    (auditor.checkInTurns schedule ⟨graph, examples⟩ settings options script path
        false).SameByGraph
      ((auditor.withExamples state).checkInTurns schedule' ⟨graph, examples'⟩ settings options
        script path false) := by
  cases hclosed : auditor.closed with
  | true =>
    rw [checkInTurns_of_closed schedule _ settings options false hclosed,
      checkInTurns_of_closed schedule' _ settings options false
        (show (auditor.withExamples state).closed = true from hclosed)]
    exact ⟨.failure _ _ _, rfl, rfl, rfl⟩
  | false =>
    have hclosed' : (auditor.withExamples state).closed = false := hclosed
    cases hscript : Analysis.ofScript script path with
    | error error =>
      rw [checkInTurns_of_unparsable schedule _ settings options false hclosed hscript,
        checkInTurns_of_unparsable schedule' _ settings options false hclosed' hscript]
      exact ⟨.failure _ _ _, rfl, rfl, rfl⟩
    | ok analysis =>
      rw [checkInTurns_of_live schedule _ settings options hclosed hscript] at hlive ⊢
      rw [checkInTurns_of_live schedule' _ settings options hclosed' hscript] at hlive' ⊢
      have horder := Examination.orderly_finish ⟨graph, examples⟩ settings schedule analysis auditor
      have horder' := Examination.orderly_finish ⟨graph, examples'⟩ settings schedule' analysis
        (auditor.withExamples state)
      have hstanding := horder.prompt.live_of_calls hlive
      have hstanding' := horder'.prompt.live_of_calls hlive'
      refine Completion.sameByGraph_of_live settings options analysis path auditor horder horder'
        hstanding hstanding' ?_
      exact (Examination.graph_of_live _ settings schedule analysis auditor rfl hstanding).trans
        (Examination.graph_of_live _ settings schedule' analysis (auditor.withExamples state) rfl
          hstanding').symm

/-- A request that is never cancelled fails before anything is called if the auditor is closed or
the script is none, fails if the graph could not be reached, and has a report otherwise. Another
index of examples, none at all or another schedule of the sides changes neither whether and how it
fails, nor what it says by the graph, nor what it leaves in the cache. -/
theorem uncancelled_request (examples : Option (ExampleIndex α τ))
    (examples' : Option (ExampleIndex α τ')) (auditor : Auditor σ τ) (state : τ')
    (hlive : (auditor.checkInTurns schedule ⟨graph, examples⟩ settings options script path
      false).Live)
    (hlive' : ((auditor.withExamples state).checkInTurns schedule' ⟨graph, examples'⟩ settings
      options script path false).Live) :
    let sources : Sources α σ τ := ⟨graph, examples⟩
    let account := auditor.checkInTurns schedule sources settings options script path false
    account.Ends auditor script path ∧
      account.SameByGraph ((auditor.withExamples state).checkInTurns schedule' ⟨graph, examples'⟩
        settings options script path false) ∧
      auditor.check sources settings options script path false =
        let sequential := auditor.checkInTurns [] sources settings options script path false
        (sequential.response, sequential.auditor) :=
  ⟨ends_checkInTurns schedule settings options script path _ auditor hlive,
    sameByGraph_checkInTurns schedule schedule' graph settings options script path examples
      examples' auditor state hlive hlive',
    check_eq_checkInTurns _ settings options script path false auditor⟩

/-- An index whose answers are never of the right form. -/
def garbledIndex : ExampleIndex Rat Unit where
  search _ _ _ state := ⟨.error (.malformed "not a list"), state, false⟩
  close := id

/-- What comes of a script under a schedule, with an index or without one. -/
def arrayAccount (schedule : List Side) (examples : Option (ExampleIndex Rat Unit)) :
    Account Rat Unit Unit :=
  (fresh () ()).checkInTurns schedule ⟨blankGraph, examples⟩ Settings.standard ⟨true, true⟩
    "import numpy\n" "arrays.py" false

/-- A garbled answer that comes first is as good as no index. -/
theorem uncancelled_request_arrayAccount :
    (arrayAccount [.examples] (some garbledIndex)).calls.length = 2 ∧
      ∃ report report', (arrayAccount [.examples] (some garbledIndex)).response = .success report ∧
        (arrayAccount [] none).response = .success report' ∧ report.SameByGraph report' := by
  have hcalls : (arrayAccount [.examples] (some garbledIndex)).calls.length = 2 := by
    decide +kernel
  have hlive : ∀ call ∈ (arrayAccount [.examples] (some garbledIndex)).calls,
      call.cancels = false := by decide +kernel
  have hlive' : ∀ call ∈ (arrayAccount [] none).calls, call.cancels = false := by decide +kernel
  have hreached : ∀ call ∈ (arrayAccount [.examples] (some garbledIndex)).calls,
      call.graphLost? = none := by decide +kernel
  obtain ⟨hends, hsame, -⟩ :=
    uncancelled_request [.examples] [] blankGraph Settings.standard ⟨true, true⟩ "import numpy\n"
      "arrays.py" (some garbledIndex) none (fresh () ()) () hlive hlive'
  obtain ⟨report, hreport⟩ := hends.reported admits_importScript hreached
  have hresponse := hsame.response
  rw [hreport] at hresponse
  obtain ⟨report', hreport', hreports⟩ := hresponse.exists_report
  exact ⟨hcalls, report, report', hreport, hreport', hreports⟩

end Auditor

end UsageAudit
