import UsageAudit.Proofs.Calls
import UsageAudit.Proofs.Operation

/-!
# Requests whose two sides take turns

While one side of a request looks symbols up, the other searches for examples. Whoever is faster
goes first, so a request is followed under any schedule: as long as the schedule lasts, its sides
take turns of one lookup or one search, and then they finish one after the other. No turn is
interrupted between its look at the cancellation and the answer to its call. An auditor that lets
the graph side finish before the other begins is the one whose schedule is empty.
-/

namespace UsageAudit

variable {α β γ σ τ : Type}

/-- Goes on from what a part of a request has come to, unless that is a problem. -/
def Request.resume (part : Except Problem β) (go : β → Request σ γ) (desk : Desk σ) :
    Except Problem γ × Desk σ :=
  match part with
  | .ok value => (go value).start desk
  | .error problem => (.error problem, desk)

namespace Inquiry

/-- One turn of an inquiry: the answer to its first question is looked up. -/
def turn {m : Type → Type} [Monad m] (lookups : Lookups m) : Inquiry β → m (Inquiry β)
  | .done value => pure (.done value)
  | .ask question next => next <$> lookups.ask question

/-- A turn is a lookup. -/
theorem start_turn_ask {lookups : Lookups (Request σ)} (question : Question)
    (next : Fetch question.Answer → Inquiry β) (desk : Desk σ) :
    ((Inquiry.ask question next).turn lookups).start desk =
      (((lookups.ask question).start desk).1.map next, ((lookups.ask question).start desk).2) :=
  Request.start_map desk next _

/-- A run on the shared desk is the run on the part of the graph, and leaves the examples alone. -/
theorem start_run_shared (graph : KnowledgeGraph σ) (inquiry : Inquiry β) (desk : SharedDesk σ τ) :
    let ran := (inquiry.run (cachedLookups graph.shared)).start desk
    (inquiry.run (cachedLookups graph)).start desk.graphPart = (ran.1, ran.2.graphPart) ∧
      ran.2.state.graph.examples = desk.state.graph.examples := by
  induction inquiry generalizing desk with
  | done value => exact ⟨rfl, rfl⟩
  | ask question next ih =>
    have hlookup := start_lookup_shared graph question desk
    dsimp only at hlookup
    simp only [start_run_ask, hlookup.1]
    generalize ((cachedLookups graph.shared).ask question).start desk = looked at hlookup ⊢
    obtain ⟨problem | fetch, after⟩ := looked
    · exact ⟨rfl, hlookup.2.1⟩
    · obtain ⟨hrest, hleft⟩ := ih fetch after
      exact ⟨hrest, hleft.trans hlookup.2.1⟩

end Inquiry

namespace Survey

/-- One turn of a survey: its first query is searched for. -/
def turn {m : Type → Type} [Monad m] (search : String → m (Except SourceFault (List (Hit α)))) :
    Survey α → m (Survey α)
  | .done outcome => pure (.done outcome)
  | .ask query next => next <$> search query

/-- A turn is a search. -/
theorem start_turn_ask (search : String → Request τ (Except SourceFault (List (Hit α))))
    (query : String) (next : Except SourceFault (List (Hit α)) → Survey α) (desk : Desk τ) :
    ((Survey.ask query next).turn search).start desk =
      (((search query).start desk).1.map next, ((search query).start desk).2) :=
  Request.start_map desk next _

/-- A run on the shared desk is the run on the part of the examples, and leaves the cache and the
graph alone. -/
theorem start_run_shared (examples : Option (ExampleIndex α τ)) (settings : Settings α)
    (survey : Survey α) (desk : SharedDesk σ τ) :
    let ran := (survey.run (exampleSearch (examples.map ExampleIndex.shared) settings)).start desk
    (survey.run (exampleSearch examples settings)).start desk.examplePart =
        (ran.1, ran.2.examplePart) ∧
      ran.2.state.cache = desk.state.cache ∧
      ran.2.state.graph.graph = desk.state.graph.graph := by
  induction survey generalizing desk with
  | done outcome => exact ⟨rfl, rfl, rfl⟩
  | ask query next ih =>
    have hsearch := start_search_shared examples settings query desk
    dsimp only at hsearch
    simp only [start_run_ask, hsearch.1]
    generalize (exampleSearch (examples.map ExampleIndex.shared) settings query).start desk =
      searched at hsearch ⊢
    obtain ⟨-, hcache, hgraph, -⟩ := hsearch
    obtain ⟨problem | answer, after⟩ := searched
    · exact ⟨rfl, hcache, hgraph⟩
    · obtain ⟨hrest, hcache', hgraph'⟩ := ih answer after
      exact ⟨hrest, hcache'.trans hcache, hgraph'.trans hgraph⟩

end Survey

/-- A request between two turns: what its sides work on, and what is left of them. -/
structure Examination (α σ τ : Type) where
  desk : SharedDesk σ τ
  graphSide : Except Problem (Inquiry (GraphOutcome α))
  exampleSide : Except Problem (Survey α)

/-- What has come of both sides of a request. -/
structure Completion (α σ τ : Type) where
  desk : SharedDesk σ τ
  graph : Except Problem (GraphOutcome α)
  examples : Except Problem (SemanticOutcome α)

/-- The report on what has come of both sides, or the problem that ends the request. -/
def Completion.result [Scalar α] (settings : Settings α) (options : ReportOptions)
    (analysis : Analysis) (completion : Completion α σ τ) :
    Except (Problem × Phase) (Report α) :=
  Auditor.conclude settings options analysis completion.graph completion.examples
    completion.desk.cancelled

namespace Examination

section Turns

variable (sources : Sources α σ τ) (settings : Settings α)

/-- A turn of one side. -/
def turn (examination : Examination α σ τ) : Side → Examination α σ τ
  | .graph =>
    let (graphSide, desk) :=
      Request.resume examination.graphSide (Inquiry.turn (cachedLookups sources.graph.shared))
        examination.desk
    { examination with desk := desk, graphSide := graphSide }
  | .examples =>
    let (exampleSide, desk) :=
      Request.resume examination.exampleSide
        (Survey.turn (exampleSearch (sources.examples.map ExampleIndex.shared) settings))
        examination.desk
    { examination with desk := desk, exampleSide := exampleSide }

/-- The turns of a schedule. -/
def turns (examination : Examination α σ τ) (schedule : List Side) : Examination α σ τ :=
  schedule.foldl (turn sources settings) examination

/-- What is left of both sides, the graph side first. -/
def finish (examination : Examination α σ τ) : Completion α σ τ :=
  let (graph, desk) :=
    Request.resume examination.graphSide (Inquiry.run (cachedLookups sources.graph.shared))
      examination.desk
  let (examples, desk) :=
    Request.resume examination.exampleSide
      (Survey.run (exampleSearch (sources.examples.map ExampleIndex.shared) settings)) desk
  ⟨desk, graph, examples⟩

/-- A turn of the graph side is a lookup. -/
theorem turn_graph_ask (desk : SharedDesk σ τ) (question : Question)
    (next : Fetch question.Answer → Inquiry (GraphOutcome α))
    (exampleSide : Except Problem (Survey α)) :
    (Examination.mk desk (.ok (.ask question next)) exampleSide).turn sources settings .graph =
      let looked := ((cachedLookups sources.graph.shared).ask question).start desk
      ⟨looked.2, looked.1.map next, exampleSide⟩ := by
  simp only [turn, Request.resume, Inquiry.start_turn_ask]

/-- A turn of the example side is a search. -/
theorem turn_examples_ask (desk : SharedDesk σ τ)
    (graphSide : Except Problem (Inquiry (GraphOutcome α))) (query : String)
    (next : Except SourceFault (List (Hit α)) → Survey α) :
    (Examination.mk desk graphSide (.ok (.ask query next))).turn sources settings .examples =
      let searched :=
        (exampleSearch (sources.examples.map ExampleIndex.shared) settings query).start desk
      ⟨searched.2, graphSide, searched.1.map next⟩ := by
  simp only [turn, Request.resume, Survey.start_turn_ask]

/-- One more turn of a side before the others. -/
theorem turns_replicate_succ (examination : Examination α σ τ) (count : Nat) (side : Side) :
    examination.turns sources settings (List.replicate (count + 1) side) =
      (examination.turn sources settings side).turns sources settings
        (List.replicate count side) := rfl

/-- What is left of the graph side is a row of its turns. -/
theorem exists_turns_graph (inquiry : Inquiry (GraphOutcome α)) (desk : SharedDesk σ τ)
    (exampleSide : Except Problem (Survey α)) :
    ∃ count, (Examination.mk desk (.ok inquiry) exampleSide).turns sources settings
        (List.replicate count .graph) =
      let ran := (inquiry.run (cachedLookups sources.graph.shared)).start desk
      ⟨ran.2, ran.1.map .done, exampleSide⟩ := by
  induction inquiry generalizing desk with
  | done value => exact ⟨0, rfl⟩
  | ask question next ih =>
    have hturn := turn_graph_ask sources settings desk question next exampleSide
    rw [Inquiry.start_run_ask]
    rcases hlooked : ((cachedLookups sources.graph.shared).ask question).start desk with
      ⟨problem | fetch, after⟩
    · rw [hlooked] at hturn
      exact ⟨1, hturn⟩
    · rw [hlooked] at hturn
      obtain ⟨count, hcount⟩ := ih fetch after
      refine ⟨count + 1, ?_⟩
      rw [turns_replicate_succ, hturn]
      exact hcount

/-- What is left of the example side is a row of its turns. -/
theorem exists_turns_examples (survey : Survey α) (desk : SharedDesk σ τ)
    (graphSide : Except Problem (Inquiry (GraphOutcome α))) :
    ∃ count, (Examination.mk desk graphSide (.ok survey)).turns sources settings
        (List.replicate count .examples) =
      let ran := (survey.run (exampleSearch (sources.examples.map ExampleIndex.shared)
        settings)).start desk
      ⟨ran.2, graphSide, ran.1.map .done⟩ := by
  induction survey generalizing desk with
  | done outcome => exact ⟨0, rfl⟩
  | ask query next ih =>
    have hturn := turn_examples_ask sources settings desk graphSide query next
    rw [Survey.start_run_ask]
    rcases hsearched : (exampleSearch (sources.examples.map ExampleIndex.shared) settings
        query).start desk with ⟨problem | answer, after⟩
    · rw [hsearched] at hturn
      exact ⟨1, hturn⟩
    · rw [hsearched] at hturn
      obtain ⟨count, hcount⟩ := ih answer after
      refine ⟨count + 1, ?_⟩
      rw [turns_replicate_succ, hturn]
      exact hcount

/-- Turns made one schedule after the other. -/
theorem turns_append (examination : Examination α σ τ) (first second : List Side) :
    examination.turns sources settings (first ++ second) =
      (examination.turns sources settings first).turns sources settings second :=
  List.foldl_append

/-- What is left of both sides is a row of turns, after which neither side has anything to do. -/
theorem exists_turns_finish (examination : Examination α σ τ) :
    ∃ schedule, examination.turns sources settings schedule =
      let completion := examination.finish sources settings
      ⟨completion.desk, completion.graph.map .done, completion.examples.map .done⟩ := by
  obtain ⟨desk, graphSide, exampleSide⟩ := examination
  obtain ⟨first, hfirst⟩ : ∃ schedule,
      (Examination.mk desk graphSide exampleSide).turns sources settings schedule =
        let ran := Request.resume graphSide (Inquiry.run (cachedLookups sources.graph.shared)) desk
        ⟨ran.2, ran.1.map .done, exampleSide⟩ := by
    cases graphSide with
    | error problem => exact ⟨[], rfl⟩
    | ok inquiry =>
      obtain ⟨count, hcount⟩ := exists_turns_graph sources settings inquiry desk exampleSide
      exact ⟨_, hcount⟩
  generalize hran : Request.resume graphSide
    (Inquiry.run (cachedLookups sources.graph.shared)) desk = ran at hfirst
  obtain ⟨second, hsecond⟩ : ∃ schedule,
      (Examination.mk ran.2 (ran.1.map .done) exampleSide).turns sources settings schedule =
        let rest := Request.resume exampleSide
          (Survey.run (exampleSearch (sources.examples.map ExampleIndex.shared) settings)) ran.2
        ⟨rest.2, ran.1.map .done, rest.1.map .done⟩ := by
    cases exampleSide with
    | error problem => exact ⟨[], rfl⟩
    | ok survey =>
      obtain ⟨count, hcount⟩ :=
        exists_turns_examples sources settings survey ran.2 (ran.1.map .done)
      exact ⟨_, hcount⟩
  refine ⟨first ++ second, ?_⟩
  rw [turns_append, hfirst]
  simp only [finish, hran]
  exact hsecond

end Turns

section Beginning

variable [Scalar α] (sources : Sources α σ τ) (settings : Settings α)

/-- A request whose script has been analysed, before its first turn. -/
def ofAnalysis (analysis : Analysis) (auditor : Auditor σ τ) : Examination α σ τ where
  desk := ⟨⟨auditor.cache, ⟨auditor.graph, auditor.examples, []⟩⟩, false⟩
  graphSide := .ok (GraphCheck.checkScript Inquiry.lookups settings analysis)
  exampleSide := .ok (Survey.ofScript settings sources.examples.isSome analysis)

/-- Without a schedule, the graph side finishes before the example side begins. -/
theorem finish_ofAnalysis (options : ReportOptions) (analysis : Analysis)
    (auditor : Auditor σ τ) :
    let completion := (ofAnalysis sources settings analysis auditor).finish sources settings
    auditor.examine sources settings options analysis false =
      (completion.result settings options analysis,
        { auditor with
          cache := completion.desk.state.cache
          graph := completion.desk.state.graph.graph
          examples := completion.desk.state.graph.examples }) := by
  have hgraph := Inquiry.start_run_shared sources.graph
    (GraphCheck.checkScript Inquiry.lookups settings analysis)
    (ofAnalysis sources settings analysis auditor).desk
  simp only [GraphCheck.run_checkScript] at hgraph
  simp only [finish, ofAnalysis, Request.resume, GraphCheck.run_checkScript] at hgraph ⊢
  generalize (GraphCheck.checkScript (cachedLookups sources.graph.shared) settings analysis).start
    _ = looked at hgraph ⊢
  obtain ⟨hlooked, hexamples⟩ := hgraph
  have hsearch := Survey.start_run_shared sources.examples settings
    (Survey.ofScript settings sources.examples.isSome analysis) looked.2
  rw [ExampleSearch.start_run_ofScript] at hsearch
  dsimp only at hsearch
  generalize ((Survey.ofScript settings sources.examples.isSome analysis).run
    (exampleSearch (sources.examples.map ExampleIndex.shared) settings)).start looked.2 =
      searched at hsearch ⊢
  obtain ⟨hsearched, hcache, hstate⟩ := hsearch
  have hbegin : (GraphCheck.checkScript (cachedLookups sources.graph) settings analysis).start
      ⟨⟨auditor.cache, auditor.graph⟩, false⟩ = (looked.1, looked.2.graphPart) := hlooked
  have hnext : (groundWith sources.examples settings analysis).start
      ⟨auditor.examples, looked.2.graphPart.cancelled⟩ = (searched.1, searched.2.examplePart) := by
    rw [← hexamples]
    exact hsearched
  simp only [Auditor.examine, hbegin, hnext, hcache, hstate]
  obtain ⟨graph, desk⟩ := looked
  obtain ⟨semantic, after⟩ := searched
  cases graph <;> cases semantic <;> rfl

end Beginning

end Examination

/-- What came of a request, and the calls that were made for it, the latest first. -/
structure Account (α σ τ : Type) where
  response : Response α
  auditor : Auditor σ τ
  calls : List Call
  /-- What came of the graph side, if it was begun. -/
  graph : Option (Except Problem (GraphOutcome α))

/-- The account of a request both of whose sides have finished. -/
def Completion.account [Scalar α] (settings : Settings α) (options : ReportOptions)
    (analysis : Analysis) (path : String) (auditor : Auditor σ τ) (completion : Completion α σ τ) :
    Account α σ τ where
  response :=
    match completion.result settings options analysis with
    | .ok report => .success report
    | .error (problem, phase) => .failure path problem phase
  auditor :=
    { auditor with
      cache := completion.desk.state.cache
      graph := completion.desk.state.graph.graph
      examples := completion.desk.state.graph.examples }
  calls := completion.desk.calls
  graph := some completion.graph

namespace Auditor

variable [Scalar α] (schedule : List Side) (sources : Sources α σ τ) (settings : Settings α)
  (options : ReportOptions) (script path : String) (cancelled : Bool) (auditor : Auditor σ τ)

/-- Answers a request for a script whose sides take turns by the schedule. -/
def checkInTurns : Account α σ τ :=
  if auditor.closed then
    ⟨.failure path (.unavailable "checker is closed") .analyze, auditor, [], none⟩
  else
    match Analysis.ofScript script path with
    | .error error => ⟨.failure path (.unparsable error) .analyze, auditor, [], none⟩
    | .ok analysis =>
      if cancelled then ⟨.failure path .cancelled .analyze, auditor, [], none⟩
      else
        (((Examination.ofAnalysis sources settings analysis auditor).turns sources settings
          schedule).finish sources settings).account settings options analysis path auditor

/-- An auditor that lets the graph side finish before the other begins is the one whose schedule is
empty. -/
theorem check_eq_checkInTurns :
    auditor.check sources settings options script path cancelled =
      let account := auditor.checkInTurns [] sources settings options script path cancelled
      (account.response, account.auditor) := by
  obtain ⟨cache, graph, examples, closed⟩ := auditor
  unfold check run checkInTurns
  cases closed with
  | true => rfl
  | false =>
    cases Analysis.ofScript script path with
    | error error => rfl
    | ok analysis =>
      cases cancelled with
      | true => rfl
      | false =>
        simp only [Bool.false_eq_true, if_false, Examination.turns, List.foldl_nil,
          Examination.finish_ofAnalysis sources settings options analysis, Completion.account]
        generalize (Examination.ofAnalysis sources settings analysis
          ⟨cache, graph, examples, false⟩).finish sources settings = completion
        rcases completion.result settings options analysis with ⟨problem, phase⟩ | report <;> rfl

section Admission

variable {script path} {auditor}

/-- A closed auditor fails at once. -/
theorem checkInTurns_of_closed (hclosed : auditor.closed = true) :
    auditor.checkInTurns schedule sources settings options script path cancelled =
      ⟨.failure path (.unavailable "checker is closed") .analyze, auditor, [], none⟩ := by
  simp [checkInTurns, hclosed]

/-- A request for a text that is no script fails before anything is called. -/
theorem checkInTurns_of_unparsable (hopen : auditor.closed = false) {error : ParseError}
    (hscript : Analysis.ofScript script path = .error error) :
    auditor.checkInTurns schedule sources settings options script path cancelled =
      ⟨.failure path (.unparsable error) .analyze, auditor, [], none⟩ := by
  simp [checkInTurns, hopen, hscript]

/-- A request that stands when its script has been analysed is examined on both sides. -/
theorem checkInTurns_of_live {analysis : Analysis} (hopen : auditor.closed = false)
    (hscript : Analysis.ofScript script path = .ok analysis) :
    auditor.checkInTurns schedule sources settings options script path false =
      (((Examination.ofAnalysis sources settings analysis auditor).turns sources settings
        schedule).finish sources settings).account settings options analysis path auditor := by
  simp [checkInTurns, hopen, hscript]

end Admission

end Auditor

end UsageAudit
