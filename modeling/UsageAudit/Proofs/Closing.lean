import Mathlib.Data.List.Forall2
import UsageAudit.Proofs.Ending

/-!
# Closing an auditor

An auditor may be told to check scripts and files and to close, in any order and as often as one
likes. The first closing is the one that counts: each source is closed once, the answers are dropped,
and from then on every request is refused without a call. To count how often a source is closed, it
is wrapped in one that counts; that the count changes nothing else is shown once for all requests,
whatever the schedule of their sides.
-/

namespace UsageAudit

variable {α β γ κ σ σ' τ : Type}

/-- The desk, with as much of its state as is seen from outside. -/
def Desk.seen (view : σ' → σ) (desk : Desk σ') : Desk σ := ⟨view desk.state, desk.cancelled⟩

/-- Whether two acts come to the same on states that look alike, and the first leaves alone what is
to be kept of its state. -/
def ActsAlike (view : σ' → σ) (kept : σ' → κ) (act' : Desk σ' → Except Problem β × Desk σ')
    (act : Desk σ → Except Problem β × Desk σ) : Prop :=
  ∀ desk, act (desk.seen view) = ((act' desk).1, (act' desk).2.seen view) ∧
    kept (act' desk).2.state = kept desk.state

namespace ActsAlike

variable {view : σ' → σ} {kept : σ' → κ}

/-- A value is given without touching the state. -/
theorem pure (value : β) :
    ActsAlike view kept (Request.start (Pure.pure value)) (Request.start (Pure.pure value)) :=
  fun _ => ⟨rfl, rfl⟩

/-- Parts of a request that act alike make up requests that act alike. -/
theorem bind {request' : Request σ' β} {request : Request σ β} {rest' : β → Request σ' γ}
    {rest : β → Request σ γ} (hfirst : ActsAlike view kept request'.start request.start)
    (hrest : ∀ value, ActsAlike view kept (rest' value).start (rest value).start) :
    ActsAlike view kept (request' >>= rest').start (request >>= rest).start := by
  intro desk
  obtain ⟨hsame, hkept⟩ := hfirst desk
  rw [Request.start_bind, Request.start_bind, hsame]
  generalize request'.start desk = first at hkept ⊢
  obtain ⟨problem | value, after⟩ := first
  · exact ⟨rfl, hkept⟩
  · obtain ⟨hsame', hkept'⟩ := hrest value after
    exact ⟨hsame', hkept'.trans hkept⟩

/-- What is made of the value in the end does not matter. -/
theorem map {request' : Request σ' β} {request : Request σ β}
    (h : ActsAlike view kept request'.start request.start) (f : β → γ) :
    ActsAlike view kept (f <$> request').start (f <$> request).start := by
  rw [map_eq_pure_bind, map_eq_pure_bind]
  exact h.bind fun value => .pure (f value)

/-- Going on from what a part has come to. -/
theorem resume {go' : β → Request σ' γ} {go : β → Request σ γ} (part : Except Problem β)
    (h : ∀ value, ActsAlike view kept (go' value).start (go value).start) :
    ActsAlike view kept (Request.resume part go') (Request.resume part go) := by
  cases part with
  | error problem => exact fun _ => ⟨rfl, rfl⟩
  | ok value => exact h value

section Inquiries

variable {lookups' : Lookups (Request σ')} {lookups : Lookups (Request σ)}
  (hlookup : ∀ question, ActsAlike view kept (lookups'.ask question).start
    (lookups.ask question).start)
include hlookup

/-- An inquiry acts as its lookups do. -/
theorem inquiry_run (inquiry : Inquiry β) :
    ActsAlike view kept (inquiry.run lookups').start (inquiry.run lookups).start := by
  induction inquiry with
  | done value => exact .pure value
  | ask question next ih => exact (hlookup question).bind ih

/-- A turn of an inquiry acts as its lookups do. -/
theorem inquiry_turn (inquiry : Inquiry β) :
    ActsAlike view kept (inquiry.turn lookups').start (inquiry.turn lookups).start := by
  cases inquiry with
  | done value => exact .pure _
  | ask question next => exact (hlookup question).map next

end Inquiries

section Surveys

variable {search' : String → Request σ' (Except SourceFault (List (Hit α)))}
  {search : String → Request σ (Except SourceFault (List (Hit α)))}
  (hsearch : ∀ query, ActsAlike view kept (search' query).start (search query).start)
include hsearch

/-- A survey acts as its searches do. -/
theorem survey_run (survey : Survey α) :
    ActsAlike view kept (survey.run search').start (survey.run search).start := by
  induction survey with
  | done outcome => exact .pure outcome
  | ask query next ih => exact (hsearch query).bind ih

/-- A turn of a survey acts as its searches do. -/
theorem survey_turn (survey : Survey α) :
    ActsAlike view kept (survey.turn search').start (survey.turn search).start := by
  cases survey with
  | done outcome => exact .pure _
  | ask query next => exact (hsearch query).map next

end Surveys

end ActsAlike

/-- A source with the number of times that it has been closed. -/
structure Counted (σ : Type) where
  state : σ
  closes : Nat

/-- A source replies as it would without the count. -/
def Counted.reply (reply : σ → Reply σ β) (source : Counted σ) : Reply (Counted σ) β :=
  let reply := reply source.state
  ⟨reply.answer, { source with state := reply.state }, reply.cancels⟩

/-- A source is closed, and that is counted. -/
def Counted.close (close : σ → σ) (source : Counted σ) : Counted σ :=
  ⟨close source.state, source.closes + 1⟩

/-- The graph, with a count of its closings. -/
def KnowledgeGraph.counted (graph : KnowledgeGraph σ) : KnowledgeGraph (Counted σ) where
  findSymbol kind qualifiers := Counted.reply (graph.findSymbol kind qualifiers)
  findMethodSignature owner method := Counted.reply (graph.findMethodSignature owner method)
  findFunctionSignature path name := Counted.reply (graph.findFunctionSignature path name)
  close := Counted.close graph.close

/-- A graph whose closings are counted replies to every question alike. -/
theorem KnowledgeGraph.counted_reply (graph : KnowledgeGraph σ) (question : Question) :
    graph.counted.reply question = Counted.reply (graph.reply question) := by
  cases question <;> rfl

/-- The index, with a count of its closings. -/
def ExampleIndex.counted (index : ExampleIndex α τ) : ExampleIndex α (Counted τ) where
  search query count least := Counted.reply (index.search query count least)
  close := Counted.close index.close

/-- The sources, with counts of their closings. -/
def Sources.counted (sources : Sources α σ τ) : Sources α (Counted σ) (Counted τ) where
  graph := sources.graph.counted
  examples := sources.examples.map ExampleIndex.counted

namespace Shared

/-- The states of both sources without the counts. -/
def uncounted (shared : Shared (Counted σ) (Counted τ)) : Shared σ τ :=
  ⟨shared.graph.state, shared.examples.state, shared.calls⟩

/-- How often each source has been closed. -/
def closes (shared : Shared (Counted σ) (Counted τ)) : Nat × Nat :=
  (shared.graph.closes, shared.examples.closes)

end Shared

/-- What both sides of a request work on, without the counts. -/
def Cached.uncounted (state : Cached (Shared (Counted σ) (Counted τ))) : Cached (Shared σ τ) :=
  ⟨state.cache, state.graph.uncounted⟩

/-- Whether two acts of a request come to the same with the counts and without them, and the first
closes no source. -/
abbrev ActsUncounted
    (act' : SharedDesk (Counted σ) (Counted τ) →
      Except Problem β × SharedDesk (Counted σ) (Counted τ))
    (act : SharedDesk σ τ → Except Problem β × SharedDesk σ τ) : Prop :=
  ActsAlike Cached.uncounted (fun state => state.graph.closes) act' act

/-- A lookup does not depend on the counts and closes no source. -/
theorem actsUncounted_lookup (graph : KnowledgeGraph σ) (question : Question) :
    ActsUncounted (τ := τ) ((cachedLookups graph.counted.shared).ask question).start
      ((cachedLookups graph.shared).ask question).start := by
  rintro ⟨⟨cache, shared⟩, cancelled⟩
  simp only [start_lookup, Desk.seen, Cached.uncounted, KnowledgeGraph.shared_reply,
    KnowledgeGraph.sharedReply, KnowledgeGraph.counted_reply, Counted.reply]
  rcases question.lookInto cache with ⟨_ | answer, cache'⟩
  · cases cancelled
    · simp only [Shared.uncounted, Bool.false_eq_true, if_false]
      rcases graph.reply question shared.graph.state with ⟨(_ | _) | answer, next, cancels⟩ <;>
        exact ⟨rfl, rfl⟩
    · exact ⟨rfl, rfl⟩
  · exact ⟨rfl, rfl⟩

/-- A search does not depend on the counts and closes no source. -/
theorem actsUncounted_search (examples : Option (ExampleIndex α τ)) (settings : Settings α)
    (query : String) :
    ActsUncounted (σ := σ)
      (exampleSearch ((examples.map ExampleIndex.counted).map ExampleIndex.shared) settings
        query).start
      (exampleSearch (examples.map ExampleIndex.shared) settings query).start := by
  rintro ⟨⟨cache, shared⟩, cancelled⟩
  simp only [exampleSearch, Request.start_bind, Request.start_checkpoint, Desk.seen]
  cases cancelled with
  | true => exact ⟨rfl, rfl⟩
  | false => cases examples <;> exact ⟨rfl, rfl⟩

/-- A request between two turns, without the counts. -/
def Examination.uncounted (examination : Examination α (Counted σ) (Counted τ)) :
    Examination α σ τ :=
  ⟨examination.desk.seen Cached.uncounted, examination.graphSide, examination.exampleSide⟩

/-- What has come of a request, without the counts. -/
def Completion.uncounted (completion : Completion α (Counted σ) (Counted τ)) : Completion α σ τ :=
  ⟨completion.desk.seen Cached.uncounted, completion.graph, completion.examples⟩

namespace Examination

variable (sources : Sources α σ τ) (settings : Settings α)
  (examination : Examination α (Counted σ) (Counted τ))

/-- A turn does not depend on the counts and closes no source. -/
theorem uncounted_turn (side : Side) :
    examination.uncounted.turn sources settings side =
        (examination.turn sources.counted settings side).uncounted ∧
      (examination.turn sources.counted settings side).desk.state.graph.closes =
        examination.desk.state.graph.closes := by
  cases side with
  | graph =>
    obtain ⟨hsame, hkept⟩ := ActsAlike.resume examination.graphSide
      (ActsAlike.inquiry_turn (actsUncounted_lookup sources.graph)) examination.desk
    refine ⟨?_, hkept⟩
    simp only [turn, uncounted]
    rw [hsame]
    rfl
  | examples =>
    obtain ⟨hsame, hkept⟩ := ActsAlike.resume examination.exampleSide
      (ActsAlike.survey_turn (actsUncounted_search sources.examples settings)) examination.desk
    refine ⟨?_, hkept⟩
    simp only [turn, uncounted]
    rw [hsame]
    rfl

/-- A schedule does not depend on the counts and closes no source. -/
theorem uncounted_turns (schedule : List Side) :
    examination.uncounted.turns sources settings schedule =
        (examination.turns sources.counted settings schedule).uncounted ∧
      (examination.turns sources.counted settings schedule).desk.state.graph.closes =
        examination.desk.state.graph.closes := by
  induction schedule generalizing examination with
  | nil => exact ⟨rfl, rfl⟩
  | cons side rest ih =>
    obtain ⟨hturn, hkept⟩ := uncounted_turn sources settings examination side
    obtain ⟨hrest, hkept'⟩ := ih (examination.turn sources.counted settings side)
    rw [← hturn] at hrest
    exact ⟨hrest, hkept'.trans hkept⟩

/-- What is left of a request does not depend on the counts and closes no source. -/
theorem uncounted_finish :
    examination.uncounted.finish sources settings =
        (examination.finish sources.counted settings).uncounted ∧
      (examination.finish sources.counted settings).desk.state.graph.closes =
        examination.desk.state.graph.closes := by
  obtain ⟨hgraph, hkept⟩ := ActsAlike.resume examination.graphSide
    (ActsAlike.inquiry_run (actsUncounted_lookup sources.graph)) examination.desk
  obtain ⟨hexamples, hkept'⟩ := ActsAlike.resume examination.exampleSide
    (ActsAlike.survey_run (actsUncounted_search sources.examples settings))
    (Request.resume examination.graphSide
      (Inquiry.run (cachedLookups sources.graph.counted.shared)) examination.desk).2
  refine ⟨?_, hkept'.trans hkept⟩
  simp only [finish, uncounted, hgraph, hexamples]
  rfl

end Examination

/-- An auditor without the counts of its sources. -/
def Auditor.uncounted (auditor : Auditor (Counted σ) (Counted τ)) : Auditor σ τ :=
  ⟨auditor.cache, auditor.graph.state, auditor.examples.state, auditor.closed⟩

/-- How often each source of an auditor has been closed. -/
def Auditor.closes (auditor : Auditor (Counted σ) (Counted τ)) : Nat × Nat :=
  (auditor.graph.closes, auditor.examples.closes)

/-- What came of a request, without the counts. -/
def Account.uncounted (account : Account α (Counted σ) (Counted τ)) : Account α σ τ :=
  ⟨account.response, account.auditor.uncounted, account.calls, account.graph⟩

namespace Auditor

variable [Scalar α] (schedule : List Side) (sources : Sources α σ τ) (settings : Settings α)
  (options : ReportOptions) (script path : String) (cancelled : Bool)

/-- A request begins alike with the counts and without them. -/
theorem uncounted_ofAnalysis (analysis : Analysis) (auditor : Auditor (Counted σ) (Counted τ)) :
    (Examination.ofAnalysis sources.counted settings analysis auditor).uncounted =
      Examination.ofAnalysis sources settings analysis auditor.uncounted := by
  simp only [Examination.ofAnalysis, Sources.counted, Option.isSome_map]
  rfl

/-- A request does not depend on the counts and closes no source. -/
theorem uncounted_checkInTurns (auditor : Auditor (Counted σ) (Counted τ)) :
    let account :=
      auditor.checkInTurns schedule sources.counted settings options script path cancelled
    auditor.uncounted.checkInTurns schedule sources settings options script path cancelled =
        account.uncounted ∧
      account.auditor.closes = auditor.closes := by
  simp only [checkInTurns]
  have hclosed : auditor.uncounted.closed = auditor.closed := rfl
  rw [hclosed]
  cases auditor.closed with
  | true => exact ⟨rfl, rfl⟩
  | false =>
    cases Analysis.ofScript script path with
    | error error => exact ⟨rfl, rfl⟩
    | ok analysis =>
      cases cancelled with
      | true => exact ⟨rfl, rfl⟩
      | false =>
        obtain ⟨hturns, hkept⟩ := Examination.uncounted_turns sources settings
          (Examination.ofAnalysis sources.counted settings analysis auditor) schedule
        obtain ⟨hfinish, hkept'⟩ := Examination.uncounted_finish sources settings
          ((Examination.ofAnalysis sources.counted settings analysis auditor).turns
            sources.counted settings schedule)
        rw [← hturns, uncounted_ofAnalysis] at hfinish
        simp only [Bool.false_eq_true, if_false]
        rw [hfinish]
        exact ⟨rfl, hkept'.trans hkept⟩

/-- A request neither opens nor closes an auditor. -/
theorem closed_checkInTurns (auditor : Auditor σ τ) :
    (auditor.checkInTurns schedule sources settings options script path cancelled).auditor.closed =
      auditor.closed := by
  unfold checkInTurns
  split
  · rfl
  · split
    · rfl
    · split <;> rfl

/-- Answers a request for a file, from what came of reading it, by the schedule. -/
def checkFileInTurns (content : Except FileFault String) (auditor : Auditor σ τ) : Account α σ τ :=
  match content with
  | .ok script => auditor.checkInTurns schedule sources settings options script path false
  | .error fault => ⟨.failure path (.unreadable fault) .analyze, auditor, [], none⟩

/-- A file is checked as by an auditor that lets the graph side finish before the other begins if
the schedule is empty. -/
theorem checkFile_eq_checkFileInTurns (content : Except FileFault String) (auditor : Auditor σ τ) :
    auditor.checkFile sources settings options content path =
      let account := auditor.checkFileInTurns [] sources settings options path content
      (account.response, account.auditor) := by
  cases content with
  | ok script => exact check_eq_checkInTurns sources settings options script path false auditor
  | error fault => rfl

end Auditor

/-- What an auditor can be told to do. A check of a file is given what came of reading it. -/
inductive Errand where
  | check (schedule : List Side) (options : ReportOptions) (script path : String) (cancelled : Bool)
  | checkFile (schedule : List Side) (options : ReportOptions) (path : String)
    (content : Except FileFault String)
  | close

/-- Whether the errand is to close. -/
def Errand.isClose : Errand → Bool
  | .check .. | .checkFile .. => false
  | .close => true

/-- What came of an errand: the answer, if it is one that is answered, and the calls that were made
for it, the latest first. -/
structure Receipt (α : Type) where
  response : Option (Response α)
  calls : List Call

/-- Whether an errand is refused without a call. -/
inductive Errand.Refused : Errand → Receipt α → Prop where
  | check (schedule : List Side) (options : ReportOptions) (script path : String)
    (cancelled : Bool) (response : Response α)
    (fails : response.FailsWith path "collaborator_unavailable" "analyze") :
    Refused (.check schedule options script path cancelled) ⟨some response, []⟩
  | readable (schedule : List Side) (options : ReportOptions) (path script : String)
    (response : Response α)
    (fails : response.FailsWith path "collaborator_unavailable" "analyze") :
    Refused (.checkFile schedule options path (.ok script)) ⟨some response, []⟩
  | unreadable (schedule : List Side) (options : ReportOptions) (path : String) (fault : FileFault)
    (response : Response α) (fails : response.FailsWith path "io_error" "analyze") :
    Refused (.checkFile schedule options path (.error fault)) ⟨some response, []⟩
  | close : Refused .close ⟨none, []⟩

/-- What came of a request, and the auditor that it leaves. -/
def Account.receipt (account : Account α σ τ) : Receipt α × Auditor σ τ :=
  (⟨some account.response, account.calls⟩, account.auditor)

namespace Auditor

variable [Scalar α] (sources : Sources α σ τ) (settings : Settings α)

/-- Does what it is told. -/
def perform (auditor : Auditor σ τ) : Errand → Receipt α × Auditor σ τ
  | .check schedule options script path cancelled =>
    (auditor.checkInTurns schedule sources settings options script path cancelled).receipt
  | .checkFile schedule options path content =>
    (auditor.checkFileInTurns schedule sources settings options path content).receipt
  | .close => (⟨none, []⟩, auditor.close sources)

/-- Does one errand after the other. -/
def performAll (auditor : Auditor σ τ) : List Errand → List (Receipt α) × Auditor σ τ
  | [] => ([], auditor)
  | errand :: rest =>
    let (receipt, next) := auditor.perform sources settings errand
    let (receipts, last) := next.performAll rest
    (receipt :: receipts, last)

/-- The first errands come first. -/
theorem performAll_append (auditor : Auditor σ τ) (before after : List Errand) :
    auditor.performAll sources settings (before ++ after) =
      let first := auditor.performAll sources settings before
      let second := first.2.performAll sources settings after
      (first.1 ++ second.1, second.2) := by
  induction before generalizing auditor with
  | nil => rfl
  | cons errand rest ih => simp only [List.cons_append, performAll, ih]

/-- There is one receipt for each errand. -/
theorem length_performAll (auditor : Auditor σ τ) (errands : List Errand) :
    (auditor.performAll sources settings errands).1.length = errands.length := by
  induction errands generalizing auditor with
  | nil => rfl
  | cons errand rest ih => simp only [performAll, List.length_cons, ih]

section Closed

variable {auditor : Auditor σ τ} (hclosed : auditor.closed = true)
include hclosed

/-- A closed auditor refuses every errand, and nothing becomes of it. -/
theorem perform_of_closed (errand : Errand) :
    errand.Refused (auditor.perform sources settings errand).1 ∧
      (auditor.perform sources settings errand).2 = auditor := by
  have hrefuses (path : String) :
      (Response.failure path (.unavailable "checker is closed") .analyze : Response α).FailsWith path
        "collaborator_unavailable" "analyze" := ⟨_, _, rfl, rfl, rfl⟩
  cases errand with
  | check schedule options script path cancelled =>
    simp only [perform, checkInTurns_of_closed schedule sources settings options cancelled hclosed]
    exact ⟨.check _ _ _ _ _ _ (hrefuses path), rfl⟩
  | checkFile schedule options path content =>
    cases content with
    | ok script =>
      simp only [perform, checkFileInTurns,
        checkInTurns_of_closed schedule sources settings options false hclosed]
      exact ⟨.readable _ _ _ _ _ (hrefuses path), rfl⟩
    | error fault => exact ⟨.unreadable _ _ _ _ _ ⟨_, _, rfl, rfl, rfl⟩, rfl⟩
  | close => exact ⟨.close, by simp [perform, Auditor.close, hclosed]⟩

/-- A closed auditor refuses all errands, and nothing becomes of it. -/
theorem performAll_of_closed (errands : List Errand) :
    List.Forall₂ Errand.Refused errands (auditor.performAll sources settings errands).1 ∧
      (auditor.performAll sources settings errands).2 = auditor := by
  induction errands with
  | nil => exact ⟨.nil, rfl⟩
  | cons errand rest ih =>
    obtain ⟨hfirst, hsame⟩ := perform_of_closed sources settings hclosed errand
    simp only [performAll, hsame]
    exact ⟨.cons hfirst ih.1, ih.2⟩

end Closed

/-- An auditor is closed by an errand if that is to close, or if it was closed before. -/
theorem closed_perform (auditor : Auditor σ τ) (errand : Errand) :
    (auditor.perform sources settings errand).2.closed = (auditor.closed || errand.isClose) := by
  cases errand with
  | check schedule options script path cancelled =>
    simp [perform, Account.receipt, closed_checkInTurns, Errand.isClose]
  | checkFile schedule options path content =>
    cases content <;>
      simp [perform, checkFileInTurns, Account.receipt, closed_checkInTurns, Errand.isClose]
  | close =>
    cases hclosed : auditor.closed <;> simp [perform, Auditor.close, Errand.isClose, hclosed]

/-- An auditor is closed after errands if one of them is to close, or if it was closed before. -/
theorem closed_performAll (auditor : Auditor σ τ) (errands : List Errand) :
    (auditor.performAll sources settings errands).2.closed =
      (auditor.closed || errands.any Errand.isClose) := by
  induction errands generalizing auditor with
  | nil => simp [performAll]
  | cons errand rest ih =>
    simp only [performAll, ih, closed_perform, List.any_cons, Bool.or_assoc]

/-- Whether a closed auditor holds no answers and counts no lookups. -/
def EmptyIfClosed (auditor : Auditor σ τ) : Prop :=
  auditor.closed = true → auditor.cache = .empty

/-- Every errand leaves a closed auditor without answers. -/
theorem EmptyIfClosed.perform {auditor : Auditor σ τ} (h : auditor.EmptyIfClosed)
    (errand : Errand) : (auditor.perform sources settings errand).2.EmptyIfClosed := by
  intro hafter
  cases hclosed : auditor.closed with
  | true =>
    rw [(perform_of_closed sources settings hclosed errand).2]
    exact h hclosed
  | false =>
    rw [closed_perform, hclosed, Bool.false_or] at hafter
    cases errand with
    | check => cases hafter
    | checkFile => cases hafter
    | close => simp [Auditor.perform, Auditor.close, hclosed, Cache.clear]

/-- A row of errands leaves a closed auditor without answers. -/
theorem EmptyIfClosed.performAll {auditor : Auditor σ τ} (h : auditor.EmptyIfClosed)
    (errands : List Errand) : (auditor.performAll sources settings errands).2.EmptyIfClosed := by
  induction errands generalizing auditor with
  | nil => exact h
  | cons errand rest ih => exact ih (h.perform sources settings errand)

/-- Whether each source that there is has been closed once if the auditor is closed, and never if
not. -/
def ClosedOnce (auditor : Auditor (Counted σ) (Counted τ)) : Prop :=
  auditor.closes = (auditor.closed.toNat, (auditor.closed && sources.examples.isSome).toNat)

/-- An errand does not depend on the counts. -/
theorem uncounted_perform (auditor : Auditor (Counted σ) (Counted τ)) (errand : Errand) :
    auditor.uncounted.perform sources settings errand =
      ((auditor.perform sources.counted settings errand).1,
        (auditor.perform sources.counted settings errand).2.uncounted) := by
  cases errand with
  | check schedule options script path cancelled =>
    simp only [perform, (uncounted_checkInTurns schedule sources settings options script path
      cancelled auditor).1]
    rfl
  | checkFile schedule options path content =>
    cases content with
    | ok script =>
      simp only [perform, checkFileInTurns, (uncounted_checkInTurns schedule sources settings
        options script path false auditor).1]
      rfl
    | error fault => rfl
  | close =>
    obtain ⟨cache, graph, examples, closed⟩ := auditor
    obtain ⟨knowledge, index⟩ := sources
    cases closed <;> cases index <;> rfl

/-- A row of errands does not depend on the counts. -/
theorem uncounted_performAll (auditor : Auditor (Counted σ) (Counted τ)) (errands : List Errand) :
    auditor.uncounted.performAll sources settings errands =
      ((auditor.performAll sources.counted settings errands).1,
        (auditor.performAll sources.counted settings errands).2.uncounted) := by
  induction errands generalizing auditor with
  | nil => rfl
  | cons errand rest ih => simp only [performAll, uncounted_perform, ih]

omit [Scalar α] in
/-- Only the counts and whether the auditor is closed matter. -/
theorem ClosedOnce.of_eq {auditor after : Auditor (Counted σ) (Counted τ)}
    (h : auditor.ClosedOnce sources) (hcloses : after.closes = auditor.closes)
    (hclosed : after.closed = auditor.closed) : after.ClosedOnce sources := by
  unfold ClosedOnce
  rw [hcloses, hclosed]
  exact h

omit [Scalar α] in
/-- Closing closes each source unless that has been done before. -/
theorem ClosedOnce.close {auditor : Auditor (Counted σ) (Counted τ)}
    (h : auditor.ClosedOnce sources) : (auditor.close sources.counted).ClosedOnce sources := by
  cases hclosed : auditor.closed with
  | true => simpa [Auditor.close, hclosed] using h
  | false =>
    obtain ⟨hgraph, hexamples⟩ := Prod.mk.inj h
    rw [hclosed] at hgraph hexamples
    obtain ⟨knowledge, index⟩ := sources
    cases index <;>
      simp [ClosedOnce, Auditor.close, closes, Sources.counted, KnowledgeGraph.counted,
        ExampleIndex.counted, Counted.close, hclosed, hgraph, hexamples]

/-- An errand closes each source if it is the first one to close, and none otherwise. -/
theorem ClosedOnce.perform {auditor : Auditor (Counted σ) (Counted τ)}
    (h : auditor.ClosedOnce sources) (errand : Errand) :
    (auditor.perform sources.counted settings errand).2.ClosedOnce sources := by
  cases errand with
  | check schedule options script path cancelled =>
    exact h.of_eq sources
      (uncounted_checkInTurns schedule sources settings options script path cancelled auditor).2
      (closed_checkInTurns ..)
  | checkFile schedule options path content =>
    cases content with
    | ok script =>
      exact h.of_eq sources
        (uncounted_checkInTurns schedule sources settings options script path false auditor).2
        (closed_checkInTurns ..)
    | error fault => exact h
  | close => exact h.close

/-- Errands close each source once if one of them is to close, and never if none is. -/
theorem ClosedOnce.performAll {auditor : Auditor (Counted σ) (Counted τ)}
    (h : auditor.ClosedOnce sources) (errands : List Errand) :
    (auditor.performAll sources.counted settings errands).2.ClosedOnce sources := by
  induction errands generalizing auditor with
  | nil => exact h
  | cons errand rest ih => exact ih (h.perform sources settings errand)

/-- Closing is final and happens once, whatever an auditor with any sources and any cache is told to
do. Counting how often the sources are closed changes nothing about the answers and the calls. The
graph is closed once if there is an errand to close, and never if there is none, and so is the index
if there is one. From the first closing on the auditor stays as it then is, without answers and with
all counts at zero: every request is refused, and no call is made for it. -/
theorem closing_final (cache : Cache) (graph : σ) (examples : τ) :
    let start : Auditor (Counted σ) (Counted τ) := ⟨cache, ⟨graph, 0⟩, ⟨examples, 0⟩, false⟩
    let run := start.performAll sources.counted settings
    (∀ errands,
        performAll sources settings ⟨cache, graph, examples, false⟩ errands =
            ((run errands).1, (run errands).2.uncounted) ∧
          (run errands).2.graph.closes = (errands.any Errand.isClose).toNat ∧
          (run errands).2.examples.closes =
            (errands.any Errand.isClose && sources.examples.isSome).toNat) ∧
      ∀ before after,
        let closed := (run (before ++ [.close])).2
        closed.cache = .empty ∧
          (run (before ++ .close :: after)).2 = closed ∧
          List.Forall₂ Errand.Refused after
            ((run (before ++ .close :: after)).1.drop (before.length + 1)) := by
  intro start run
  have hclosed (errands : List Errand) :
      (run errands).2.closed = errands.any Errand.isClose := by
    simp only [run, start, closed_performAll, Bool.false_or]
  constructor
  · intro errands
    have hstart : start.ClosedOnce sources := rfl
    have honce : (run errands).2.ClosedOnce sources := hstart.performAll sources settings errands
    obtain ⟨hgraph, hexamples⟩ := Prod.mk.inj honce
    rw [hclosed] at hgraph hexamples
    exact ⟨uncounted_performAll sources settings start errands, hgraph, hexamples⟩
  · intro before after closed
    have hclosing : closed.closed = true := by
      simp [closed, hclosed, Errand.isClose]
    have hstart : start.EmptyIfClosed := fun h => by cases h
    have hempty : closed.EmptyIfClosed := hstart.performAll sources.counted settings _
    have hsplit : run (before ++ .close :: after) =
        ((run (before ++ [.close])).1 ++ (closed.performAll sources.counted settings after).1,
          (closed.performAll sources.counted settings after).2) := by
      rw [List.append_cons]
      exact performAll_append sources.counted settings _ _ after
    have hlength : (run (before ++ [.close])).1.length = before.length + 1 := by
      simp only [run, length_performAll, List.length_append, List.length_singleton]
    obtain ⟨hrefused, hsame⟩ := performAll_of_closed sources.counted settings hclosing after
    refine ⟨hempty hclosing, ?_, ?_⟩
    · rw [hsplit, hsame]
    · rw [hsplit, ← hlength, List.drop_left]
      exact hrefused

end Auditor

end UsageAudit
