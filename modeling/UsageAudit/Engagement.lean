import UsageAudit.Auditor
import UsageAudit.Crew

/-!
# Requests with two crews

A request that is examined has two crews, one that looks symbols up and one that searches for
examples. Both work on the auditor, and each has as many workers as the settings say. When both crews
are done, what they have come to is put together in a report, or the request ends with a problem.
-/

namespace UsageAudit

/-- How many workers a crew has. -/
def Settings.crewSize {α : Type} (settings : Settings α) : Nat := max settings.maxConcurrency 1

section Tasks

variable {α σ τ : Type}

/-- Asks the graph of an auditor. -/
def KnowledgeGraph.onAuditor (graph : KnowledgeGraph σ) (question : Question)
    (auditor : Auditor σ τ) : Reply (Auditor σ τ) question.Answer :=
  let reply := graph.reply question auditor.graph
  ⟨reply.answer, { auditor with graph := reply.state }, reply.cancels⟩

/-- Searches the examples of an auditor. -/
def ExampleIndex.onAuditor (index : ExampleIndex α τ) (settings : Settings α) (query : String)
    (auditor : Auditor σ τ) : Reply (Auditor σ τ) (List (Hit α)) :=
  let reply := index.search query settings.topK settings.minSimilarity auditor.examples
  ⟨reply.answer, { auditor with examples := reply.state }, reply.cancels⟩

/-- The reply without its answer. -/
def Reply.bare {β : Type} (reply : Reply σ β) : Reply σ Unit :=
  ⟨reply.answer.map fun _ => (), reply.state, reply.cancels⟩

namespace Task

/-- Looks into the cache of the auditor. -/
def read (question : Question) : Task (Auditor σ τ) (Option question.Answer) :=
  .change (fun auditor => { auditor with cache := (question.read auditor.cache).2 })
    fun auditor => .done (.ok (question.read auditor.cache).1)

/-- Keeps an answer in the cache of the auditor. -/
def keep (question : Question) (answer : question.Answer) :
    Task (Auditor σ τ) question.Answer :=
  .change (fun auditor => { auditor with cache := (question.keep answer auditor.cache).2 })
    fun auditor => .done (.ok (question.keep answer auditor.cache).1)

/-- Asks the graph, if the request still stands. -/
def ask (graph : KnowledgeGraph σ) (question : Question) :
    Task (Auditor σ τ) (Except String question.Answer) :=
  .call (.symbol question) (fun auditor => (graph.onAuditor question auditor).bare) fun auditor =>
    match (graph.onAuditor question auditor).answer with
    | .ok answer => .done (.ok (.ok answer))
    | .error (.malformed reason) => .done (.ok (.error reason))
    | .error (.unavailable reason) => .done (.error (.unavailable reason))

/-- Looks an answer up in the cache and, if it is not there, asks the graph and keeps what it
answers. -/
def lookup (graph : KnowledgeGraph σ) (question : Question) :
    Task (Auditor σ τ) (Fetch question.Answer) := do
  match ← read question with
  | some answer => return .cached answer
  | none =>
    match ← read question with
    | some answer => return .cached answer
    | none =>
      match ← ask graph question with
      | .ok answer => return .fresh (← keep question answer)
      | .error reason => return .malformed reason

/-- Looking up, step by step. -/
def lookups (graph : KnowledgeGraph σ) : Lookups (Task (Auditor σ τ)) where
  sighting kind qualifiers := lookup graph (.sighting kind qualifiers)
  methodSignature owner method := lookup graph (.methodSignature owner method)
  functionSignature path name := lookup graph (.functionSignature path name)

/-- Grounds one usage, if the request still stands. -/
def ground [Scalar α] (index : ExampleIndex α τ) (settings : Settings α) (element : ElementRef)
    (query : String) : Task (Auditor σ τ) (Grounding α) :=
  .call (.examples query) (fun auditor => (index.onAuditor settings query auditor).bare)
    fun auditor =>
      match (index.onAuditor settings query auditor).answer with
      | .ok hits => .done (.ok (Grounding.classify settings element query hits))
      | .error (.malformed reason) => .done (.ok (Grounding.malformed element query reason))
      | .error (.unavailable reason) => .done (.error (.degraded reason))

end Task

/-- The crew that checks the targets of a plan. -/
def GraphCheck.crew [Scalar α] (graph : KnowledgeGraph σ) (settings : Settings α) (plan : Plan) :
    Crew (Auditor σ τ) (Check α) :=
  .ofTasks (plan.targets.map (checkTarget (Task.lookups graph) settings))

/-- What comes of a plan once the crew is done. -/
def GraphCheck.outcome? (plan : Plan) (crew : Crew (Auditor σ τ) (Check α)) :
    Option (Except Problem (GraphOutcome α)) :=
  crew.outcome?.map fun outcome => outcome.map fun checks => ⟨checks, plan.skipped⟩

namespace ExampleSearch

/-- The crew that grounds the usages of a script, if there is an index and grounding is asked for. -/
def crew [Scalar α] (index? : Option (ExampleIndex α τ)) (settings : Settings α)
    (analysis : Analysis) : Crew (Auditor σ τ) (Grounding α) :=
  match index? with
  | some index =>
    if settings.semanticEnabled then
      .ofTasks ((queries analysis).map fun (element, query) =>
        Task.ground index settings element query)
    else .ofTasks []
  | none => .ofTasks []

/-- What comes of a script from what has come of its usages. An index that cannot be reached leaves no
groundings. -/
def settle : Except Problem (List (Grounding α)) → Except Problem (SemanticOutcome α)
  | .ok results => .ok ⟨true, results, none⟩
  | .error (.degraded reason) => .ok (.degraded reason)
  | .error problem => .error problem

/-- What comes of a script once the crew is done. -/
def outcome? (index? : Option (ExampleIndex α τ)) (settings : Settings α)
    (crew : Crew (Auditor σ τ) (Grounding α)) : Option (Except Problem (SemanticOutcome α)) :=
  match index? with
  | some _ =>
    if settings.semanticEnabled then crew.outcome?.map settle
    else some (.ok (.degraded "semantic validation disabled"))
  | none => some (.ok (.degraded "no example index configured"))

end ExampleSearch

end Tasks

/-- A request that is being examined. -/
structure Engagement (α σ τ : Type) where
  place : Workplace (Auditor σ τ)
  graph : Crew (Auditor σ τ) (Check α)
  examples : Crew (Auditor σ τ) (Grounding α)

/-- What can happen while a request is examined. -/
inductive Move where
  /-- The crew of the graph moves, about the job at a place in its row. -/
  | graph (index : Nat)
  /-- The crew of the examples moves, about the job at a place in its row. -/
  | examples (index : Nat)
  | cancel
  deriving DecidableEq, Repr

namespace Engagement

variable {α σ τ : Type}

/-- What a move makes of a request. -/
def move (settings : Settings α) (engagement : Engagement α σ τ) : Move → Engagement α σ τ
  | .graph index =>
    let (crew, place) := engagement.graph.move settings.crewSize engagement.place index
    { engagement with place := place, graph := crew }
  | .examples index =>
    let (crew, place) := engagement.examples.move settings.crewSize engagement.place index
    { engagement with place := place, examples := crew }
  | .cancel => { engagement with place := engagement.place.cancel }

/-- Moves one after the other. -/
def moves (settings : Settings α) (engagement : Engagement α σ τ) (schedule : List Move) :
    Engagement α σ τ :=
  schedule.foldl (move settings) engagement

variable [Scalar α]

/-- A request whose script has been analysed, before the first move. -/
def ofAnalysis (sources : Sources α σ τ) (settings : Settings α) (analysis : Analysis)
    (auditor : Auditor σ τ) : Engagement α σ τ where
  place := .opened false auditor
  graph := GraphCheck.crew sources.graph settings analysis.plan
  examples := ExampleSearch.crew sources.examples settings analysis

/-- What has come of the request, once both crews are done. -/
def result? (sources : Sources α σ τ) (settings : Settings α) (options : ReportOptions)
    (analysis : Analysis) (engagement : Engagement α σ τ) :
    Option (Except (Problem × Phase) (Report α)) :=
  match GraphCheck.outcome? analysis.plan engagement.graph,
    ExampleSearch.outcome? sources.examples settings engagement.examples with
  | some graph, some semantic =>
    some (Auditor.conclude settings options analysis graph semantic engagement.place.cancelled)
  | _, _ => none

end Engagement

namespace Auditor

variable {α σ τ : Type} [Scalar α]

end Auditor

end UsageAudit
