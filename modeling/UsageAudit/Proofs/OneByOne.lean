import UsageAudit.Engagement
import UsageAudit.Proofs.CrewSchedules
import UsageAudit.Proofs.Survey

/-!
# Requests without workers

An auditor that checks one target after the other, and then grounds one usage after the other, does
what two crews do under one of their schedules. This is seen lookup by lookup and search by search: a
task that is carried out without a break does to the states what the part of the request does.
-/

namespace UsageAudit

variable {α β γ ι σ τ : Type}

namespace Workplace

/-- What a workplace shows of the cache and the graph. -/
def graphPart (place : Workplace (Auditor σ τ)) : Desk (Cached σ) :=
  ⟨⟨place.state.cache, place.state.graph⟩, place.cancelled⟩

/-- What a workplace shows of the examples. -/
def examplePart (place : Workplace (Auditor σ τ)) : Desk τ :=
  ⟨place.state.examples, place.cancelled⟩

end Workplace

namespace Task

/-- Whether a task does what a part of a request does to the cache and the graph, and leaves the rest
of the auditor as it is. -/
def FollowsGraph (task : Task (Auditor σ τ) β) (request : Request (Cached σ) β) : Prop :=
  ∀ place, request.start place.graphPart = ((task.run place).1, (task.run place).2.graphPart) ∧
    (task.run place).2.state.examples = place.state.examples ∧
    (task.run place).2.state.closed = place.state.closed

namespace FollowsGraph

/-- A value is given on either side. -/
theorem pure (value : β) :
    FollowsGraph (σ := σ) (τ := τ) (Pure.pure value) (Pure.pure value) :=
  fun _ => ⟨rfl, rfl, rfl⟩

/-- One task after the other does what the parts of the request do. -/
theorem bind {first : Task (Auditor σ τ) β} {request : Request (Cached σ) β}
    {rest : β → Task (Auditor σ τ) γ} {further : β → Request (Cached σ) γ}
    (hfirst : first.FollowsGraph request)
    (hrest : ∀ value, (rest value).FollowsGraph (further value)) :
    (first >>= rest).FollowsGraph (request >>= further) := by
  intro place
  obtain ⟨hrequest, hexamples, hclosed⟩ := hfirst place
  rw [Request.start_bind, hrequest, run_bind]
  generalize first.run place = ran at hexamples hclosed ⊢
  obtain ⟨problem | value, between⟩ := ran
  · exact ⟨rfl, hexamples, hclosed⟩
  · obtain ⟨hfurther, hexamples', hclosed'⟩ := hrest value between
    exact ⟨hfurther, hexamples'.trans hexamples, hclosed'.trans hclosed⟩

/-- Looking up step by step is looking up. -/
theorem lookup (graph : KnowledgeGraph σ) (question : Question) :
    FollowsGraph (τ := τ) (Task.lookup graph question) ((cachedLookups graph).ask question) := by
  rintro ⟨⟨cancelled, calls⟩, cache, state, examples, closed⟩
  rw [start_lookup]
  simp only [Task.lookup, run_bind, Task.read, Task.run, Workplace.change, Question.lookInto,
    Workplace.graphPart]
  rcases hfirst : question.read cache with ⟨_ | answer, cache'⟩
  · simp only [run_bind, Task.run, Workplace.change]
    rcases hsecond : question.read cache' with ⟨_ | answer, cache''⟩
    · simp only [run_bind, Task.ask, Task.run]
      cases cancelled with
      | true => exact ⟨rfl, rfl, rfl⟩
      | false =>
        simp only [KnowledgeGraph.onAuditor, Bool.false_eq_true, if_false]
        rcases hanswer : (graph.reply question state).answer with (reason | reason) | answer
        · exact ⟨rfl, rfl, rfl⟩
        · exact ⟨rfl, rfl, rfl⟩
        · exact ⟨rfl, rfl, rfl⟩
    · exact ⟨rfl, rfl, rfl⟩
  · exact ⟨rfl, rfl, rfl⟩

/-- Carrying out an inquiry step by step is carrying it out. -/
theorem inquiry (graph : KnowledgeGraph σ) (inquiry : Inquiry β) :
    FollowsGraph (τ := τ) (inquiry.run (Task.lookups graph))
      (inquiry.run (cachedLookups graph)) := by
  induction inquiry with
  | done value => exact .pure value
  | ask question next ih =>
    have hask : (Task.lookups (τ := τ) graph).ask question = Task.lookup graph question := by
      cases question <;> rfl
    rw [Inquiry.run, Inquiry.run, hask]
    exact (lookup graph question).bind ih

end FollowsGraph

/-- Whether a task does what a part of a request does to the examples, and leaves the rest of the
auditor as it is. -/
def FollowsExamples (task : Task (Auditor σ τ) β) (request : Request τ β) : Prop :=
  ∀ place, request.start place.examplePart = ((task.run place).1, (task.run place).2.examplePart) ∧
    (task.run place).2.state = { place.state with examples := (task.run place).2.state.examples }

namespace FollowsExamples

/-- A value is given on either side. -/
theorem pure (value : β) :
    FollowsExamples (σ := σ) (τ := τ) (Pure.pure value) (Pure.pure value) :=
  fun _ => ⟨rfl, rfl⟩

/-- One task after the other does what the parts of the request do. -/
theorem bind {first : Task (Auditor σ τ) β} {request : Request τ β}
    {rest : β → Task (Auditor σ τ) γ} {further : β → Request τ γ}
    (hfirst : first.FollowsExamples request)
    (hrest : ∀ value, (rest value).FollowsExamples (further value)) :
    (first >>= rest).FollowsExamples (request >>= further) := by
  intro place
  obtain ⟨hrequest, hstate⟩ := hfirst place
  rw [Request.start_bind, hrequest, run_bind]
  generalize first.run place = ran at hstate ⊢
  obtain ⟨problem | value, between⟩ := ran
  · exact ⟨rfl, hstate⟩
  · obtain ⟨hfurther, hstate'⟩ := hrest value between
    exact ⟨hfurther, hstate'.trans (by rw [hstate])⟩

/-- A row of tasks does what the row of the parts of the request does. -/
theorem mapM {task : ι → Task (Auditor σ τ) β} {request : ι → Request τ β}
    (h : ∀ member, (task member).FollowsExamples (request member)) (members : List ι) :
    (members.mapM task).FollowsExamples (members.mapM request) := by
  induction members with
  | nil => exact .pure []
  | cons member rest ih =>
    rw [List.mapM_cons, List.mapM_cons]
    exact (h member).bind fun value => ih.bind fun others => .pure _

/-- Grounding a usage step by step is grounding it. -/
theorem ground [Scalar α] (index : ExampleIndex α τ) (settings : Settings α) (element : ElementRef)
    (query : String) :
    FollowsExamples (σ := σ) (Task.ground index settings element query)
      (ExampleSearch.groundElement index settings element query) := by
  rintro ⟨⟨cancelled, calls⟩, cache, state, examples, closed⟩
  simp only [ExampleSearch.groundElement, Request.start_bind, Request.start_checkpoint, Task.ground,
    Task.run, Workplace.examplePart]
  cases cancelled with
  | true => exact ⟨rfl, rfl⟩
  | false =>
    simp only [ExampleIndex.onAuditor, Bool.false_eq_true, if_false, Request.start_ask]
    rcases (index.search query settings.topK settings.minSimilarity examples).answer with
      (reason | reason) | hits
    · exact ⟨rfl, rfl⟩
    · exact ⟨rfl, rfl⟩
    · exact ⟨rfl, rfl⟩

end FollowsExamples

end Task

section OneSide

variable [Scalar α] {workers : Nat} (hworkers : 0 < workers)
include hworkers

end OneSide

namespace Engagement

variable (settings : Settings α) (engagement : Engagement α σ τ)

/-- Moves made one schedule after the other. -/
theorem moves_append (first second : List Move) :
    engagement.moves settings (first ++ second) =
      (engagement.moves settings first).moves settings second :=
  List.foldl_append

/-- Moves of the crew of the graph alone. -/
theorem moves_graph (schedule : List Nat) :
    engagement.moves settings (schedule.map .graph) =
      let moved := engagement.graph.moves settings.crewSize engagement.place schedule
      { engagement with place := moved.2, graph := moved.1 } := by
  induction schedule generalizing engagement with
  | nil => rfl
  | cons index rest ih => exact ih (engagement.move settings (.graph index))

end Engagement

/-- A crew has a worker. -/
theorem Settings.crewSize_pos (settings : Settings α) : 0 < settings.crewSize := by
  unfold crewSize
  omega

section Requests

variable [Scalar α] (sources : Sources α σ τ) (settings : Settings α) (options : ReportOptions)

namespace Auditor

variable (script path : String) (cancelled : Bool) (auditor : Auditor σ τ)

end Auditor

end Requests

end UsageAudit
