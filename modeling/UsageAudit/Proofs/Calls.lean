import UsageAudit.Proofs.Survey

/-!
# Calls of sources

A request asks two sources. Put together, they note every call, with the fault that was answered and
whether the request was cancelled meanwhile; but for that they answer as they do apart. This file
says what one lookup and one search can do to the calls and to the request: they make no call or a
single one, and that only while the request stands.
-/

namespace UsageAudit

variable {α β σ τ : Type}

/-- The states of both sources with the calls that were made, the latest first. -/
structure Shared (σ τ : Type) where
  graph : σ
  examples : τ
  calls : List Call

/-- What the graph replies, with the call noted. -/
def KnowledgeGraph.sharedReply (graph : KnowledgeGraph σ) (question : Question)
    (state : Shared σ τ) : Reply (Shared σ τ) question.Answer :=
  let reply := graph.reply question state.graph
  ⟨reply.answer,
    { state with graph := reply.state, calls := reply.call (.symbol question) :: state.calls },
    reply.cancels⟩

/-- The graph as one of two sources. -/
def KnowledgeGraph.shared (graph : KnowledgeGraph σ) : KnowledgeGraph (Shared σ τ) where
  findSymbol kind qualifiers := graph.sharedReply (.sighting kind qualifiers)
  findMethodSignature owner method := graph.sharedReply (.methodSignature owner method)
  findFunctionSignature path name := graph.sharedReply (.functionSignature path name)
  close state := { state with graph := graph.close state.graph }

/-- As one of two sources the graph replies to every question alike. -/
@[simp]
theorem KnowledgeGraph.shared_reply (graph : KnowledgeGraph σ) (question : Question) :
    (graph.shared (τ := τ)).reply question = graph.sharedReply question := by
  cases question <;> rfl

/-- The index as one of two sources. -/
def ExampleIndex.shared (index : ExampleIndex α τ) : ExampleIndex α (Cached (Shared σ τ)) where
  search query count least := Cached.onGraph fun state =>
    let reply := index.search query count least state.examples
    ⟨reply.answer,
      { state with examples := reply.state, calls := reply.call (.examples query) :: state.calls },
      reply.cancels⟩
  close state := { state with graph.examples := index.close state.graph.examples }

/-- What both sides of a request work on. -/
abbrev SharedDesk (σ τ : Type) := Desk (Cached (Shared σ τ))

namespace Desk

/-- The calls that were made, the latest first. -/
def calls (desk : SharedDesk σ τ) : List Call := desk.state.graph.calls

/-- The part of the desk that the graph side works on. -/
def graphPart (desk : SharedDesk σ τ) : Desk (Cached σ) :=
  ⟨⟨desk.state.cache, desk.state.graph.graph⟩, desk.cancelled⟩

/-- The part of the desk that the example side works on. -/
def examplePart (desk : SharedDesk σ τ) : Desk τ := ⟨desk.state.graph.examples, desk.cancelled⟩

end Desk

/-- What a turn of one side can come to, and what becomes of the calls and of the request. -/
inductive Turn (desk : SharedDesk σ τ) :
    Side → Except Problem β → SharedDesk σ τ → Prop where
  /-- No call is needed. -/
  | quiet (side : Side) (value : β) (after : SharedDesk σ τ) (calls : after.calls = desk.calls)
      (flag : after.cancelled = desk.cancelled) : Turn desk side (.ok value) after
  /-- A call is needed, but the request has been cancelled. -/
  | stopped (side : Side) (after : SharedDesk σ τ) (fired : desk.cancelled = true)
      (calls : after.calls = desk.calls) (flag : after.cancelled = true) :
      Turn desk side (.error .cancelled) after
  /-- A call is made, and the side goes on. -/
  | called (side : Side) (value : β) (call : Call) (after : SharedDesk σ τ)
      (live : desk.cancelled = false) (calls : after.calls = call :: desk.calls)
      (flag : after.cancelled = call.cancels) (reached : call.graphLost? = none) :
      Turn desk side (.ok value) after
  /-- The graph is called and cannot be reached. -/
  | lost (reason : String) (call : Call) (after : SharedDesk σ τ)
      (live : desk.cancelled = false) (calls : after.calls = call :: desk.calls)
      (flag : after.cancelled = call.cancels) (lost : call.graphLost? = some reason) :
      Turn desk .graph (.error (.unavailable reason)) after

/-- What a side makes of the answer does not change the turn. -/
theorem Turn.map {γ : Type} {desk after : SharedDesk σ τ} {side : Side}
    {outcome : Except Problem β} (h : Turn desk side outcome after) (f : β → γ) :
    Turn desk side (outcome.map f) after := by
  cases h with
  | quiet side value after calls flag => exact .quiet side (f value) after calls flag
  | stopped side after fired calls flag => exact .stopped side after fired calls flag
  | called side value call after live calls flag reached =>
    exact .called side (f value) call after live calls flag reached
  | lost reason call after live calls flag lost =>
    exact .lost reason call after live calls flag lost

/-- A lookup on the shared desk is the lookup on the part of the graph, leaves the examples alone
and is a turn of the graph side. -/
theorem start_lookup_shared (graph : KnowledgeGraph σ) (question : Question)
    (desk : SharedDesk σ τ) :
    let looked := ((cachedLookups graph.shared).ask question).start desk
    ((cachedLookups graph).ask question).start desk.graphPart = (looked.1, looked.2.graphPart) ∧
      looked.2.state.graph.examples = desk.state.graph.examples ∧
      Turn desk .graph looked.1 looked.2 := by
  obtain ⟨⟨cache, shared⟩, cancelled⟩ := desk
  simp only [start_lookup, Desk.graphPart, KnowledgeGraph.shared_reply,
    KnowledgeGraph.sharedReply]
  rcases question.lookInto cache with ⟨_ | answer, cache'⟩
  · cases cancelled
    · simp only [Bool.false_eq_true, if_false]
      rcases hanswer : (graph.reply question shared.graph).answer with (reason | reason) | answer
      · refine ⟨rfl, rfl, .lost reason ((graph.reply question shared.graph).call
          (.symbol question)) _ rfl rfl rfl ?_⟩
        simp [Call.graphLost?, Reply.call, hanswer]
      · refine ⟨rfl, rfl, .called .graph _ ((graph.reply question shared.graph).call
          (.symbol question)) _ rfl rfl rfl ?_⟩
        simp [Call.graphLost?, Reply.call, hanswer]
      · refine ⟨rfl, rfl, .called .graph _ ((graph.reply question shared.graph).call
          (.symbol question)) _ rfl rfl rfl ?_⟩
        simp [Call.graphLost?, Reply.call, hanswer]
    · exact ⟨rfl, rfl, .stopped .graph _ rfl rfl rfl⟩
  · exact ⟨rfl, rfl, .quiet .graph _ _ rfl rfl⟩

/-- A search on the shared desk is the search on the part of the examples, leaves the cache and the
graph alone and is a turn of the example side. -/
theorem start_search_shared (examples : Option (ExampleIndex α τ)) (settings : Settings α)
    (query : String) (desk : SharedDesk σ τ) :
    let searched := (exampleSearch (examples.map ExampleIndex.shared) settings query).start desk
    (exampleSearch examples settings query).start desk.examplePart =
        (searched.1, searched.2.examplePart) ∧
      searched.2.state.cache = desk.state.cache ∧
      searched.2.state.graph.graph = desk.state.graph.graph ∧
      Turn desk .examples searched.1 searched.2 := by
  obtain ⟨⟨cache, shared⟩, cancelled⟩ := desk
  simp only [exampleSearch, Request.start_bind, Request.start_checkpoint, Desk.examplePart]
  cases cancelled with
  | true => exact ⟨rfl, rfl, rfl, .stopped .examples _ rfl rfl rfl⟩
  | false =>
    cases examples with
    | none => exact ⟨rfl, rfl, rfl, .quiet .examples _ _ rfl rfl⟩
    | some index =>
      refine ⟨rfl, rfl, rfl, .called .examples _
        ((index.search query settings.topK settings.minSimilarity shared.examples).call
          (.examples query)) _ rfl rfl rfl ?_⟩
      simp [Call.graphLost?, Reply.call]

end UsageAudit
