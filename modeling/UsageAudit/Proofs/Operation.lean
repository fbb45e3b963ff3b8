import UsageAudit.Proofs.CachedLookup

/-!
# Runs on a graph and its cache

Between them, requests check targets and scripts, and answers are dropped from the cache. This file
follows any row of such operations lookup by lookup: the lookups of a run form a chain of desks, so
that what each of them preserves holds at every point of the run, also where a problem ends a check
midway.
-/

namespace UsageAudit

variable {α σ : Type}

/-- One lookup of a run: the desk before it, what it came to, and the desk after it. -/
structure LookupRecord (σ : Type) where
  question : Question
  before : Desk (Cached σ)
  outcome : Except Problem (Fetch question.Answer)
  after : Desk (Cached σ)

/-- Whether the record is that of a lookup on the given graph. -/
def LookupRecord.IsOf (record : LookupRecord σ) (graph : KnowledgeGraph σ) : Prop :=
  ((cachedLookups graph).ask record.question).start record.before = (record.outcome, record.after)

/-- Each lookup starts from the desk that the one before it left. -/
def Linked (first : Desk (Cached σ)) (records : List (LookupRecord σ)) (last : Desk (Cached σ)) :
    Prop :=
  match records with
  | [] => first = last
  | record :: rest => record.before = first ∧ Linked record.after rest last

/-- What holds at the first desk of a chain and is preserved by each of its lookups holds at the
last desk, and before and after every lookup. -/
theorem Linked.invariant {first last : Desk (Cached σ)} {records : List (LookupRecord σ)}
    (hlinked : Linked first records last) (holds : Desk (Cached σ) → Prop) (hfirst : holds first)
    (hstep : ∀ record ∈ records, holds record.before → holds record.after) :
    holds last ∧ ∀ record ∈ records, holds record.before ∧ holds record.after := by
  induction records generalizing first with
  | nil =>
    have heq : first = last := hlinked
    subst heq
    exact ⟨hfirst, by simp⟩
  | cons record rest ih =>
    obtain ⟨hbefore, hrest⟩ := hlinked
    have hrecord : holds record.before := by rwa [hbefore]
    have hafter := hstep record (by simp) hrecord
    obtain ⟨hlast, hall⟩ := ih hrest hafter fun r hr => hstep r (List.mem_cons_of_mem _ hr)
    refine ⟨hlast, ?_⟩
    intro r hr
    rcases List.mem_cons.mp hr with rfl | hr
    · exact ⟨hrecord, hafter⟩
    · exact hall r hr

namespace Inquiry

/-- The lookups by which an inquiry is carried out. A problem ends them. -/
def trace (graph : KnowledgeGraph σ) : Inquiry α → Desk (Cached σ) → List (LookupRecord σ)
  | .done _, _ => []
  | .ask question next, desk =>
    match ((cachedLookups graph).ask question).start desk with
    | (.ok fetch, after) => ⟨question, desk, .ok fetch, after⟩ :: (next fetch).trace graph after
    | (.error problem, after) => [⟨question, desk, .error problem, after⟩]

/-- Carrying out an inquiry goes on from the first lookup, unless that met with a problem. -/
theorem start_run_ask (graph : KnowledgeGraph σ) (question : Question)
    (next : Fetch question.Answer → Inquiry α) (desk : Desk (Cached σ)) :
    ((Inquiry.ask question next).run (cachedLookups graph)).start desk =
      match ((cachedLookups graph).ask question).start desk with
      | (.ok fetch, after) => ((next fetch).run (cachedLookups graph)).start after
      | (.error problem, after) => (.error problem, after) := by
  simp only [run, Request.start_bind]
  rcases ((cachedLookups graph).ask question).start desk with ⟨problem | fetch, after⟩ <;> rfl

/-- Every record of a trace is that of a lookup. -/
theorem isOf_of_mem_trace {graph : KnowledgeGraph σ} {inquiry : Inquiry α} {desk : Desk (Cached σ)}
    {record : LookupRecord σ} (h : record ∈ inquiry.trace graph desk) : record.IsOf graph := by
  induction inquiry generalizing desk with
  | done value => simp [trace] at h
  | ask question next ih =>
    rcases hstart : ((cachedLookups graph).ask question).start desk with ⟨problem | fetch, after⟩
    · simp only [trace, hstart, List.mem_singleton] at h
      subst h
      exact hstart
    · simp only [trace, hstart, List.mem_cons] at h
      rcases h with rfl | h
      · exact hstart
      · exact ih fetch h

/-- The lookups of an inquiry lead from the desk on which it is started to the one that it
leaves. -/
theorem linked_trace (graph : KnowledgeGraph σ) (inquiry : Inquiry α) (desk : Desk (Cached σ)) :
    Linked desk (inquiry.trace graph desk)
      ((inquiry.run (cachedLookups graph)).start desk).2 := by
  induction inquiry generalizing desk with
  | done value => rfl
  | ask question next ih =>
    rw [start_run_ask]
    rcases hstart : ((cachedLookups graph).ask question).start desk with ⟨problem | fetch, after⟩
    · simp [trace, hstart, Linked]
    · simp only [trace, hstart, Linked]
      exact ⟨trivial, ih fetch after⟩

end Inquiry

/-- What can be done to a graph and its cache. Each check belongs to a request, which may have been
cancelled before. -/
inductive Operation where
  | check (target : Target) (cancelled : Bool)
  | checkScript (analysis : Analysis) (cancelled : Bool)
  | invalidate (key : CacheKey)
  | clear

namespace Operation

variable [Scalar α] (graph : KnowledgeGraph σ) (settings : Settings α)

/-- The graph and its cache after an operation. -/
def run (state : Cached σ) : Operation → Cached σ
  | .check target cancelled =>
    ((GraphCheck.checkTarget (cachedLookups graph) settings target).start
      ⟨state, cancelled⟩).2.state
  | .checkScript analysis cancelled =>
    ((GraphCheck.checkScript (cachedLookups graph) settings analysis).start
      ⟨state, cancelled⟩).2.state
  | .invalidate key => { state with cache := (state.cache.invalidate key).2 }
  | .clear => { state with cache := state.cache.clear }

/-- The graph and its cache after a row of operations. -/
def runAll (state : Cached σ) (operations : List Operation) : Cached σ :=
  operations.foldl (run graph settings) state

/-- The lookups of an operation. -/
def trace (state : Cached σ) : Operation → List (LookupRecord σ)
  | .check target cancelled =>
    (GraphCheck.checkTarget Inquiry.lookups settings target).trace graph ⟨state, cancelled⟩
  | .checkScript analysis cancelled =>
    (GraphCheck.checkScript Inquiry.lookups settings analysis).trace graph ⟨state, cancelled⟩
  | .invalidate _ | .clear => []

/-- Every record of an operation is that of a lookup. -/
theorem isOf_of_mem_trace {graph : KnowledgeGraph σ} {state : Cached σ} {operation : Operation}
    {record : LookupRecord σ} (h : record ∈ operation.trace graph settings state) :
    record.IsOf graph := by
  cases operation with
  | check target cancelled => exact Inquiry.isOf_of_mem_trace h
  | checkScript analysis cancelled => exact Inquiry.isOf_of_mem_trace h
  | invalidate key => simp [trace] at h
  | clear => simp [trace] at h

/-- What each lookup preserves holds after a check and around each of its lookups. Of the operations
that drop answers it has to be shown that they preserve it, too. -/
theorem invariant (operation : Operation) (holds : Cached σ → Prop) {state : Cached σ}
    (hstate : holds state)
    (hlookup : ∀ record ∈ operation.trace graph settings state, holds record.before.state →
      holds record.after.state)
    (hinvalidate : ∀ key, operation = .invalidate key →
      holds { state with cache := (state.cache.invalidate key).2 })
    (hclear : operation = .clear → holds { state with cache := state.cache.clear }) :
    holds (operation.run graph settings state) ∧
      ∀ record ∈ operation.trace graph settings state,
        holds record.before.state ∧ holds record.after.state := by
  have hinquiry {β : Type} (inquiry : Inquiry β) (cancelled : Bool) :=
    (inquiry.linked_trace graph ⟨state, cancelled⟩).invariant (fun desk => holds desk.state) hstate
  cases operation with
  | check target cancelled =>
    simpa only [run, trace, GraphCheck.run_checkTarget] using
      hinquiry (GraphCheck.checkTarget Inquiry.lookups settings target) cancelled hlookup
  | checkScript analysis cancelled =>
    simpa only [run, trace, GraphCheck.run_checkScript] using
      hinquiry (GraphCheck.checkScript Inquiry.lookups settings analysis) cancelled hlookup
  | invalidate key => exact ⟨hinvalidate key rfl, by simp [trace]⟩
  | clear => exact ⟨hclear rfl, by simp [trace]⟩

end Operation

end UsageAudit
