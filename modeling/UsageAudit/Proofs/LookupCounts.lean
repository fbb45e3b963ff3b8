import Mathlib.Data.Set.Card
import UsageAudit.Proofs.CacheHistory

/-!
# The counts of the cache

The cache counts every look into it, and a lookup looks once or twice: once if it finds the answer,
and twice before it asks the graph or learns that the request has been cancelled. So the counts tell
how the lookups since the cache was last cleared have ended, of any graph and whichever requests were
cancelled.
-/

namespace UsageAudit

variable {α σ : Type}

namespace LookupRecord

/-- Whether the lookup was answered from the cache. -/
def recalled (record : LookupRecord σ) : Bool :=
  match record.outcome with
  | .ok fetch => fetch.isCached
  | .error _ => false

/-- Whether the lookup ended because the request had been cancelled. -/
def stopped (record : LookupRecord σ) : Bool :=
  match record.outcome with
  | .error .cancelled => true
  | _ => false

end LookupRecord

namespace Event

/-- Whether the event is a call of the graph. -/
def isCall : Event → Bool
  | .asked .. => true
  | .dropped _ | .cleared => false

/-- Whether the event drops all answers at once. -/
def isClearing : Event → Bool
  | .cleared => true
  | .asked .. | .dropped _ => false

end Event

/-- The number of calls of the graph since the cache was last cleared. The latest event comes
first. -/
def callsSinceClear (events : List Event) : Nat :=
  (events.takeWhile fun event => !event.isClearing).countP Event.isCall

/-- Nothing was called before anything has happened. -/
@[simp]
theorem callsSinceClear_nil : callsSinceClear [] = 0 := rfl

/-- A call counts whatever was answered. -/
@[simp]
theorem callsSinceClear_asked (key : CacheKey) (answer : Except SourceFault CacheEntry)
    (events : List Event) :
    callsSinceClear (.asked key answer :: events) = callsSinceClear events + 1 := by
  simp [callsSinceClear, List.countP_cons, Event.isClearing, Event.isCall]

/-- Dropping one answer is no call. -/
@[simp]
theorem callsSinceClear_dropped (key : CacheKey) (events : List Event) :
    callsSinceClear (.dropped key :: events) = callsSinceClear events := by
  simp [callsSinceClear, Event.isClearing, Event.isCall]

/-- No call is counted when all answers were just dropped. -/
@[simp]
theorem callsSinceClear_cleared (events : List Event) :
    callsSinceClear (.cleared :: events) = 0 := by
  simp [callsSinceClear, Event.isClearing]

/-- Whether the graph gave an answer for the key that was not dropped since. The latest event comes
first. -/
def Answered (key : CacheKey) (events : List Event) : Prop :=
  ∃ entry later earlier, events = later ++ .asked key (.ok entry) :: earlier ∧
    ∀ event ∈ later, event.drops key = false

/-- An answer is given by the latest event, or was given before and not dropped by it. -/
theorem answered_cons (key : CacheKey) (event : Event) (rest : List Event) :
    Answered key (event :: rest) ↔
      (∃ entry, event = .asked key (.ok entry)) ∨
        event.drops key = false ∧ Answered key rest := by
  constructor
  · rintro ⟨entry, _ | ⟨first, later⟩, earlier, heq, hkept⟩
    · exact Or.inl ⟨entry, (List.cons.inj heq).1⟩
    · obtain ⟨rfl, rfl⟩ := List.cons.inj heq
      obtain ⟨hfirst, hlater⟩ := List.forall_mem_cons.mp hkept
      exact Or.inr ⟨hfirst, entry, later, earlier, rfl, hlater⟩
  · rintro (⟨entry, rfl⟩ | ⟨hevent, entry, later, earlier, rfl, hlater⟩)
    · exact ⟨entry, [], rest, rfl, by simp⟩
    · exact ⟨entry, event :: later, earlier, rfl, List.forall_mem_cons.mpr ⟨hevent, hlater⟩⟩

/-- There is a first answer for a key if and only if there is one that was not dropped since. -/
theorem isSome_firstAnswer_iff (key : CacheKey) (events : List Event) :
    (firstAnswer key events).isSome = true ↔ Answered key events := by
  induction events with
  | nil => simp [Answered]
  | cons event rest ih =>
    rw [answered_cons, ← ih]
    cases event with
    | asked other answer =>
      rw [firstAnswer_asked, Option.isSome_or]
      rcases answer with fault | entry
      · simp [Event.answerTo, Event.drops]
      · by_cases heq : other = key <;> simp [Event.answerTo, Event.drops, heq]
    | dropped other =>
      rw [firstAnswer_dropped]
      by_cases heq : other = key <;> simp [Event.drops, heq]
    | cleared => simp [Event.drops]

/-- The counts of the cache tell how the lookups ended. -/
structure Cached.Counts (state : Cached (Watched σ)) (lookups : List (LookupRecord (Watched σ))) :
    Prop where
  hits : state.cache.hits = lookups.countP LookupRecord.recalled
  misses : state.cache.misses =
    2 * callsSinceClear state.graph.events + 2 * lookups.countP LookupRecord.stopped
  /-- Every lookup ends in one of three ways. -/
  total : lookups.length =
    lookups.countP LookupRecord.recalled + callsSinceClear state.graph.events +
      lookups.countP LookupRecord.stopped

namespace Cached.Counts

variable {state : Cached (Watched σ)} {lookups : List (LookupRecord (Watched σ))}

/-- A cleared cache has counted nothing. -/
theorem of_empty (hcache : state.cache = .empty)
    (hcalls : callsSinceClear state.graph.events = 0) : state.Counts [] where
  hits := by rw [hcache]; rfl
  misses := by rw [hcache, hcalls]; rfl
  total := by rw [hcalls]; rfl

/-- Dropping an answer leaves the counts as they are. -/
theorem invalidate (h : state.Counts lookups) (key : CacheKey) :
    (⟨(state.cache.invalidate key).2,
      { state.graph with events := .dropped key :: state.graph.events }⟩ :
        Cached (Watched σ)).Counts lookups where
  hits := h.hits
  misses := by rw [callsSinceClear_dropped]; exact h.misses
  total := by rw [callsSinceClear_dropped]; exact h.total

/-- A lookup that ends in one of the three ways adds to the counts what that way comes to. -/
theorem of_append {state' : Cached (Watched σ)} {record : LookupRecord (Watched σ)}
    (h : state.Counts lookups) (calls : Nat)
    (hhits : state'.cache.hits = state.cache.hits + record.recalled.toNat)
    (hmisses : state'.cache.misses = state.cache.misses + 2 * calls + 2 * record.stopped.toNat)
    (hcalls : callsSinceClear state'.graph.events = callsSinceClear state.graph.events + calls)
    (hone : record.recalled.toNat + calls + record.stopped.toNat = 1) :
    state'.Counts (lookups ++ [record]) := by
  have hcount (p : LookupRecord (Watched σ) → Bool) :
      (lookups ++ [record]).countP p = lookups.countP p + (p record).toNat := by
    cases hp : p record <;> simp [List.countP_append, hp]
  obtain ⟨hh, hm, ht⟩ := h
  constructor
  · rw [hhits, hh, hcount]
  · rw [hmisses, hm, hcalls, hcount]
    omega
  · rw [List.length_append, List.length_singleton, ht, hcalls, hcount, hcount]
    omega

/-- Every lookup is counted by how it ends. -/
theorem lookup {graph : KnowledgeGraph σ} {record : LookupRecord (Watched σ)}
    (hof : record.IsOf graph.watched) (hbefore : record.before.state.Consistent)
    (h : record.before.state.Counts lookups) :
    record.after.state.Counts (lookups ++ [record]) := by
  have hstep := hof.step hbefore
  obtain ⟨question, before, outcome, after⟩ := record
  dsimp only at hbefore hstep h ⊢
  have hcalls : callsSinceClear (graph.watched.reply question before.state.graph).state.events =
      callsSinceClear before.state.graph.events + 1 := by
    rw [events_watched_reply, callsSinceClear_asked]
  cases hstep with
  | hit answer held => exact h.of_append 0 rfl rfl rfl rfl
  | stopped absent cancelled => exact h.of_append 0 rfl rfl rfl rfl
  | kept answer absent live replied => exact h.of_append 1 rfl rfl hcalls rfl
  | malformed reason absent live replied => exact h.of_append 1 rfl rfl hcalls rfl
  | unavailable reason absent live replied => exact h.of_append 1 rfl rfl hcalls rfl

/-- The lookups of a chain are counted one after the other. -/
theorem linked {graph : KnowledgeGraph σ} {first last : Desk (Cached (Watched σ))}
    {records : List (LookupRecord (Watched σ))} (hlinked : Linked first records last)
    (hrecords : ∀ record ∈ records, record.IsOf graph.watched)
    (hfirst : first.state.Consistent) (h : first.state.Counts lookups) :
    last.state.Counts (lookups ++ records) := by
  induction records generalizing first lookups with
  | nil =>
    obtain rfl : first = last := hlinked
    rwa [List.append_nil]
  | cons record rest ih =>
    obtain ⟨rfl, hrest⟩ := hlinked
    obtain ⟨hof, hothers⟩ := List.forall_mem_cons.mp hrecords
    rw [List.append_cons]
    exact ih hrest hothers (hof.consistent_after hfirst) (lookup hof hfirst h)

/-- The lookups of an inquiry are counted one after the other. -/
theorem inquiry {β : Type} (h : state.Counts lookups) (hstate : state.Consistent)
    (graph : KnowledgeGraph σ) (inquiry : Inquiry β) (cancelled : Bool) :
    ((inquiry.run (cachedLookups graph.watched)).start ⟨state, cancelled⟩).2.state.Counts
      (lookups ++ inquiry.trace graph.watched ⟨state, cancelled⟩) :=
  linked (inquiry.linked_trace graph.watched ⟨state, cancelled⟩)
    (fun _ => Inquiry.isOf_of_mem_trace) hstate h

end Cached.Counts

namespace Operation

variable [Scalar α] (graph : KnowledgeGraph σ) (settings : Settings α)

/-- The lookups since the cache was last cleared, after an operation. `lookups` are those before
it. -/
def lookupsAfter (state : Cached (Watched σ)) (lookups : List (LookupRecord (Watched σ))) :
    Operation → List (LookupRecord (Watched σ))
  | .clear => []
  | operation => lookups ++ operation.trace graph.watched settings state

/-- The lookups since the cache was last cleared, after a row of operations. `lookups` are those
before it. -/
def lookupsAfterAll (state : Cached (Watched σ)) (lookups : List (LookupRecord (Watched σ))) :
    List Operation → List (LookupRecord (Watched σ))
  | [] => lookups
  | operation :: rest =>
    lookupsAfterAll (operation.watch graph settings state)
      (operation.lookupsAfter graph settings state lookups) rest

/-- Every operation leaves the counts as they should be. -/
theorem counts_watch {state : Cached (Watched σ)} {lookups : List (LookupRecord (Watched σ))}
    (hstate : state.Consistent) (h : state.Counts lookups) (operation : Operation) :
    (operation.watch graph settings state).Counts
      (operation.lookupsAfter graph settings state lookups) := by
  cases operation with
  | check target cancelled =>
    have hafter :=
      h.inquiry hstate graph (GraphCheck.checkTarget Inquiry.lookups settings target) cancelled
    rwa [GraphCheck.run_checkTarget] at hafter
  | checkScript analysis cancelled =>
    have hafter :=
      h.inquiry hstate graph (GraphCheck.checkScript Inquiry.lookups settings analysis) cancelled
    rwa [GraphCheck.run_checkScript] at hafter
  | invalidate key =>
    simp only [lookupsAfter, trace, List.append_nil]
    exact h.invalidate key
  | clear => exact .of_empty rfl (callsSinceClear_cleared _)

/-- A row of operations leaves the counts as they should be. -/
theorem counts_watchAll {state : Cached (Watched σ)} {lookups : List (LookupRecord (Watched σ))}
    (hstate : state.Consistent) (h : state.Counts lookups) (operations : List Operation) :
    (watchAll graph settings state operations).Counts
      (lookupsAfterAll graph settings state lookups operations) := by
  induction operations generalizing state lookups with
  | nil => exact h
  | cons operation rest ih =>
    exact ih (consistent_watch graph settings hstate operation).1
      (counts_watch graph settings hstate h operation)

end Operation

/-- The answers that a cache holds are those that were given and not dropped since. -/
theorem Cached.Consistent.encard_answered {state : Cached (Watched σ)} (h : state.Consistent) :
    Set.encard {key | Answered key state.graph.events} = state.cache.size := by
  have hkeys : {key | Answered key state.graph.events} =
      ((Ordered.keys state.cache.entries).toFinset : Set CacheKey) := by
    ext key
    rw [Set.mem_ofPred_eq, ← isSome_firstAnswer_iff, ← h.held, List.coe_toFinset, Set.mem_ofPred_eq,
      ← Ordered.has_iff]
    rfl
  calc
    _ = ((Ordered.keys state.cache.entries).toFinset.card : ℕ∞) := by
      rw [hkeys, Set.encard_coe_eq_coe_finsetCard]
    _ = (Ordered.keys state.cache.entries).length := by
      rw [List.toFinset_card_of_nodup h.distinct]
    _ = state.cache.size := by simp [Ordered.keys, Cache.size]

namespace Operation

variable [Scalar α] (graph : KnowledgeGraph σ) (settings : Settings α)

/-- After any row of operations on any graph, begun with an empty cache, the counts tell what has
happened since the cache was last cleared: one hit for every lookup that was answered from it, two
misses for every call of the graph and for every lookup that was stopped because the request had
been cancelled, and there were no other lookups. The size of the cache is the number of keys for
which the graph gave an answer that was not dropped since. -/
theorem counts_tell_lookups (start : σ) (operations : List Operation) :
    let watched := watchAll graph settings ⟨.empty, ⟨start, []⟩⟩ operations
    let lookups := lookupsAfterAll graph settings ⟨.empty, ⟨start, []⟩⟩ [] operations
    watched.unwatched = runAll graph settings ⟨.empty, start⟩ operations ∧
      watched.cache.hits = lookups.countP LookupRecord.recalled ∧
      watched.cache.misses =
        2 * callsSinceClear watched.graph.events + 2 * lookups.countP LookupRecord.stopped ∧
      lookups.length =
        lookups.countP LookupRecord.recalled + callsSinceClear watched.graph.events +
          lookups.countP LookupRecord.stopped ∧
      Set.encard {key | Answered key watched.graph.events} = watched.cache.size := by
  have hcounts := counts_watchAll graph settings (Cached.Consistent.fresh start)
    (.of_empty rfl rfl) operations
  have hconsistent :=
    (consistent_watchAll graph settings (Cached.Consistent.fresh start) operations).1
  exact ⟨unwatched_watchAll graph settings _ operations, hcounts.hits, hcounts.misses,
    hcounts.total, hconsistent.encard_answered⟩

end Operation

end UsageAudit
