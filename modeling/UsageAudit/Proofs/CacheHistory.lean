import UsageAudit.Proofs.Operation

/-!
# What the cache holds

The cache is determined by what happened: under each key it holds the first answer that the graph
gave since the key was last dropped, and nothing if there was none. To state this of any graph,
however its answers may depend on what it was asked before, the graph is watched: a watched graph
answers as the graph does and notes every question that reaches it.
-/

namespace UsageAudit

/-- What happens to a graph and to the cache of its answers. -/
inductive Event where
  /-- The graph was asked, and answered. -/
  | asked (key : CacheKey) (answer : Except SourceFault CacheEntry)
  | dropped (key : CacheKey)
  | cleared

namespace Event

/-- Whether the event takes the entry of a key out of the cache. -/
def drops (key : CacheKey) : Event → Bool
  | .asked .. => false
  | .dropped other => other == key
  | .cleared => true

/-- The answer that the event gives for a key, if the graph gave one. -/
def answerTo (key : CacheKey) : Event → Option CacheEntry
  | .asked other (.ok entry) => if other = key then some entry else none
  | .asked _ (.error _) | .dropped _ | .cleared => none

end Event

/-- The first answer for a key since it was last dropped. The latest event comes first. -/
def firstAnswer (key : CacheKey) (events : List Event) : Option CacheEntry :=
  (events.takeWhile fun event => !event.drops key).reverse.findSome? (Event.answerTo key)

/-- Before anything has happened there is no answer. -/
@[simp]
theorem firstAnswer_nil (key : CacheKey) : firstAnswer key [] = none := rfl

/-- A further answer for a key counts only if there was none before. -/
theorem firstAnswer_asked (key asked : CacheKey) (answer : Except SourceFault CacheEntry)
    (events : List Event) :
    firstAnswer key (.asked asked answer :: events) =
      (firstAnswer key events).or (Event.answerTo key (.asked asked answer)) := by
  simp [firstAnswer, Event.drops, List.findSome?_append]

/-- A key that was just dropped has no answer; the others keep theirs. -/
theorem firstAnswer_dropped (key dropped : CacheKey) (events : List Event) :
    firstAnswer key (.dropped dropped :: events) =
      if dropped = key then none else firstAnswer key events := by
  by_cases h : dropped = key <;>
    simp [firstAnswer, Event.drops, Event.answerTo, List.findSome?_append, h]

/-- No key has an answer when all were just dropped. -/
@[simp]
theorem firstAnswer_cleared (key : CacheKey) (events : List Event) :
    firstAnswer key (.cleared :: events) = none := by
  simp [firstAnswer, Event.drops]

/-- A graph with what has happened to it and to its cache, the latest event first. -/
structure Watched (σ : Type) where
  graph : σ
  events : List Event

variable {α σ : Type}

namespace KnowledgeGraph

/-- What a watched graph replies: what the graph does, and it notes the question. -/
def watchedReply (graph : KnowledgeGraph σ) (question : Question) (state : Watched σ) :
    Reply (Watched σ) question.Answer :=
  let reply := graph.reply question state.graph
  ⟨reply.answer,
    ⟨reply.state, .asked question.key (reply.answer.map question.entry) :: state.events⟩,
    reply.cancels⟩

/-- The graph, watched. -/
def watched (graph : KnowledgeGraph σ) : KnowledgeGraph (Watched σ) where
  findSymbol kind qualifiers := graph.watchedReply (.sighting kind qualifiers)
  findMethodSignature owner method := graph.watchedReply (.methodSignature owner method)
  findFunctionSignature path name := graph.watchedReply (.functionSignature path name)
  close state := { state with graph := graph.close state.graph }

/-- A watched graph replies to every question alike. -/
@[simp]
theorem watched_reply (graph : KnowledgeGraph σ) (question : Question) :
    graph.watched.reply question = graph.watchedReply question := by
  cases question <;> rfl

end KnowledgeGraph

namespace Operation

variable [Scalar α] (graph : KnowledgeGraph σ) (settings : Settings α)

/-- The event that an operation is by itself, without its lookups. -/
def event? : Operation → Option Event
  | .check .. | .checkScript .. => none
  | .invalidate key => some (.dropped key)
  | .clear => some .cleared

/-- A watched graph and its cache after an operation. -/
def watch (state : Cached (Watched σ)) (operation : Operation) : Cached (Watched σ) :=
  let state := operation.run graph.watched settings state
  { state with graph.events := operation.event?.toList ++ state.graph.events }

/-- A watched graph and its cache after a row of operations. -/
def watchAll (state : Cached (Watched σ)) (operations : List Operation) : Cached (Watched σ) :=
  operations.foldl (watch graph settings) state

/-- The lookups of a row of operations on a watched graph. -/
def watchedTrace (state : Cached (Watched σ)) : List Operation → List (LookupRecord (Watched σ))
  | [] => []
  | operation :: rest =>
    operation.trace graph.watched settings state ++
      watchedTrace (operation.watch graph settings state) rest

end Operation

/-- The cache holds what it should: under each key the first answer since the key was last dropped,
which is of the sort that belongs under the key. -/
structure Cached.Faithful (state : Cached (Watched σ)) : Prop where
  held : ∀ key, state.cache.entries.get? key = firstAnswer key state.graph.events
  fits : ∀ key entry, state.cache.entries.get? key = some entry → entry.Fits key

/-- How a lookup deals with the graph and the cache. -/
structure LookupRecord.Economical (record : LookupRecord (Watched σ)) : Prop where
  /-- What the cache holds is answered from it, and the graph is left alone. -/
  held : ∀ entry, record.before.state.cache.entries.get? record.question.key = some entry →
    (∃ answer, record.question.entry answer = entry ∧ record.outcome = .ok (.cached answer)) ∧
      record.after.state.graph = record.before.state.graph
  /-- A cancelled request asks no more. -/
  stopped : record.before.state.cache.entries.get? record.question.key = none →
    record.before.cancelled = true →
    record.outcome = .error .cancelled ∧ record.after.state.graph = record.before.state.graph
  /-- In all other cases the graph is asked once, and what it answers decides. -/
  asked : record.before.state.cache.entries.get? record.question.key = none →
    record.before.cancelled = false →
    ∃ answer, record.outcome = fetchDirect answer ∧
      record.after.state.graph.events =
        .asked record.question.key (answer.map record.question.entry) ::
          record.before.state.graph.events
  /-- Only an answer of the graph changes what the cache holds. -/
  unchanged : (∀ answer, record.outcome ≠ .ok (.fresh answer)) →
    record.after.state.cache.entries = record.before.state.cache.entries

/-- The invariant of a run: the cache holds what it should, no key twice. -/
structure Cached.Consistent (state : Cached (Watched σ)) : Prop extends state.Faithful where
  distinct : (Ordered.keys state.cache.entries).Nodup

namespace Cached.Consistent

/-- The invariant holds before anything has happened. -/
theorem fresh (start : σ) : (⟨.empty, ⟨start, []⟩⟩ : Cached (Watched σ)).Consistent where
  held _ := rfl
  fits _ _ h := by simp [Cache.empty, Ordered.get?] at h
  distinct := List.nodup_nil

/-- The invariant speaks of the entries and events alone. -/
theorem of_eq {state state' : Cached (Watched σ)} (h : state.Consistent)
    (hentries : state'.cache.entries = state.cache.entries)
    (hevents : state'.graph.events = state.graph.events) : state'.Consistent where
  held key := by rw [hentries, hevents]; exact h.held key
  fits key entry := by rw [hentries]; exact h.fits key entry
  distinct := by rw [hentries]; exact h.distinct

/-- A fault of the graph leaves the invariant. -/
theorem of_fault {state state' : Cached (Watched σ)} (h : state.Consistent) {key : CacheKey}
    {fault : SourceFault} (hentries : state'.cache.entries = state.cache.entries)
    (hevents : state'.graph.events = .asked key (.error fault) :: state.graph.events) :
    state'.Consistent where
  held other := by
    rw [hentries, hevents, firstAnswer_asked, h.held other]
    simp [Event.answerTo]
  fits other entry := by rw [hentries]; exact h.fits other entry
  distinct := by rw [hentries]; exact h.distinct

/-- The first answer for a key is kept. -/
theorem of_answer {state state' : Cached (Watched σ)} (h : state.Consistent) {key : CacheKey}
    {entry : CacheEntry} (hfits : entry.Fits key) (habsent : state.cache.entries.get? key = none)
    (hentries : state'.cache.entries = state.cache.entries.put key entry)
    (hevents : state'.graph.events = .asked key (.ok entry) :: state.graph.events) :
    state'.Consistent where
  held other := by
    rw [hentries, hevents, firstAnswer_asked, ← h.held other]
    by_cases heq : key = other
    · subst heq
      simp [habsent, Event.answerTo]
    · simp [Ordered.get?_put_of_ne _ _ heq, Event.answerTo, heq]
  fits other held := by
    rw [hentries]
    by_cases heq : key = other
    · subst heq
      rw [Ordered.get?_put_self]
      rintro ⟨⟩
      exact hfits
    · rw [Ordered.get?_put_of_ne _ _ heq]
      exact h.fits other held
  distinct := by
    rw [hentries]
    exact Ordered.nodup_keys_put h.distinct key entry

/-- Dropping an answer is noted, and the invariant stays. -/
theorem invalidate {state : Cached (Watched σ)} (h : state.Consistent) (key : CacheKey) :
    (⟨(state.cache.invalidate key).2,
      { state.graph with events := .dropped key :: state.graph.events }⟩ :
        Cached (Watched σ)).Consistent where
  held other := by
    rw [firstAnswer_dropped]
    by_cases heq : key = other
    · subst heq
      simpa [Cache.invalidate] using Ordered.get?_erase_self h.distinct key
    · simpa [Cache.invalidate, heq, Ordered.get?_erase_of_ne _ heq] using h.held other
  fits other entry hget := by
    by_cases heq : key = other
    · subst heq
      simp [Cache.invalidate, Ordered.get?_erase_self h.distinct key] at hget
    · have hkept : state.cache.entries.get? other = some entry := by
        simpa [Cache.invalidate, Ordered.get?_erase_of_ne _ heq] using hget
      exact h.fits other entry hkept
  distinct := Ordered.nodup_keys_erase h.distinct key

/-- Dropping all answers is noted, and the invariant stays. -/
theorem clear (state : Cached (Watched σ)) :
    (⟨state.cache.clear, { state.graph with events := .cleared :: state.graph.events }⟩ :
      Cached (Watched σ)).Consistent where
  held key := by rw [firstAnswer_cleared]; rfl
  fits _ _ h := by simp [Cache.clear, Cache.empty, Ordered.get?] at h
  distinct := List.nodup_nil

end Cached.Consistent

/-- A watched graph notes each question with what it answers. -/
theorem events_watched_reply (graph : KnowledgeGraph σ) (question : Question) (state : Watched σ) :
    (graph.watched.reply question state).state.events =
      .asked question.key ((graph.watched.reply question state).answer.map question.entry) ::
        state.events := by
  rw [KnowledgeGraph.watched_reply]
  rfl

namespace LookupRecord

variable {graph : KnowledgeGraph σ} {record : LookupRecord (Watched σ)}

/-- On a consistent cache every lookup is one of the five steps. -/
theorem IsOf.step (h : record.IsOf graph.watched) (hbefore : record.before.state.Consistent) :
    LookupStep graph.watched record.question record.before record.outcome record.after := by
  have hstep := lookupStep_start graph.watched record.question hbefore.fits
  rwa [h] at hstep

/-- Every lookup preserves the invariant. -/
theorem IsOf.consistent_after (h : record.IsOf graph.watched)
    (hbefore : record.before.state.Consistent) : record.after.state.Consistent := by
  have hstep := h.step hbefore
  obtain ⟨question, before, outcome, after⟩ := record
  dsimp only at hbefore hstep ⊢
  have hevents := events_watched_reply graph question before.state.graph
  cases hstep with
  | hit answer held => exact hbefore.of_eq rfl rfl
  | stopped absent cancelled => exact hbefore.of_eq rfl rfl
  | kept answer absent live replied =>
    rw [replied] at hevents
    exact hbefore.of_answer (question.entry_fits answer) absent rfl hevents
  | malformed reason absent live replied =>
    rw [replied] at hevents
    exact hbefore.of_fault rfl hevents
  | unavailable reason absent live replied =>
    rw [replied] at hevents
    exact hbefore.of_fault rfl hevents

/-- A lookup that asks the graph deals with it as it should if it comes to what the graph answers
and keeps nothing else. -/
theorem economical_of_asked {record : LookupRecord (Watched σ)}
    (absent : record.before.state.cache.entries.get? record.question.key = none)
    (live : record.before.cancelled = false) {answer : Except SourceFault record.question.Answer}
    (houtcome : record.outcome = fetchDirect answer)
    (hevents : record.after.state.graph.events =
      .asked record.question.key (answer.map record.question.entry) ::
        record.before.state.graph.events)
    (hentries : (∀ value, record.outcome ≠ .ok (.fresh value)) →
      record.after.state.cache.entries = record.before.state.cache.entries) :
    record.Economical where
  held entry hentry := by simp [absent] at hentry
  stopped _ hcancelled := by simp [live] at hcancelled
  asked _ _ := ⟨answer, houtcome, hevents⟩
  unchanged := hentries

/-- Every lookup asks only for what the cache does not hold, and keeps only what the graph
answers. -/
theorem IsOf.economical (h : record.IsOf graph.watched)
    (hbefore : record.before.state.Consistent) : record.Economical := by
  have hstep := h.step hbefore
  obtain ⟨question, before, outcome, after⟩ := record
  dsimp only at hbefore hstep
  have hevents := events_watched_reply graph question before.state.graph
  cases hstep with
  | hit answer held =>
    refine ⟨?_, ?_, ?_, fun _ => rfl⟩
    · intro entry hentry
      have heq : question.entry answer = entry := Option.some.inj (held.symm.trans hentry)
      exact ⟨⟨answer, heq, rfl⟩, rfl⟩
    · intro habsent
      simp [held] at habsent
    · intro habsent
      simp [held] at habsent
  | stopped absent cancelled =>
    refine ⟨?_, fun _ _ => ⟨rfl, rfl⟩, ?_, fun _ => rfl⟩
    · intro entry hentry
      simp [absent] at hentry
    · intro _ hlive
      simp [cancelled] at hlive
  | kept answer absent live replied =>
    rw [replied] at hevents
    exact economical_of_asked absent live rfl hevents fun hnone => absurd rfl (hnone answer)
  | malformed reason absent live replied =>
    rw [replied] at hevents
    exact economical_of_asked absent live rfl hevents fun _ => rfl
  | unavailable reason absent live replied =>
    rw [replied] at hevents
    exact economical_of_asked absent live rfl hevents fun _ => rfl

end LookupRecord

/-- The graph and its cache without what was noted. -/
def Cached.unwatched (state : Cached (Watched σ)) : Cached σ := ⟨state.cache, state.graph.graph⟩

/-- The desk without what was noted. -/
def Desk.unwatched (desk : Desk (Cached (Watched σ))) : Desk (Cached σ) :=
  ⟨desk.state.unwatched, desk.cancelled⟩

/-- Watching changes nothing about a lookup. -/
theorem start_lookup_unwatched (graph : KnowledgeGraph σ) (question : Question)
    (desk : Desk (Cached (Watched σ))) :
    ((cachedLookups graph).ask question).start desk.unwatched =
      ((((cachedLookups graph.watched).ask question).start desk).1,
        (((cachedLookups graph.watched).ask question).start desk).2.unwatched) := by
  simp only [start_lookup, Desk.unwatched, Cached.unwatched, KnowledgeGraph.watched_reply,
    KnowledgeGraph.watchedReply]
  rcases question.lookInto desk.state.cache with ⟨_ | answer, cache⟩
  · cases desk.cancelled
    · simp only [Bool.false_eq_true, if_false]
      rcases (graph.reply question desk.state.graph.graph).answer with (_ | _) | answer <;> rfl
    · rfl
  · rfl

/-- A call of the graph: what it was asked, and what it answered. -/
structure Exchange where
  question : Question
  answer : Except SourceFault question.Answer

/-- What a watched graph notes of a call. -/
def Exchange.event (exchange : Exchange) : Event :=
  .asked exchange.question.key (exchange.answer.map exchange.question.entry)

/-- A lookup calls the graph with its question once or not at all, whatever the cache holds. An
answer that it comes to was in the cache if there was no call. -/
theorem exists_call_start_lookup (graph : KnowledgeGraph σ) (question : Question)
    (desk : Desk (Cached (Watched σ))) :
    let looked := ((cachedLookups graph.watched).ask question).start desk
    ∃ call : Option (Except SourceFault question.Answer),
      looked.2.state.graph.events =
        (call.toList.map (Exchange.mk question)).map Exchange.event ++ desk.state.graph.events ∧
      ∀ fetch, looked.1 = .ok fetch → fetch.isCached = call.isNone := by
  simp only [start_lookup, KnowledgeGraph.watched_reply, KnowledgeGraph.watchedReply]
  rcases question.lookInto desk.state.cache with ⟨_ | answer, cache⟩
  · cases desk.cancelled
    · simp only [Bool.false_eq_true, if_false]
      refine ⟨some (graph.reply question desk.state.graph.graph).answer, ?_⟩
      rcases (graph.reply question desk.state.graph.graph).answer with (_ | _) | answer
      · exact ⟨rfl, by rintro _ ⟨⟩⟩
      · exact ⟨rfl, by rintro _ ⟨⟩; rfl⟩
      · exact ⟨rfl, by rintro _ ⟨⟩; rfl⟩
    · exact ⟨none, rfl, by rintro _ ⟨⟩⟩
  · exact ⟨none, rfl, by rintro _ ⟨⟩; rfl⟩

/-- Watching changes nothing about an inquiry. -/
theorem Inquiry.start_run_unwatched (graph : KnowledgeGraph σ) (inquiry : Inquiry α)
    (desk : Desk (Cached (Watched σ))) :
    (inquiry.run (cachedLookups graph)).start desk.unwatched =
      (((inquiry.run (cachedLookups graph.watched)).start desk).1,
        ((inquiry.run (cachedLookups graph.watched)).start desk).2.unwatched) := by
  induction inquiry generalizing desk with
  | done value => rfl
  | ask question next ih =>
    rw [start_run_ask, start_run_ask, start_lookup_unwatched]
    rcases ((cachedLookups graph.watched).ask question).start desk with ⟨problem | fetch, after⟩
    · rfl
    · exact ih fetch after

namespace Operation

variable [Scalar α] (graph : KnowledgeGraph σ) (settings : Settings α)

/-- Watching changes nothing about an operation. -/
theorem unwatched_watch (state : Cached (Watched σ)) (operation : Operation) :
    (operation.watch graph settings state).unwatched =
      operation.run graph settings state.unwatched := by
  cases operation with
  | check target cancelled =>
    have h := Inquiry.start_run_unwatched graph
      (GraphCheck.checkTarget Inquiry.lookups settings target) ⟨state, cancelled⟩
    simp only [GraphCheck.run_checkTarget] at h
    exact (congrArg (fun outcome => outcome.2.state) h).symm
  | checkScript analysis cancelled =>
    have h := Inquiry.start_run_unwatched graph
      (GraphCheck.checkScript Inquiry.lookups settings analysis) ⟨state, cancelled⟩
    simp only [GraphCheck.run_checkScript] at h
    exact (congrArg (fun outcome => outcome.2.state) h).symm
  | invalidate key => rfl
  | clear => rfl

/-- Watching changes nothing about a row of operations. -/
theorem unwatched_watchAll (state : Cached (Watched σ)) (operations : List Operation) :
    (watchAll graph settings state operations).unwatched =
      runAll graph settings state.unwatched operations := by
  induction operations generalizing state with
  | nil => rfl
  | cons operation rest ih =>
    calc
      _ = (watchAll graph settings (operation.watch graph settings state) rest).unwatched := rfl
      _ = runAll graph settings (operation.run graph settings state.unwatched) rest := by
        rw [ih, unwatched_watch]
      _ = _ := rfl

/-- Every operation preserves the invariant, which also holds around each of its lookups. -/
theorem consistent_watch {state : Cached (Watched σ)} (h : state.Consistent)
    (operation : Operation) :
    (operation.watch graph settings state).Consistent ∧
      ∀ record ∈ operation.trace graph.watched settings state,
        record.before.state.Consistent ∧ record.after.state.Consistent := by
  have hcheck (hkey : ∀ key, operation ≠ .invalidate key) (hclear : operation ≠ .clear) :=
    operation.invariant graph.watched settings Cached.Consistent h
      (fun _ hrecord => (isOf_of_mem_trace settings hrecord).consistent_after)
      (fun key heq => absurd heq (hkey key)) (fun heq => absurd heq hclear)
  cases operation with
  | check target cancelled => exact hcheck (by simp) (by simp)
  | checkScript analysis cancelled => exact hcheck (by simp) (by simp)
  | invalidate key => exact ⟨h.invalidate key, by simp [trace]⟩
  | clear => exact ⟨.clear state, by simp [trace]⟩

/-- A row of operations preserves the invariant, which also holds around each lookup. -/
theorem consistent_watchAll {state : Cached (Watched σ)} (h : state.Consistent)
    (operations : List Operation) :
    (watchAll graph settings state operations).Consistent ∧
      ∀ record ∈ watchedTrace graph settings state operations,
        record.IsOf graph.watched ∧
          record.before.state.Consistent ∧ record.after.state.Consistent := by
  induction operations generalizing state with
  | nil => exact ⟨h, by simp [watchedTrace]⟩
  | cons operation rest ih =>
    obtain ⟨hafter, hrecords⟩ := consistent_watch graph settings h operation
    obtain ⟨hlast, hrest⟩ := ih hafter
    refine ⟨hlast, ?_⟩
    intro record hrecord
    rcases List.mem_append.mp hrecord with hrecord | hrecord
    · exact ⟨isOf_of_mem_trace settings hrecord, hrecords record hrecord⟩
    · exact hrest record hrecord

/-- After any row of operations on any graph, begun with an empty cache, and before and after each
lookup of the run, the cache holds under each key the first answer that the graph gave since the key
was last dropped, and nothing else. The graph is asked only for what the cache does not hold, and
nothing but its answers changes what the cache holds. -/
theorem cache_faithful (start : σ) (operations : List Operation) :
    let watched := watchAll graph settings ⟨.empty, ⟨start, []⟩⟩ operations
    watched.unwatched = runAll graph settings ⟨.empty, start⟩ operations ∧
      watched.Faithful ∧
      ∀ record ∈ watchedTrace graph settings ⟨.empty, ⟨start, []⟩⟩ operations,
        record.before.state.Faithful ∧ record.after.state.Faithful ∧ record.Economical := by
  obtain ⟨hlast, hrecords⟩ :=
    consistent_watchAll graph settings (Cached.Consistent.fresh start) operations
  refine ⟨unwatched_watchAll graph settings _ operations, hlast.toFaithful, ?_⟩
  intro record hrecord
  obtain ⟨hof, hbefore, hafter⟩ := hrecords record hrecord
  exact ⟨hbefore.toFaithful, hafter.toFaithful, hof.economical hbefore⟩

end Operation

end UsageAudit
