import UsageAudit.Proofs.Inquiry

/-!
# One lookup through the cache

A lookup through the cache can end in five ways: the cache holds the answer, the request has been
cancelled, or the graph is asked and gives an answer, something malformed or nothing at all. This
file says for each of them what becomes of the cache, the graph and the request. Everything that a
check does to them is a row of such steps.
-/

namespace UsageAudit

namespace Request

variable {σ α β : Type} (desk : Desk σ)

/-- A value is given without touching the desk. -/
@[simp]
theorem start_pure (value : α) : (pure value : Request σ α).start desk = (.ok value, desk) := rfl

/-- A problem leaves the desk as it is. -/
@[simp]
theorem start_throw (problem : Problem) :
    (throw problem : Request σ α).start desk = (.error problem, desk) := rfl

/-- A part of a request starts from the desk that the part before it left, unless that met with a
problem. -/
theorem start_bind (request : Request σ α) (rest : α → Request σ β) :
    (request >>= rest).start desk =
      match request.start desk with
      | (.ok value, desk) => (rest value).start desk
      | (.error problem, desk) => (.error problem, desk) := by
  simp only [Request.start, ExceptT.run_bind, StateT.run_bind, Id.run_bind]
  rcases StateT.run (ExceptT.run request) desk with ⟨_ | value, desk⟩ <;> rfl

/-- A value may be changed when a part of a request is over. -/
theorem start_map (f : α → β) (request : Request σ α) :
    (f <$> request).start desk = ((request.start desk).1.map f, (request.start desk).2) := by
  rw [map_eq_pure_bind, start_bind]
  rcases request.start desk with ⟨_ | value, desk⟩ <;> rfl

/-- A step changes the state alone. -/
@[simp]
theorem start_step (f : σ → α × σ) :
    (Request.step f).start desk =
      (.ok (f desk.state).1, { desk with state := (f desk.state).2 }) := rfl

/-- A source that is asked leaves its next state, and may cancel the request. -/
@[simp]
theorem start_ask (question : σ → Reply σ α) :
    (Request.ask question).start desk =
      (.ok (question desk.state).answer,
        ⟨(question desk.state).state, desk.cancelled || (question desk.state).cancels⟩) := rfl

/-- A cancelled request goes no further. -/
@[simp]
theorem start_checkpoint :
    (Request.checkpoint (σ := σ)).start desk =
      (if desk.cancelled then .error .cancelled else .ok (), desk) := by
  obtain ⟨state, cancelled⟩ := desk
  cases cancelled <;> rfl

end Request

/-- Whether an entry is of the sort that belongs under a key. -/
def CacheEntry.Fits : CacheEntry → CacheKey → Prop
  | .sighting _, .symbol .. => True
  | .signature _, .methodSignature .. | .signature _, .functionSignature .. => True
  | _, _ => False

namespace Question

/-- Answers are kept under keys that they belong to. -/
theorem entry_fits (question : Question) (answer : question.Answer) :
    (question.entry answer).Fits question.key := by
  cases question <;> trivial

/-- What belongs under the key of a question is an answer to it. -/
theorem exists_entry_of_fits {question : Question} {entry : CacheEntry}
    (h : entry.Fits question.key) : ∃ answer, question.entry answer = entry := by
  cases question <;> cases entry <;> first | exact ⟨_, rfl⟩ | exact h.elim

/-- Looks into the cache for the answer to a question, and once more if it was not there. -/
def lookInto (question : Question) (cache : Cache) : Option question.Answer × Cache :=
  match question.read cache with
  | (some answer, cache) => (some answer, cache)
  | (none, cache) => question.read cache

/-- An answer that the cache holds is found, and counted as a hit. -/
theorem read_of_held {question : Question} {cache : Cache} {answer : question.Answer}
    (h : cache.entries.get? question.key = some (question.entry answer)) :
    question.read cache = (some answer, { cache with hits := cache.hits + 1 }) := by
  cases question <;>
    simp only [key, entry] at h <;>
    simp [read, Cache.getSighting, Cache.getSignature, Cache.get, h]

/-- An answer that the cache does not hold is counted as a miss. -/
theorem read_of_absent {question : Question} {cache : Cache}
    (h : cache.entries.get? question.key = none) :
    question.read cache = (none, { cache with misses := cache.misses + 1 }) := by
  cases question <;>
    simp only [key] at h <;>
    simp [read, Cache.getSighting, Cache.getSignature, Cache.get, h]

/-- An answer that the cache holds is found at the first look. -/
theorem lookInto_of_held {question : Question} {cache : Cache} {answer : question.Answer}
    (h : cache.entries.get? question.key = some (question.entry answer)) :
    question.lookInto cache = (some answer, { cache with hits := cache.hits + 1 }) := by
  simp only [lookInto, read_of_held h]

/-- An answer that the cache does not hold is counted as a miss at either look. -/
theorem lookInto_of_absent {question : Question} {cache : Cache}
    (h : cache.entries.get? question.key = none) :
    question.lookInto cache = (none, { cache with misses := cache.misses + 1 + 1 }) := by
  have hagain : ({ cache with misses := cache.misses + 1 } : Cache).entries.get? question.key =
      none := h
  simp only [lookInto, read_of_absent h, read_of_absent hagain]

/-- The first answer to a question is kept. -/
theorem keep_of_absent {question : Question} {cache : Cache} (answer : question.Answer)
    (h : cache.entries.get? question.key = none) :
    question.keep answer cache =
      (answer,
        { cache with entries := cache.entries.put question.key (question.entry answer) }) := by
  cases question <;>
    simp only [key] at h <;>
    simp [keep, key, entry, Cache.insertSighting, Cache.insertSignature, Cache.insert, h]

/-- An answer that the cache holds already stays, and is the one that is given. -/
theorem keep_of_held {question : Question} {cache : Cache} {answer : question.Answer}
    (other : question.Answer)
    (h : cache.entries.get? question.key = some (question.entry answer)) :
    question.keep other cache = (answer, cache) := by
  cases question <;>
    simp only [key, entry] at h <;>
    simp [keep, Cache.insertSighting, Cache.insertSignature, Cache.insert, h]

end Question

/-- Looking up through the cache reads, asks and keeps in the way of the question. -/
theorem cachedLookups_ask {σ : Type} (graph : KnowledgeGraph σ) (question : Question) :
    (cachedLookups graph).ask question =
      fetchThrough question.read (graph.reply question) question.keep := by
  cases question <;> rfl

variable {σ : Type}

/-- What a lookup comes to, whatever the cache holds. -/
theorem start_lookup (graph : KnowledgeGraph σ) (question : Question) (desk : Desk (Cached σ)) :
    ((cachedLookups graph).ask question).start desk =
      match question.lookInto desk.state.cache with
      | (some answer, cache) => (.ok (.cached answer), { desk with state.cache := cache })
      | (none, cache) =>
        if desk.cancelled then (.error .cancelled, { desk with state.cache := cache })
        else
          let reply := graph.reply question desk.state.graph
          match reply.answer with
          | .ok answer =>
            (.ok (.fresh (question.keep answer cache).1),
              ⟨⟨(question.keep answer cache).2, reply.state⟩, reply.cancels⟩)
          | .error (.malformed reason) =>
            (.ok (.malformed reason), ⟨⟨cache, reply.state⟩, reply.cancels⟩)
          | .error (.unavailable reason) =>
            (.error (.unavailable reason), ⟨⟨cache, reply.state⟩, reply.cancels⟩) := by
  obtain ⟨⟨cache, state⟩, cancelled⟩ := desk
  simp only [cachedLookups_ask, fetchThrough, Request.start_bind, Request.start_step,
    Cached.onCache, Question.lookInto]
  rcases question.read cache with ⟨_ | answer, cache⟩
  · simp only [Request.start_bind, Request.start_step, Cached.onCache]
    rcases question.read cache with ⟨_ | answer, cache⟩
    · simp only [Request.start_bind, Request.start_checkpoint]
      cases cancelled
      · simp only [Request.start_ask, Cached.onGraph, Bool.false_eq_true, if_false]
        rcases (graph.reply question state).answer with (_ | _) | answer <;> rfl
      · rfl
    · rfl
  · rfl

/-- The desk after an answer was found in the cache. -/
def Desk.afterHit (desk : Desk (Cached σ)) : Desk (Cached σ) :=
  { desk with state.cache.hits := desk.state.cache.hits + 1 }

/-- The desk after an answer was not found in the cache, which was looked into twice. -/
def Desk.afterMiss (desk : Desk (Cached σ)) : Desk (Cached σ) :=
  { desk with state.cache.misses := desk.state.cache.misses + 1 + 1 }

/-- The desk after the graph was asked and gave no answer that is kept. -/
def Desk.afterAsking (desk : Desk (Cached σ)) {α : Type} (reply : Reply σ α) :
    Desk (Cached σ) :=
  ⟨⟨desk.afterMiss.state.cache, reply.state⟩, desk.cancelled || reply.cancels⟩

/-- The desk after the graph was asked and its answer was kept. -/
def Desk.afterKeeping (desk : Desk (Cached σ)) (question : Question)
    (reply : Reply σ question.Answer) (answer : question.Answer) : Desk (Cached σ) :=
  let asked := desk.afterAsking reply
  { asked with
    state.cache.entries := desk.state.cache.entries.put question.key (question.entry answer) }

/-- What one lookup can come to, and the desk that it leaves. -/
inductive LookupStep (graph : KnowledgeGraph σ) (question : Question) (desk : Desk (Cached σ)) :
    Except Problem (Fetch question.Answer) → Desk (Cached σ) → Prop where
  /-- The cache holds the answer. -/
  | hit (answer : question.Answer)
      (held : desk.state.cache.entries.get? question.key = some (question.entry answer)) :
      LookupStep graph question desk (.ok (.cached answer)) desk.afterHit
  /-- The cache does not hold it, and the request has been cancelled. -/
  | stopped (absent : desk.state.cache.entries.get? question.key = none)
      (cancelled : desk.cancelled = true) :
      LookupStep graph question desk (.error .cancelled) desk.afterMiss
  /-- The graph gives an answer, which is kept. -/
  | kept (answer : question.Answer)
      (absent : desk.state.cache.entries.get? question.key = none)
      (live : desk.cancelled = false)
      (replied : (graph.reply question desk.state.graph).answer = .ok answer) :
      LookupStep graph question desk (.ok (.fresh answer))
        (desk.afterKeeping question (graph.reply question desk.state.graph) answer)
  /-- The graph gives something malformed. -/
  | malformed (reason : String)
      (absent : desk.state.cache.entries.get? question.key = none)
      (live : desk.cancelled = false)
      (replied : (graph.reply question desk.state.graph).answer = .error (.malformed reason)) :
      LookupStep graph question desk (.ok (.malformed reason))
        (desk.afterAsking (graph.reply question desk.state.graph))
  /-- The graph cannot be reached. -/
  | unavailable (reason : String)
      (absent : desk.state.cache.entries.get? question.key = none)
      (live : desk.cancelled = false)
      (replied : (graph.reply question desk.state.graph).answer = .error (.unavailable reason)) :
      LookupStep graph question desk (.error (.unavailable reason))
        (desk.afterAsking (graph.reply question desk.state.graph))

/-- Every entry of the cache belongs under its key. -/
def Cache.AllFit (cache : Cache) : Prop :=
  ∀ key entry, cache.entries.get? key = some entry → entry.Fits key

/-- What a lookup comes to when the cache holds the answer. -/
theorem start_lookup_of_held (graph : KnowledgeGraph σ) {question : Question}
    {desk : Desk (Cached σ)} {answer : question.Answer}
    (h : desk.state.cache.entries.get? question.key = some (question.entry answer)) :
    ((cachedLookups graph).ask question).start desk = (.ok (.cached answer), desk.afterHit) := by
  rw [start_lookup, Question.lookInto_of_held h]
  rfl

/-- What a lookup comes to when the cache does not hold the answer. -/
theorem start_lookup_of_absent (graph : KnowledgeGraph σ) {question : Question}
    {desk : Desk (Cached σ)} (h : desk.state.cache.entries.get? question.key = none) :
    ((cachedLookups graph).ask question).start desk =
      if desk.cancelled then (.error .cancelled, desk.afterMiss)
      else
        let reply := graph.reply question desk.state.graph
        match reply.answer with
        | .ok answer => (.ok (.fresh answer), desk.afterKeeping question reply answer)
        | .error (.malformed reason) => (.ok (.malformed reason), desk.afterAsking reply)
        | .error (.unavailable reason) =>
          (.error (.unavailable reason), desk.afterAsking reply) := by
  have hafter : ({ desk.state.cache with misses := desk.state.cache.misses + 1 + 1 } :
      Cache).entries.get? question.key = none := h
  rw [start_lookup, Question.lookInto_of_absent h]
  dsimp only
  cases hcancelled : desk.cancelled with
  | true => simp [Desk.afterMiss, hcancelled]
  | false =>
    rcases (graph.reply question desk.state.graph).answer with (_ | _) | answer
    · simp [Desk.afterAsking, Desk.afterMiss, hcancelled]
    · simp [Desk.afterAsking, Desk.afterMiss, hcancelled]
    · simp [Question.keep_of_absent answer hafter, Desk.afterKeeping, Desk.afterAsking,
        Desk.afterMiss, hcancelled]

/-- A lookup is one of the five steps if what the cache holds under its key belongs there. -/
theorem lookupStep_of_fits (graph : KnowledgeGraph σ) (question : Question)
    {desk : Desk (Cached σ)}
    (hfit : ∀ entry, desk.state.cache.entries.get? question.key = some entry →
      entry.Fits question.key) :
    LookupStep graph question desk (((cachedLookups graph).ask question).start desk).1
      (((cachedLookups graph).ask question).start desk).2 := by
  cases hget : desk.state.cache.entries.get? question.key with
  | some entry =>
    obtain ⟨answer, rfl⟩ := Question.exists_entry_of_fits (hfit _ hget)
    rw [start_lookup_of_held graph hget]
    exact .hit answer hget
  | none =>
    rw [start_lookup_of_absent graph hget]
    cases hcancelled : desk.cancelled with
    | true => exact .stopped hget hcancelled
    | false =>
      rcases hreply : (graph.reply question desk.state.graph).answer with (reason | reason) | answer
      · simpa [hreply] using LookupStep.unavailable reason hget hcancelled hreply
      · simpa [hreply] using LookupStep.malformed reason hget hcancelled hreply
      · simpa [hreply] using LookupStep.kept answer hget hcancelled hreply

/-- Every lookup through a cache whose entries belong under their keys is one of the five steps. -/
theorem lookupStep_start (graph : KnowledgeGraph σ) (question : Question) {desk : Desk (Cached σ)}
    (hfit : desk.state.cache.AllFit) :
    LookupStep graph question desk (((cachedLookups graph).ask question).start desk).1
      (((cachedLookups graph).ask question).start desk).2 :=
  lookupStep_of_fits graph question (hfit question.key)

end UsageAudit
