import UsageAudit.Cache
import UsageAudit.Problem

/-!
# Looking up symbols

A knowledge graph answers questions about symbols. It is any system that takes a question and its state
to an answer and its next state, so that answers may depend on all that was asked before; while it
answers, the request may be cancelled. Answers go through the cache: only what the cache does not hold
is asked for, and only if the request still stands.
-/

namespace UsageAudit

/-- What a source answers, with its next state. -/
structure Reply (σ α : Type) where
  answer : Except SourceFault α
  state : σ
  /-- Whether the request was cancelled while the source answered. -/
  cancels : Bool

/-- A knowledge graph whose states are of the given type. -/
structure KnowledgeGraph (σ : Type) where
  /-- Whether a symbol is known. The qualifiers are the parts of its name, the owner first. -/
  findSymbol : SymbolKind → List String → σ → Reply σ Sighting
  /-- The signature of a method of a class. -/
  findMethodSignature : String → String → σ → Reply σ (Option Signature)
  /-- The signature of a function of a module. -/
  findFunctionSignature : String → String → σ → Reply σ (Option Signature)
  close : σ → σ

/-- What a request works on: a state, and whether the request has been cancelled. -/
structure Desk (σ : Type) where
  state : σ
  cancelled : Bool

/-- A part of a request. A problem ends it, and leaves the state as it then is. -/
abbrev Request (σ α : Type) := ExceptT Problem (StateM (Desk σ)) α

namespace Request

variable {σ α : Type}

/-- Goes on only if the request still stands. -/
def checkpoint : Request σ Unit := do
  if (← get).cancelled then throw .cancelled

/-- Lets the state give an answer and change. -/
def step (f : σ → α × σ) : Request σ α := do
  let desk ← get
  let (answer, state) := f desk.state
  set { desk with state := state }
  return answer

/-- Asks a source, which may cancel the request while it answers. -/
def ask (question : σ → Reply σ α) : Request σ (Except SourceFault α) := do
  let desk ← get
  let reply := question desk.state
  set ({ state := reply.state, cancelled := desk.cancelled || reply.cancels } : Desk σ)
  return reply.answer

end Request

/-- How an answer was come by. -/
inductive Fetch (α : Type) where
  | cached (answer : α)
  | fresh (answer : α)
  | malformed (reason : String)

namespace Fetch

variable {α : Type}

/-- Whether the answer was in the cache. -/
def isCached : Fetch α → Bool
  | .cached _ => true
  | .fresh _ | .malformed _ => false

/-- The answer, if it has the right form. -/
def answer? : Fetch α → Option α
  | .cached answer | .fresh answer => some answer
  | .malformed _ => none

end Fetch

/-- The ways to look up what is known of a symbol. -/
structure Lookups (m : Type → Type) where
  sighting : SymbolKind → List String → m (Fetch Sighting)
  methodSignature : String → String → m (Fetch (Option Signature))
  functionSignature : String → String → m (Fetch (Option Signature))

/-- A graph with the cache of its answers. -/
structure Cached (σ : Type) where
  cache : Cache
  graph : σ

namespace Cached

variable {σ α : Type}

/-- Looks into the cache or changes it. -/
def onCache (f : Cache → α × Cache) (state : Cached σ) : α × Cached σ :=
  let (answer, cache) := f state.cache
  (answer, { state with cache := cache })

/-- Asks the graph. -/
def onGraph (f : σ → Reply σ α) (state : Cached σ) : Reply (Cached σ) α :=
  let reply := f state.graph
  ⟨reply.answer, { state with graph := reply.state }, reply.cancels⟩

end Cached

/-- Looks an answer up in the cache and, if it is not there, asks the graph and keeps what it answers.
The cache is looked into twice before the graph is asked: the answer may have come in between. -/
def fetchThrough {σ α : Type} (read : Cache → Option α × Cache) (question : σ → Reply σ α)
    (keep : α → Cache → α × Cache) : Request (Cached σ) (Fetch α) := do
  match ← Request.step (Cached.onCache read) with
  | some answer => return .cached answer
  | none =>
    match ← Request.step (Cached.onCache read) with
    | some answer => return .cached answer
    | none =>
      Request.checkpoint
      match ← Request.ask (Cached.onGraph question) with
      | .ok answer => return .fresh (← Request.step (Cached.onCache (keep answer)))
      | .error (.malformed reason) => return .malformed reason
      | .error (.unavailable reason) => throw (.unavailable reason)

/-- The parts of a name with dots between them. -/
def qualifiedName (qualifiers : List String) : String := ".".intercalate qualifiers

/-- Looking up through the cache. -/
def cachedLookups {σ : Type} (graph : KnowledgeGraph σ) : Lookups (Request (Cached σ)) where
  sighting kind qualifiers :=
    let name := qualifiedName qualifiers
    fetchThrough (fun cache => cache.getSighting kind name) (graph.findSymbol kind qualifiers)
      fun answer cache => cache.insertSighting kind name answer
  methodSignature owner method :=
    let key := CacheKey.methodSignature owner method
    fetchThrough (fun cache => cache.getSignature key) (graph.findMethodSignature owner method)
      fun answer cache => cache.insertSignature key answer
  functionSignature path name :=
    let key := CacheKey.functionSignature path name
    fetchThrough (fun cache => cache.getSignature key) (graph.findFunctionSignature path name)
      fun answer cache => cache.insertSignature key answer

/-- A graph whose answers never change. -/
structure FixedGraph where
  findSymbol : SymbolKind → List String → Except SourceFault Sighting
  findMethodSignature : String → String → Except SourceFault (Option Signature)
  findFunctionSignature : String → String → Except SourceFault (Option Signature)

/-- What a direct answer amounts to. -/
def fetchDirect {α : Type} : Except SourceFault α → Except Problem (Fetch α)
  | .ok answer => .ok (.fresh answer)
  | .error (.malformed reason) => .ok (.malformed reason)
  | .error (.unavailable reason) => .error (.unavailable reason)

/-- Looking up without a cache. -/
def directLookups (graph : FixedGraph) : Lookups (Except Problem) where
  sighting kind qualifiers := fetchDirect (graph.findSymbol kind qualifiers)
  methodSignature owner method := fetchDirect (graph.findMethodSignature owner method)
  functionSignature path name := fetchDirect (graph.findFunctionSignature path name)

end UsageAudit
