import UsageAudit.Lookup

/-!
# Questions and calls

A graph is asked questions about symbols, an index is searched for examples. Each time one of them is
asked is a call. What is noted of a call is what was asked, the fault that was answered if it was one,
and whether the request was cancelled meanwhile.
-/

namespace UsageAudit

variable {σ α : Type}

/-- A question about a symbol. -/
inductive Question where
  | sighting (kind : SymbolKind) (qualifiers : List String)
  | methodSignature (owner method : String)
  | functionSignature (path name : String)
  deriving DecidableEq, Repr

namespace Question

/-- What a question is answered with. -/
@[reducible]
def Answer : Question → Type
  | .sighting .. => Sighting
  | .methodSignature .. | .functionSignature .. => Option Signature

/-- The name under which the answer is kept. -/
def key : Question → CacheKey
  | .sighting kind qualifiers => .symbol kind (qualifiedName qualifiers)
  | .methodSignature owner method => .methodSignature owner method
  | .functionSignature path name => .functionSignature path name

/-- The answer as it is kept. -/
def entry : (question : Question) → question.Answer → CacheEntry
  | .sighting .., answer => .sighting answer
  | .methodSignature .., answer | .functionSignature .., answer => .signature answer

/-- Different answers are kept differently. -/
theorem entry_injective (question : Question) : Function.Injective question.entry := by
  intro answer answer' h
  cases question <;> simpa [entry] using h

/-- Looks into the cache for the answer to a question. -/
def read : (question : Question) → Cache → Option question.Answer × Cache
  | .sighting kind qualifiers => fun cache => cache.getSighting kind (qualifiedName qualifiers)
  | .methodSignature owner method => fun cache => cache.getSignature (.methodSignature owner method)
  | .functionSignature path name => fun cache => cache.getSignature (.functionSignature path name)

/-- Keeps the answer to a question in the cache. -/
def keep : (question : Question) → question.Answer → Cache → question.Answer × Cache
  | .sighting kind qualifiers => fun answer cache =>
    cache.insertSighting kind (qualifiedName qualifiers) answer
  | .methodSignature owner method => fun answer cache =>
    cache.insertSignature (.methodSignature owner method) answer
  | .functionSignature path name => fun answer cache =>
    cache.insertSignature (.functionSignature path name) answer

end Question

/-- Looks up the answer to a question. -/
def Lookups.ask {m : Type → Type} (lookups : Lookups m) :
    (question : Question) → m (Fetch question.Answer)
  | .sighting kind qualifiers => lookups.sighting kind qualifiers
  | .methodSignature owner method => lookups.methodSignature owner method
  | .functionSignature path name => lookups.functionSignature path name

/-- What a graph replies to a question. -/
def KnowledgeGraph.reply {σ : Type} (graph : KnowledgeGraph σ) :
    (question : Question) → σ → Reply σ question.Answer
  | .sighting kind qualifiers => graph.findSymbol kind qualifiers
  | .methodSignature owner method => graph.findMethodSignature owner method
  | .functionSignature path name => graph.findFunctionSignature path name

/-- What a graph whose answers never change replies to a question. -/
def FixedGraph.answer (graph : FixedGraph) :
    (question : Question) → Except SourceFault question.Answer
  | .sighting kind qualifiers => graph.findSymbol kind qualifiers
  | .methodSignature owner method => graph.findMethodSignature owner method
  | .functionSignature path name => graph.findFunctionSignature path name

/-- The two sides of a request. -/
inductive Side where
  | graph | examples
  deriving DecidableEq, Repr

/-- What a source is asked. -/
inductive Asked where
  | symbol (question : Question)
  | examples (query : String)
  deriving DecidableEq, Repr

/-- A call of a source. -/
structure Call where
  asked : Asked
  /-- The fault that was answered, if it was one. -/
  fault : Option SourceFault
  /-- Whether the request was cancelled while the source answered. -/
  cancels : Bool
  deriving DecidableEq, Repr

/-- Why the graph could not be reached, if the call is one in which it could not. -/
def Call.graphLost? (call : Call) : Option String :=
  match call.asked, call.fault with
  | .symbol _, some (.unavailable reason) => some reason
  | _, _ => none

/-- The call that was answered with the reply. -/
def Reply.call (reply : Reply σ α) (asked : Asked) : Call where
  asked := asked
  fault := match reply.answer with
    | .ok _ => none
    | .error fault => some fault
  cancels := reply.cancels

end UsageAudit
