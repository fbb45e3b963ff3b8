import UsageAudit.Grounding
import UsageAudit.Lookup

/-!
# Searching for examples

An index of examples is asked for every usage of a script in turn. An index that cannot be reached
ends the search, and nothing is said of the script; only a cancelled request has no outcome at all.
-/

namespace UsageAudit

/-- An index of examples whose states are of the given type. -/
structure ExampleIndex (α τ : Type) where
  /-- Examples for a query: at most so many, and at least so similar. -/
  search : String → Nat → α → τ → Reply τ (List (Hit α))
  close : τ → τ

namespace ExampleSearch

variable {α τ : Type} [Scalar α] (index : ExampleIndex α τ) (settings : Settings α)

/-- The usages of a script with their queries. -/
def queries (analysis : Analysis) : List (ElementRef × String) :=
  analysis.refs.filterMap fun (ref, element) => element.query?.map fun query => (ref, query)

/-- Grounds one usage. -/
def groundElement (element : ElementRef) (query : String) : Request τ (Grounding α) := do
  Request.checkpoint
  match ← Request.ask (index.search query settings.topK settings.minSimilarity) with
  | .ok hits => return Grounding.classify settings element query hits
  | .error (.malformed reason) => return Grounding.malformed element query reason
  | .error (.unavailable reason) => throw (.degraded reason)

/-- Grounds the usages of a script one after the other. -/
def groundAll (analysis : Analysis) : Request τ (List (Grounding α)) :=
  (queries analysis).mapM fun (element, query) => groundElement index settings element query

/-- Grounds the usages of a script, unless the index cannot be reached. -/
def groundScript (analysis : Analysis) : Request τ (SemanticOutcome α) :=
  tryCatch (do return ⟨true, ← groundAll index settings analysis, none⟩) fun
    | .degraded reason => return .degraded reason
    | problem => throw problem

end ExampleSearch

/-- Grounds the usages of a script if there is an index and grounding is asked for. -/
def groundWith {α τ : Type} [Scalar α] (index? : Option (ExampleIndex α τ))
    (settings : Settings α) (analysis : Analysis) : Request τ (SemanticOutcome α) :=
  match index? with
  | none => return .degraded "no example index configured"
  | some index =>
    if settings.semanticEnabled then ExampleSearch.groundScript index settings analysis
    else return .degraded "semantic validation disabled"

end UsageAudit
