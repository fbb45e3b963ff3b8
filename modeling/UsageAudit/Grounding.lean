import UsageAudit.Verdict

/-!
# Grounding by examples

For every usage a query is made, and examples are retrieved that resemble it. A usage is grounded if
one of them is similar enough. What was retrieved is only of use if every similarity lies between zero
and one.
-/

namespace UsageAudit

/-- The words with which examples of a usage are searched. -/
def Element.query? : Element → Option String
  | .ofImport e => some (e.path ++ " import usage example")
  | .functionCall e => some (e.name ++ " function call example")
  | .methodCall e => some (e.method ++ " method call example")
  | .attributeAccess e => some (e.member ++ " attribute usage example")
  | .classDef _ | .functionDef _ | .variableAssign _ => none

/-- An example that was retrieved. -/
structure Hit (α : Type) where
  content : String
  similarity : α

/-- What the examples say of one usage. -/
structure Grounding (α : Type) where
  element : ElementRef
  query : String
  verdict : Verdict α
  exampleCount : Nat
  best : Option α
  mean : Option α
  grounded : Bool
  topExample : Option String

/-- What the examples say of a script. -/
structure SemanticOutcome (α : Type) where
  available : Bool
  results : List (Grounding α)
  /-- Why there are no results, if there are none. -/
  reason : Option String

/-- Nothing is said of a script, for the given reason. -/
def SemanticOutcome.degraded {α : Type} (reason : String) : SemanticOutcome α :=
  ⟨false, [], some reason⟩

namespace Grounding

variable {α : Type} [Scalar α]

/-- The number of characters of an example that are shown. -/
def previewLength : Nat := 200

/-- The start of an example. -/
def preview (content : String) : String :=
  let text := content.toList
  if previewLength < text.length then String.ofList (text.take previewLength) ++ "..." else content

/-- The answer to a query could not be used. -/
def malformed (element : ElementRef) (query message : String) : Grounding α where
  element := element
  query := query
  verdict := (Verdict.plain .uncertain neutralConfidence
    "Malformed example search response").withDetail "error" (.str message)
  exampleCount := 0
  best := none
  mean := none
  grounded := false
  topExample := none

/-- There are no examples. -/
def unsupported (element : ElementRef) (query : String) : Grounding α where
  element := element
  query := query
  verdict := Verdict.plain .uncertain neutralConfidence "No similar code examples found"
  exampleCount := 0
  best := none
  mean := none
  grounded := false
  topExample := none

/-- Whether a similarity is a number between zero and one. -/
def isSimilarity (x : α) : Bool := Scalar.isFinite x && Scalar.inUnit x

/-- The more similar of two examples, the second if they are equal. -/
def better (first second : Hit α) : Hit α :=
  if Scalar.notAbove first.similarity second.similarity then second else first

/-- What examples with good similarities say of a usage. -/
def ofHits (settings : Settings α) (element : ElementRef) (query : String) (first : Hit α)
    (rest : List (Hit α)) : Grounding α :=
  let hits := first :: rest
  let top := rest.foldl better first
  let best := top.similarity
  let mean := Scalar.total (hits.map Hit.similarity) / Scalar.ofCount hits.length
  let grounded := Scalar.atMost settings.groundedSimilarity best
  let verdict :=
    if grounded then
      Verdict.plain .valid best
        ("Grounded by " ++ toString hits.length ++ " similar code example(s)")
    else
      (Verdict.plain .uncertain mean
        (toString hits.length ++ " example(s) found, none similar enough (best " ++
          Scalar.hundredths best ++ ")")).withSuggestion
        ("No close usage example for '" ++ element.name ++ "'; check the documentation")
  { element := element
    query := query
    verdict := ((verdict.withDetail "example_count" (.count hits.length)).withDetail
      "best_similarity" (.real best)).withDetail "mean_similarity" (.real mean)
    exampleCount := hits.length
    best := some best
    mean := some mean
    grounded := grounded
    topExample := some (preview top.content) }

/-- What the examples that were retrieved say of a usage. -/
def classify (settings : Settings α) (element : ElementRef) (query : String) (hits : List (Hit α)) :
    Grounding α :=
  match hits.find? fun hit => !isSimilarity hit.similarity with
  | some bad =>
    malformed element query
      ("similarity " ++ Scalar.display bad.similarity ++ " outside [0, 1]")
  | none =>
    match hits with
    | [] => unsupported element query
    | first :: rest => ofHits settings element query first rest

end Grounding

end UsageAudit
