import UsageAudit.Element
import UsageAudit.Json
import UsageAudit.Ordered
import UsageAudit.Settings

/-!
# Verdicts

What an audit says of one usage: a status, a confidence between zero and one, a message, details and
suggestions.
-/

namespace UsageAudit

/-- What an audit says of a usage. -/
inductive Status where
  | valid | invalid | uncertain | notFound
  deriving DecidableEq, Repr

namespace Status

/-- The name of a status. -/
def name : Status → String
  | .valid => "VALID"
  | .invalid => "INVALID"
  | .uncertain => "UNCERTAIN"
  | .notFound => "NOT_FOUND"

/-- All statuses. -/
def all : List Status := [.valid, .invalid, .uncertain, .notFound]

end Status

/-- Details of a verdict, in the order in which they were added. -/
abbrev Details (α : Type) := Ordered String (Datum α)

/-- A verdict on a usage. -/
structure Verdict (α : Type) where
  status : Status
  confidence : α
  message : String
  details : Details α
  suggestions : List String

namespace Verdict

variable {α : Type}

/-- A verdict with its confidence moved between zero and one, and nothing more. -/
def plain [Scalar α] (status : Status) (confidence : α) (message : String) : Verdict α :=
  ⟨status, Scalar.clampUnit confidence, message, [], []⟩

/-- The verdict with a detail. -/
def withDetail (verdict : Verdict α) (name : String) (value : Datum α) : Verdict α :=
  { verdict with details := verdict.details.put name value }

/-- The verdict with one more suggestion. -/
def withSuggestion (verdict : Verdict α) (suggestion : String) : Verdict α :=
  { verdict with suggestions := verdict.suggestions ++ [suggestion] }

end Verdict

/-- What an element was checked as. -/
inductive CheckKind where
  | ofImport | instantiation | methodCall | functionCall | attributeAccess
  deriving DecidableEq, Repr

namespace CheckKind

/-- The name of a kind of check. -/
def name : CheckKind → String
  | .ofImport => "import"
  | .instantiation => "class_instantiation"
  | .methodCall => "method_call"
  | .functionCall => "function_call"
  | .attributeAccess => "attribute_access"

/-- All kinds of checks. -/
def all : List CheckKind :=
  [.ofImport, .instantiation, .methodCall, .functionCall, .attributeAccess]

end CheckKind

/-- The verdict on one element. -/
structure Check (α : Type) where
  element : ElementRef
  kind : CheckKind
  /-- The qualified name under which the element was looked up. -/
  target : String
  verdict : Verdict α
  /-- The repositories in which it was found. -/
  repositories : List String

/-- The checks of a script against the graph, in the order of its elements. -/
structure GraphOutcome (α : Type) where
  checks : List (Check α)
  /-- The number of usages that could not be checked. -/
  skipped : Nat

/-- What a finding rests on. -/
inductive Evidence where
  | structural | semantic
  deriving DecidableEq, Repr

/-- The name of a kind of evidence. -/
def Evidence.name : Evidence → String
  | .structural => "structural"
  | .semantic => "semantic"

/-- All kinds of evidence. -/
def Evidence.all : List Evidence := [.structural, .semantic]

/-- A usage that seems to be made up. -/
structure Hallucination (α : Type) where
  evidence : Evidence
  category : String
  element : ElementRef
  confidence : α
  severity : Severity
  description : String
  suggestion : Option String

end UsageAudit
