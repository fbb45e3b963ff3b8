import UsageAudit.Scalar
import UsageAudit.Json
import UsageAudit.Text.Blank

/-!
# Settings

The weights, baselines and thresholds of an audit. Each has a default and may be set by a text; a
text that is no finite number leaves the default, and a number out of range is moved to the nearest
one in range.
-/

namespace UsageAudit

/-- How bad a finding is. -/
inductive Severity where
  | low | medium | high
  deriving DecidableEq, Repr

/-- The name of a severity. -/
def Severity.name : Severity → String
  | .low => "low"
  | .medium => "medium"
  | .high => "high"

/-- All severities. -/
def Severity.all : List Severity := [.low, .medium, .high]

/-- The weights, baselines and thresholds of an audit. -/
structure Settings (α : Type) where
  graphWeight : α
  semanticWeight : α
  /-- The confidence in a module or class that is known. -/
  classFound : α
  /-- The confidence in a method, function or attribute that is known. -/
  memberFound : α
  notFound : α
  attributeNotFound : α
  /-- Below this confidence a usage counts as made up. -/
  hallucination : α
  /-- Below this confidence a finding is severe. -/
  highSeverity : α
  /-- From this similarity on an example supports a usage. -/
  groundedSimilarity : α
  highConfidence : α
  veryHighConfidence : α
  /-- How many examples are asked for. -/
  topK : Nat
  /-- The similarity that examples must have. -/
  minSimilarity : α
  semanticEnabled : Bool
  maxConcurrency : Nat

/-- The confidence in what nothing is known of. -/
def neutralConfidence {α : Type} [Scalar α] : α := 0.5

namespace Settings

variable {α : Type} [Scalar α]

/-- The settings of an audit for which nothing is set. -/
def standard : Settings α where
  graphWeight := 0.6
  semanticWeight := 0.4
  classFound := 0.8
  memberFound := 0.7
  notFound := 0.2
  attributeNotFound := 0.3
  hallucination := 0.5
  highSeverity := 0.3
  groundedSimilarity := 0.7
  highConfidence := 0.7
  veryHighConfidence := 0.9
  topK := 5
  minSimilarity := 0.0
  semanticEnabled := true
  maxConcurrency := 8

/-- The greatest confidence in what was not found. -/
def notFoundBound : α := 0.3

/-- The greatest number of examples that can be asked for. -/
def topKBound : Nat := 50

/-- The greatest number of lookups at a time. -/
def concurrencyBound : Nat := 64

/-- Texts that switch something off. -/
def offTexts : List (List Char) :=
  [['0'], ['f', 'a', 'l', 's', 'e'], ['n', 'o'], ['o', 'f', 'f']]

/-- A number between zero and one. -/
def unitOf (text : Option String) (default : α) : α :=
  match text.bind fun text => Decimal.read (Text.trimmed text.toList) with
  | some reading =>
    match Scalar.ofReading reading with
    | some value => Scalar.clampUnit value
    | none => default
  | none => default

/-- A count between one and a bound. -/
def countOf (text : Option String) (bound default : Nat) : Nat :=
  match text.bind fun text => Decimal.readCount (Nat.pow 2 64) (Text.trimmed text.toList) with
  | some value => max 1 (min bound value)
  | none => default

/-- A switch, on unless a text switches it off. -/
def switchOf (text : Option String) (default : Bool) : Bool :=
  match text with
  | some text => !offTexts.contains ((Text.trimmed text.toList).map Char.toLower)
  | none => default

/-- The settings that the named texts give. -/
def ofLookup (lookup : String → Option String) : Settings α :=
  let unit (name : String) (default : α) : α := unitOf (lookup ("GROUNDCHECK_" ++ name)) default
  { graphWeight := unit "GRAPH_WEIGHT" standard.graphWeight
    semanticWeight := unit "SEMANTIC_WEIGHT" standard.semanticWeight
    classFound := unit "CLASS_FOUND_CONFIDENCE" standard.classFound
    memberFound := unit "MEMBER_FOUND_CONFIDENCE" standard.memberFound
    notFound := Scalar.least (unit "NOT_FOUND_CONFIDENCE" standard.notFound) notFoundBound
    attributeNotFound := unit "ATTRIBUTE_NOT_FOUND_CONFIDENCE" standard.attributeNotFound
    hallucination := unit "HALLUCINATION_THRESHOLD" standard.hallucination
    highSeverity := unit "HIGH_SEVERITY_THRESHOLD" standard.highSeverity
    groundedSimilarity := unit "GROUNDED_SIMILARITY" standard.groundedSimilarity
    highConfidence := unit "HIGH_CONFIDENCE" standard.highConfidence
    veryHighConfidence := unit "VERY_HIGH_CONFIDENCE" standard.veryHighConfidence
    minSimilarity := unit "SEMANTIC_MIN_SIMILARITY" standard.minSimilarity
    topK := countOf (lookup "GROUNDCHECK_SEMANTIC_TOP_K") topKBound (standard (α := α)).topK
    maxConcurrency :=
      countOf (lookup "GROUNDCHECK_MAX_CONCURRENCY") concurrencyBound
        (standard (α := α)).maxConcurrency
    semanticEnabled := switchOf (lookup "GROUNDCHECK_SEMANTIC") true }

/-- How bad a finding of the given confidence is. -/
def severityOf (settings : Settings α) (confidence : α) : Severity :=
  if Scalar.less confidence settings.highSeverity then .high else .medium

end Settings

/-- The settings as an object. -/
def Settings.toJson (settings : Settings Float) : Json :=
  .obj [("graph_weight", .real settings.graphWeight),
    ("semantic_weight", .real settings.semanticWeight),
    ("class_found_confidence", .real settings.classFound),
    ("member_found_confidence", .real settings.memberFound),
    ("not_found_confidence", .real settings.notFound),
    ("attribute_not_found_confidence", .real settings.attributeNotFound),
    ("hallucination_threshold", .real settings.hallucination),
    ("high_severity_threshold", .real settings.highSeverity),
    ("grounded_similarity", .real settings.groundedSimilarity),
    ("high_confidence", .real settings.highConfidence),
    ("very_high_confidence", .real settings.veryHighConfidence),
    ("semantic_top_k", .count settings.topK),
    ("semantic_min_similarity", .real settings.minSimilarity),
    ("semantic_enabled", .bool settings.semanticEnabled),
    ("max_concurrency", .count settings.maxConcurrency)]

end UsageAudit
