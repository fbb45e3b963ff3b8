import UsageAudit.Grounding

/-!
# Fusion

The checks against the graph and the groundings by examples are put together: their mean confidences
are weighted into one, and the usages that seem to be made up are listed in the order of the script.
-/

namespace UsageAudit

/-- How far a script can be relied on. -/
inductive Assessment where
  | veryHigh | high | medium | low
  deriving DecidableEq, Repr

namespace Assessment

/-- The name of an assessment. -/
def name : Assessment → String
  | .veryHigh => "very_high_confidence"
  | .high => "high_confidence"
  | .medium => "medium_confidence"
  | .low => "low_confidence"

/-- All assessments. -/
def all : List Assessment := [.veryHigh, .high, .medium, .low]

end Assessment

/-- How great the risk is that a script uses what does not exist. -/
inductive Risk where
  | low | medium | high
  deriving DecidableEq, Repr

namespace Risk

/-- The name of a risk. -/
def name : Risk → String
  | .low => "low"
  | .medium => "medium"
  | .high => "high"

/-- All risks. -/
def all : List Risk := [.low, .medium, .high]

end Risk

/-- The outcome of both kinds of checks together. -/
structure Fusion (α : Type) where
  overall : α
  /-- The mean confidence of the checks against the graph, if there are any. -/
  graphMean : Option α
  /-- The mean confidence of the groundings, if there are any. -/
  semanticMean : Option α
  hallucinations : List (Hallucination α)

namespace Fusion

variable {α : Type} [Scalar α]

/-- The finding that a check gives rise to, if its confidence is low. -/
def structural? (settings : Settings α) (check : Check α) : Option (Hallucination α) :=
  if Scalar.less check.verdict.confidence settings.hallucination then
    some
      { evidence := .structural
        category := check.kind.name
        element := check.element
        confidence := check.verdict.confidence
        severity := settings.severityOf check.verdict.confidence
        description := check.verdict.message
        suggestion := check.verdict.suggestions.head? }
  else none

/-- The finding that a grounding gives rise to, if there are examples and none is similar enough. -/
def semantic? (settings : Settings α) (grounding : Grounding α) : Option (Hallucination α) :=
  if grounding.exampleCount ≠ 0 ∧ !grounding.grounded then
    let similarity := grounding.mean.getD grounding.verdict.confidence
    some
      { evidence := .semantic
        category := grounding.element.kind.name
        element := grounding.element
        confidence := similarity
        severity := settings.severityOf similarity
        description := grounding.verdict.message
        suggestion := grounding.verdict.suggestions.head? }
  else none

/-- All findings in the order of the elements; of one element, those from the graph come first. -/
def findings (settings : Settings α) (graph : GraphOutcome α) (semantic : SemanticOutcome α) :
    List (Hallucination α) :=
  let structural := graph.checks.filterMap (structural? settings)
  let weak := if semantic.available then semantic.results.filterMap (semantic? settings) else []
  (structural ++ weak).mergeSort fun first second =>
    decide (first.element.index ≤ second.element.index)

/-- Two means by their weights; half if the weights are zero. -/
def weighted (settings : Settings α) (graphMean semanticMean : Option α) : α :=
  let sum := settings.graphWeight * graphMean.getD neutralConfidence +
    settings.semanticWeight * semanticMean.getD neutralConfidence
  let weight := settings.graphWeight + settings.semanticWeight
  if Scalar.less 0.0 weight then sum / weight else neutralConfidence

/-- Puts both kinds of checks together. -/
def fuse (settings : Settings α) (graph : GraphOutcome α) (semantic : SemanticOutcome α) :
    Fusion α :=
  let graphMean := Scalar.mean? (graph.checks.map fun check => check.verdict.confidence)
  let semanticMean :=
    if semantic.available then
      Scalar.mean? (semantic.results.map fun grounding => grounding.verdict.confidence)
    else none
  { overall := Scalar.clampUnit (weighted settings graphMean semanticMean)
    graphMean := graphMean
    semanticMean := semanticMean
    hallucinations := findings settings graph semantic }

/-- What an overall confidence means. -/
def classify (settings : Settings α) (overall : α) : Assessment × Risk :=
  if Scalar.atMost settings.veryHighConfidence overall then (.veryHigh, .low)
  else if Scalar.atMost settings.highConfidence overall then (.high, .low)
  else if Scalar.atMost settings.hallucination overall then (.medium, .medium)
  else (.low, .high)

end Fusion

end UsageAudit
