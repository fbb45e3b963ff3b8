import UsageAudit.Grounding
import UsageAudit.Verdict.Codec

/-!
# Groundings as JSON

What examples say of usages as objects, and its readers.
-/

namespace UsageAudit

namespace Grounding

/-- The grounding as an object. -/
def toJson (grounding : Grounding Float) : Json :=
  .obj ([("element", grounding.element.toJson), ("query", .str grounding.query),
    ("result", grounding.verdict.toJson), ("example_count", .count grounding.exampleCount)] ++
    Datum.optionalMember "best_similarity" .real grounding.best ++
    Datum.optionalMember "mean_similarity" .real grounding.mean ++
    [("grounded", .bool grounding.grounded)] ++
    Datum.optionalMember "top_example" .str grounding.topExample)

end Grounding

/-- What the examples say of a script, as an object. -/
def SemanticOutcome.toJson (outcome : SemanticOutcome Float) : Json :=
  .obj ([("available", .bool outcome.available),
    ("results", Datum.ofList Grounding.toJson outcome.results)] ++
    Datum.optionalMember "error" .str outcome.reason)

end UsageAudit
