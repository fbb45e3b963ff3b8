import UsageAudit.Element.Codec
import UsageAudit.Resolution

/-!
# Plans as JSON

The targets of a plan with their qualified names.
-/

namespace UsageAudit

/-- The parts of a qualified name as an object. -/
def TargetName.toJson : TargetName → Json
  | .ofModule path => .obj [("module", .str path)]
  | .ofClass path => .obj [("class", .str path)]
  | .method owner name => .obj [("method", .texts [owner, name])]
  | .function owner name => .obj [("function", .texts [owner, name])]
  | .member owner name ownerIsClass =>
    .obj [("attribute", .texts [owner, name]), ("owner_is_class", .bool ownerIsClass)]

/-- The target as an object. -/
def Target.toJson (target : Target) : Json :=
  .obj [("element", target.element.toJson), ("kind", .str target.kind.name),
    ("name", target.name.toJson), ("qualified", .str target.name.qualified),
    ("arguments", Datum.ofOption CallArguments.toJson target.arguments)]

/-- The plan as an object. -/
def Plan.toJson (plan : Plan) : Json :=
  .obj [("skipped", .count plan.skipped), ("targets", Datum.ofList Target.toJson plan.targets)]

end UsageAudit
