import UsageAudit.Auditor
import UsageAudit.Report.Codec

/-!
# Responses as JSON

The answer to a request as an object: the members of the report, or the problem and its phase.
-/

namespace UsageAudit

/-- The answer to a request as an object. -/
def Response.toJson : Response Float → Json
  | .success report => .obj (("success", .bool true) :: report.members)
  | .failure path problem phase =>
    .obj [("success", .bool false), ("script_path", .str path), ("error", .str problem.message),
      ("error_kind", .str problem.name), ("phase", .str phase.name)]

end UsageAudit
