import UsageAudit.Element.Codec
import UsageAudit.Verdict

/-!
# Verdicts as JSON

Verdicts, checks and findings as objects, and the readers of verdicts and checks.
-/

namespace UsageAudit

namespace Status

/-- The name of the status. -/
def toJson (status : Status) : Json := .str status.name

/-- The status of a name. -/
def ofJson? : Json → Option Status :=
  Datum.choice? fun text => all.find? fun status => status.name == text

end Status

/-- The kind of check of a name. -/
def CheckKind.ofJson? : Json → Option CheckKind :=
  Datum.choice? fun text => all.find? fun kind => kind.name == text

namespace Verdict

/-- The verdict as an object. -/
def toJson (verdict : Verdict Float) : Json :=
  .obj [("status", verdict.status.toJson), ("confidence", .real verdict.confidence),
    ("message", .str verdict.message), ("details", .obj verdict.details),
    ("suggestions", .texts verdict.suggestions)]

/-- Reads a verdict. -/
def ofJson? (value : Json) : Option (Verdict Float) := do
  match ← value.fields? ["status", "confidence", "message", "details", "suggestions"] with
  | [status, confidence, message, .obj details, suggestions] =>
    return ⟨← Status.ofJson? status, ← confidence.float?, ← message.str?, details,
      ← suggestions.list? Datum.str?⟩
  | _ => none

end Verdict

namespace Check

/-- The check as an object. -/
def toJson (check : Check Float) : Json :=
  .obj [("element", check.element.toJson), ("kind", .str check.kind.name),
    ("target", .str check.target), ("result", check.verdict.toJson),
    ("repositories", .texts check.repositories)]

/-- Reads a check. -/
def ofJson? (value : Json) : Option (Check Float) := do
  match ← value.fields? ["element", "kind", "target", "result", "repositories"] with
  | [element, kind, target, verdict, repositories] =>
    return ⟨← ElementRef.ofJson? element, ← CheckKind.ofJson? kind, ← target.str?,
      ← Verdict.ofJson? verdict, ← repositories.list? Datum.str?⟩
  | _ => none

end Check

/-- The checks of a script as an object. -/
def GraphOutcome.toJson (outcome : GraphOutcome Float) : Json :=
  .obj [("validations", Datum.ofList Check.toJson outcome.checks),
    ("skipped", .count outcome.skipped)]

/-- The finding as an object. -/
def Hallucination.toJson (finding : Hallucination Float) : Json :=
  .obj ([("type", .str finding.evidence.name), ("category", .str finding.category),
    ("element", finding.element.toJson), ("confidence", .real finding.confidence),
    ("severity", .str finding.severity.name), ("description", .str finding.description)] ++
    Datum.optionalMember "suggestion" .str finding.suggestion)

end UsageAudit
