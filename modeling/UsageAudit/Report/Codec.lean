import UsageAudit.Grounding.Codec
import UsageAudit.Report
import UsageAudit.Resolution.Codec

/-!
# Reports as JSON

The members of a report. The elements in the structure of a script are sorted by kind already, so that
they are written without naming it, except among the usages.
-/

namespace UsageAudit

/-- The fields of an element as an object that does not name its kind. -/
def Element.toPlainJson (element : Element) : Json :=
  .obj ((Element.fieldNames element.kind).zip element.fieldValues)

/-- The fusion as an object. -/
def Fusion.toJson (fusion : Fusion Float) : Json :=
  .obj [("overall_confidence", .real fusion.overall),
    ("graph_mean", Datum.ofOption .real fusion.graphMean),
    ("semantic_mean", Datum.ofOption .real fusion.semanticMean),
    ("hallucinations", Datum.ofList Hallucination.toJson fusion.hallucinations)]

/-- The summary as an object. -/
def Summary.toJson (summary : Summary Float) : Json :=
  .obj [("confidence_score", .real summary.confidence),
    ("assessment", .str summary.assessment.name), ("risk_level", .str summary.risk.name),
    ("hallucination_count", .count summary.findingCount),
    ("critical_issues", .count summary.criticalCount),
    ("moderate_issues", .count summary.moderateCount)]

/-- The findings as an object. -/
def Findings.toJson (findings : Findings Float) : Json :=
  .obj [("critical", Datum.ofList Hallucination.toJson findings.critical),
    ("moderate", Datum.ofList Hallucination.toJson findings.moderate),
    ("all", Datum.ofList Hallucination.toJson findings.all)]

/-- The coverage as an object. -/
def Coverage.toJson (coverage : Coverage Float) : Json :=
  .obj ([("total_lines", .count coverage.totalLines), ("node_count", .count coverage.nodeCount),
    ("content_hash", .str coverage.contentHash), ("element_counts", coverage.counts.toJson),
    ("graph_validations", .count coverage.graphChecks),
    ("skipped_elements", .count coverage.skipped),
    ("semantic_validations", .count coverage.semanticChecks),
    ("semantic_available", .bool coverage.semanticAvailable)] ++
    Datum.optionalMember "graph_confidence" .real coverage.graphConfidence ++
    Datum.optionalMember "semantic_confidence" .real coverage.semanticConfidence ++
    Datum.optionalMember "semantic_error" .str coverage.semanticError ++
    Datum.optionalMember "analysis_error" .str coverage.analysisError)

/-- The structure of a script as an object. -/
def Structure.toJson (parts : Structure) : Json :=
  .obj [("imports", Datum.ofList (fun e => Element.toPlainJson (.ofImport e)) parts.imports),
    ("classes", Datum.ofList (fun e => Element.toPlainJson (.classDef e)) parts.classes),
    ("functions", Datum.ofList (fun e => Element.toPlainJson (.functionDef e)) parts.functions),
    ("variables", Datum.ofList (fun e => Element.toPlainJson (.variableAssign e)) parts.assignments),
    ("usages", Datum.ofList Element.toJson parts.usages)]

/-- All checks as an object. -/
def Evidences.toJson (evidences : Evidences Float) : Json :=
  .obj [("graph_results", evidences.graph.toJson), ("semantic_results", evidences.semantic.toJson),
    ("script_structure", evidences.layout.toJson)]

/-- The members of a report. -/
def Report.members (report : Report Float) : List (String × Json) :=
  [("script_path", .str report.path), ("overall_assessment", report.summary.toJson),
    ("hallucinations", report.findings.toJson), ("suggestions", .texts report.suggestions),
    ("analysis_metadata", report.coverage.toJson)] ++
    Datum.optionalMember "detailed_validation" Evidences.toJson report.details

end UsageAudit
