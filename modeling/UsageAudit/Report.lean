import UsageAudit.Analysis
import UsageAudit.Fusion

/-!
# Reports

A report says how far a script can be relied on, lists the usages that seem to be made up by their
severity, and collects suggestions. A detailed report also holds all checks and the structure of the
script.
-/

namespace UsageAudit

/-- The summary of a report. -/
structure Summary (α : Type) where
  confidence : α
  assessment : Assessment
  risk : Risk
  findingCount : Nat
  criticalCount : Nat
  moderateCount : Nat

/-- The findings of a report by their severity. -/
structure Findings (α : Type) where
  critical : List (Hallucination α)
  moderate : List (Hallucination α)
  all : List (Hallucination α)

/-- What a report says of the script and of the checks as a whole. -/
structure Coverage (α : Type) where
  totalLines : Nat
  nodeCount : Nat
  contentHash : String
  counts : ElementCounts
  graphChecks : Nat
  skipped : Nat
  semanticChecks : Nat
  semanticAvailable : Bool
  graphConfidence : Option α
  semanticConfidence : Option α
  semanticError : Option String
  analysisError : Option String

/-- The elements of a script by their kinds. -/
structure Structure where
  imports : List Import
  classes : List ClassDef
  functions : List FunctionDef
  assignments : List VariableAssign
  /-- The usages other than imports. -/
  usages : List Element

/-- All checks, and the structure of the script. -/
structure Evidences (α : Type) where
  graph : GraphOutcome α
  semantic : SemanticOutcome α
  layout : Structure

/-- The report on a script. -/
structure Report (α : Type) where
  path : String
  summary : Summary α
  findings : Findings α
  suggestions : List String
  coverage : Coverage α
  details : Option (Evidences α)

/-- What a report is to hold. -/
structure ReportOptions where
  includeSuggestions : Bool
  detailed : Bool
  deriving DecidableEq, Repr

/-- The elements of a script by their kinds. -/
def Structure.of (elements : List Element) : Structure where
  imports := elements.filterMap fun
    | .ofImport e => some e
    | _ => none
  classes := elements.filterMap fun
    | .classDef e => some e
    | _ => none
  functions := elements.filterMap fun
    | .functionDef e => some e
    | _ => none
  assignments := elements.filterMap fun
    | .variableAssign e => some e
    | _ => none
  usages := elements.filter fun element => element.isUsage && element.kind != .ofImport

namespace Report

variable {α : Type}

/-- Texts without repetition, in the order in which they first come. -/
def distinct (texts : List String) : List String :=
  texts.foldl (fun seen text => if seen.contains text then seen else seen ++ [text]) []

/-- The suggestions of checks that failed, and those of findings. -/
def suggestionsOf (graph : GraphOutcome α) (findings : List (Hallucination α)) : List String :=
  let failed := graph.checks.filter fun check => check.verdict.status != .valid
  distinct (failed.flatMap (fun check => check.verdict.suggestions) ++
    findings.filterMap Hallucination.suggestion)

/-- The report on a script whose checks have been put together. -/
def build [Scalar α] (settings : Settings α) (analysis : Analysis) (graph : GraphOutcome α)
    (semantic : SemanticOutcome α) (fusion : Fusion α) (options : ReportOptions) : Report α :=
  let (assessment, risk) := Fusion.classify settings fusion.overall
  let all :=
    if options.includeSuggestions then fusion.hallucinations
    else fusion.hallucinations.map fun finding => { finding with suggestion := none }
  -- Suggestions that are not asked for are left out of the groups as well.
  let critical := all.filter fun finding => finding.severity == .high
  let moderate := all.filter fun finding => finding.severity == .medium
  { path := analysis.metadata.path
    summary := ⟨fusion.overall, assessment, risk, all.length, critical.length, moderate.length⟩
    findings := ⟨critical, moderate, all⟩
    suggestions := if options.includeSuggestions then suggestionsOf graph all else []
    coverage :=
      { totalLines := analysis.metadata.totalLines
        nodeCount := analysis.metadata.nodeCount
        contentHash := analysis.metadata.contentHash
        counts := analysis.counts
        graphChecks := graph.checks.length
        skipped := graph.skipped
        semanticChecks := semantic.results.length
        semanticAvailable := semantic.available
        graphConfidence := fusion.graphMean
        semanticConfidence := fusion.semanticMean
        semanticError := semantic.reason
        analysisError := analysis.metadata.error }
    details :=
      if options.detailed then some ⟨graph, semantic, .of analysis.elements⟩ else none }

end Report

end UsageAudit
