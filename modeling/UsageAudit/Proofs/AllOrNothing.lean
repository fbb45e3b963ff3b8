import UsageAudit.Proofs.CacheTransparency
import UsageAudit.Proofs.MergedFindings
import UsageAudit.Proofs.OneByOne
import UsageAudit.Proofs.SearchCrews

/-!
# All examples or none

A crew makes one search for each usage of a script. An answer that cannot be used is a matter of its
usage alone, but an index that cannot be reached is a matter of the script: no usage is taken up after
it was reported, and nothing of what was found is kept. What is then left of a script is what the graph
says of it.
-/

namespace UsageAudit

variable {α σ τ : Type}

/-- The usages of a script, in their order. -/
def Analysis.usages (analysis : Analysis) : List (ElementRef × Element) :=
  analysis.refs.filter fun usage => usage.2.isUsage

section Outcomes

variable [Scalar α] (settings : Settings α)

section Gathered

variable {settings} {index : ExampleIndex α τ} {start : τ} {rows : List (SearchRow α)}
  {crew : Crew (Auditor σ τ) (Grounding α)} {place : Workplace (Auditor σ τ)} {analysis : Analysis}

end Gathered

/-- The searches that were made, if there is an index. -/
def ExampleSearch.searches (index? : Option (ExampleIndex α τ)) (start : τ)
    (place : Workplace (Auditor σ τ)) : List (SearchRecord α) :=
  match index? with
  | some index => index.records settings start place.searched
  | none => []

end Outcomes

namespace ExampleSearch

variable [Scalar α] (index? : Option (ExampleIndex α τ)) (settings : Settings α)
  (analysis : Analysis) (workers : Nat) (auditor : Auditor σ τ)

/-- The crew that grounds a script for an auditor, and where it works, after some moves. -/
def worked (schedule : List Nat) : Crew (Auditor σ τ) (Grounding α) × Workplace (Auditor σ τ) :=
  (crew index? settings analysis).moves workers (.opened false auditor) schedule

/-- The searches that the crew has made by then. -/
def made (schedule : List Nat) : List (SearchRecord α) :=
  searches settings index? auditor.examples
    (worked index? settings analysis workers auditor schedule).2

section Indexed

variable {settings} (index : ExampleIndex α τ) (henabled : settings.semanticEnabled = true)

include henabled

end Indexed

end ExampleSearch

end UsageAudit
