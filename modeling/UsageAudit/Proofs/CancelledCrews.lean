import UsageAudit.Proofs.Cancellation
import UsageAudit.Proofs.CrewOutcomes
import UsageAudit.Proofs.OneByOne

/-!
# Cancelled requests with two crews

A request may be cancelled at any moment, while any number of workers are at their jobs. A worker who
has found it standing has his call answered, but no worker gets a call under way from then on, and the
request ends without a report. A crew has no problem but the cancellation and a source that could not
be reached in a call that was made.
-/

namespace UsageAudit

variable {α β σ τ : Type}

/-- Whether a problem of the graph side is the cancellation or a call in which the graph could not be
reached. -/
def GraphProblem (log : Log) (outcome : Except Problem β) : Prop :=
  ∀ problem, outcome = .error problem → (problem = .cancelled ∧ log.cancelled = true) ∨
    ∃ call ∈ log.calls, ∃ reason, call.graphLost? = some reason ∧ problem = .unavailable reason

/-- Whether a problem of the example side is the cancellation or an index that could not be
reached. -/
def ExampleProblem (log : Log) (outcome : Except Problem β) : Prop :=
  ∀ problem, outcome = .error problem → (problem = .cancelled ∧ log.cancelled = true) ∨
    ∃ reason, problem = .degraded reason

namespace Task

end Task

namespace Engagement

variable (settings : Settings α) {engagement : Engagement α σ τ}

/-- What holds of the two crews of a request at any time. -/
structure Sound (engagement : Engagement α σ τ) : Prop where
  outcomes : ∃ targets, engagement.Meets (fun _ => True) (fun _ => GraphProblem)
    (fun _ => ExampleProblem) targets
  graphManned : engagement.graph.Manned settings.crewSize
  examplesManned : engagement.examples.Manned settings.crewSize

/-- The example side has no problem but the cancellation. -/
theorem Sound.cancelled_of_examples [Scalar α] (h : engagement.Sound settings)
    {index? : Option (ExampleIndex α τ)} {problem : Problem}
    (hproblem : ExampleSearch.outcome? index? settings engagement.examples =
      some (.error problem)) : problem = .cancelled := by
  obtain ⟨⟨targets, -, -, jobs, hexamples⟩, -, -⟩ := h
  unfold ExampleSearch.outcome? at hproblem
  split at hproblem
  · split at hproblem
    · obtain ⟨outcome, houtcome, hsettled⟩ := Option.map_eq_some_iff.mp hproblem
      cases outcome with
      | ok results => cases hsettled
      | error reason =>
        obtain ⟨-, -, hcause⟩ := hexamples.problem houtcome
        rcases hcause reason rfl with ⟨rfl, -⟩ | ⟨text, rfl⟩ <;> cases hsettled
        rfl
    · cases hproblem
  · cases hproblem

/-- A request that has been cancelled comes to no report, but to the cancellation or to a graph that
could not be reached in a call. -/
theorem Sound.result [Scalar α] (h : engagement.Sound settings)
    (hcancelled : engagement.place.cancelled = true) {sources : Sources α σ τ}
    {options : ReportOptions} {analysis : Analysis}
    {result : Except (Problem × Phase) (Report α)}
    (hresult : engagement.result? sources settings options analysis = some result) :
    ∃ problem phase, result = .error (problem, phase) ∧ (problem = .cancelled ∨
      ∃ call ∈ engagement.place.calls, ∃ reason, call.graphLost? = some reason ∧
        problem = .unavailable reason) := by
  unfold result? at hresult
  split at hresult
  · rename_i graph semantic hgraphOutcome hsemanticOutcome
    cases hresult
    rw [hcancelled]
    cases graph with
    | error problem =>
      obtain ⟨outcome, houtcome, hproblem⟩ := Option.map_eq_some_iff.mp hgraphOutcome
      obtain ⟨⟨targets, -, hgraph, -⟩, -, -⟩ := h
      cases outcome with
      | ok checks => cases hproblem
      | error problem =>
        cases hproblem
        obtain ⟨-, -, hcause⟩ := hgraph.problem houtcome
        exact ⟨problem, .graph, rfl, (hcause problem rfl).imp_left And.left⟩
    | ok graph =>
      cases semantic with
      | ok semantic => exact ⟨.cancelled, .fuse, rfl, Or.inl rfl⟩
      | error problem =>
        exact ⟨problem, .semantic, rfl, Or.inl (h.cancelled_of_examples settings hsemanticOutcome)⟩
  · cases hresult

end Engagement

namespace Auditor

variable [Scalar α] (sources : Sources α σ τ) (settings : Settings α) (options : ReportOptions)
  (script path : String) (cancelled : Bool) (auditor : Auditor σ τ)

end Auditor

end UsageAudit
