import UsageAudit.Proofs.BothSides

/-!
# What turns preserve

The calls of a request whose sides take turns, its cancellation and the problems of its sides hang
together. The request counts as cancelled when a call has cancelled it, that call is the latest, and
only a graph that cannot be reached or the cancellation is a problem to a side. Every turn preserves
this, so it holds when both sides have finished.
-/

namespace UsageAudit

variable {α β γ σ τ : Type}

/-- How the calls of a request and its cancellation hang together. -/
structure Prompt (desk : SharedDesk σ τ) : Prop where
  /-- The request has been cancelled if a call did so. -/
  fired : desk.cancelled = desk.calls.any Call.cancels
  /-- No call comes after one that cancels. -/
  last : ∀ later call earlier, desk.calls = later ++ call :: earlier → call.cancels = true →
    later = []

namespace Prompt

variable {desk after : SharedDesk σ τ}

/-- Nothing has been called and nothing cancelled. -/
theorem of_nil (hcalls : desk.calls = []) (hlive : desk.cancelled = false) : Prompt desk where
  fired := by simp [hcalls, hlive]
  last later call earlier h := by simp [hcalls] at h

/-- Only the calls and the cancellation count. -/
theorem of_eq (h : Prompt desk) (hcalls : after.calls = desk.calls)
    (hflag : after.cancelled = desk.cancelled) : Prompt after where
  fired := by rw [hcalls, hflag, h.fired]
  last := by rw [hcalls]; exact h.last

/-- A call of a request that stands may cancel it. -/
theorem of_call (h : Prompt desk) {call : Call} (hlive : desk.cancelled = false)
    (hcalls : after.calls = call :: desk.calls) (hflag : after.cancelled = call.cancels) :
    Prompt after := by
  have hnone : ∀ earlier ∈ desk.calls, earlier.cancels = false := by
    have hfired := h.fired
    rw [hlive] at hfired
    simpa using hfired.symm
  refine ⟨?_, ?_⟩
  · have hrest : desk.calls.any Call.cancels = false := by rw [← h.fired, hlive]
    rw [hcalls, hflag, List.any_cons, hrest, Bool.or_false]
  · intro later other earlier heq hcancels
    rw [hcalls] at heq
    cases later with
    | nil => rfl
    | cons first rest =>
      simp only [List.cons_append, List.cons.injEq] at heq
      have hother := hnone other (by simp [heq.2])
      simp [hother] at hcancels

end Prompt

/-- How the calls of a request, its cancellation and the problems of its sides hang together. -/
structure Orderly (desk : SharedDesk σ τ) (graphSide : Except Problem β)
    (exampleSide : Except Problem γ) : Prop where
  prompt : Prompt desk
  /-- The graph side knows of a graph that could not be reached. -/
  lost : ∀ reason, graphSide = .error (.unavailable reason) ↔
    ∃ call ∈ desk.calls, call.graphLost? = some reason
  graphProblem : ∀ problem, graphSide = .error problem →
    (problem = .cancelled ∧ desk.cancelled = true) ∨ ∃ reason, problem = .unavailable reason
  /-- The example side has no problem but the cancellation. -/
  exampleProblem : ∀ problem, exampleSide = .error problem →
    problem = .cancelled ∧ desk.cancelled = true

namespace Orderly

variable {desk after : SharedDesk σ τ} {graphSide graphSide' : Except Problem β}
  {exampleSide exampleSide' : Except Problem γ}

/-- As long as the graph side goes on, the graph has been reached. -/
theorem reached {value : β} (h : Orderly desk (.ok value) exampleSide) :
    ∀ call ∈ desk.calls, call.graphLost? = none := by
  intro call hmem
  cases hlost : call.graphLost? with
  | none => rfl
  | some reason =>
    have himpossible := (h.lost reason).mpr ⟨call, hmem, hlost⟩
    cases himpossible

/-- A side that has come to a problem knows of the same calls after a turn of the other that makes
none, or one in which the graph was reached. -/
theorem lost_of_calls (hlost : ∀ reason, graphSide = .error (.unavailable reason) ↔
    ∃ call ∈ desk.calls, call.graphLost? = some reason)
    (hcalls : after.calls = desk.calls ∨
      ∃ call, after.calls = call :: desk.calls ∧ call.graphLost? = none) (reason : String) :
    graphSide = .error (.unavailable reason) ↔
      ∃ call ∈ after.calls, call.graphLost? = some reason := by
  rw [hlost]
  rcases hcalls with hcalls | ⟨call, hcalls, hreached⟩
  · rw [hcalls]
  · simp [hcalls, hreached]

/-- A turn of the graph side preserves the order of the request. -/
theorem turn_graph {value : β} (h : Orderly desk (.ok value) exampleSide)
    (hturn : Turn desk .graph graphSide' after) : Orderly after graphSide' exampleSide := by
  cases hturn with
  | quiet side value after calls flag =>
    refine ⟨h.prompt.of_eq calls flag, ?_, by simp, ?_⟩
    · intro reason
      simpa [calls] using h.lost reason
    · rw [flag]
      exact h.exampleProblem
  | stopped side after fired calls flag =>
    refine ⟨h.prompt.of_eq calls (by rw [flag, fired]), ?_, ?_, ?_⟩
    · intro reason
      simpa [calls] using h.lost reason
    · intro problem hproblem
      cases hproblem
      exact Or.inl ⟨rfl, flag⟩
    · intro problem hproblem
      exact ⟨(h.exampleProblem problem hproblem).1, flag⟩
  | called side value call after live calls flag reached =>
    refine ⟨h.prompt.of_call live calls flag, ?_, by simp, ?_⟩
    · intro reason
      simpa [calls, reached] using h.lost reason
    · intro problem hproblem
      have hfired := (h.exampleProblem problem hproblem).2
      simp [live] at hfired
  | lost reason call after live calls flag lost =>
    refine ⟨h.prompt.of_call live calls flag, ?_, ?_, ?_⟩
    · intro reason'
      have hearlier : ∀ earlier ∈ desk.calls, earlier.graphLost? ≠ some reason' := by
        intro earlier hmem
        simp [h.reached earlier hmem]
      constructor
      · intro heq
        cases heq
        exact ⟨call, by simp [calls], lost⟩
      · rintro ⟨other, hmem, hother⟩
        rw [calls] at hmem
        rcases List.mem_cons.mp hmem with rfl | hmem
        · rw [lost] at hother
          cases hother
          rfl
        · exact absurd hother (hearlier other hmem)
    · intro problem hproblem
      cases hproblem
      exact Or.inr ⟨reason, rfl⟩
    · intro problem hproblem
      have hfired := (h.exampleProblem problem hproblem).2
      simp [live] at hfired

/-- A turn of the example side preserves the order of the request. -/
theorem turn_examples {value : γ} (h : Orderly desk graphSide (.ok value))
    (hturn : Turn desk .examples exampleSide' after) : Orderly after graphSide exampleSide' := by
  cases hturn with
  | quiet side value after calls flag =>
    refine ⟨h.prompt.of_eq calls flag, lost_of_calls h.lost (.inl calls), ?_, by simp⟩
    rw [flag]
    exact h.graphProblem
  | stopped side after fired calls flag =>
    refine ⟨h.prompt.of_eq calls (by rw [flag, fired]), lost_of_calls h.lost (.inl calls), ?_, ?_⟩
    · intro problem hproblem
      exact (h.graphProblem problem hproblem).imp_left fun hcancelled => ⟨hcancelled.1, flag⟩
    · intro problem hproblem
      cases hproblem
      exact ⟨rfl, flag⟩
  | called side value call after live calls flag reached =>
    refine ⟨h.prompt.of_call live calls flag, lost_of_calls h.lost (.inr ⟨call, calls, reached⟩),
      ?_, by simp⟩
    intro problem hproblem
    rcases h.graphProblem problem hproblem with ⟨_, hfired⟩ | hunavailable
    · simp [live] at hfired
    · exact Or.inr hunavailable

/-- What a side makes of what it has come to does not count. -/
theorem of_map {δ ε : Type} {f : β → δ} {g : γ → ε}
    (h : Orderly desk (graphSide.map f) (exampleSide.map g)) :
    Orderly desk graphSide exampleSide := by
  have hgraph : ∀ problem, graphSide.map f = .error problem ↔ graphSide = .error problem := by
    intro problem
    cases graphSide <;> simp [Except.map]
  have hexamples : ∀ problem, exampleSide.map g = .error problem ↔
      exampleSide = .error problem := by
    intro problem
    cases exampleSide <;> simp [Except.map]
  exact
    { prompt := h.prompt
      lost := fun reason => (hgraph _).symm.trans (h.lost reason)
      graphProblem := fun problem hproblem => h.graphProblem problem ((hgraph problem).mpr hproblem)
      exampleProblem := fun problem hproblem =>
        h.exampleProblem problem ((hexamples problem).mpr hproblem) }

end Orderly

namespace Examination

variable (sources : Sources α σ τ) (settings : Settings α) {examination : Examination α σ τ}

/-- A turn of the graph side that has something to do is a lookup or needs none. -/
theorem turn_graph_of_ok {inquiry : Inquiry (GraphOutcome α)}
    (h : examination.graphSide = .ok inquiry) :
    let next := examination.turn sources settings .graph
    Turn examination.desk .graph next.graphSide next.desk ∧
      next.exampleSide = examination.exampleSide := by
  obtain ⟨desk, graphSide, exampleSide⟩ := examination
  obtain rfl : graphSide = .ok inquiry := h
  cases inquiry with
  | done value => exact ⟨.quiet .graph _ _ rfl rfl, rfl⟩
  | ask question next =>
    rw [turn_graph_ask]
    exact ⟨(start_lookup_shared sources.graph question desk).2.2.map next, rfl⟩

/-- A graph side that has come to a problem has no more turns. -/
theorem turn_graph_of_error {problem : Problem} (h : examination.graphSide = .error problem) :
    examination.turn sources settings .graph = examination := by
  obtain ⟨desk, graphSide, exampleSide⟩ := examination
  obtain rfl : graphSide = .error problem := h
  rfl

/-- A turn of the example side that has something to do is a search or needs none. -/
theorem turn_examples_of_ok {survey : Survey α} (h : examination.exampleSide = .ok survey) :
    let next := examination.turn sources settings .examples
    Turn examination.desk .examples next.exampleSide next.desk ∧
      next.graphSide = examination.graphSide := by
  obtain ⟨desk, graphSide, exampleSide⟩ := examination
  obtain rfl : exampleSide = .ok survey := h
  cases survey with
  | done outcome => exact ⟨.quiet .examples _ _ rfl rfl, rfl⟩
  | ask query next =>
    rw [turn_examples_ask]
    exact ⟨(start_search_shared sources.examples settings query desk).2.2.2.map next, rfl⟩

/-- An example side that has come to a problem has no more turns. -/
theorem turn_examples_of_error {problem : Problem}
    (h : examination.exampleSide = .error problem) :
    examination.turn sources settings .examples = examination := by
  obtain ⟨desk, graphSide, exampleSide⟩ := examination
  obtain rfl : exampleSide = .error problem := h
  rfl

/-- Whether the calls of a request between two turns, its cancellation and the problems of its sides
hang together. -/
def Orderly (examination : Examination α σ τ) : Prop :=
  UsageAudit.Orderly examination.desk examination.graphSide examination.exampleSide

/-- Every turn preserves the order of a request. -/
theorem Orderly.turn (h : examination.Orderly) (side : Side) :
    (examination.turn sources settings side).Orderly := by
  unfold Orderly at h ⊢
  cases side with
  | graph =>
    cases hside : examination.graphSide with
    | error problem =>
      rw [turn_graph_of_error sources settings hside]
      exact h
    | ok inquiry =>
      obtain ⟨hturn, hother⟩ := turn_graph_of_ok sources settings hside
      rw [hside] at h
      rw [hother]
      exact h.turn_graph hturn
  | examples =>
    cases hside : examination.exampleSide with
    | error problem =>
      rw [turn_examples_of_error sources settings hside]
      exact h
    | ok survey =>
      obtain ⟨hturn, hother⟩ := turn_examples_of_ok sources settings hside
      rw [hside] at h
      rw [hother]
      exact h.turn_examples hturn

/-- A schedule preserves the order of a request. -/
theorem Orderly.turns (h : examination.Orderly) (schedule : List Side) :
    (examination.turns sources settings schedule).Orderly := by
  induction schedule generalizing examination with
  | nil => exact h
  | cons side rest ih => exact ih (h.turn sources settings side)

/-- The order of a request is preserved until both sides have finished. -/
theorem Orderly.finish (h : examination.Orderly) :
    let completion := examination.finish sources settings
    UsageAudit.Orderly completion.desk completion.graph completion.examples := by
  obtain ⟨schedule, hfinish⟩ := examination.exists_turns_finish sources settings
  have hlast := h.turns sources settings schedule
  rw [hfinish] at hlast
  exact hlast.of_map

/-- A request is in order before its first turn. -/
theorem orderly_ofAnalysis [Scalar α] (analysis : Analysis) (auditor : Auditor σ τ) :
    (ofAnalysis sources settings analysis auditor).Orderly where
  prompt := .of_nil rfl rfl
  lost reason := by simp [ofAnalysis, Desk.calls]
  graphProblem problem h := by cases h
  exampleProblem problem h := by cases h

/-- A request is in order when both sides have finished. -/
theorem orderly_finish [Scalar α] (schedule : List Side) (analysis : Analysis)
    (auditor : Auditor σ τ) :
    let completion := ((ofAnalysis sources settings analysis auditor).turns sources settings
      schedule).finish sources settings
    UsageAudit.Orderly completion.desk completion.graph completion.examples :=
  ((orderly_ofAnalysis sources settings analysis auditor).turns sources settings schedule).finish
    sources settings

end Examination

namespace Auditor

/-- Whether a request gets as far as to be examined: the auditor is open and the script is one. -/
def Admits (auditor : Auditor σ τ) (script path : String) : Prop :=
  auditor.closed = false ∧ ∃ analysis, Analysis.ofScript script path = .ok analysis

/-- A closed auditor examines nothing. -/
theorem not_admits_of_closed {auditor : Auditor σ τ} (hclosed : auditor.closed = true)
    (script path : String) : ¬auditor.Admits script path := by
  rintro ⟨hopen, -⟩
  rw [hclosed] at hopen
  cases hopen

/-- A text that is no script is not examined. -/
theorem not_admits_of_unparsable (auditor : Auditor σ τ) {script path : String}
    {error : ParseError} (hscript : Analysis.ofScript script path = .error error) :
    ¬auditor.Admits script path := by
  rintro ⟨-, analysis, hanalysis⟩
  rw [hscript] at hanalysis
  cases hanalysis

/-- A graph that knows nothing. -/
def blankGraph : KnowledgeGraph Unit where
  findSymbol _ _ state := ⟨.ok .missing, state, false⟩
  findMethodSignature _ _ state := ⟨.ok none, state, false⟩
  findFunctionSignature _ _ state := ⟨.ok none, state, false⟩
  close := id

/-- The script gets as far as to be examined. -/
theorem admits_importScript :
    (fresh () () : Auditor Unit Unit).Admits "import numpy\n" "arrays.py" := by
  have hscript : (Analysis.ofScript "import numpy\n" "arrays.py").isOk = true := by decide +kernel
  cases hanalysis : Analysis.ofScript "import numpy\n" "arrays.py" with
  | error error =>
    rw [hanalysis] at hscript
    cases hscript
  | ok analysis => exact ⟨rfl, analysis, hanalysis⟩

end Auditor

end UsageAudit
