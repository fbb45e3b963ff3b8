import UsageAudit.Engagement
import UsageAudit.Proofs.CrewOutcomes
import UsageAudit.Proofs.CrewSteps

/-!
# What workers find

The workers of the example side make one search for each usage, in any order. What the index answers
depends on the searches before, and these are known from the calls. This file says what a crew has
gathered at any time of a request that is not cancelled: each search that was made is that of one
usage, which is grounded by its answer, and a problem was reported if the index was lost for one of
them.
-/

namespace UsageAudit

variable {α σ τ : Type}

/-- A search that was made, with the answer. -/
structure SearchRecord (α : Type) where
  query : String
  /-- How many examples were asked for. -/
  count : Nat
  /-- How similar they had to be. -/
  least : α
  answer : Except SourceFault (List (Hit α))

/-- Why the index could not be reached, if it could not. -/
def SearchRecord.lost? (search : SearchRecord α) : Option String :=
  match search.answer with
  | .error (.unavailable reason) => some reason
  | .error (.malformed _) | .ok _ => none

/-- The fault that was answered, if it was one. -/
def SearchRecord.fault (search : SearchRecord α) : Option SourceFault :=
  match search.answer with
  | .ok _ => none
  | .error fault => some fault

namespace ExampleIndex

variable (index : ExampleIndex α τ) (settings : Settings α)

/-- The search for a query. -/
def record (state : τ) (query : String) : SearchRecord α :=
  ⟨query, settings.topK, settings.minSimilarity,
    (index.search query settings.topK settings.minSimilarity state).answer⟩

/-- The searches for some queries one after the other, beginning in a state. -/
def records (state : τ) : List String → List (SearchRecord α)
  | [] => []
  | query :: rest =>
    index.record settings state query :: records
      (index.search query settings.topK settings.minSimilarity state).state rest

/-- The state of the index after these searches. -/
def stateAfter (state : τ) (queries : List String) : τ :=
  queries.foldl (fun state query =>
    (index.search query settings.topK settings.minSimilarity state).state) state

/-- Further searches begin in the state that those before them have left. -/
theorem records_append (state : τ) (queries further : List String) :
    index.records settings state (queries ++ further) = index.records settings state queries ++
      index.records settings (index.stateAfter settings state queries) further := by
  induction queries generalizing state with
  | nil => rfl
  | cons first rest ih => simp only [List.cons_append, records, ih, stateAfter, List.foldl_cons]

end ExampleIndex

/-- What was searched for, the latest last. -/
def Log.searched (log : Log) : List String :=
  log.calls.reverse.filterMap fun call =>
    match call.asked with
    | .examples query => some query
    | .symbol _ => none

section Gathering

variable [Scalar α] (index : ExampleIndex α τ) (settings : Settings α)

/-- What the answer to a search makes of a usage. -/
def SearchRecord.outcome (element : ElementRef) (search : SearchRecord α) :
    Except Problem (Grounding α) :=
  match search.answer with
  | .ok hits => .ok (Grounding.classify settings element search.query hits)
  | .error (.malformed reason) => .ok (.malformed element search.query reason)
  | .error (.unavailable reason) => .error (.degraded reason)

/-- A search comes to a problem if the index was lost. -/
theorem SearchRecord.outcome_eq_error_iff {element : ElementRef} {search : SearchRecord α}
    {problem : Problem} :
    search.outcome settings element = .error problem ↔
      ∃ reason, search.lost? = some reason ∧ problem = .degraded reason := by
  unfold outcome lost?
  rcases search.answer with (reason | reason) | hits <;> simp [eq_comm]

/-- How far the job of a usage has got: there was no search for it, or one by whose answer it comes to
its end. -/
def Job.At (element : ElementRef) (query : String) (job : Job (Auditor σ τ) (Grounding α)) :
    Option (SearchRecord α) → Prop
  | none => job.left = Task.ground index settings element query
  | some search => job.isWaiting = false ∧ (∃ state, search = index.record settings state query) ∧
      job.left = .done (search.outcome settings element)

/-- A usage with the query for it and the search that was made. -/
abbrev SearchRow (α : Type) := (ElementRef × String) × Option (SearchRecord α)

/-- What a crew has gathered for usages by searches that began in a state of the index. -/
structure Crew.Gathered (start : τ) (rows : List (SearchRow α))
    (crew : Crew (Auditor σ τ) (Grounding α)) (place : Workplace (Auditor σ τ)) : Prop where
  jobs : List.Forall₂ (fun row job => job.At index settings row.1.1 row.1.2 row.2) rows crew.jobs
  /-- The searches are those for the usages. -/
  searches : (index.records settings start place.searched).Perm (rows.filterMap Prod.snd)
  state : place.state.examples = index.stateAfter settings start place.searched
  /-- The calls are these searches. -/
  calls : place.calls.reverse.map (fun call => (call.asked, call.fault)) =
    (index.records settings start place.searched).map fun search =>
      (.examples search.query, search.fault)
  /-- A problem that was reported is that of a search for which the index was lost. -/
  reported : ∀ problem, crew.problem = some problem →
    ∃ search reason, search ∈ index.records settings start place.searched ∧
      search.lost? = some reason ∧ problem = .degraded reason
  /-- A job that has come to a problem was reported. -/
  noted : ∀ problem, Job.ended (.error problem) ∈ crew.jobs → crew.problem.isSome

namespace Crew

variable {index settings} {start : τ} {rows : List (SearchRow α)} {workers : Nat}
  {crew after : Crew (Auditor σ τ) (Grounding α)} {place next : Workplace (Auditor σ τ)}

/-- What a crew has gathered, when only the job of one usage goes on and no call is answered. -/
theorem Gathered.replace {before behind : List (Job (Auditor σ τ) (Grounding α))}
    {job job' : Job (Auditor σ τ) (Grounding α)} {problem : Option Problem}
    (h : Gathered index settings start rows ⟨before ++ job :: behind, problem⟩ place)
    (hleft : job'.left = job.left) (hwaiting : job'.isWaiting = false)
    (hover : ∀ outcome, job' ≠ .ended outcome) :
    Gathered index settings start rows ⟨before ++ job' :: behind, problem⟩ place where
  jobs := by
    obtain ⟨first, row, rest, hrows, hbefore, hrow, hbehind⟩ := forall₂_split.mp h.jobs
    refine forall₂_split.mpr ⟨first, row, rest, hrows, hbefore, ?_, hbehind⟩
    obtain ⟨job, _ | search⟩ := row
    · exact hleft.trans hrow
    · exact ⟨hwaiting, hrow.2.1, hleft.trans hrow.2.2⟩
  searches := h.searches
  state := h.state
  calls := h.calls
  reported := h.reported
  noted := noted_replace h.noted hover

/-- A search that is answered is one more. -/
theorem searched_answer (place : Workplace (Auditor σ τ)) (query : String)
    (ask : Auditor σ τ → Reply (Auditor σ τ) Unit) :
    (place.answer (.examples query) ask).searched = place.searched ++ [query] := by
  simp [Workplace.answer, Log.searched, Log.note, Reply.call]

/-- What a crew has gathered once the search for a usage is answered. -/
theorem Gathered.answer {before behind : List (Job (Auditor σ τ) (Grounding α))} {asked : Asked}
    {ask : Auditor σ τ → Reply (Auditor σ τ) Unit}
    {continuation : Auditor σ τ → Task (Auditor σ τ) (Grounding α)} {problem : Option Problem}
    (h : Gathered index settings start rows
      ⟨before ++ .calling asked ask continuation :: behind, problem⟩ place) :
    ∃ rows', rows'.map Prod.fst = rows.map Prod.fst ∧
      Gathered index settings start rows'
        ⟨before ++ .running (continuation place.state) :: behind, problem⟩
        (place.answer asked ask) := by
  obtain ⟨first, ⟨⟨element, query⟩, _ | search⟩, rest, rfl, hbefore, hrow, hbehind⟩ :=
    forall₂_split.mp h.jobs
  · obtain ⟨rfl, rfl, rfl⟩ := Task.call.inj hrow
    have hrecords : index.records settings start (place.searched ++ [query]) =
        index.records settings start place.searched ++
          [index.record settings place.state.examples query] := by
      rw [ExampleIndex.records_append, ← h.state]
      rfl
    refine ⟨first ++ ((element, query),
      some (index.record settings place.state.examples query)) :: rest, by simp, ?_⟩
    constructor
    · refine forall₂_split.mpr ⟨_, _, _, rfl, hbefore, ⟨rfl, ⟨_, rfl⟩, ?_⟩, hbehind⟩
      simp only [Job.left, SearchRecord.outcome, ExampleIndex.record, ExampleIndex.onAuditor]
      rcases (index.search query settings.topK settings.minSimilarity
        place.state.examples).answer with (reason | reason) | hits <;> rfl
    · rw [searched_answer, hrecords]
      have hsearches := h.searches.append_right [index.record settings place.state.examples query]
      refine hsearches.trans ?_
      simp only [List.filterMap_append, List.filterMap_cons]
      rw [List.append_assoc]
      exact (List.perm_append_singleton _ _).append_left _
    · rw [searched_answer]
      simp only [ExampleIndex.stateAfter, List.foldl_append, List.foldl_cons, List.foldl_nil]
      rw [← ExampleIndex.stateAfter, ← h.state]
      rfl
    · rw [searched_answer, hrecords, List.map_append, ← h.calls]
      simp only [Workplace.answer, Log.note, List.reverse_cons, List.map_append, Reply.call,
        Reply.bare, ExampleIndex.onAuditor, ExampleIndex.record, SearchRecord.fault, List.map_cons,
        List.map_nil]
      rcases (index.search query settings.topK settings.minSimilarity
        place.state.examples).answer with fault | hits <;> rfl
    · intro reason hreason
      obtain ⟨search, text, hmem, hlost⟩ := h.reported reason hreason
      rw [searched_answer, hrecords]
      exact ⟨search, text, List.mem_append_left _ hmem, hlost⟩
    · exact noted_replace h.noted (by simp)
  · cases hrow.2.2

/-- What a crew has gathered once a worker reports what has come of a job. -/
theorem Gathered.report {before behind : List (Job (Auditor σ τ) (Grounding α))}
    {outcome : Except Problem (Grounding α)} {problem : Option Problem}
    (h : Gathered index settings start rows ⟨before ++ .running (.done outcome) :: behind, problem⟩
      place) :
    Gathered index settings start rows
      ⟨before ++ .ended outcome :: behind, problem.or (problem? outcome)⟩ place := by
  obtain ⟨first, ⟨⟨element, query⟩, _ | search⟩, rest, rfl, hbefore, hrow, hbehind⟩ :=
    forall₂_split.mp h.jobs
  · cases hrow
  · refine ⟨forall₂_split.mpr ⟨_, _, _, rfl, hbefore, ⟨rfl, hrow.2⟩, hbehind⟩,
      h.searches, h.state, h.calls, ?_, noted_report h.noted⟩
    intro reason hreason
    rcases Option.or_eq_some_iff.mp hreason with hreason | ⟨-, hreason⟩
    · exact h.reported reason hreason
    · obtain rfl := error_of_problem? hreason
      obtain ⟨text, hlost, rfl⟩ :=
        (SearchRecord.outcome_eq_error_iff settings).mp (Task.done.inj hrow.2.2).symm
      exact ⟨search, text, h.searches.mem_iff.mpr (by simp), hlost, rfl⟩

/-- What a crew has gathered after a move of a request that still stands. -/
theorem Step.gathered (hstep : Step workers crew place after next) (hlive : next.cancelled = false)
    (h : crew.Gathered index settings start rows place) :
    ∃ rows', rows'.map Prod.fst = rows.map Prod.fst ∧
      after.Gathered index settings start rows' next := by
  cases hstep with
  | idle => exact ⟨rows, rfl, h⟩
  | taken before behind task place free =>
    exact ⟨rows, rfl, h.replace rfl rfl (by simp)⟩
  | changed before behind problem update next place =>
    obtain ⟨-, ⟨job, _ | search⟩, -, -, -, hrow, -⟩ := forall₂_split.mp h.jobs
    · cases hrow
    · cases hrow.2.2
  | stopped before behind problem asked ask next place fired => simp [fired] at hlive
  | called before behind problem asked ask next place live =>
    exact ⟨rows, rfl, h.replace rfl rfl (by simp)⟩
  | answered before behind problem asked ask next place => exact h.answer
  | reported before behind problem outcome place => exact ⟨rows, rfl, h.report⟩

/-- What a crew has gathered after any moves of a request that still stands. -/
theorem Gathered.moves (h : crew.Gathered index settings start rows place) (schedule : List Nat)
    (hlive : (crew.moves workers place schedule).2.cancelled = false) :
    ∃ rows', rows'.map Prod.fst = rows.map Prod.fst ∧
      (crew.moves workers place schedule).1.Gathered index settings start rows'
        (crew.moves workers place schedule).2 := by
  induction schedule generalizing crew place rows with
  | nil => exact ⟨rows, rfl, h⟩
  | cons number rest ih =>
    have hstep := step_move workers crew place number
    have hbetween := live_of_moves_cons hlive
    obtain ⟨rows', hrows', hgathered⟩ := hstep.gathered hbetween h
    obtain ⟨rows'', hrows'', hend⟩ := ih hgathered hlive
    exact ⟨rows'', hrows''.trans hrows', hend⟩

/-- What becomes of a crew, and of the searches, once a problem was reported: no job is taken up, and
no more calls are made than were due. -/
structure Closing (crew after : Crew (Auditor σ τ) (Grounding α))
    (place later : Workplace (Auditor σ τ)) : Prop where
  problem : after.problem.isSome
  waiting : after.jobs.map Job.isWaiting = crew.jobs.map Job.isWaiting
  searched : ∃ more, later.searched = place.searched ++ more ∧ more.length + after.due ≤ crew.due

/-- What becomes of a crew in a move once a problem was reported. -/
theorem Step.closing (hstep : Step workers crew place after next) (hlive : next.cancelled = false)
    (h : crew.Gathered index settings start rows place) (hproblem : crew.problem.isSome) :
    crew.Closing after place next := by
  cases hstep with
  | idle => exact ⟨hproblem, rfl, [], by simp, by simp⟩
  | taken => cases hproblem
  | stopped before behind problem asked ask next place fired => simp [fired] at hlive
  | changed before behind problem update next place =>
    obtain ⟨-, ⟨job, _ | search⟩, -, -, -, hrow, -⟩ := forall₂_split.mp h.jobs
    · cases hrow
    · cases hrow.2.2
  | called before behind problem asked ask next place live =>
    exact ⟨hproblem, by simp [Job.isWaiting], [], by simp, by simp [due, Job.isDue, List.countP_cons]⟩
  | reported before behind problem outcome place =>
    exact ⟨by simp_all, by simp [Job.isWaiting], [], by simp, by simp [due, Job.isDue]⟩
  | answered before behind problem asked ask next place =>
    obtain ⟨first, ⟨⟨element, query⟩, _ | search⟩, rest, rfl, -, hrow, -⟩ :=
      forall₂_split.mp h.jobs
    · obtain ⟨rfl, rfl, rfl⟩ := Task.call.inj hrow
      refine ⟨hproblem, by simp [Job.isWaiting], [query], searched_answer place query _, ?_⟩
      simp only [due, List.countP_append, List.countP_cons, Job.isDue]
      rcases (index.onAuditor settings query place.state).answer with (reason | reason) | hits <;>
        simp <;> omega
    · cases hrow.2.2

/-- Once a crew has done all jobs and reported no problem, each usage has a search and a value by its
answer. -/
theorem Gathered.made (h : crew.Gathered index settings start rows place) (hover : crew.isOver = true)
    (hnone : crew.problem = none) :
    let made := rows.filterMap Prod.snd
    let values := crew.jobs.filterMap Job.value?
    made.length = rows.length ∧ values.length = rows.length ∧
      List.Forall₂ (fun job result => (∃ state, result.1 = index.record settings state job.2) ∧
        result.1.outcome settings job.1 = .ok result.2) (rows.map Prod.fst) (made.zip values) := by
  have hnoted : ∀ problem, Job.ended (.error problem) ∉ crew.jobs :=
    fun problem hmem => by simpa [hnone] using h.noted problem hmem
  have hjobs := h.jobs
  simp only [isOver, hnone, Option.isSome_none, Bool.false_or] at hover
  generalize crew.jobs = jobs at hjobs hnoted hover
  clear h
  induction hjobs with
  | nil => exact ⟨rfl, rfl, .nil⟩
  | @cons row job rows jobs hrow _ ih =>
    simp only [List.all_cons, Bool.and_eq_true] at hover
    simp only [List.mem_cons, not_or] at hnoted
    obtain ⟨hmade, hvalues, hall⟩ := ih (fun problem => (hnoted problem).2) hover.2
    cases job with
    | waiting task => simp [Job.isBusy, Job.isWaiting] at hover
    | running task => simp [Job.isBusy] at hover
    | calling asked ask next => simp [Job.isBusy] at hover
    | ended outcome =>
      obtain ⟨⟨element, query⟩, _ | search⟩ := row
      · cases hrow
      · obtain ⟨-, hsearch, hleft⟩ := hrow
        cases outcome with
        | error problem => exact absurd rfl (hnoted problem).1
        | ok value =>
          simp only [List.filterMap_cons, Job.value?, List.length_cons, List.map_cons,
            List.zip_cons_cons]
          exact ⟨by rw [hmade], by rw [hvalues], .cons ⟨hsearch, (Task.done.inj hleft).symm⟩ hall⟩

end Crew

end Gathering

end UsageAudit
