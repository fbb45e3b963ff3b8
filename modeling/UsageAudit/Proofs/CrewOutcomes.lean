import UsageAudit.Engagement
import UsageAudit.Proofs.CrewSteps
import UsageAudit.Proofs.Inquiry
import UsageAudit.Proofs.Rows

/-!
# What a crew comes to

What a task comes to may depend on the states that it meets with and on what was noted by then. If it
fits whatever becomes of the states in between, as long as every step of every task leaves them good,
then it fits under any schedule: each job comes to what fits its task, and so does the problem that is
reported first.
-/

namespace UsageAudit

variable {σ α β ι : Type}

/-- Whether what may be come to goes on to fit when more is noted, and a cancelled request may be
stopped. -/
structure Lasting (fits : Log → Except Problem β → Prop) : Prop where
  later : ∀ {log later : Log} {outcome : Except Problem β}, log.Before later → fits log outcome →
    fits later outcome
  stopped : ∀ {log : Log}, log.cancelled = true → fits log (.error .cancelled)

namespace Task

/-- Whether a task comes to what fits, and leaves the states good as long as all steps of others
do. -/
def Meets (good : σ → Prop) (fits : Log → Except Problem β → Prop) : Task σ β → Log → Prop
  | .done outcome, log => fits log outcome
  | .change update next, log =>
    ∀ state, good state → good (update state) ∧ (next state).Meets good fits log
  | .call asked ask next, log =>
    ∀ state, good state → good (ask state).state ∧
      (next state).Meets good fits (log.note ((ask state).call asked))

variable {good : σ → Prop} {fits : Log → Except Problem β → Prop}

/-- What a task comes to goes on to fit when more is noted. -/
theorem Meets.later (hlasting : Lasting fits) {task : Task σ β} {log later : Log}
    (h : task.Meets good fits log) (hlog : log.Before later) : task.Meets good fits later := by
  induction task generalizing log later with
  | done outcome => exact hlasting.later hlog h
  | change update next ih =>
    intro state hstate
    exact ⟨(h state hstate).1, ih state (h state hstate).2 hlog⟩
  | call asked ask next ih =>
    intro state hstate
    exact ⟨(h state hstate).1, ih state (h state hstate).2 (hlog.note_note _)⟩

/-- Whether what is done with the value of another task comes to what fits, or the problem of that task
does. -/
def MeetsAfter (good : σ → Prop) (fits : Log → Except Problem β → Prop) (rest : α → Task σ β)
    (log : Log) : Except Problem α → Prop
  | .ok value => (rest value).Meets good fits log
  | .error problem => fits log (.error problem)

/-- One task after the other comes to what fits if the second one does whatever the first one has come
to. -/
theorem Meets.bind {first : Task σ α} {rest : α → Task σ β} {log : Log}
    (h : first.Meets good (MeetsAfter good fits rest) log) :
    (first >>= rest).Meets good fits log := by
  show (first.andThen rest).Meets good fits log
  induction first generalizing log with
  | done outcome => cases outcome <;> exact h
  | change update next ih =>
    intro state hstate
    exact ⟨(h state hstate).1, ih state (h state hstate).2⟩
  | call asked ask next ih =>
    intro state hstate
    exact ⟨(h state hstate).1, ih state (h state hstate).2⟩

end Task

/-- What has come to a problem is that problem. -/
theorem error_of_problem? {outcome : Except Problem β} {problem : Problem}
    (h : problem? outcome = some problem) : outcome = .error problem := by
  cases outcome <;> simp_all [problem?]

/-- What is left to be done for a job. -/
def Job.left : Job σ β → Task σ β
  | .waiting task | .running task => task
  | .calling asked ask next => .call asked ask next
  | .ended outcome => .done outcome

namespace Crew

section Noted

variable {before behind : List (Job σ β)} {job job' : Job σ β} {problem : Option Problem}

/-- A job that goes on, and has not come to its end, leaves no problem to be reported. -/
theorem noted_replace
    (h : ∀ reason, Job.ended (.error reason) ∈ before ++ job :: behind → problem.isSome)
    (hover : ∀ outcome, job' ≠ .ended outcome) (reason : Problem)
    (hmem : Job.ended (.error reason) ∈ before ++ job' :: behind) : problem.isSome := by
  refine h reason ?_
  simp only [List.mem_append, List.mem_cons] at hmem ⊢
  exact hmem.imp_right fun hmem => hmem.imp_left fun heq => absurd heq.symm (hover _)

/-- A worker who is done with a job reports the problem, if it has come to one. -/
theorem noted_report {outcome : Except Problem β}
    (h : ∀ reason, Job.ended (.error reason) ∈ before ++ job :: behind → problem.isSome)
    (reason : Problem) (hmem : Job.ended (.error reason) ∈ before ++ .ended outcome :: behind) :
    (problem.or (problem? outcome)).isSome := by
  rw [Option.isSome_or, Bool.or_eq_true]
  simp only [List.mem_append, List.mem_cons] at hmem
  rcases hmem with hmem | heq | hmem
  · exact Or.inl (h reason (by simp [hmem]))
  · cases heq
    exact Or.inr rfl
  · exact Or.inl (h reason (by simp [hmem]))

end Noted

/-- Whether each job of a crew comes to what fits the member of a row that it is for. -/
structure Meets (good : σ → Prop) (fits : ι → Log → Except Problem β → Prop) (members : List ι)
    (crew : Crew σ β) (log : Log) : Prop where
  jobs : List.Forall₂ (fun member job => job.left.Meets good (fits member) log) members crew.jobs
  /-- The problem that was reported is that of a job. -/
  reported : ∀ problem, crew.problem = some problem →
    ∃ member ∈ members, fits member log (.error problem)
  /-- A job that has come to a problem was reported. -/
  noted : ∀ problem, Job.ended (.error problem) ∈ crew.jobs → crew.problem.isSome

variable {good : σ → Prop} {fits : ι → Log → Except Problem β → Prop} {members : List ι}
  {workers : Nat} {crew after : Crew σ β} {place next : Workplace σ} {log log' : Log}

/-- A crew that has taken up nothing comes to what its tasks come to. -/
theorem meets_ofTasks {task : ι → Task σ β}
    (h : ∀ member ∈ members, (task member).Meets good (fits member) log) :
    (ofTasks (members.map task)).Meets good fits members log where
  jobs := by
    rw [ofTasks, List.map_map, List.forall₂_map_right_iff]
    exact List.forall₂_same.mpr h
  reported problem hproblem := by cases hproblem
  noted problem hmem := by simp [ofTasks] at hmem

/-- A crew that has nothing to do comes to nothing. -/
theorem meets_nil : (ofTasks [] : Crew σ β).Meets good fits [] log where
  jobs := .nil
  reported problem hproblem := by cases hproblem
  noted problem hmem := by cases hmem

/-- What jobs come to goes on to fit when more is noted. -/
theorem Meets.later (hlasting : ∀ member, Lasting (fits member))
    (h : crew.Meets good fits members log) (hlog : log.Before log') :
    crew.Meets good fits members log' where
  jobs := h.jobs.imp fun member _ hjob => hjob.later (hlasting member) hlog
  reported problem hproblem := by
    obtain ⟨member, hmem, hfits⟩ := h.reported problem hproblem
    exact ⟨member, hmem, (hlasting member).later hlog hfits⟩
  noted := h.noted

/-- A move of a crew in which only what is left of a job goes on leaves the others as they are. -/
theorem Meets.replace {before behind : List (Job σ β)} {job job' : Job σ β}
    {problem : Option Problem} (hlasting : ∀ member, Lasting (fits member))
    (h : Meets good fits members ⟨before ++ job :: behind, problem⟩ log) (hlog : log.Before log')
    (hjob : ∀ member, job.left.Meets good (fits member) log →
      job'.left.Meets good (fits member) log')
    (hover : ∀ outcome, job' ≠ .ended outcome) :
    Meets good fits members ⟨before ++ job' :: behind, problem⟩ log' where
  jobs := by
    obtain ⟨first, member, rest, hmembers, hbefore, hmember, hbehind⟩ := forall₂_split.mp h.jobs
    have hother : ∀ member (job : Job σ β), job.left.Meets good (fits member) log →
        job.left.Meets good (fits member) log' :=
      fun member _ hjob => hjob.later (hlasting member) hlog
    exact forall₂_split.mpr ⟨first, member, rest, hmembers, hbefore.imp hother,
      hjob member hmember, hbehind.imp hother⟩
  reported := (h.later hlasting hlog).reported
  noted := noted_replace h.noted hover

/-- What jobs come to fits after every move, and the state is left good. -/
theorem Step.meets (hlasting : ∀ member, Lasting (fits member))
    (hstep : Step workers crew place after next) (hgood : good place.state)
    (h : crew.Meets good fits members place.toLog) :
    good next.state ∧ after.Meets good fits members next.toLog := by
  cases hstep with
  | idle => exact ⟨hgood, h⟩
  | taken before behind task place free =>
    exact ⟨hgood, h.replace hlasting (.refl _) (fun _ hjob => hjob) (by simp)⟩
  | changed before behind problem update next place =>
    obtain ⟨first, member, rest, -, -, hmember, -⟩ := forall₂_split.mp h.jobs
    exact ⟨(hmember place.state hgood).1,
      h.replace hlasting (.refl _) (fun _ hjob => (hjob place.state hgood).2) (by simp)⟩
  | stopped before behind problem asked ask next place fired =>
    exact ⟨hgood, h.replace hlasting (.refl _)
      (fun member _ => (hlasting member).stopped fired) (by simp)⟩
  | called before behind problem asked ask next place live =>
    exact ⟨hgood, h.replace hlasting (.refl _) (fun _ hjob => hjob) (by simp)⟩
  | answered before behind problem asked ask next place =>
    obtain ⟨first, member, rest, -, -, hmember, -⟩ := forall₂_split.mp h.jobs
    exact ⟨(hmember place.state hgood).1,
      h.replace hlasting (.note _ _) (fun _ hjob => (hjob place.state hgood).2) (by simp)⟩
  | reported before behind problem outcome place =>
    obtain ⟨first, member, rest, hmembers, hbefore, hmember, hbehind⟩ := forall₂_split.mp h.jobs
    refine ⟨hgood, forall₂_split.mpr ⟨first, member, rest, hmembers, hbefore, hmember, hbehind⟩,
      ?_, noted_report h.noted⟩
    intro reason hreason
    rcases Option.or_eq_some_iff.mp hreason with hreason | ⟨-, hreason⟩
    · exact h.reported reason hreason
    · obtain rfl := error_of_problem? hreason
      exact ⟨member, by simp [hmembers], hmember⟩

/-- The values that a crew comes to fit the members of the row one by one. -/
theorem Meets.values (h : crew.Meets good fits members log) {values : List β}
    (houtcome : crew.outcome? = some (.ok values)) :
    List.Forall₂ (fun member value => fits member log (.ok value)) members values := by
  obtain ⟨jobs, problem⟩ := crew
  simp only [outcome?, Option.ite_none_right_eq_some, Option.some.injEq] at houtcome
  obtain ⟨hover, hvalues⟩ := houtcome
  cases problem with
  | some problem => simp at hvalues
  | none =>
    simp only [Except.ok.injEq] at hvalues
    subst hvalues
    have hnoted : ∀ problem, Job.ended (.error problem) ∉ jobs :=
      fun problem hmem => by simpa using h.noted problem hmem
    have hjobs : List.Forall₂ _ members jobs := h.jobs
    simp only [isOver, Option.isSome_none, Bool.false_or] at hover
    clear h
    induction hjobs with
    | nil => exact .nil
    | @cons member job members jobs hjob _ ih =>
      simp only [List.all_cons, Bool.and_eq_true] at hover
      simp only [List.mem_cons, not_or] at hnoted
      have hrest := ih (fun problem => (hnoted problem).2) hover.2
      cases job with
      | ended outcome =>
        cases outcome with
        | ok value => exact .cons hjob hrest
        | error problem => exact absurd rfl (hnoted problem).1
      | waiting task => simp [Job.isBusy, Job.isWaiting] at hover
      | running task => simp [Job.isBusy] at hover
      | calling asked ask next => simp [Job.isBusy] at hover

/-- The problem that a crew comes to fits a member of the row. -/
theorem Meets.problem (h : crew.Meets good fits members log) {problem : Problem}
    (houtcome : crew.outcome? = some (.error problem)) :
    ∃ member ∈ members, fits member log (.error problem) := by
  simp only [outcome?, Option.ite_none_right_eq_some, Option.some.injEq] at houtcome
  cases hproblem : crew.problem with
  | none => simp [hproblem] at houtcome
  | some reason =>
    simp only [hproblem, Except.error.injEq] at houtcome
    obtain ⟨-, rfl⟩ := houtcome
    exact h.reported reason hproblem

end Crew

namespace Task

variable {τ : Type} {good : Auditor σ τ → Prop}

/-- A lookup comes to what fits if all that the cache holds and all that the graph replies does, and
leaves states good if the cache and the graph do. -/
theorem meets_lookup {graph : KnowledgeGraph σ} {question : Question} {log : Log}
    {fits : Log → Except Problem (Fetch question.Answer) → Prop}
    (hread : ∀ auditor, good auditor →
      good { auditor with cache := (question.read auditor.cache).2 } ∧
        ∀ answer, (question.read auditor.cache).1 = some answer → fits log (.ok (.cached answer)))
    (hreply : ∀ auditor, good auditor →
      let reply := graph.onAuditor question auditor
      let later := log.note (reply.bare.call (.symbol question))
      good reply.state ∧ match reply.answer with
        | .ok answer => ∀ auditor, good auditor →
          good { auditor with cache := (question.keep answer auditor.cache).2 } ∧
            fits later (.ok (.fresh (question.keep answer auditor.cache).1))
        | .error (.malformed reason) => fits later (.ok (.malformed reason))
        | .error (.unavailable reason) => fits later (.error (.unavailable reason))) :
    (lookup graph question).Meets good fits log := by
  refine Meets.bind fun auditor hauditor => ⟨(hread auditor hauditor).1, ?_⟩
  show MeetsAfter good fits _ log (.ok (question.read auditor.cache).1)
  cases hfirst : (question.read auditor.cache).1 with
  | some answer => exact (hread auditor hauditor).2 answer hfirst
  | none =>
    refine Meets.bind fun auditor hauditor => ⟨(hread auditor hauditor).1, ?_⟩
    show MeetsAfter good fits _ log (.ok (question.read auditor.cache).1)
    cases hsecond : (question.read auditor.cache).1 with
    | some answer => exact (hread auditor hauditor).2 answer hsecond
    | none =>
      refine Meets.bind fun auditor hauditor => ?_
      obtain ⟨hstate, hanswer⟩ := hreply auditor hauditor
      refine ⟨hstate, ?_⟩
      rcases hreplied : (graph.onAuditor question auditor).answer with
        (reason | reason) | answer <;> simp only [hreplied] at hanswer ⊢
      · exact hanswer
      · exact hanswer
      · exact Meets.bind fun auditor hauditor => hanswer auditor hauditor

/-- What looks an answer up first comes to what fits if all that it then goes on with does. -/
theorem meets_run_ask {graph : KnowledgeGraph σ} {question : Question}
    {next : Fetch question.Answer → Inquiry β} {log : Log} {fits : Log → Except Problem β → Prop}
    (h : (lookup graph question).Meets good
      (MeetsAfter good fits fun fetch => (next fetch).run (lookups graph)) log) :
    ((Inquiry.ask question next).run (lookups graph)).Meets good fits log := by
  have hask : (lookups (τ := τ) graph).ask question = lookup graph question := by
    cases question <;> rfl
  rw [Inquiry.run, hask]
  exact .bind h

end Task

namespace Engagement

variable {τ : Type} (settings : Settings α) {good : Auditor σ τ → Prop}
  {graphFits : Target → Log → Except Problem (Check α) → Prop}
  {exampleFits : ElementRef × String → Log → Except Problem (Grounding α) → Prop}

/-- Whether the auditor is left in a good state, and the jobs of both crews come to what fits. -/
structure Meets (good : Auditor σ τ → Prop)
    (graphFits : Target → Log → Except Problem (Check α) → Prop)
    (exampleFits : ElementRef × String → Log → Except Problem (Grounding α) → Prop)
    (targets : List Target) (engagement : Engagement α σ τ) : Prop where
  state : good engagement.place.state
  graph : engagement.graph.Meets good graphFits targets engagement.place.toLog
  examples : ∃ jobs, engagement.examples.Meets good exampleFits jobs engagement.place.toLog

/-- What the jobs of both crews come to fits whatever happens. -/
theorem Meets.move {targets : List Target} {engagement : Engagement α σ τ}
    (hgraph : ∀ target, Lasting (graphFits target)) (hexamples : ∀ job, Lasting (exampleFits job))
    (h : engagement.Meets good graphFits exampleFits targets) (move : Move) :
    (engagement.move settings move).Meets good graphFits exampleFits targets := by
  obtain ⟨hstate, hgraphMeets, jobs, hexamplesMeets⟩ := h
  cases move with
  | graph index =>
    have hstep := Crew.step_move settings.crewSize engagement.graph engagement.place index
    obtain ⟨hstate', hgraphMeets'⟩ := hstep.meets hgraph hstate hgraphMeets
    exact ⟨hstate', hgraphMeets', jobs, hexamplesMeets.later hexamples hstep.log⟩
  | examples index =>
    have hstep := Crew.step_move settings.crewSize engagement.examples engagement.place index
    obtain ⟨hstate', hexamplesMeets'⟩ := hstep.meets hexamples hstate hexamplesMeets
    exact ⟨hstate', hgraphMeets.later hgraph hstep.log, jobs, hexamplesMeets'⟩
  | cancel =>
    have hlog := Log.Before.cancel engagement.place
    exact ⟨hstate, hgraphMeets.later hgraph hlog, jobs, hexamplesMeets.later hexamples hlog⟩

/-- What the jobs of both crews come to fits at any time if it does for the tasks by themselves. -/
theorem meets_moves [Scalar α] {sources : Sources α σ τ} {analysis : Analysis}
    {auditor : Auditor σ τ} (hgraph : ∀ target, Lasting (graphFits target))
    (hexamples : ∀ job, Lasting (exampleFits job)) (hauditor : good auditor)
    (hcheck : ∀ target ∈ analysis.plan.targets,
      (GraphCheck.checkTarget (Task.lookups sources.graph) settings target).Meets good
        (graphFits target) ⟨false, []⟩)
    (hground : ∀ (index : ExampleIndex α τ) (job : ElementRef × String),
      (Task.ground index settings job.1 job.2).Meets good (exampleFits job) ⟨false, []⟩)
    (schedule : List Move) :
    ((ofAnalysis sources settings analysis auditor).moves settings schedule).Meets good graphFits
      exampleFits analysis.plan.targets := by
  have hexampleCrew : ∃ jobs, (ExampleSearch.crew sources.examples settings analysis).Meets good
      exampleFits jobs ⟨false, []⟩ := by
    unfold ExampleSearch.crew
    split
    · split
      · exact ⟨_, Crew.meets_ofTasks fun job _ => hground _ job⟩
      · exact ⟨[], Crew.meets_nil⟩
    · exact ⟨[], Crew.meets_nil⟩
  have hstart : (ofAnalysis sources settings analysis auditor).Meets good graphFits exampleFits
      analysis.plan.targets := ⟨hauditor, Crew.meets_ofTasks hcheck, hexampleCrew⟩
  have hmoves (engagement : Engagement α σ τ)
      (h : engagement.Meets good graphFits exampleFits analysis.plan.targets) :
      (engagement.moves settings schedule).Meets good graphFits exampleFits
        analysis.plan.targets := by
    induction schedule generalizing engagement with
    | nil => exact h
    | cons move rest ih => exact ih _ (h.move settings hgraph hexamples move)
  exact hmoves _ hstart

end Engagement

end UsageAudit
