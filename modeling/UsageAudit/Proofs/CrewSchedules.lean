import UsageAudit.Proofs.CrewSteps

/-!
# Schedules of crews

Whatever a crew has done so far, some moves take it to its end. One way is to do one job after the
other, each without a break, and this is how the jobs of a row are done by a program without workers:
it is one of the schedules of any crew.
-/

namespace UsageAudit

variable {σ α β ι : Type}

namespace Task

/-- Tasks follow each other as the steps of a program do. -/
instance : LawfulMonad (Task σ) := LawfulMonad.mk' (Task σ)
  (by
    intro α task
    show task.andThen (fun value => .done (.ok value)) = task
    induction task with
    | done outcome => cases outcome <;> rfl
    | change update next ih => simp [andThen, ih]
    | call asked ask next ih => simp [andThen, ih])
  (by intro α β value rest; rfl)
  (by
    intro α β γ task rest further
    show (task.andThen rest).andThen further =
      task.andThen fun value => (rest value).andThen further
    induction task with
    | done outcome => cases outcome <;> rfl
    | change update next ih => simp [andThen, ih]
    | call asked ask next ih => simp [andThen, ih])

/-- Carries a task out without a break. -/
def run : Task σ β → Workplace σ → Except Problem β × Workplace σ
  | .done outcome, place => (outcome, place)
  | .change update next, place => (next place.state).run (place.change update)
  | .call asked ask next, place =>
    if place.cancelled then (.error .cancelled, place)
    else (next place.state).run (place.answer asked ask)

/-- A value is given without touching the workplace. -/
@[simp]
theorem run_pure (value : β) (place : Workplace σ) :
    (pure value : Task σ β).run place = (.ok value, place) := rfl

/-- A task starts from the workplace that the task before it left, unless that met with a problem. -/
theorem run_bind (task : Task σ α) (rest : α → Task σ β) (place : Workplace σ) :
    (task >>= rest).run place =
      match task.run place with
      | (.ok value, place) => (rest value).run place
      | (.error problem, place) => (.error problem, place) := by
  show (task.andThen rest).run place = _
  induction task generalizing place with
  | done outcome => cases outcome <;> rfl
  | change update next ih => exact ih place.state _
  | call asked ask next ih =>
    simp only [andThen, run]
    split
    · rfl
    · exact ih place.state _

end Task

/-- Whether something is left to be done for the job. -/
def Job.isOpen (job : Job σ β) : Bool := job.isBusy || job.isWaiting

namespace Crew

variable {workers : Nat}

/-- Moves made one schedule after the other. -/
theorem moves_append (crew : Crew σ β) (place : Workplace σ) (first second : List Nat) :
    crew.moves workers place (first ++ second) =
      (crew.moves workers place first).1.moves workers (crew.moves workers place first).2 second :=
  List.foldl_append

/-- One more move before the others. -/
theorem moves_cons (crew : Crew σ β) (place : Workplace σ) (index : Nat) (rest : List Nat) :
    crew.moves workers place (index :: rest) =
      (crew.move workers place index).1.moves workers (crew.move workers place index).2 rest := rfl

section OneJob

variable (workers) (before behind : List (Job σ β)) (problem : Option Problem)

/-- The worker at a job can do it to its end without a break. -/
theorem exists_moves_running (task : Task σ β) (place : Workplace σ) :
    ∃ schedule, moves workers ⟨before ++ .running task :: behind, problem⟩ place schedule =
      (⟨before ++ .ended (task.run place).1 :: behind, problem.or (problem? (task.run place).1)⟩,
        (task.run place).2) := by
  induction task generalizing place with
  | done outcome =>
    refine ⟨[before.length], ?_⟩
    rw [moves_cons, move_at]
    rfl
  | change update next ih =>
    obtain ⟨rest, hrest⟩ := ih place.state (place.change update)
    refine ⟨before.length :: rest, ?_⟩
    rw [moves_cons, move_at]
    exact hrest
  | call asked ask next ih =>
    cases hcancelled : place.cancelled with
    | true =>
      refine ⟨[before.length, before.length], ?_⟩
      rw [moves_cons, move_at, moves_cons]
      simp only [Job.move, hcancelled, if_true, move_at, Task.run]
      rfl
    | false =>
      obtain ⟨rest, hrest⟩ := ih place.state (place.answer asked ask)
      refine ⟨before.length :: before.length :: rest, ?_⟩
      rw [moves_cons, move_at, moves_cons]
      simp only [Job.move, hcancelled, Bool.false_eq_true, if_false, move_at, Task.run]
      exact hrest

/-- A worker who is free can take up a job that waits and do it to its end without a break. -/
theorem exists_moves_waiting (task : Task σ β) (place : Workplace σ)
    (hfree : busy ⟨before ++ .waiting task :: behind, none⟩ < workers) :
    ∃ schedule, moves workers ⟨before ++ .waiting task :: behind, none⟩ place schedule =
      (⟨before ++ .ended (task.run place).1 :: behind, problem? (task.run place).1⟩,
        (task.run place).2) := by
  obtain ⟨rest, hrest⟩ := exists_moves_running workers before behind none task place
  refine ⟨before.length :: rest, ?_⟩
  rw [moves_cons, move_at]
  simp only [Job.move, hfree, decide_true, Option.isNone_none, Bool.and_self, if_true]
  simpa using hrest

/-- The worker at a job can do it to its end. -/
theorem exists_moves_busy {job : Job σ β} (hjob : job.isBusy = true) (place : Workplace σ) :
    ∃ schedule outcome problem' place',
      moves workers ⟨before ++ job :: behind, problem⟩ place schedule =
        (⟨before ++ .ended outcome :: behind, problem'⟩, place') := by
  cases job with
  | waiting task => cases hjob
  | ended outcome => cases hjob
  | running task =>
    obtain ⟨schedule, hschedule⟩ :=
      exists_moves_running workers before behind problem task place
    exact ⟨schedule, _, _, _, hschedule⟩
  | calling asked ask next =>
    obtain ⟨rest, hrest⟩ := exists_moves_running workers before behind problem
      (next place.state) (place.answer asked ask)
    have hmoves : moves workers ⟨before ++ .calling asked ask next :: behind, problem⟩ place
        (before.length :: rest) = moves workers
          ⟨before ++ .running (next place.state) :: behind, problem⟩ (place.answer asked ask)
          rest := by
      rw [moves_cons, move_at]
      rfl
    exact ⟨_, _, _, _, hmoves.trans hrest⟩

end OneJob

/-- While a crew is not done, one of the open jobs can be done to its end. -/
theorem exists_moves_open (hworkers : 0 < workers) {jobs : List (Job σ β)}
    {problem : Option Problem} (hover : isOver ⟨jobs, problem⟩ = false) (place : Workplace σ) :
    ∃ before job behind schedule outcome problem' place', jobs = before ++ job :: behind ∧
      Job.isOpen job = true ∧
      moves workers ⟨before ++ job :: behind, problem⟩ place schedule =
        (⟨before ++ .ended outcome :: behind, problem'⟩, place') := by
  by_cases hbusy : ∃ job ∈ jobs, job.isBusy = true
  · obtain ⟨job, hmem, hjob⟩ := hbusy
    obtain ⟨before, behind, rfl⟩ := List.append_of_mem hmem
    obtain ⟨schedule, outcome, problem', place', hend⟩ :=
      exists_moves_busy workers before behind problem hjob place
    exact ⟨before, job, behind, schedule, outcome, problem', place', rfl,
      by simp [Job.isOpen, hjob], hend⟩
  · simp only [isOver, List.all_eq_false] at hover
    obtain ⟨job, hmem, hjob⟩ := hover
    have hidle : ∀ job ∈ jobs, job.isBusy = false := by simpa using hbusy
    simp only [hidle job hmem, Bool.not_false, Bool.true_and, Bool.or_eq_true, not_or,
      Bool.not_eq_true, Bool.not_eq_false', Option.isSome_eq_false_iff,
      Option.isNone_iff_eq_none] at hjob
    obtain ⟨rfl, hwaiting⟩ := hjob
    cases job with
    | waiting task =>
      obtain ⟨before, behind, rfl⟩ := List.append_of_mem hmem
      have hnobody : busy ⟨before ++ .waiting task :: behind, none⟩ = 0 :=
        List.countP_eq_zero.mpr fun job hmem => by simp [hidle job hmem]
      obtain ⟨schedule, hend⟩ := exists_moves_waiting workers before behind task place
        (by rwa [hnobody])
      exact ⟨before, _, behind, schedule, _, _, _, rfl, by simp [Job.isOpen, Job.isWaiting], hend⟩
    | running task => cases hwaiting
    | calling asked ask next => cases hwaiting
    | ended outcome => cases hwaiting

/-- A crew can get to its end from wherever it has got. -/
theorem exists_moves_isOver (hworkers : 0 < workers) (crew : Crew σ β) (place : Workplace σ) :
    ∃ schedule, (crew.moves workers place schedule).1.isOver = true := by
  generalize hopen : crew.jobs.countP Job.isOpen = count
  induction count generalizing crew place with
  | zero =>
    refine ⟨[], List.all_eq_true.mpr fun job hmem => ?_⟩
    have hjob : ¬Job.isOpen job = true := List.countP_eq_zero.mp hopen job hmem
    simp_all [Job.isOpen]
  | succ count ih =>
    cases hover : crew.isOver with
    | true => exact ⟨[], hover⟩
    | false =>
      obtain ⟨jobs, problem⟩ := crew
      obtain ⟨before, job, behind, first, outcome, problem', place', rfl, hjob, hfirst⟩ :=
        exists_moves_open hworkers hover place
      have hfewer : (before ++ Job.ended outcome :: behind).countP Job.isOpen = count := by
        simp only [List.countP_append, List.countP_cons, hjob, if_true] at hopen
        simp only [List.countP_append, List.countP_cons, Job.isOpen, Job.isBusy, Job.isWaiting,
          Bool.or_self, Bool.false_eq_true, if_false]
        omega
      obtain ⟨second, hsecond⟩ := ih ⟨before ++ .ended outcome :: behind, problem'⟩ place' hfewer
      refine ⟨first ++ second, ?_⟩
      rw [moves_append, hfirst]
      exact hsecond

end Crew

end UsageAudit
