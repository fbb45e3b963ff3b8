import UsageAudit.Crew
import Mathlib.Data.List.Perm.Basic

/-!
# What a move of a crew can do

A move of a crew is about one job and leaves the others as they are. It may be taken up, go on without
a call, find the request standing or cancelled when a call is due, have its call answered, or be
reported. Each of them says what becomes of the calls under way and of the workers: no call gets under
way for a cancelled request, and no job is taken up once a problem was reported.
-/

namespace UsageAudit

variable {σ β : Type}

namespace Crew

/-- What a move of a crew of so many workers can do. -/
inductive Step (workers : Nat) :
    Crew σ β → Workplace σ → Crew σ β → Workplace σ → Prop where
  | idle (crew : Crew σ β) (place : Workplace σ) : Step workers crew place crew place
  | taken (before behind : List (Job σ β)) (task : Task σ β) (place : Workplace σ)
      (free : busy ⟨before ++ .waiting task :: behind, none⟩ < workers) :
      Step workers ⟨before ++ .waiting task :: behind, none⟩ place
        ⟨before ++ .running task :: behind, none⟩ place
  | changed (before behind : List (Job σ β)) (problem : Option Problem) (update : σ → σ)
      (next : σ → Task σ β) (place : Workplace σ) :
      Step workers ⟨before ++ .running (.change update next) :: behind, problem⟩ place
        ⟨before ++ .running (next place.state) :: behind, problem⟩ (place.change update)
  | stopped (before behind : List (Job σ β)) (problem : Option Problem) (asked : Asked)
      (ask : σ → Reply σ Unit) (next : σ → Task σ β) (place : Workplace σ)
      (fired : place.cancelled = true) :
      Step workers ⟨before ++ .running (.call asked ask next) :: behind, problem⟩ place
        ⟨before ++ .running (.done (.error .cancelled)) :: behind, problem⟩ place
  | called (before behind : List (Job σ β)) (problem : Option Problem) (asked : Asked)
      (ask : σ → Reply σ Unit) (next : σ → Task σ β) (place : Workplace σ)
      (live : place.cancelled = false) :
      Step workers ⟨before ++ .running (.call asked ask next) :: behind, problem⟩ place
        ⟨before ++ .calling asked ask next :: behind, problem⟩ place
  | answered (before behind : List (Job σ β)) (problem : Option Problem) (asked : Asked)
      (ask : σ → Reply σ Unit) (next : σ → Task σ β) (place : Workplace σ) :
      Step workers ⟨before ++ .calling asked ask next :: behind, problem⟩ place
        ⟨before ++ .running (next place.state) :: behind, problem⟩ (place.answer asked ask)
  | reported (before behind : List (Job σ β)) (problem : Option Problem)
      (outcome : Except Problem β) (place : Workplace σ) :
      Step workers ⟨before ++ .running (.done outcome) :: behind, problem⟩ place
        ⟨before ++ .ended outcome :: behind, problem.or (problem? outcome)⟩ place

variable {workers : Nat}

/-- A move is about the job at its place. -/
theorem move_at (before behind : List (Job σ β)) (job : Job σ β) (problem : Option Problem)
    (place : Workplace σ) :
    move workers ⟨before ++ job :: behind, problem⟩ place before.length =
      let moved := job.move (busy ⟨before ++ job :: behind, problem⟩ < workers) problem place
      (⟨before ++ moved.1 :: behind, moved.2.1⟩, moved.2.2) := by
  simp [move]

/-- A row is taken apart at any of its places. -/
theorem exists_split_of_lt {jobs : List (Job σ β)} {index : Nat} (h : index < jobs.length) :
    ∃ before behind, jobs = before ++ jobs[index] :: behind ∧ before.length = index :=
  ⟨jobs.take index, jobs.drop (index + 1), by simp, by simp; omega⟩

/-- A move does one of the things that a move can do. -/
theorem step_move (workers : Nat) (crew : Crew σ β) (place : Workplace σ) (index : Nat) :
    Step workers crew place (crew.move workers place index).1
      (crew.move workers place index).2 := by
  obtain ⟨jobs, problem⟩ := crew
  rcases Nat.lt_or_ge index jobs.length with hindex | hindex
  · obtain ⟨before, behind, hjobs, rfl⟩ := exists_split_of_lt hindex
    generalize jobs[before.length] = job at hjobs
    subst hjobs
    rw [move_at]
    cases job with
    | waiting task =>
      by_cases hfree : busy ⟨before ++ .waiting task :: behind, problem⟩ < workers
      · cases problem with
        | none => simpa [Job.move, hfree] using Step.taken before behind task place hfree
        | some problem => simpa [Job.move] using Step.idle _ place
      · simpa [Job.move, hfree] using Step.idle _ place
    | running task =>
      cases task with
      | done outcome => exact .reported before behind problem outcome place
      | change update next => exact .changed before behind problem update next place
      | call asked ask next =>
        cases hcancelled : place.cancelled with
        | false =>
          simpa [Job.move, hcancelled] using
            Step.called before behind problem asked ask next place hcancelled
        | true =>
          simpa [Job.move, hcancelled] using
            Step.stopped before behind problem asked ask next place hcancelled
    | calling asked ask next => exact .answered before behind problem asked ask next place
    | ended outcome => exact .idle _ place
  · have hidle : move workers ⟨jobs, problem⟩ place index = (⟨jobs, problem⟩, place) := by
      simp [move, List.getElem?_eq_none hindex]
    rw [hidle]
    exact .idle _ place

end Crew

/-- Whether one log may become another. -/
structure Log.Before (log later : Log) : Prop where
  fired : log.cancelled = true → later.cancelled = true
  calls : log.calls ⊆ later.calls

namespace Log.Before

variable {log between later : Log}

/-- A log may stay as it is. -/
theorem refl (log : Log) : log.Before log := ⟨id, List.Subset.refl _⟩

/-- What may become of a log may become something else in turn. -/
theorem trans (h : log.Before between) (h' : between.Before later) : log.Before later :=
  ⟨h'.fired ∘ h.fired, List.Subset.trans h.calls h'.calls⟩

/-- A call may be noted. -/
theorem note (log : Log) (call : Call) : log.Before (log.note call) where
  fired h := by simp [Log.note, h]
  calls := List.subset_cons_self call log.calls

/-- A request may be cancelled. -/
theorem cancel (place : Workplace σ) : place.toLog.Before place.cancel.toLog where
  fired _ := rfl
  calls := List.Subset.refl _

/-- The same call may be noted in both. -/
theorem note_note (h : log.Before later) (call : Call) : (log.note call).Before (later.note call) where
  fired hfired := by
    simp only [Log.note, Bool.or_eq_true] at hfired ⊢
    exact hfired.imp_left h.fired
  calls := List.cons_subset_cons call h.calls

/-- A request that stands stood before. -/
theorem live (h : log.Before later) (hlive : later.cancelled = false) :
    log.cancelled = false := by
  cases hcancelled : log.cancelled with
  | false => rfl
  | true =>
    rw [h.fired hcancelled] at hlive
    cases hlive

end Log.Before

/-- Whether a call is still to be made or to be answered for a job that a worker is at. -/
def Job.isDue : Job σ β → Bool
  | .running (.call ..) | .calling .. => true
  | .running (.done _) | .running (.change ..) | .waiting _ | .ended _ => false

namespace Crew

variable {workers : Nat} {crew after : Crew σ β} {place later : Workplace σ}

/-- A move adds to what is noted. -/
theorem Step.log (h : Step workers crew place after later) : place.toLog.Before later.toLog := by
  cases h with
  | answered => exact .note _ _
  | idle | taken | changed | stopped | called | reported => exact .refl _

/-- Moves add to what is noted. -/
theorem log_moves (workers : Nat) (crew : Crew σ β) (place : Workplace σ) (schedule : List Nat) :
    place.toLog.Before (crew.moves workers place schedule).2.toLog := by
  induction schedule generalizing crew place with
  | nil => exact .refl _
  | cons index rest ih =>
    exact (step_move workers crew place index).log.trans (ih _ _)

/-- A request that stands after some moves stood after the first of them. -/
theorem live_of_moves_cons {index : Nat} {rest : List Nat}
    (hlive : (crew.moves workers place (index :: rest)).2.cancelled = false) :
    (crew.move workers place index).2.cancelled = false :=
  (log_moves workers (crew.move workers place index).1 _ rest).live hlive

/-- How many calls of workers are still to be made or to be answered. -/
def due (crew : Crew σ β) : Nat := crew.jobs.countP Job.isDue

/-- Whether no more workers are at jobs than there are, and one fewer when a problem was
reported. -/
structure Manned (workers : Nat) (crew : Crew σ β) : Prop where
  enough : crew.busy ≤ workers
  spare : crew.problem.isSome → crew.busy < workers

end Crew

end UsageAudit
