import UsageAudit.Question

/-!
# Crews of workers

A side of a request has a job for each usage that it looks into, and a crew of workers who do the
jobs. A worker takes up one job at a time and does it step by step. Between two steps of a worker any
others may have theirs, on either side. Before a source is called the worker looks whether the request
still stands. From then on the call is under way, and only a further step has it answered.

A worker who is done with a job reports what has come of it. The first problem that is reported keeps
the crew from taking up other jobs; those that were taken up before are done to their ends. Which job
is next is left open, and so is whether two workers who miss one answer both ask for it: a rule in
these matters only leaves out some of the ways in which the steps can follow each other.
-/

namespace UsageAudit

/-- What is to be done for a job, step by step. -/
inductive Task (σ β : Type) where
  | done (outcome : Except Problem β)
  /-- The state is changed at once. What is next depends on the state before. -/
  | change (update : σ → σ) (next : σ → Task σ β)
  /-- A source is called. What is next depends on the state before, as the answer does. -/
  | call (asked : Asked) (ask : σ → Reply σ Unit) (next : σ → Task σ β)

namespace Task

variable {σ α β : Type}

/-- One task after the other, unless the first one comes to a problem. -/
def andThen : Task σ α → (α → Task σ β) → Task σ β
  | .done (.ok value), rest => rest value
  | .done (.error problem), _ => .done (.error problem)
  | .change update next, rest => .change update fun state => (next state).andThen rest
  | .call asked ask next, rest => .call asked ask fun state => (next state).andThen rest

instance : Monad (Task σ) where
  pure value := .done (.ok value)
  bind := andThen

end Task

/-- What is noted of a request. -/
structure Log where
  /-- Whether the request has been cancelled. -/
  cancelled : Bool
  /-- The calls that were answered, the latest first. -/
  calls : List Call

/-- Notes a call that was answered. -/
def Log.note (log : Log) (call : Call) : Log := ⟨log.cancelled || call.cancels, call :: log.calls⟩

/-- What workers work on. -/
structure Workplace (σ : Type) extends Log where
  state : σ

namespace Workplace

variable {σ : Type}

/-- The workplace of a request for which nothing was called. -/
def opened (cancelled : Bool) (state : σ) : Workplace σ := ⟨⟨cancelled, []⟩, state⟩

/-- The state is changed. -/
def change (update : σ → σ) (place : Workplace σ) : Workplace σ := ⟨place.toLog, update place.state⟩

/-- A call is answered. -/
def answer (asked : Asked) (ask : σ → Reply σ Unit) (place : Workplace σ) : Workplace σ :=
  let reply := ask place.state
  ⟨place.toLog.note (reply.call asked), reply.state⟩

/-- The request is cancelled. -/
def cancel (place : Workplace σ) : Workplace σ := ⟨⟨true, place.calls⟩, place.state⟩

end Workplace

/-- How far a job has got. -/
inductive Job (σ β : Type) where
  /-- No worker has taken it up. -/
  | waiting (task : Task σ β)
  /-- A worker is at it. -/
  | running (task : Task σ β)
  /-- A worker is at it who has found the request standing, and a call is under way. -/
  | calling (asked : Asked) (ask : σ → Reply σ Unit) (next : σ → Task σ β)
  /-- What has come of it was reported. -/
  | ended (outcome : Except Problem β)

/-- The problem that was come to, if it was one. -/
def problem? {β : Type} : Except Problem β → Option Problem
  | .ok _ => none
  | .error problem => some problem

namespace Job

variable {σ β : Type}

/-- Whether the job is left to be taken up. -/
def isWaiting : Job σ β → Bool
  | .waiting _ => true
  | .running _ | .calling .. | .ended _ => false

/-- Whether a worker is at the job. -/
def isBusy : Job σ β → Bool
  | .running _ | .calling .. => true
  | .waiting _ | .ended _ => false

/-- What has come of the job, unless that is a problem. -/
def value? : Job σ β → Option β
  | .ended (.ok value) => some value
  | .ended (.error _) | .waiting _ | .running _ | .calling .. => none

/-- What a move makes of the job, of the problem that was reported and of the workplace. A job that
waits is taken up if a worker is free for it; otherwise the worker who is at it takes a step. -/
def move (free : Bool) (problem : Option Problem) :
    Job σ β → Workplace σ → Job σ β × Option Problem × Workplace σ
  | .waiting task, place =>
    (if free && problem.isNone then .running task else .waiting task, problem, place)
  | .running (.done outcome), place => (.ended outcome, problem.or (problem? outcome), place)
  | .running (.change update next), place => (.running (next place.state), problem, place.change update)
  | .running (.call asked ask next), place =>
    (if place.cancelled then .running (.done (.error .cancelled)) else .calling asked ask next,
      problem, place)
  | .calling asked ask next, place =>
    (.running (next place.state), problem, place.answer asked ask)
  | .ended outcome, place => (.ended outcome, problem, place)

end Job

/-- A crew with its jobs, in the order of the script. -/
structure Crew (σ β : Type) where
  jobs : List (Job σ β)
  /-- The first problem that was reported. -/
  problem : Option Problem

namespace Crew

variable {σ β : Type}

/-- A crew that has taken up nothing. -/
def ofTasks (tasks : List (Task σ β)) : Crew σ β := ⟨tasks.map .waiting, none⟩

/-- How many workers are at a job. -/
def busy (crew : Crew σ β) : Nat := crew.jobs.countP Job.isBusy

/-- A move of a crew of so many workers that is about the job at a place in the row. -/
def move (workers : Nat) (crew : Crew σ β) (place : Workplace σ) (index : Nat) :
    Crew σ β × Workplace σ :=
  match crew.jobs[index]? with
  | none => (crew, place)
  | some job =>
    let (job, problem, place) := job.move (crew.busy < workers) crew.problem place
    (⟨crew.jobs.set index job, problem⟩, place)

/-- Moves one after the other. -/
def moves (workers : Nat) (crew : Crew σ β) (place : Workplace σ) (schedule : List Nat) :
    Crew σ β × Workplace σ :=
  schedule.foldl (fun (crew, place) => crew.move workers place) (crew, place)

/-- Whether nobody is at a job and none will be taken up. -/
def isOver (crew : Crew σ β) : Bool :=
  crew.jobs.all fun job => !job.isBusy && (crew.problem.isSome || !job.isWaiting)

/-- What has come of the jobs, once the crew is done with them: what each has come to, or the first
problem that was reported. -/
def outcome? (crew : Crew σ β) : Option (Except Problem (List β)) :=
  if crew.isOver then
    some (match crew.problem with
      | some problem => .error problem
      | none => .ok (crew.jobs.filterMap Job.value?))
  else none

end Crew

end UsageAudit
