import Volley.Run
import Volley.Settings
import Volley.Supervisor.Basic
import Volley.Tally

/-!
# Workers

A worker takes one job from its place in the queue to its result. Whatever it does between two waits
it does at once: it opens its session, makes one write after the other, closes its session when the
run is over, and leaves the pool; if it loses its session, it leaves right away. `Worker.wake` is
what it does from one wait to the next.
-/

namespace Volley

/-- What a `Worker` waits for, and since when. -/
inductive Stage (σ : Type) where
  /-- For a place in the pool. -/
  | queued
  /-- For its session to open. -/
  | connecting (since : Nat)
  /-- For a write to return. -/
  | sending (flight : Run.Flight) (run : Run σ) (since : Nat)
  /-- For its pause to pass. -/
  | pausing (run : Run σ) (since : Nat)
  /-- For its session to be closed; how its run has ended is settled. -/
  | closing (result : Except EncodingError Ending) (run : Run σ) (since : Nat)
  /-- For nothing: it has left the pool, with the session that it had. -/
  | gone (session : Option σ)
  /-- For nothing: it broke off in the middle of its work. -/
  | dead (session : σ)

/-- One worker. -/
structure Worker (σ : Type) where
  job : Job
  progress : Progress
  stage : Stage σ

/-- What a `Run` has to do with the outside world. -/
structure Surroundings (σ : Type) where
  /-- The attempt to open a session for a job. -/
  dial : Job → Attempt σ
  /-- The times that the events of a run are stamped with. -/
  timestamps : Nat → Int

/-- What a worker does between two waits. -/
inductive Move (σ : Type) where
  /-- It waits again. -/
  | waits (worker : Worker σ)
  /-- It leaves the pool with a result. -/
  | leaves (worker : Worker σ) (outcome : Outcome)
  /-- It leaves the pool because an event cannot be encoded. -/
  | aborts (worker : Worker σ) (cause : EncodingError)
  /-- It breaks off because a payload cannot be built. -/
  | dies (worker : Worker σ)

/-- The `Outcome` of a worker whose run has ended so; one that was `stopped` counts as `abandoned`.
-/
def Ending.outcome : Ending → Outcome
  | completed => .completed
  | transportFailed => .transportFailed
  | stopped => .abandoned

namespace Worker

variable {σ : Type}

/-- A worker in the queue. -/
def new (job : Job) : Worker σ :=
  ⟨job, .zero, .queued⟩

/-- The session that a worker has or had, by its `stage`. -/
def session? (worker : Worker σ) : Option σ :=
  match worker.stage with
  | .queued => none
  | .connecting _ => none
  | .sending _ run _ => some run.sink
  | .pausing run _ => some run.sink
  | .closing _ run _ => some run.sink
  | .gone session => session
  | .dead session => some session

/-- Whether nothing more is to be expected of a worker: it is `gone` or `dead`. -/
def isOver (worker : Worker σ) : Bool :=
  match worker.stage with
  | .gone _ => true
  | .dead _ => true
  | _ => false

/-- The account of a worker at the moment `now`, from its `progress`. -/
def result (worker : Worker σ) (now : Nat) (outcome : Outcome) : WorkerResult :=
  .ofProgress worker.job.workerId worker.job.spec.name worker.progress now outcome

/-- A bound on the number of times that a worker will still wake: two for each event `remaining`,
and some for the stages before and after. -/
def weight (worker : Worker σ) : Nat :=
  match worker.stage with
  | .queued => 2 * worker.job.spec.count.toNat + 5
  | .connecting _ => 2 * worker.job.spec.count.toNat + 4
  | .sending _ run _ => 2 * run.plan.remaining + 3
  | .pausing run _ => 2 * run.plan.remaining + 2
  | .closing _ _ _ => 1
  | .gone _ => 0
  | .dead _ => 0

variable [Sink σ]

/-- Waits at the stage `closing` for its session to be closed, as its run has ended with `result`.
-/
def conclude (clock : Clock) (worker : Worker σ) (run : Run σ)
    (result : Except EncodingError Ending) : Move σ :=
  .waits { worker with progress := run.progress, stage := .closing result run clock.now }

/-- Leaves the pool when its session is closed: with an outcome, or, if an event could not be
encoded, as one that `aborts`. -/
def leave (worker : Worker σ) (run : Run σ) (result : Except EncodingError Ending) : Move σ :=
  let worker := { worker with stage := .gone (some run.close.sink) }
  match result with
  | .ok ending => .leaves worker ending.outcome
  | .error cause => .aborts worker cause

/-- Goes on with a run by its next `turn`. -/
def proceed (clock : Clock) (worker : Worker σ) (run : Run σ) : Move σ :=
  match run.turn clock with
  | .write flight run =>
    .waits { worker with progress := run.progress, stage := .sending flight run clock.now }
  | .over => worker.conclude clock run (.ok run.endingOf)
  | .failed (.encoding cause) => worker.conclude clock run (.error cause)
  | .failed (.payload _) =>
    .dies { worker with progress := run.progress, stage := .dead run.sink }

/-- What a worker does when its wait is over: the next `Move`. One that waits for its place, or for
nothing, does not wake by itself. -/
def wake (surroundings : Surroundings σ) (clock : Clock) (worker : Worker σ) : Option (Move σ) :=
  match worker.stage with
  | .connecting _ =>
    match (surroundings.dial worker.job).result with
    | .error _ =>
      let count := worker.job.spec.count
      let progress := (worker.progress.addAttempted count).addErrors count
      some (.leaves { worker with progress, stage := .gone none } .connectFailed)
    | .ok session =>
      some (worker.proceed clock
        (.start worker.job.spec surroundings.timestamps session worker.progress clock))
  | .sending flight run since =>
    -- The write began when the worker went to sleep and is looked at when it has returned.
    let run := { run with progress := worker.progress }
    let (reply, _, run) := run.submit flight { clock with now := since }
    match run.settle flight reply clock with
    | (.over, run) => some (worker.conclude clock run (.ok run.endingOf))
    | (.lost, run) =>
      -- A session that is lost is closed already, so there is no wait for it to be closed.
      some ({ worker with progress := run.progress }.leave run (.ok .transportFailed))
    | (.goOn, run) =>
      if run.plan.spec.pace = .zero then some (worker.proceed clock run)
      else
        some (.waits { worker with progress := run.progress, stage := .pausing run clock.now })
  | .pausing run _ => some (worker.proceed clock { run with progress := worker.progress })
  | .closing result run _ => some (worker.leave run result)
  | .queued => none
  | .gone _ => none
  | .dead _ => none

/-- When a worker's wait is over, if the stop signal is raised at `stopAt`. -/
def due? (surroundings : Surroundings σ) (stopAt : Option Nat) (worker : Worker σ) : Option Nat :=
  match worker.stage with
  | .connecting since => some (since + Clock.timer (surroundings.dial worker.job).delay)
  | .sending flight run since => some (run.submit flight ⟨since, stopAt⟩).2.1.now
  | .pausing run since => some (run.pause ⟨since, stopAt⟩).now
  | .closing _ _ since => some since
  | .queued => none
  | .gone _ => none
  | .dead _ => none

end Worker

end Volley
