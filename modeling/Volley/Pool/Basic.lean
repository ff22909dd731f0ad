import Volley.Pool.Worker

/-!
# The pool

A pool runs at most so many workers at the same time. Its workers share nothing but the places, the
stop signal and the tally. A worker is added to the tally once: by itself when it leaves, or by the
pool when the pool gives up waiting for it.
-/

namespace Volley

/-- The workers of one run, and what they share. -/
structure Pool (σ : Type) where
  workers : List (Worker σ)
  /-- The number of free places. -/
  permits : Nat
  /-- The number of workers that have taken a place and not left in order. -/
  active : Nat
  /-- The largest number of active workers so far. -/
  peak : Nat
  clock : Clock
  tally : Tally
  /-- The first worker that could not encode an event, its scenario, and the reason. -/
  fault : Option (UInt64 × String × EncodingError)

namespace Pool

/-- How a run is bounded, in places and in milliseconds. -/
structure Policy where
  /-- The number of workers that run at the same time. -/
  size : Nat
  /-- The moment at which the stop signal is raised, in milliseconds. -/
  deadline : Nat
  /-- How long the pool waits for its workers after that. -/
  grace : Nat := 5000
  deriving DecidableEq, Repr

/-- What outlives a run. -/
structure Account where
  /-- The results of all runs so far. -/
  tally : Tally
  /-- The largest number of active workers in the last run. -/
  peak : Nat
  deriving DecidableEq, Repr

/-- The account before any run. -/
def Account.zero : Account := ⟨.zero, 0⟩

/-- Why a run has no totals. -/
inductive Failure where
  /-- A scenario breaks a rule; nothing was started. -/
  | invalidScenario (workerId : UInt64) (cause : Scenario.Error)
  /-- An event could not be encoded; all workers were stopped. -/
  | encoding (workerId : UInt64) (scenario : String) (cause : EncodingError)
  deriving DecidableEq, Repr

/-- The wording of a `Failure`. -/
def Failure.message : Failure → String
  | .invalidScenario workerId cause => s!"worker {workerId}: {cause.message}"
  | .encoding workerId scenario cause =>
    s!"worker {workerId} ({scenario}): encoding failed: {cause.message}"

/-- The first of the jobs whose spec fails `validate`, with the cause. -/
def firstInvalid? (jobs : List Job) : Option (UInt64 × Scenario.Error) :=
  jobs.findSome? fun job =>
    match job.spec.validate with
    | .error cause => some (job.workerId, cause)
    | .ok () => none

variable {σ : Type}

/-- A pool with every worker `queued`, whose clock has the signal raised at the `deadline`. -/
def start (policy : Policy) (tally : Tally) (jobs : List Job) : Pool σ where
  workers := jobs.map .new
  permits := policy.size
  active := 0
  peak := 0
  clock := Clock.start.raiseIn policy.deadline
  tally
  fault := none

/-- Whether nothing more is to be expected of any worker: each of them `isOver`. -/
def isOver (pool : Pool σ) : Bool :=
  pool.workers.all Worker.isOver

/-- A bound on the number of times that workers will still wake: the sum of their `Worker.weight`.
-/
def weight (pool : Pool σ) : Nat :=
  (pool.workers.map Worker.weight).foldr (· + ·) 0

/-- Puts `worker` at place `i` of the list. -/
def put (pool : Pool σ) (i : Nat) (worker : Worker σ) : Pool σ :=
  { pool with workers := pool.workers.set i worker }

/-- Merges the result of the worker at place `i` into the `tally`, if its `claim` succeeds: nobody
has reported it before. -/
def report (pool : Pool σ) (i : Nat) (worker : Worker σ) (outcome : Outcome) : Pool σ :=
  match worker.progress.claim with
  | (true, progress) =>
    { pool.put i { worker with progress } with
      tally := pool.tally.merge (worker.result pool.clock.now outcome) }
  | (false, _) => pool.put i worker

/-- Frees the place of a worker that leaves in order: one of `permits` more, and one `active` less.
-/
def release (pool : Pool σ) : Pool σ :=
  { pool with permits := pool.permits + 1, active := pool.active - 1 }

/-- Gives a free place to a worker in the queue, which counts towards `active` and `peak`. One that
gets its place when the clock is `stopped` leaves at once as `abandoned`. -/
def enter (pool : Pool σ) (i : Nat) (worker : Worker σ) : Pool σ :=
  if pool.permits = 0 then pool
  -- The signal was raised while the worker was in the queue, so no session is opened for it.
  else if pool.clock.stopped then pool.report i { worker with stage := .gone none } .abandoned
  else
    { pool.put i
        { worker with
          progress := worker.progress.start pool.clock.now
          stage := .connecting pool.clock.now } with
      permits := pool.permits - 1
      active := pool.active + 1
      peak := max pool.peak (pool.active + 1) }

/-- What the move of a worker does to the pool. A worker that dies frees its place and is still
counted in `active`. One that aborts leaves the first `fault` for the run to find, which raises the
stop signal in a step of its own: until then a worker of the queue can still `enter`. -/
def apply (pool : Pool σ) (i : Nat) : Move σ → Pool σ
  | .waits worker => pool.put i worker
  | .leaves worker outcome => (pool.report i worker outcome).release
  | .aborts worker cause =>
    { (pool.put i worker).release with
      fault := some (pool.fault.getD (worker.job.workerId, worker.job.spec.name, cause)) }
  | .dies worker => { pool.put i worker with permits := pool.permits + 1 }

/-- Makes a `report` of every worker as `abandoned`; those that have been reported before are left
out by their `claim`. -/
def sweep (pool : Pool σ) : Pool σ :=
  (List.range pool.workers.length).foldl (fun pool i =>
    match pool.workers[i]? with
    | some worker => pool.report i worker .abandoned
    | none => pool) pool

/-- What a run returns: the `tally` with the time that the run took, unless there is a `fault`. -/
def totals (pool : Pool σ) : Except Failure Tally :=
  match pool.fault with
  | some (workerId, scenario, cause) => .error (.encoding workerId scenario cause)
  | none => .ok { pool.tally with elapsed := .ofMillis pool.clock.now }

variable [Sink σ]

/-- Lets the worker at place `i` run from its wait to the next: it may `enter`, or `apply` takes its
move. -/
def wake (surroundings : Surroundings σ) (i : Nat) (pool : Pool σ) : Pool σ :=
  match pool.workers[i]? with
  | none => pool
  | some worker =>
    match worker.stage with
    | .queued => pool.enter i worker
    | _ =>
      match worker.wake surroundings pool.clock with
      | some move => pool.apply i move
      | none => pool

end Pool

end Volley
