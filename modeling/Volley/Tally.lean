import Volley.Progress

/-!
# The tally of a run

Each worker ends with a result, and the results of all workers are added up: totals over all events,
the number of workers for each way to end, and totals per scenario in the order of the names.
-/

namespace Volley

/-- How a worker ended. -/
inductive Outcome where
  /-- Every planned event was attempted. -/
  | completed
  /-- The session failed, and what remained was written off. -/
  | transportFailed
  /-- No session could be opened, and everything was written off. -/
  | connectFailed
  /-- The worker was stopped, or given up. -/
  | abandoned
  deriving DecidableEq, Repr

/-- The final account of one worker. -/
structure WorkerResult where
  workerId : UInt64
  scenario : String
  attempted : UInt64
  sent : UInt64
  errors : UInt64
  elapsed : Duration
  outcome : Outcome
  deriving DecidableEq, Repr

/-- The account that the counters of `progress` give at the moment `now`. -/
def WorkerResult.ofProgress (workerId : UInt64) (scenario : String) (progress : Progress)
    (now : Nat) (outcome : Outcome) : WorkerResult where
  workerId
  scenario
  attempted := progress.attempted
  sent := progress.sent
  errors := progress.errors
  elapsed := progress.elapsed now
  outcome

/-- The number of workers for each way to end. -/
structure OutcomeCounts where
  completed : UInt64
  transportFailed : UInt64
  connectFailed : UInt64
  abandoned : UInt64
  deriving DecidableEq, Repr

namespace OutcomeCounts

def zero : OutcomeCounts := ⟨0, 0, 0, 0⟩

/-- Counts one more worker that ended with this `Outcome`. -/
def record (counts : OutcomeCounts) : Outcome → OutcomeCounts
  | .completed => { counts with completed := counts.completed + 1 }
  | .transportFailed => { counts with transportFailed := counts.transportFailed + 1 }
  | .connectFailed => { counts with connectFailed := counts.connectFailed + 1 }
  | .abandoned => { counts with abandoned := counts.abandoned + 1 }

end OutcomeCounts

/-- The totals of one scenario. -/
structure ScenarioTotals where
  workers : UInt64
  attempted : UInt64
  sent : UInt64
  errors : UInt64
  deriving DecidableEq, Repr

namespace ScenarioTotals

def zero : ScenarioTotals := ⟨0, 0, 0, 0⟩

/-- Adds the `result` of one worker. -/
def add (totals : ScenarioTotals) (result : WorkerResult) : ScenarioTotals where
  workers := totals.workers + 1
  attempted := totals.attempted + result.attempted
  sent := totals.sent + result.sent
  errors := totals.errors + result.errors

end ScenarioTotals

/-- The totals of a run. -/
structure Tally where
  workers : UInt64
  attempted : UInt64
  sent : UInt64
  errors : UInt64
  /-- The longest time that a worker took, or the time of the whole run once that is known. -/
  elapsed : Duration
  outcomes : OutcomeCounts
  /-- The totals per scenario, in ascending order of the names. -/
  perScenario : List (String × ScenarioTotals)
  deriving DecidableEq, Repr

namespace Tally

def zero : Tally := ⟨0, 0, 0, 0, .zero, .zero, []⟩

/-- Adds `result` to the totals of its scenario; a new scenario gets its place in the order. -/
def addTo (result : WorkerResult) :
    List (String × ScenarioTotals) → List (String × ScenarioTotals)
  | [] => [(result.scenario, ScenarioTotals.zero.add result)]
  | (name, totals) :: rest =>
    if result.scenario = name then (name, totals.add result) :: rest
    else if result.scenario < name then
      (result.scenario, ScenarioTotals.zero.add result) :: (name, totals) :: rest
    else (name, totals) :: addTo result rest

/-- Adds the `result` of one worker to every total: the numbers, the longest time, `outcomes` and
`perScenario`. -/
def merge (tally : Tally) (result : WorkerResult) : Tally where
  workers := tally.workers + 1
  attempted := tally.attempted + result.attempted
  sent := tally.sent + result.sent
  errors := tally.errors + result.errors
  elapsed := tally.elapsed.max result.elapsed
  outcomes := tally.outcomes.record result.outcome
  perScenario := addTo result tally.perScenario

/-- Whether no worker ended as `connectFailed` or `transportFailed`. -/
def connectionsHeld (tally : Tally) : Bool :=
  tally.outcomes.connectFailed == 0 && tally.outcomes.transportFailed == 0

/-- The events `sent` per second, where no time at all counts as a nanosecond. -/
def throughput (tally : Tally) : Float :=
  let nanos := tally.elapsed.subsecNanos.toUInt64.toFloat / 1e9
  let secs := tally.elapsed.secs.toUInt64.toFloat + nanos
  tally.sent.toFloat / (if secs < 1e-9 then 1e-9 else secs)

end Tally

end Volley
