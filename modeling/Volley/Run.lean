import Volley.Progress
import Volley.Scenario.Plan
import Volley.Sink.Basic

/-!
# Running a scenario

A run takes the writes of a plan to a sink, in order and each once. Between two writes it looks at
the stop signal and makes its pause; during a write it looks at nothing. A write that fails counts
all its events as errors, and if the sink is closed after that, everything that remains is written
off as well.

A run is described by what it does between two points at which it waits: `Run.turn` picks the next
write and counts its events as attempted, `Run.settle` counts what became of them. `Run.toEnd`
strings these together on a clock.
-/

namespace Volley

/-- A scenario being taken to a sink. -/
structure Run (σ : Type) where
  plan : Plan
  sink : σ
  progress : Progress

/-- How a run ended. -/
inductive Ending where
  /-- Every planned event was attempted. -/
  | completed
  /-- The session was lost, and what remained was written off. -/
  | transportFailed
  /-- The stop signal was raised before the plan was finished. -/
  | stopped
  deriving DecidableEq, Repr

namespace Run

/-- Why a run could not go on with its plan. -/
inductive Failure where
  /-- An event cannot be encoded. -/
  | encoding (cause : EncodingError)
  /-- A payload cannot be built. -/
  | payload (cause : Payload.TooLarge)
  deriving DecidableEq, Repr

/-- A write and the bytes that it puts on the wire. -/
structure Flight where
  step : Step
  bytes : Bytes
  deriving DecidableEq, Repr

/-- The number of events in the `step` of a flight. -/
def Flight.events (flight : Flight) : UInt64 :=
  UInt64.ofNat flight.step.events.length

variable {σ : Type}

/-- What a run does when it is not waiting. -/
inductive Turn (σ : Type) where
  /-- It makes a write. -/
  | write (flight : Flight) (run : Run σ)
  /-- It has nothing more to do, or is stopped. -/
  | over
  /-- It cannot go on. -/
  | failed (cause : Failure)

/-- A run at its start, with the whole plan of `spec` before it. -/
def start (spec : Scenario.Spec) (timestamps : Nat → Int) (sink : σ) (progress : Progress)
    (clock : Clock) : Run σ :=
  ⟨.start spec timestamps, sink, progress.start clock.now⟩

/-- Picks the `next` write of the plan, unless the clock is `stopped`, and counts its events as
attempted. -/
def turn (clock : Clock) (run : Run σ) : Turn σ :=
  if clock.stopped then .over
  else
    match run.plan.next with
    | .error cause => .failed (.payload cause)
    | .ok none => .over
    | .ok (some (step, plan)) =>
      match Event.encodeAll step.events with
      | .error cause => .failed (.encoding cause)
      | .ok bytes =>
        let flight : Flight := ⟨step, bytes⟩
        .write flight { run with plan, progress := run.progress.addAttempted flight.events }

/-- A `turn` that makes a write leaves less `remaining` in the plan. -/
theorem remaining_of_turn {clock : Clock} {run next : Run σ} {flight : Flight}
    (h : run.turn clock = .write flight next) : next.plan.remaining < run.plan.remaining := by
  unfold turn at h
  split at h
  · cases h
  · split at h
    · cases h
    · cases h
    · next step plan hnext =>
      split at h
      · cases h
      · cases h
        exact Plan.remaining_of_next hnext

/-- Whether a run goes on after a write. -/
inductive Settled where
  | goOn
  /-- The write failed while the run was being stopped. -/
  | over
  /-- The write failed and closed the sink. -/
  | lost
  deriving DecidableEq, Repr

variable [Sink σ]

/-- Makes the write of a flight, by `Sink.send` or, in the shape `.split`, by `Sink.sendSplit`. -/
def submit (flight : Flight) (clock : Clock) (run : Run σ) : Reply × Clock × Run σ :=
  let (reply, clock, sink) := match flight.step.shape with
    | .perFrame => Sink.send flight.bytes clock run.sink
    | .sticky => Sink.send flight.bytes clock run.sink
    | .split cut => Sink.sendSplit flight.bytes cut clock run.sink
  (reply, clock, { run with sink })

/-- Counts every event that is `remaining` as attempted and failed. -/
def writeOff (run : Run σ) : Run σ :=
  let remaining := UInt64.ofNat run.plan.remaining
  { run with progress := (run.progress.addAttempted remaining).addErrors remaining }

/-- Counts what became of a write by its `reply`, and decides whether the run goes on: it is `over`
if the clock is `stopped`, and `lost` if the sink is not open. -/
def settle (flight : Flight) (reply : Reply) (clock : Clock) (run : Run σ) : Settled × Run σ :=
  match reply with
  | .ok () => (.goOn, { run with progress := run.progress.addSent flight.events })
  | .error _ =>
    let run := { run with progress := run.progress.addErrors flight.events }
    -- A failure after the signal says nothing about the session: the run was ending anyway.
    if clock.stopped then (.over, run)
    else if Sink.isOpen clock run.sink then (.goOn, run)
    else (.lost, run.writeOff)

/-- Makes the pause of `pace` after a write, which the stop signal cuts short. -/
def pause (run : Run σ) (clock : Clock) : Clock :=
  if run.plan.spec.pace = .zero then clock
  else (clock.waitOrStop run.plan.spec.pace.timerMillis).2

/-- How a run ends that has not lost its session: `stopped` if any event is `remaining`. -/
def endingOf (run : Run σ) : Ending :=
  if run.plan.remaining > 0 then .stopped else .completed

/-- Releases the sink by `Sink.close`. -/
def close (run : Run σ) : Run σ :=
  { run with sink := Sink.close run.sink }

theorem plan_settle (flight : Flight) (reply : Reply) (clock : Clock) (run : Run σ) :
    (run.settle flight reply clock).2.plan = run.plan := by
  cases reply with
  | ok => rfl
  | error =>
    simp only [settle]
    split
    · rfl
    · split <;> rfl

/-- Runs to the end, one `turn` after the other: how the run ended, when, and what it left behind.
The sink is closed, except when a payload could not be built: then nothing more is done at all. -/
def toEnd (clock : Clock) (run : Run σ) : Except Failure Ending × Clock × Run σ :=
  match ht : run.turn clock with
  | .over => (.ok run.endingOf, clock, run.close)
  | .failed (.encoding cause) => (.error (.encoding cause), clock, run.close)
  | .failed (.payload cause) => (.error (.payload cause), clock, run)
  | .write flight flying =>
    match hs : flying.submit flight clock with
    | (reply, clock, landed) =>
      match hr : landed.settle flight reply clock with
      | (.over, run) => (.ok run.endingOf, clock, run.close)
      | (.lost, run) => (.ok .transportFailed, clock, run.close)
      | (.goOn, next) =>
        have : next.plan.remaining < run.plan.remaining := by
          have hnext : next.plan = landed.plan := by
            have := plan_settle flight reply clock landed
            rwa [hr] at this
          have hlanded : landed.plan = flying.plan := (congrArg (·.2.2.plan) hs).symm
          rw [hnext, hlanded]
          exact remaining_of_turn ht
        next.toEnd (next.pause clock)
termination_by run.plan.remaining

/-- Runs `spec` on a sink from `start` by `toEnd`. -/
def scenario (spec : Scenario.Spec) (timestamps : Nat → Int) (sink : σ) (clock : Clock) :
    Except Failure Ending × Clock × Run σ :=
  (start spec timestamps sink .zero clock).toEnd clock

end Run

end Volley
