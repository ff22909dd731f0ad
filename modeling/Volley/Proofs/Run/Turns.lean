import Volley.Proofs.Scenario.Steps
import Volley.Run

/-!
# The turns of a run

A run over a plan that yields its writes takes them one by one: as long as the stop signal is not
raised its next turn is the next write, with the bytes of the write's events, and when there are no
more it is over (`Run.turn_of_yields_cons`, `Run.turn_of_yields_nil`). What happens from there to
the end is settled by the sink's answer (`Run.toEnd_of_write`).
-/

namespace Volley

namespace Clock

/-- A signal that nobody is going to raise is not raised: without `stopAt` there is no `stopped`. -/
theorem stopped_of_stopAt_none {clock : Clock} (h : clock.stopAt = none) :
    clock.stopped = false := by
  rw [stopped, h]

theorem stopAt_waitOrStop (clock : Clock) (span : Nat) :
    (clock.waitOrStop span).2.stopAt = clock.stopAt := by
  unfold waitOrStop
  split
  · split <;> rfl
  · rfl

end Clock

namespace Run

variable {σ : Type}

/-- A run that makes a write: the write is off its plan, and its events count as `attempted`. -/
def flying (run : Run σ) (flight : Flight) (plan : Plan) : Run σ :=
  { run with plan, progress := run.progress.addAttempted flight.events }

/-- A run whose write was taken by its sink: the events count as `sent`, too. -/
def sent (run : Run σ) (flight : Flight) (plan : Plan) (sink : σ) : Run σ :=
  { plan, sink, progress := (run.progress.addAttempted flight.events).addSent flight.events }

/-- A run whose write failed: the events count in `errors`. -/
def failed (run : Run σ) (flight : Flight) (plan : Plan) (sink : σ) : Run σ :=
  { plan, sink, progress := (run.progress.addAttempted flight.events).addErrors flight.events }

/-- A run that is stopped has `over` for its `turn`. -/
theorem turn_of_stopped {clock : Clock} (h : clock.stopped = true) (run : Run σ) :
    run.turn clock = .over := by
  rw [turn, if_pos h]

/-- A run whose plan `Yields` no more writes has `over` for its `turn`. -/
theorem turn_of_yields_nil {run : Run σ} (h : run.plan.Yields []) (clock : Clock) :
    run.turn clock = .over := by
  obtain ⟨hnext, -⟩ | ⟨_, _, _, _, -, hcons, -⟩ := h.cases
  · rw [turn, hnext]
    split <;> rfl
  · cases hcons

/-- The `turn` of a run makes the next write that its plan `Yields`, and leaves the run `flying`. -/
theorem turn_of_yields_cons {run : Run σ} {step : Step} {rest : List Step} {clock : Clock}
    (h : run.plan.Yields (step :: rest)) (hclock : clock.stopped = false) :
    ∃ later bytes, run.plan.next = .ok (some (step, later)) ∧ later.Yields rest ∧
      Event.encodeAll step.events = .ok bytes ∧
      run.turn clock = .write ⟨step, bytes⟩ (run.flying ⟨step, bytes⟩ later) := by
  obtain ⟨-, hnil⟩ | ⟨_, later, _, bytes, hnext, hcons, hbytes, hlater⟩ := h.cases
  · cases hnil
  · cases hcons
    refine ⟨later, bytes, hnext, hlater, hbytes, ?_⟩
    rw [turn, hclock, hnext]
    simp only [Bool.false_eq_true, if_false, hbytes]
    rfl

/-- A run that makes a write in its `turn` has it from its plan, with the bytes of its events. -/
theorem exists_of_turn {clock : Clock} {run next : Run σ} {flight : Flight}
    (h : run.turn clock = .write flight next) :
    ∃ plan, run.plan.next = .ok (some (flight.step, plan)) ∧
      Event.encodeAll flight.step.events = .ok flight.bytes ∧ next = run.flying flight plan := by
  unfold turn at h
  split at h
  · cases h
  · split at h
    · cases h
    · cases h
    · next step plan hnext =>
      split at h
      · cases h
      · next bytes hbytes =>
        cases h
        exact ⟨plan, hnext, hbytes, rfl⟩

/-- In a `pause` the signal is raised no sooner and no later. -/
theorem stopAt_pause (run : Run σ) (clock : Clock) : (run.pause clock).stopAt = clock.stopAt := by
  unfold pause
  split
  · rfl
  · exact clock.stopAt_waitOrStop _

variable [Sink σ]

/-- What a sink makes of a write, by `Sink.send` or `Sink.sendSplit`. -/
def Flight.offer (flight : Flight) (clock : Clock) (sink : σ) : Reply × Clock × σ :=
  match flight.step.shape with
  | .split cut => Sink.sendSplit flight.bytes cut clock sink
  | _ => Sink.send flight.bytes clock sink

theorem Flight.offer_of_split {flight : Flight} {cut : Nat} (h : flight.step.shape = .split cut)
    (clock : Clock) (sink : σ) :
    flight.offer clock sink = Sink.sendSplit flight.bytes cut clock sink := by
  rw [offer, h]

theorem Flight.offer_of_ne_split {flight : Flight} (h : ∀ cut, flight.step.shape ≠ .split cut)
    (clock : Clock) (sink : σ) :
    flight.offer clock sink = Sink.send flight.bytes clock sink := by
  unfold offer
  split
  · next cut hshape => exact absurd hshape (h cut)
  · rfl

/-- In `Run.submit` only the sink changes, as `Flight.offer` says. -/
theorem submit_eq (flight : Flight) (clock : Clock) (run : Run σ) :
    run.submit flight clock =
      ((flight.offer clock run.sink).1, (flight.offer clock run.sink).2.1,
        { run with sink := (flight.offer clock run.sink).2.2 }) := by
  unfold submit Flight.offer
  cases flight.step.shape <;> rfl

/-- Neither `submit` nor `settle` touches the plan. -/
theorem plan_of_landed {flight : Flight} {clock later : Clock} {flying landed settled : Run σ}
    {reply : Reply} {outcome : Settled}
    (hsubmit : flying.submit flight clock = (reply, later, landed))
    (hsettle : landed.settle flight reply later = (outcome, settled)) :
    settled.plan = flying.plan := by
  have hlanded : landed.plan = flying.plan := by
    rw [submit_eq] at hsubmit
    cases hsubmit
    rfl
  have hsettled := plan_settle flight reply later landed
  rw [hsettle, hlanded] at hsettled
  exact hsettled

/-- By `toEnd`, a run goes from turn to turn: it ends, or it makes a write, and after that it ends,
or it makes its pause and goes on. -/
theorem toEnd_eq (clock : Clock) (run : Run σ) :
    run.toEnd clock =
      match run.turn clock with
      | .over => (.ok run.endingOf, clock, run.close)
      | .failed (.encoding cause) => (.error (.encoding cause), clock, run.close)
      | .failed (.payload cause) => (.error (.payload cause), clock, run)
      | .write flight flying =>
        match flying.submit flight clock with
        | (reply, later, landed) =>
          match landed.settle flight reply later with
          | (.over, settled) => (.ok settled.endingOf, later, settled.close)
          | (.lost, settled) => (.ok .transportFailed, later, settled.close)
          | (.goOn, settled) => settled.toEnd (settled.pause later) := by
  rw [toEnd]
  split
  · next hturn => rw [hturn]
  · next hturn => rw [hturn]
  · next hturn => rw [hturn]
  · next flight flying hturn =>
    split
    next hsubmit =>
    split
    all_goals
      next hsettle => simp only [hturn, hsubmit, hsettle]

theorem toEnd_of_over {clock : Clock} {run : Run σ} (h : run.turn clock = .over) :
    run.toEnd clock = (.ok run.endingOf, clock, run.close) := by
  rw [toEnd_eq, h]

/-- After a write a run ends as `settle` says, or it makes its `pause` and goes on. -/
theorem toEnd_of_write {clock later : Clock} {run flying landed : Run σ} {flight : Flight}
    {reply : Reply} (h : run.turn clock = .write flight flying)
    (hsubmit : flying.submit flight clock = (reply, later, landed)) :
    run.toEnd clock =
      match landed.settle flight reply later with
      | (.over, settled) => (.ok settled.endingOf, later, settled.close)
      | (.lost, settled) => (.ok .transportFailed, later, settled.close)
      | (.goOn, settled) => settled.toEnd (settled.pause later) := by
  rw [toEnd_eq, h]
  simp only [hsubmit]

/-- A run whose write is taken makes its `pause` and goes on as `sent`. -/
theorem toEnd_of_sent {clock later : Clock} {run : Run σ} {flight : Flight} {plan : Plan} {sink : σ}
    (hturn : run.turn clock = .write flight (run.flying flight plan))
    (hoffer : flight.offer clock run.sink = (.ok (), later, sink)) :
    run.toEnd clock =
      (run.sent flight plan sink).toEnd ((run.sent flight plan sink).pause later) := by
  have hsubmit : (run.flying flight plan).submit flight clock =
      (.ok (), later, { run.flying flight plan with sink }) := by
    rw [submit_eq, flying, hoffer]
  rw [toEnd_of_write hturn hsubmit]
  rfl

/-- A run whose write fails while the sink stays open makes its `pause` and goes on as `failed`. -/
theorem toEnd_of_failed {clock later : Clock} {run : Run σ} {flight : Flight} {plan : Plan}
    {sink : σ} {e : TransportError}
    (hturn : run.turn clock = .write flight (run.flying flight plan))
    (hoffer : flight.offer clock run.sink = (.error e, later, sink))
    (hclock : later.stopped = false) (hopen : Sink.isOpen later sink = true) :
    run.toEnd clock =
      (run.failed flight plan sink).toEnd ((run.failed flight plan sink).pause later) := by
  have hsubmit : (run.flying flight plan).submit flight clock =
      (.error e, later, { run.flying flight plan with sink }) := by
    rw [submit_eq, flying, hoffer]
  have hsettle : ({ run.flying flight plan with sink } : Run σ).settle flight (.error e) later =
      (.goOn, run.failed flight plan sink) := by
    simp only [settle, hclock, hopen, Bool.false_eq_true, if_false, if_true]
    rfl
  rw [toEnd_of_write hturn hsubmit, hsettle]

/-- A run that loses its sink with a write has its `writeOff` of what remains, and ends as
`transportFailed`. -/
theorem toEnd_of_lost {clock later : Clock} {run : Run σ} {flight : Flight} {plan : Plan} {sink : σ}
    {e : TransportError} (hturn : run.turn clock = .write flight (run.flying flight plan))
    (hoffer : flight.offer clock run.sink = (.error e, later, sink))
    (hclock : later.stopped = false) (hclosed : Sink.isOpen later sink = false) :
    run.toEnd clock =
      (.ok .transportFailed, later, (run.failed flight plan sink).writeOff.close) := by
  have hsubmit : (run.flying flight plan).submit flight clock =
      (.error e, later, { run.flying flight plan with sink }) := by
    rw [submit_eq, flying, hoffer]
  have hsettle : ({ run.flying flight plan with sink } : Run σ).settle flight (.error e) later =
      (.lost, (run.failed flight plan sink).writeOff) := by
    simp only [settle, hclock, hclosed, Bool.false_eq_true, if_false]
    rfl
  rw [toEnd_of_write hturn hsubmit, hsettle]

end Run

end Volley
