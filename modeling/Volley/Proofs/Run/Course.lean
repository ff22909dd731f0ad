import Mathlib.Logic.Relation
import Volley.Proofs.Run.Turns

/-!
# The course of a run

A run waits in three kinds of places: while its sink takes a write, during the pause after a write,
and while its sink is being closed. This module takes a run from one such place to the next, in the
steps of which `Run.toEnd` is made, so that something can be said about its counters whenever
somebody looks at them. At every place the stop signal may be raised from outside, beside what the
clock already knows of it.

## Main definitions

* `Run.Stage`, `Run.Course`: where a run waits, and what it has with it there.
* `Run.Course.advance`: what a run does from one place to the next.
* `Run.Course.Reaches`: what can come of a course while others may raise the signal.

## Main results

* `Run.Course.reaches_toEnd`: the course that nobody interferes with ends as `Run.toEnd` says.
* `Run.Course.exists_returned`: a course can be brought to its end from every place.
-/

namespace Volley.Run

/-- Where a run waits. -/
inductive Stage where
  /-- For its sink to take a write. -/
  | writing (flight : Flight)
  /-- For the end of its pause. -/
  | pausing
  /-- For its sink to be closed; it has its result already. -/
  | closing (result : Except Failure Ending)
  /-- For nothing, as it has returned. -/
  | returned (result : Except Failure Ending)

/-- A run at a place where it waits, its `stage`, with the clock there. -/
structure Course (σ : Type) where
  stage : Stage
  clock : Clock
  run : Run σ

namespace Course

variable {σ : Type}

/-- A run that takes its next `Run.turn`. If a payload cannot be built, it returns without closing
its sink. -/
def depart (clock : Clock) (run : Run σ) : Course σ :=
  match run.turn clock with
  | .over => ⟨.closing (.ok run.endingOf), clock, run⟩
  | .failed (.encoding cause) => ⟨.closing (.error (.encoding cause)), clock, run⟩
  | .failed (.payload cause) => ⟨.returned (.error (.payload cause)), clock, run⟩
  | .write flight flying => ⟨.writing flight, clock, flying⟩

/-- A scenario at the first `Stage` where it waits. -/
def launch (spec : Scenario.Spec) (timestamps : Nat → Int) (sink : σ) (clock : Clock) : Course σ :=
  depart clock (start spec timestamps sink .zero clock)

variable [Sink σ]

/-- A run that has the answer of its sink and takes it by `Run.settle`. -/
def land (flight : Flight) (reply : Reply) (clock : Clock) (run : Run σ) : Course σ :=
  match run.settle flight reply clock with
  | (.over, settled) => ⟨.closing (.ok settled.endingOf), clock, settled⟩
  | (.lost, settled) => ⟨.closing (.ok .transportFailed), clock, settled⟩
  -- Without a pace the pause takes no time, but the signal can still be raised before the next
  -- turn.
  | (.goOn, settled) => ⟨.pausing, clock, settled⟩

/-- What a run does up to the next `Stage` where it waits. -/
def advance (course : Course σ) : Course σ :=
  match course.stage with
  | .writing flight =>
    let (reply, clock, run) := course.run.submit flight course.clock
    land flight reply clock run
  | .pausing => depart (course.run.pause course.clock) course.run
  | .closing result => ⟨.returned result, course.clock, course.run.close⟩
  | .returned _ => course

/-- What can happen next: the run has its `advance`, or somebody raises the signal. -/
inductive Moves : Course σ → Course σ → Prop where
  | advance (course : Course σ) : Moves course course.advance
  | raise (course : Course σ) : Moves course { course with clock := course.clock.raise }

/-- What can come of a course by any number of `Moves`. -/
def Reaches (first later : Course σ) : Prop :=
  Relation.ReflTransGen Moves first later

theorem Reaches.refl (course : Course σ) : course.Reaches course :=
  Relation.ReflTransGen.refl

theorem Reaches.trans {first second third : Course σ} (h : first.Reaches second)
    (h' : second.Reaches third) : first.Reaches third :=
  Relation.ReflTransGen.trans h h'

/-- Whatever a course `Reaches` after its `advance` it reaches. -/
theorem Reaches.of_advance {course later : Course σ} (h : course.advance.Reaches later) :
    course.Reaches later :=
  Relation.ReflTransGen.head (Moves.advance course) h

/-- A sink that is `closing` is closed when the run has `returned`. -/
theorem reaches_close (result : Except Failure Ending) (clock : Clock) (run : Run σ) :
    Reaches ⟨.closing result, clock, run⟩ ⟨.returned result, clock, run.close⟩ :=
  Reaches.of_advance (Reaches.refl _)

/-- The course of a run that nobody interferes with ends as `Run.toEnd` says. -/
theorem reaches_toEnd (clock : Clock) (run : Run σ) :
    Reaches (depart clock run)
      ⟨.returned (run.toEnd clock).1, (run.toEnd clock).2.1, (run.toEnd clock).2.2⟩ := by
  induction hremaining : run.plan.remaining using Nat.strongRecOn generalizing run clock with
  | ind remaining ih =>
    cases hturn : run.turn clock with
    | «over» =>
      simp only [depart, toEnd_eq clock run, hturn]
      exact reaches_close _ clock run
    | failed cause =>
      cases cause with
      | encoding cause =>
        simp only [depart, toEnd_eq clock run, hturn]
        exact reaches_close _ clock run
      | payload cause =>
        simp only [depart, toEnd_eq clock run, hturn]
        exact Reaches.refl _
    | write flight flying =>
      have hlt := remaining_of_turn hturn
      rcases hsubmit : flying.submit flight clock with ⟨reply, later, landed⟩
      rcases hsettle : landed.settle flight reply later with ⟨outcome, settled⟩
      simp only [depart, toEnd_eq clock run, hturn, hsubmit, hsettle]
      -- One step to the answer of the sink, and from there to wherever the run waits next.
      refine Reaches.of_advance ?_
      simp only [advance, land, hsubmit, hsettle]
      cases outcome with
      | «over» => exact reaches_close _ later settled
      | lost => exact reaches_close _ later settled
      | goOn =>
        have hplan := plan_of_landed hsubmit hsettle
        rw [← hplan, hremaining] at hlt
        exact Reaches.of_advance (ih _ hlt _ settled rfl)

/-- From every place a course can be brought to a point where it has `returned`. -/
theorem exists_returned (course : Course σ) :
    ∃ result clock run, course.Reaches ⟨.returned result, clock, run⟩ := by
  obtain ⟨stage, clock, run⟩ := course
  cases stage with
  | writing flight =>
    have hland : ∃ result clock' run',
        Reaches (advance ⟨.writing flight, clock, run⟩) ⟨.returned result, clock', run'⟩ := by
      simp only [advance, land]
      split
      · exact ⟨_, _, _, reaches_close _ _ _⟩
      · exact ⟨_, _, _, reaches_close _ _ _⟩
      · exact ⟨_, _, _, Reaches.of_advance (reaches_toEnd _ _)⟩
    obtain ⟨result, clock', run', hreaches⟩ := hland
    exact ⟨result, clock', run', Reaches.of_advance hreaches⟩
  | pausing => exact ⟨_, _, _, Reaches.of_advance (reaches_toEnd _ run)⟩
  | closing result => exact ⟨result, clock, run.close, reaches_close result clock run⟩
  | returned result => exact ⟨result, clock, run, Reaches.refl _⟩

end Course

end Volley.Run
