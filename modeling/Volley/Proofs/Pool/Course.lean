import Mathlib.Logic.Relation
import Volley.Pool.Basic

/-!
# The course of a pool

Between two waits a worker does everything at once, but nothing says which worker is the next to
wake, nor when: a write may hang, a session may take its time to open, the deadline may come first.
This module has all the orders in which the parts of a run can take their steps.

When the run has returned, the workers that it has given up go on. They are still part of its
course.

## Main definitions

* `Pool.Course`: a pool, and what its run has returned.
* `Pool.Course.Moves`: what can happen next.
* `Pool.Course.Reaches`: what can come of a course.

## Main results

* `Pool.wake_cases`: what can come of waking a worker.
* `Pool.Course.exists_returned`: a run can be brought to its end from every place.
-/

namespace Volley.Pool

variable {σ : Type}

/-- A `pool`, and what its run has `returned`, once it has. -/
structure Course (σ : Type) where
  pool : Pool σ
  returned : Option (Except Failure Tally)

namespace Course

/-- A run at its start. If a scenario breaks a rule, by `firstInvalid?`, it has `returned` at once.
-/
def launch (policy : Policy) (tally : Tally) (jobs : List Job) : Course σ :=
  match firstInvalid? jobs with
  | some (workerId, cause) =>
    ⟨start policy tally [], some (.error (.invalidScenario workerId cause))⟩
  | none => ⟨start policy tally jobs, none⟩

variable [Sink σ]

/-- What can happen next to a run: time passes, the signal is raised, a worker wakes, or it returns.
-/
inductive Moves : Course σ → Course σ → Prop where
  /-- Time passes. -/
  | pass (pool : Pool σ) (returned : Option (Except Failure Tally)) {moment : Nat}
      (hle : pool.clock.now ≤ moment) :
      Moves ⟨pool, returned⟩ ⟨{ pool with clock.now := moment }, returned⟩
  /-- The stop signal is raised: at the deadline, or by the run that has found a `fault`. Nothing
  says how soon it finds one, and others can `wake` before that. -/
  | raise (pool : Pool σ) (returned : Option (Except Failure Tally)) :
      Moves ⟨pool, returned⟩ ⟨{ pool with clock := pool.clock.raise }, returned⟩
  /-- A worker runs to its next wait. -/
  | wake (pool : Pool σ) (returned : Option (Except Failure Tally))
      (surroundings : Surroundings σ) (i : Nat) :
      Moves ⟨pool, returned⟩ ⟨pool.wake surroundings i, returned⟩
  /-- The run returns: all workers are done, or it gives up those that are not. -/
  | finish (pool : Pool σ) (hend : pool.isOver = true ∨ pool.clock.stopped = true) :
      Moves ⟨pool, none⟩ ⟨pool.sweep, some pool.sweep.totals⟩

/-- What can come of a course by any number of `Moves`. -/
def Reaches (first later : Course σ) : Prop :=
  Relation.ReflTransGen Moves first later

theorem Reaches.refl (course : Course σ) : course.Reaches course :=
  Relation.ReflTransGen.refl

theorem Reaches.trans {first second third : Course σ} (h : first.Reaches second)
    (h' : second.Reaches third) : first.Reaches third :=
  Relation.ReflTransGen.trans h h'

theorem Reaches.of_moves {first later : Course σ} (h : Moves first later) : first.Reaches later :=
  Relation.ReflTransGen.single h

end Course

/-! ## The sweep -/

/-- What holds of `0` and the pool at the start of a `sweep`, and is kept by the report of each
place, holds of `workers.length` and the pool at its end. -/
theorem sweep_induction (P : Nat → Pool σ → Prop) (pool : Pool σ) (hstart : P 0 pool)
    (hreport : ∀ i swept worker, P i swept → swept.workers[i]? = some worker →
      P (i + 1) (swept.report i worker .abandoned))
    (hnone : ∀ i swept, P i swept → swept.workers[i]? = none → P (i + 1) swept) :
    P pool.workers.length pool.sweep := by
  unfold sweep
  generalize pool.workers.length = n
  induction n with
  | zero => exact hstart
  | succ n ih =>
    rw [List.range_succ, List.foldl_append, List.foldl_cons, List.foldl_nil]
    split
    · next worker hat => exact hreport n _ worker ih hat
    · next hat => exact hnone n _ ih hat

/-! ## The step of one worker -/

/-- A worker that wakes is let `enter`, or has its move by `Pool.apply`, or nothing happens. -/
theorem wake_cases [Sink σ] (surroundings : Surroundings σ) (i : Nat) (pool : Pool σ) :
    pool.wake surroundings i = pool ∨
      (∃ worker, pool.workers[i]? = some worker ∧ worker.stage = .queued ∧
        pool.wake surroundings i = pool.enter i worker) ∨
      ∃ worker move, pool.workers[i]? = some worker ∧
        worker.wake surroundings pool.clock = some move ∧
        pool.wake surroundings i = pool.apply i move := by
  unfold wake
  split
  · exact .inl rfl
  · next worker hat =>
    split
    · next hstage => exact .inr (.inl ⟨worker, hat, hstage, rfl⟩)
    · split
      · next move hmove => exact .inr (.inr ⟨worker, move, hat, hmove, rfl⟩)
      · exact .inl rfl

theorem clock_report (pool : Pool σ) (i : Nat) (worker : Worker σ) (outcome : Outcome) :
    (pool.report i worker outcome).clock = pool.clock := by
  unfold report
  split <;> rfl

theorem clock_enter (pool : Pool σ) (i : Nat) (worker : Worker σ) :
    (pool.enter i worker).clock = pool.clock := by
  unfold enter
  split
  · rfl
  · split
    · exact clock_report pool i _ _
    · rfl

theorem clock_apply (pool : Pool σ) (i : Nat) (move : Move σ) :
    (pool.apply i move).clock = pool.clock := by
  cases move with
  | waits worker => rfl
  | leaves worker outcome => exact clock_report pool i worker outcome
  | aborts worker cause => rfl
  | dies worker => rfl

/-- No worker moves the `clock` of the pool: not the time, and not the stop signal. -/
theorem clock_wake [Sink σ] (surroundings : Surroundings σ) (i : Nat) (pool : Pool σ) :
    (pool.wake surroundings i).clock = pool.clock := by
  rcases pool.wake_cases surroundings i with
    hsame | ⟨worker, -, -, henter⟩ | ⟨worker, move, -, -, hmove⟩
  · rw [hsame]
  · rw [henter, clock_enter]
  · rw [hmove, clock_apply]

theorem clock_sweep (pool : Pool σ) : pool.sweep.clock = pool.clock := by
  refine sweep_induction (fun _ swept => swept.clock = pool.clock) pool rfl ?_ ?_
  · intro i swept worker hswept hat
    rw [clock_report, hswept]
  · intro i swept hswept hnone
    exact hswept

theorem stopAt_raise (clock : Clock) : clock.raise.stopAt.isSome = true := by
  rw [Clock.raise, Clock.raiseIn]
  split <;> rfl

theorem fault_report (pool : Pool σ) (i : Nat) (worker : Worker σ) (outcome : Outcome) :
    (pool.report i worker outcome).fault = pool.fault := by
  unfold report
  split <;> rfl

theorem fault_enter (pool : Pool σ) (i : Nat) (worker : Worker σ) :
    (pool.enter i worker).fault = pool.fault := by
  unfold enter
  split
  · rfl
  · split
    · exact fault_report pool i _ _
    · rfl

/-- A `fault` is not forgotten, whoever wakes. -/
theorem fault_wake [Sink σ] {surroundings : Surroundings σ} {i : Nat} {pool : Pool σ}
    (h : pool.fault.isSome = true) : (pool.wake surroundings i).fault.isSome = true := by
  rcases pool.wake_cases surroundings i with
    hsame | ⟨worker, -, -, henter⟩ | ⟨worker, move, -, -, hmove⟩
  · rw [hsame]
    exact h
  · rw [henter, fault_enter]
    exact h
  · rw [hmove]
    cases move with
    | waits worker => exact h
    | leaves worker outcome =>
      show (pool.report i worker outcome).fault.isSome = true
      rw [fault_report]
      exact h
    | aborts worker cause => rfl
    | dies worker => exact h

theorem fault_sweep (pool : Pool σ) : pool.sweep.fault = pool.fault := by
  refine sweep_induction (fun _ swept => swept.fault = pool.fault) pool rfl ?_ ?_
  · intro i swept worker hswept hat
    rw [fault_report, hswept]
  · intro i swept hswept hnone
    exact hswept

/-! ## The course -/

namespace Course

variable [Sink σ]

/-- A `stopAt` that the clock has is not taken off it while a run takes its course. -/
theorem stopAt_of_reaches {first later : Course σ} (h : first.Reaches later)
    (hstop : first.pool.clock.stopAt.isSome = true) :
    later.pool.clock.stopAt.isSome = true := by
  induction h with
  | refl => exact hstop
  | tail hreaches hmoves ih =>
    cases hmoves with
    | pass => exact ih
    | raise => exact stopAt_raise _
    | wake pool returned surroundings i =>
      rw [clock_wake]
      exact ih
    | finish => exact (clock_sweep _).symm ▸ ih

/-- Whatever its workers do, a run can be brought to the point where it has `returned`. -/
theorem exists_returned (course : Course σ) :
    ∃ later : Course σ, course.Reaches later ∧ later.returned.isSome = true := by
  obtain ⟨pool, returned⟩ := course
  cases returned with
  | some result => exact ⟨_, .refl _, rfl⟩
  | none =>
    -- Once the signal has been raised, the pool need not wait for anybody.
    let raised : Pool σ := { pool with clock := pool.clock.raise }
    have hstopped : raised.clock.stopped = true := Clock.stopped_raise pool.clock
    refine ⟨⟨raised.sweep, some raised.sweep.totals⟩, ?_, rfl⟩
    exact (Reaches.of_moves (.raise pool none)).trans (.of_moves (.finish raised (.inr hstopped)))

end Course

end Volley.Pool
