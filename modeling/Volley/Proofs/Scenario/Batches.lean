import Volley.Proofs.Scenario.Steps

/-!
# How many events a write has

What a plan hands out depends on random numbers and on the time, and whether it hands out anything
on the sizes of its payloads. How many events the next write has does not: it follows from the
scenario and from the number of events that remain. Two plans of one scenario therefore go in step,
whatever the clock says.

## Main definitions

* `Scenario.Spec.batch`: the number of events in the next write.
* `Plan.Issued`: a plan of a scenario after some number of writes.

## Main results

* `Plan.length_of_next`: a write has as many events as its scenario says.
-/

namespace Volley

namespace Scenario.Spec

/-- The number of events in the next write of `spec`, of which so many are `remaining`: a
`.fragmented` strategy takes `frames` of them, or all if one more is left, and every other strategy
takes one. -/
def batch (spec : Spec) (remaining : Nat) : Nat :=
  match spec.strategy with
  | .fragmented frames _ =>
    let full := max frames.toNat 1
    min (if remaining = full + 1 then full + 1 else full) remaining
  | _ => min 1 remaining

/-- If the strategy is not `.fragmented`, `batch` is one event as long as any remains. -/
theorem batch_eq_min_one {spec : Spec} (remaining : Nat)
    (h : ∀ frames mode, spec.strategy ≠ .fragmented frames mode) :
    spec.batch remaining = min 1 remaining := by
  unfold batch
  split
  · next frames mode hstrategy => exact absurd hstrategy (h frames mode)
  · rfl

/-- As long as something is `remaining`, `batch` is positive. -/
theorem batch_pos (spec : Spec) {remaining : Nat} (h : 0 < remaining) :
    0 < spec.batch remaining := by
  unfold batch
  split
  · refine Nat.lt_min.mpr ⟨?_, h⟩
    split <;> omega
  · exact Nat.lt_min.mpr ⟨Nat.zero_lt_one, h⟩

end Scenario.Spec

namespace Plan

/-- Of the `limit` events that `takeEvents` is asked for it hands out those that remain, and the
spec stays the same. -/
theorem length_of_takeEvents {limit : Nat} {plan later : Plan} {events : List Event}
    (h : plan.takeEvents limit = .ok (events, later)) :
    events.length = min limit plan.remaining ∧ later.spec = plan.spec := by
  induction limit generalizing plan later events with
  | zero =>
    cases h
    exact ⟨(Nat.zero_min _).symm, rfl⟩
  | succ limit ih =>
    obtain ⟨hnone, rfl, rfl⟩ | ⟨event, next, rest, hnext, hrest, rfl⟩ := takeEvents_succ_cases h
    · rw [nextEvent_eq_none_iff.mp hnone]
      exact ⟨(Nat.min_zero _).symm, rfl⟩
    · obtain ⟨hlength, hspec⟩ := ih hrest
      have hone := remaining_of_nextEvent hnext
      refine ⟨?_, hspec.trans (emitted_of_nextEvent hnext).1⟩
      rw [List.length_cons, hlength]
      omega

/-- A step of `next` has as many events as `batch` says, and the spec stays the same. -/
theorem length_of_next {plan later : Plan} {step : Step}
    (h : plan.next = .ok (some (step, later))) :
    step.events.length = plan.spec.batch plan.remaining ∧ later.spec = plan.spec := by
  obtain ⟨frames, mode, taken, hstrategy, htake, -, -, rfl⟩ | ⟨hplain, event, hevent, rfl⟩ :=
    next_cases h
  · obtain ⟨hlength, hspec⟩ := length_of_takeEvents htake
    rw [Scenario.Spec.batch, hstrategy]
    exact ⟨hlength, hspec⟩
  · have hone := remaining_of_nextEvent hevent
    refine ⟨?_, (emitted_of_nextEvent hevent).1⟩
    rw [Scenario.Spec.batch_eq_min_one _ hplain, List.length_singleton]
    omega

/-- A plan of a scenario that has handed out `n` writes, at whatever times. -/
inductive Issued (spec : Scenario.Spec) : Nat → Plan → Prop where
  | start (timestamps : Nat → Int) : Issued spec 0 (Plan.start spec timestamps)
  | next {n : Nat} {plan later : Plan} {step : Step} (h : Issued spec n plan)
      (hnext : plan.next = .ok (some (step, later))) : Issued spec (n + 1) later

/-- The spec of an `Issued` plan is the one that it started with. -/
theorem Issued.spec_eq {spec : Scenario.Spec} {n : Nat} {plan : Plan} (h : Issued spec n plan) :
    plan.spec = spec := by
  induction h with
  | start => rfl
  | next _ hnext ih => exact (length_of_next hnext).2.trans ih

end Plan

end Volley
