import Volley.Stop
import Volley.Proofs.Sink.Punctual

/-!
# The signal and the clock

`Stop` is the stop signal as its handle and its observers have it. A run has it on its `Clock`,
which tells when the signal is raised even before it is: `Clock.stopAt`. Here the two are brought
together. Whatever is asked of a handle and its observers, `Stop.raised` is `Clock.stopped`, and a
`Clock` that knows the moment of the raise in advance tells the same at every other moment.

## Main definitions

* `Stop.Call`, `Stop.perform`: what is asked of a handle and its observers, and what a `Clock` makes
  of it.
* `Stop.Agrees`: a `Stop` and a `Clock` tell the same, and nothing is arranged for later.
* `Supervisor.observer`: what a supervisor watches, by `Supervisor.listens`.

## Main results

* `Stop.agrees_performAll`: a `Stop` and its `Clock` agree after any number of calls.
* `Stop.stopped_of_foretold`: so do they if the `Clock` knows of the raise in advance.
* `Stop.Agrees.stopped_supervisor`: `Supervisor.stopped` is what its observer sees.
* `Stop.Agrees.waitOrStop_eq`, `Stop.Agrees.waitOrStop_raiseIn`: `Clock.waitOrStop` is `Stop.wait`,
  also when the signal is raised meanwhile.
-/

namespace Volley

/-- What a supervisor watches: the signal of the run if `Supervisor.listens`, else nothing. -/
def Supervisor.observer {σ : Type} (supervisor : Supervisor σ) : Stop.Observer :=
  if supervisor.listens then .linked else .never

/-- Raising a signal that has been raised leaves `stopAt` as it is. -/
theorem Clock.raise_of_stopped {clock : Clock} (h : clock.stopped = true) :
    clock.raise = clock := by
  obtain ⟨now, stopAt⟩ := clock
  cases stopAt with
  | none => cases h
  | some moment =>
    simp only [stopped, decide_eq_true_eq] at h
    simp only [raise, raiseIn, timer_zero, Nat.add_zero, Nat.min_eq_left h]

namespace Stop

variable {stop : Stop} {clock : Clock}

/-! ## Calls -/

/-- What can be asked of a handle and its observers. -/
inductive Call where
  | raise
  | subscribe
  | clone (index : Nat)
  | addNever
  | dropHandle
  | wait (index span : Nat)
  deriving DecidableEq, Repr

/-- What a `Call` makes of a handle with its observers, and of the `Clock` of their run. -/
def perform : Stop × Clock → Call → Stop × Clock
  | (stop, clock), .raise => (stop.raise.2, if stop.held then clock.raise else clock)
  | (stop, clock), .subscribe => (stop.subscribe, clock)
  | (stop, clock), .clone index => (stop.clone index, clock)
  | (stop, clock), .addNever => (stop.addNever, clock)
  | (stop, clock), .dropHandle => (stop.dropHandle, clock)
  | (stop, clock), .wait index span => (stop, (stop.wait index span clock).2)

/-- A `Stop` and its `Clock` after one call after the other. -/
def performAll (calls : List Call) (both : Stop × Clock) : Stop × Clock :=
  calls.foldl perform both

theorem performAll_cons (call : Call) (calls : List Call) (both : Stop × Clock) :
    performAll (call :: calls) both = performAll calls (perform both call) := rfl

theorem performAll_append (calls more : List Call) (both : Stop × Clock) :
    performAll (calls ++ more) both = performAll more (performAll calls both) :=
  List.foldl_append

/-- An observer that `sees` the signal does not wait for it. -/
theorem wait_of_sees {index span : Nat} (h : stop.sees index = true) :
    stop.wait index span clock = (true, clock) :=
  if_pos h

/-- One that does not waits for all of its `span`. -/
theorem wait_of_sees_eq_false {index span : Nat} (h : stop.sees index = false) :
    stop.wait index span clock = (false, clock.advance span) := by
  rw [wait, h]
  rfl

/-! ## Agreement -/

/-- A `Stop` and a `Clock` tell the same: a signal that has been raised is `Clock.stopped`, and one
that has not been raised is not arranged to be. -/
structure Agrees (stop : Stop) (clock : Clock) : Prop where
  of_raised : stop.raised = true → clock.stopped = true
  of_lowered : stop.raised = false → clock.stopAt = none

/-- A new `channel` agrees with `Clock.start`. -/
theorem agrees_channel : channel.Agrees Clock.start :=
  ⟨nofun, fun _ => rfl⟩

namespace Agrees

/-- The moment of a signal that has been raised is on the `Clock` and has come. -/
theorem exists_stopAt (h : stop.Agrees clock) (hraised : stop.raised = true) :
    ∃ moment, clock.stopAt = some moment ∧ moment ≤ clock.now := by
  have hstopped := h.of_raised hraised
  unfold Clock.stopped at hstopped
  split at hstopped
  · next moment hmoment => exact ⟨moment, hmoment, of_decide_eq_true hstopped⟩
  · cases hstopped

/-- What `Agrees` comes to in short: `Clock.stopped` is `Stop.raised`. -/
theorem stopped_eq (h : stop.Agrees clock) : clock.stopped = stop.raised := by
  cases hraised : stop.raised with
  | true => exact h.of_raised hraised
  | false => rw [Clock.stopped, h.of_lowered hraised]

/-- Only `Stop.raised` matters to `Agrees`: handle and observers make no difference. -/
theorem congr {other : Stop} (h : stop.Agrees clock) (hraised : other.raised = stop.raised) :
    other.Agrees clock :=
  ⟨fun hother => h.of_raised (hraised ▸ hother), fun hother => h.of_lowered (hraised ▸ hother)⟩

/-- `Stop.raise` is `Clock.raise` for as long as the handle is `held`, and nothing after that. -/
theorem raise (h : stop.Agrees clock) :
    stop.raise.2.Agrees (if stop.held then clock.raise else clock) := by
  cases hheld : stop.held with
  | true =>
    have hraised : stop.raise.2.raised = true := by
      rw [Stop.raise, hheld, Bool.or_true]
    refine ⟨fun _ => Clock.stopped_raise clock, fun hlowered => ?_⟩
    rw [hraised] at hlowered
    cases hlowered
  | false => exact h.congr (by rw [Stop.raise, hheld, Bool.or_false])

theorem advance (h : stop.Agrees clock) (span : Nat) : stop.Agrees (clock.advance span) :=
  ⟨fun hraised => (clock.precedes_advance span).stopped (h.of_raised hraised), h.of_lowered⟩

theorem wait (h : stop.Agrees clock) (index span : Nat) :
    stop.Agrees (stop.wait index span clock).2 := by
  unfold Stop.wait
  split
  · exact h
  · exact h.advance span

/-- A `Stop` and a `Clock` that agree do so after one `Call` more. -/
theorem perform (h : stop.Agrees clock) (call : Call) :
    (perform (stop, clock) call).1.Agrees (Stop.perform (stop, clock) call).2 := by
  cases call with
  | raise => exact h.raise
  | subscribe =>
    refine h.congr ?_
    show stop.subscribe.raised = stop.raised
    unfold subscribe
    split <;> rfl
  | clone index => exact h.congr rfl
  | addNever => exact h.congr rfl
  | dropHandle => exact h.congr rfl
  | wait index span => exact h.wait index span

theorem performAll (h : stop.Agrees clock) (calls : List Call) :
    (performAll calls (stop, clock)).1.Agrees (Stop.performAll calls (stop, clock)).2 := by
  induction calls generalizing stop clock with
  | nil => exact h
  | cons call calls ih => exact ih (h.perform call)

/-! ## What observers see -/

/-- What an observer `sees`, as it is read off the `Clock`. -/
theorem sees_eq (h : stop.Agrees clock) (index : Nat) :
    stop.sees index = (clock.stopped && decide (stop.observers[index]? = some .linked)) := by
  rw [h.stopped_eq, sees]
  split
  · next hlinked => simp only [hlinked, decide_true, Bool.and_true]
  · next hother => rw [decide_eq_false hother, Bool.and_false]

/-- `Supervisor.stopped` is what its observer `sees`. -/
theorem stopped_supervisor {σ : Type} {supervisor : Supervisor σ} (h : stop.Agrees clock)
    {index : Nat} (hat : stop.observers[index]? = some supervisor.observer) :
    supervisor.stopped clock = stop.sees index := by
  rw [h.sees_eq, hat, Supervisor.stopped, Supervisor.observer, Bool.and_comm]
  cases supervisor.listens <;> rfl

/-- A wait on the `Clock` is a `Stop.wait` of an observer that watches the handle. A span of zero is
left out: its timer has run out at once, and the signal may have been raised at the same moment. -/
theorem waitOrStop_eq (h : stop.Agrees clock) {index span : Nat}
    (hlinked : stop.observers[index]? = some .linked) (hspan : 0 < span) :
    clock.waitOrStop span =
      (!(stop.wait index span clock).1, (stop.wait index span clock).2) := by
  have hsees : stop.sees index = stop.raised := by rw [sees, hlinked]
  cases hraised : stop.raised with
  | false =>
    rw [wait_of_sees_eq_false (hsees.trans hraised)]
    simp only [Clock.waitOrStop, h.of_lowered hraised, Bool.not_false]
  | true =>
    obtain ⟨moment, hmoment, hpast⟩ := h.exists_stopAt hraised
    have htimer : 0 < Clock.timer span := Nat.lt_min.mpr ⟨hspan, by decide⟩
    have hsoon : moment < clock.now + Clock.timer span := by omega
    rw [wait_of_sees (hsees.trans hraised)]
    obtain ⟨now, stopAt⟩ := clock
    cases hmoment
    simp only [Clock.waitOrStop, if_pos hsoon, Nat.max_eq_left hpast, Bool.not_true]

/-- The pause of a supervisor is a `Stop.wait` of its observer. -/
theorem waitBackoff_eq {σ : Type} {supervisor : Supervisor σ} (h : stop.Agrees clock) {index : Nat}
    (hat : stop.observers[index]? = some supervisor.observer) (hspan : 0 < supervisor.backoff) :
    supervisor.waitBackoff clock =
      (!(stop.wait index supervisor.backoff clock).1,
        (stop.wait index supervisor.backoff clock).2) := by
  rw [Supervisor.waitBackoff]
  split
  · next hlistens =>
    rw [Supervisor.observer, if_pos hlistens] at hat
    exact h.waitOrStop_eq hat hspan
  · next hlistens =>
    rw [Supervisor.observer, if_neg hlistens] at hat
    have hsees : stop.sees index = false := by rw [sees, hat]
    rw [wait_of_sees_eq_false hsees]
    rfl

/-- If the handle raises the signal while an observer waits, `Clock.waitOrStop` ends there and then:
the `Clock` that has it arranged by `Clock.raiseIn` comes to the moment of the raise, and there the
observer sees it. -/
theorem waitOrStop_raiseIn (h : stop.Agrees clock) {index early span : Nat}
    (hlinked : stop.observers[index]? = some .linked) (hheld : stop.held = true)
    (hlowered : stop.raised = false) (hearly : Clock.timer early < Clock.timer span) :
    let later := (clock.advance early).raise
    (clock.raiseIn early).waitOrStop span = (false, later) ∧
      stop.raise.2.Agrees later ∧ stop.raise.2.wait index span later = (true, later) := by
  intro later
  have hagrees : stop.raise.2.Agrees later := by
    have hraise := (h.advance early).raise
    rwa [if_pos hheld] at hraise
  refine ⟨?_, hagrees, ?_⟩
  · have hsoon : clock.now + Clock.timer early < clock.now + Clock.timer span :=
      Nat.add_lt_add_left hearly clock.now
    simp only [later, Clock.raiseIn, Clock.raise, Clock.advance, h.of_lowered hlowered,
      Clock.waitOrStop, if_pos hsoon, Clock.timer_zero, Nat.add_zero,
      Nat.max_eq_right (Nat.le_add_right clock.now (Clock.timer early))]
  · have hsees : stop.raise.2.sees index = true := by
      rw [hagrees.sees_eq, Clock.stopped_raise]
      simp only [Stop.raise, hlinked, decide_true, Bool.and_true]
    exact wait_of_sees hsees

end Agrees

/-- After any number of calls of a new handle and its observers, `Clock.stopped` is `Stop.raised`,
and what an observer `sees` if it watches the handle. -/
theorem agrees_performAll (calls : List Call) :
    let later := performAll calls (channel, Clock.start)
    later.2.stopped = later.1.raised ∧
      ∀ index, later.1.sees index =
        (later.2.stopped && decide (later.1.observers[index]? = some .linked)) := by
  intro later
  have h : later.1.Agrees later.2 := agrees_channel.performAll calls
  exact ⟨h.stopped_eq, h.sees_eq⟩

/-! ## A signal that is foretold -/

/-- A call leaves `Clock.stopAt` as it is, or it is the one that raises the signal, now. -/
theorem Agrees.stopAt_perform (h : stop.Agrees clock) (call : Call) :
    clock.now ≤ (Stop.perform (stop, clock) call).2.now ∧
      ((Stop.perform (stop, clock) call).2.stopAt = clock.stopAt ∨
        clock.stopAt = none ∧ (Stop.perform (stop, clock) call).2.stopAt = some clock.now) := by
  cases call with
  | raise =>
    simp only [Stop.perform]
    split
    · cases hraised : stop.raised with
      | true =>
        rw [Clock.raise_of_stopped (h.of_raised hraised)]
        exact ⟨Nat.le_refl _, .inl rfl⟩
      | false =>
        have hnone := h.of_lowered hraised
        simp only [Clock.raise, Clock.raiseIn, hnone]
        exact ⟨Nat.le_refl _, .inr ⟨trivial, rfl⟩⟩
    · exact ⟨Nat.le_refl _, .inl rfl⟩
  | wait index span =>
    simp only [Stop.perform, Stop.wait]
    split
    · exact ⟨Nat.le_refl _, .inl rfl⟩
    · exact ⟨Nat.le_add_right _ _, .inl rfl⟩
  | subscribe | clone | addNever | dropHandle => exact ⟨Nat.le_refl _, .inl rfl⟩

/-- Whatever is still called, a moment in `Clock.stopAt` stays, and one that is not there yet will
not lie in the past. -/
theorem Agrees.stopAt_performAll (h : stop.Agrees clock) (calls : List Call) :
    (Stop.performAll calls (stop, clock)).2.stopAt = clock.stopAt ∨
      clock.stopAt = none ∧
        ∃ moment, (Stop.performAll calls (stop, clock)).2.stopAt = some moment ∧
          clock.now ≤ moment := by
  induction calls generalizing stop clock with
  | nil => exact .inl rfl
  | cons call calls ih =>
    rw [performAll_cons]
    obtain ⟨hnow, hcall⟩ := h.stopAt_perform call
    rcases ih (h.perform call) with hsame | ⟨hnone, moment, hmoment, hle⟩
    · -- Nothing is raised after this call, so it is this one or none.
      rcases hcall with hkept | ⟨hbefore, hraise⟩
      · exact .inl (hsame.trans hkept)
      · exact .inr ⟨hbefore, clock.now, hsame.trans hraise, Nat.le_refl _⟩
    · rcases hcall with hkept | ⟨-, hraise⟩
      · exact .inr ⟨hkept ▸ hnone, moment, hmoment, Nat.le_trans hnow hle⟩
      · rw [hraise] at hnone
        cases hnone

/-- A `Clock` that knows from the start when the handle will raise the signal, if it ever does, is
`stopped` at any point between the calls iff the signal has been raised there. Only at the very
moment of the raise the `Clock` cannot tell before from after. -/
theorem stopped_of_foretold (calls more : List Call) :
    let before := performAll calls (channel, Clock.start)
    let stopAt := (performAll (calls ++ more) (channel, Clock.start)).2.stopAt
    (before.1.raised = false → stopAt ≠ some before.2.now) →
      ({ before.2 with stopAt } : Clock).stopped = before.1.raised := by
  intro before stopAt htie
  have h : before.1.Agrees before.2 := agrees_channel.performAll calls
  have hstopAt : stopAt = (performAll more before).2.stopAt := by
    simp only [stopAt, performAll_append, before]
  rcases h.stopAt_performAll more with hsame | ⟨hnone, moment, hmoment, hle⟩
  · rw [hstopAt, show (performAll more before).2.stopAt = _ from hsame]
    exact h.stopped_eq
  · -- The signal is yet to be raised, and that at another moment than this.
    have hlowered : before.1.raised = false := by
      rw [← h.stopped_eq, Clock.stopped, hnone]
    have hfuture : stopAt = some moment := hstopAt.trans hmoment
    have hne : moment ≠ before.2.now := by
      rintro rfl
      exact htie hlowered hfuture
    rw [hlowered, hfuture, Clock.stopped]
    have hlt : before.2.now < moment := Nat.lt_of_le_of_ne hle hne.symm
    exact decide_eq_false (Nat.not_le.mpr hlt)

end Stop

end Volley
