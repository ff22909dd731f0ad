/-!
# The clock of a run

Time is an input of every operation, in whole milliseconds, and moves only when everything waits
for a timer. The timers belong to the asynchronous runtime that the program sets its waits with, and
so does their limit, `Clock.longestWait`: the program itself sets none. Beside the moment, `now`,
stands what is known of the stop signal, `stopAt`: whether it has been raised, or when it is going
to be. The signal is never lowered again.
-/

namespace Volley

/-- A moment of a run. -/
structure Clock where
  /-- The milliseconds since the start. -/
  now : Nat
  /-- The moment at which the stop signal is raised, past or to come. -/
  stopAt : Option Nat
  deriving DecidableEq, Repr

namespace Clock

/-- The start of a run in which nobody raises the signal. -/
def start : Clock := ⟨0, none⟩

/-- The longest time that a timer of the runtime runs, thirty years of 365 days, in milliseconds. A
wait for a longer `span` is taken without a complaint and ends after this time; nothing in the
program asks for that. -/
def longestWait : Nat := 946080000000

/-- The time after which a timer of the runtime has run out that is set to `span`. -/
def timer (span : Nat) : Nat :=
  min span longestWait

/-- Whether the stop signal has been raised: `stopAt` is not later than `now`. -/
def stopped (clock : Clock) : Bool :=
  match clock.stopAt with
  | some moment => moment ≤ clock.now
  | none => false

/-- The moment at which a timer has run out that is set to `span`. -/
def advance (clock : Clock) (span : Nat) : Clock :=
  { clock with now := clock.now + timer span }

/-- Arranges for the signal to be raised when a timer that is set to `span` has run out, unless it
is raised sooner. -/
def raiseIn (clock : Clock) (span : Nat) : Clock :=
  match clock.stopAt with
  | some moment => { clock with stopAt := some (min moment (clock.now + timer span)) }
  | none => { clock with stopAt := some (clock.now + timer span) }

/-- Raises the signal now: `raiseIn` with a timer of no time. -/
def raise (clock : Clock) : Clock :=
  clock.raiseIn 0

/-- Waits for a timer that is set to `span`, or until the signal is raised if that comes first. The
answer is `true` if the timer has run out. -/
def waitOrStop (clock : Clock) (span : Nat) : Bool × Clock :=
  match clock.stopAt with
  | some moment =>
    if moment < clock.now + timer span then (false, { clock with now := max clock.now moment })
    else (true, clock.advance span)
  | none => (true, clock.advance span)

@[simp]
theorem stopped_start : start.stopped = false := rfl

/-- Nobody waits longer than a timer is set to. -/
theorem timer_le (span : Nat) : timer span ≤ span :=
  Nat.min_le_left span longestWait

@[simp]
theorem timer_zero : timer 0 = 0 := rfl

@[simp]
theorem stopped_raise (clock : Clock) : clock.raise.stopped = true := by
  cases h : clock.stopAt with
  | none =>
    simp only [raise, raiseIn, stopped, h, decide_eq_true_eq, timer_zero, Nat.add_zero, Nat.le_refl]
  | some moment =>
    simp only [raise, raiseIn, stopped, h, decide_eq_true_eq, timer_zero]
    exact Nat.min_le_right moment clock.now

/-- A `waitOrStop` that was cut short ends with the signal raised. -/
theorem stopped_of_waitOrStop {clock later : Clock} {span : Nat}
    (h : clock.waitOrStop span = (false, later)) : later.stopped = true := by
  unfold waitOrStop at h
  split at h
  · next moment hm =>
    split at h
    · cases h
      simp only [stopped, hm, decide_eq_true_eq]
      exact Nat.le_max_right clock.now moment
    · cases h
  · cases h

/-- If the signal is not raised on the `later` of two clocks, it was not on the other. -/
theorem stopped_of_le {clock later : Clock} (hstop : later.stopAt = clock.stopAt)
    (hle : clock.now ≤ later.now) (h : later.stopped = false) : clock.stopped = false := by
  unfold stopped at h ⊢
  rw [hstop] at h
  cases hmoment : clock.stopAt with
  | none => rfl
  | some moment =>
    simp only [hmoment, decide_eq_false_iff_not] at h ⊢
    omega

end Clock

end Volley
