import Volley.Session
import Volley.Sink.Recorder

/-!
# Sinks on the clock

A submission may take any time, and it may wait for whatever it likes. It cannot give time back, and
the stop signal is raised by others: when it is raised does not depend on the sink. This holds of
every sink of the program, of a supervisor because it holds of its sessions.

## Main definitions

* `Clock.Precedes`: a later moment of the same run.
* `Supervisor.deliver`: a submission on the session that is held.
* `Sink.Punctual`: a sink whose submissions only take time.

## Main results

* `Clock.Precedes.stopped`: a signal that has been raised stays raised.
* `Supervisor.precedes_ensureConnected`: pauses and attempts only take time.
-/

namespace Volley

namespace Clock

/-- A clock that is not before another one, with the same `stopAt`. -/
structure Precedes (clock later : Clock) : Prop where
  now_le : clock.now ≤ later.now
  stopAt_eq : later.stopAt = clock.stopAt

@[refl]
theorem Precedes.refl (clock : Clock) : clock.Precedes clock :=
  ⟨Nat.le_refl _, rfl⟩

theorem Precedes.trans {first second third : Clock} (h : first.Precedes second)
    (h' : second.Precedes third) : first.Precedes third :=
  ⟨Nat.le_trans h.now_le h'.now_le, h'.stopAt_eq.trans h.stopAt_eq⟩

/-- A clock that comes after one that is `stopped` is `stopped` too: the signal is not lowered
again. -/
theorem Precedes.stopped {clock later : Clock} (h : clock.Precedes later)
    (hstopped : clock.stopped = true) : later.stopped = true := by
  by_cases hlater : later.stopped = true
  · exact hlater
  · -- A signal that is not raised later was not raised before.
    have hbefore := stopped_of_le h.stopAt_eq h.now_le (Bool.eq_false_iff.mpr hlater)
    rw [hbefore] at hstopped
    exact absurd hstopped Bool.false_ne_true

/-- The clock after a `span` in which nobody waits for a timer. -/
def pass (clock : Clock) (span : Nat) : Clock :=
  { clock with now := clock.now + span }

theorem precedes_advance (clock : Clock) (span : Nat) : clock.Precedes (clock.advance span) :=
  ⟨Nat.le_add_right _ _, rfl⟩

/-- Either `waitOrStop` lasts until its `timer` has run out and no signal comes before, or it ends
at the moment of the signal, which does. -/
theorem waitOrStop_cases (clock : Clock) (span : Nat) :
    (clock.waitOrStop span = (true, clock.advance span) ∧
        ∀ moment, clock.stopAt = some moment → clock.now + timer span ≤ moment) ∨
      ∃ moment, clock.stopAt = some moment ∧ moment < clock.now + timer span ∧
        clock.waitOrStop span = (false, { clock with now := max clock.now moment }) := by
  unfold waitOrStop
  cases hstop : clock.stopAt with
  | none => exact Or.inl ⟨rfl, nofun⟩
  | some moment =>
    by_cases hlt : moment < clock.now + timer span
    · exact Or.inr ⟨moment, rfl, hlt, if_pos hlt⟩
    · refine Or.inl ⟨if_neg hlt, ?_⟩
      intro other hother
      cases hother
      exact Nat.le_of_not_lt hlt

theorem precedes_waitOrStop (clock : Clock) (span : Nat) :
    clock.Precedes (clock.waitOrStop span).2 := by
  rcases clock.waitOrStop_cases span with ⟨hwait, -⟩ | ⟨moment, -, -, hwait⟩
  · rw [hwait]
    exact clock.precedes_advance span
  · rw [hwait]
    exact ⟨Nat.le_max_left _ _, rfl⟩

end Clock

/-- A sink whose `send` and `sendSplit` take time and do nothing else to the clock: it `Precedes`
the one after. -/
class Sink.Punctual (σ : Type) [Sink σ] : Prop where
  send : ∀ (bytes : Bytes) (clock : Clock) (sink : σ),
    clock.Precedes (Sink.send bytes clock sink).2.1
  sendSplit : ∀ (bytes : Bytes) (cut : Nat) (clock : Clock) (sink : σ),
    clock.Precedes (Sink.sendSplit bytes cut clock sink).2.1

/-- If a `send` only takes time, so does `sendInTwo`. -/
theorem precedes_sendInTwo {σ : Type} {send : Bytes → Clock → σ → Reply × Clock × σ}
    (hsend : ∀ (bytes : Bytes) (clock : Clock) (sink : σ),
      clock.Precedes (send bytes clock sink).2.1) (bytes : Bytes)
    (cut : Nat) (clock : Clock) (sink : σ) :
    clock.Precedes (sendInTwo send bytes cut clock sink).2.1 := by
  unfold sendInTwo
  split
  · rfl
  · next head tail _ =>
    have hhead := hsend head clock sink
    split
    · next later next hfirst =>
      rw [hfirst] at hhead
      exact hhead.trans (hsend tail later next)
    · next hfirst =>
      rw [hfirst] at hhead
      exact hhead

/-! ## The sinks of the program -/

theorem Recorder.precedes_send (bytes : Bytes) (clock : Clock) (recorder : Recorder) :
    clock.Precedes (recorder.send bytes clock).2.1 := by
  unfold send
  split
  · rfl
  · split <;> rfl

instance : Sink.Punctual Recorder where
  send := Recorder.precedes_send
  sendSplit := precedes_sendInTwo Recorder.precedes_send

section streams

variable {ω : Type} [Writer ω]

theorem precedes_writeWithin (limit : Nat) (bytes : Bytes) (clock : Clock) (writer : ω) :
    clock.Precedes (writeWithin limit bytes clock writer).2.1 := by
  unfold writeWithin
  split
  · rfl
  · rfl
  · split
    · rfl
    · -- The limit passes, whatever the second offer comes to.
      split <;> exact clock.precedes_advance limit

theorem precedes_flushWithin (limit : Nat) (clock : Clock) (writer : ω) :
    clock.Precedes (flushWithin limit clock writer).2.1 := by
  unfold flushWithin
  split
  · rfl
  · rfl
  · split
    · rfl
    · split <;> exact clock.precedes_advance limit

theorem StreamSession.precedes_write (bytes : Bytes) (clock : Clock) (session : StreamSession ω) :
    clock.Precedes (session.write bytes clock).2.1 := by
  have hwrite := precedes_writeWithin session.limit bytes clock session.writer
  unfold write
  split
  · rfl
  · split
    · next hfailed =>
      rw [hfailed] at hwrite
      exact hwrite
    · next later writer hwritten =>
      -- The flush has a limit of its own, which begins when the bytes are written.
      rw [hwritten] at hwrite
      have hflush := precedes_flushWithin session.limit later writer
      split
      all_goals
        next hflushed =>
        rw [hflushed] at hflush
        exact hwrite.trans hflush

instance : Sink.Punctual (StreamSession ω) where
  send := StreamSession.precedes_write
  sendSplit := precedes_sendInTwo StreamSession.precedes_write

end streams

theorem DatagramSession.precedes_send (bytes : Bytes) (clock : Clock) (session : DatagramSession) :
    clock.Precedes (session.send bytes clock).2.1 := by
  unfold send
  split
  · rfl
  · split <;> rfl

instance : Sink.Punctual DatagramSession where
  send := DatagramSession.precedes_send
  sendSplit := precedes_sendInTwo DatagramSession.precedes_send

instance {σ δ : Type} [Sink σ] [Sink δ] [Sink.Punctual σ] [Sink.Punctual δ] :
    Sink.Punctual (Mixed σ δ) where
  send bytes clock pair := by
    show clock.Precedes (pair.send bytes clock).2.1
    unfold Mixed.send
    split
    · exact Sink.Punctual.send bytes clock pair.stream
    · exact Sink.Punctual.send bytes clock pair.datagram
  sendSplit bytes cut clock pair := Sink.Punctual.sendSplit bytes cut clock pair.stream

namespace Supervisor

variable {σ : Type}

/-- Either `waitBackoff` lasts for the `backoff`, or the supervisor `listens`, and it ends at the
moment of the signal, which comes before. -/
theorem waitBackoff_cases (clock : Clock) (supervisor : Supervisor σ) :
    (supervisor.waitBackoff clock = (true, clock.advance supervisor.backoff) ∧
        (supervisor.listens = true → ∀ moment, clock.stopAt = some moment →
          clock.now + Clock.timer supervisor.backoff ≤ moment)) ∨
      (supervisor.listens = true ∧ ∃ moment, clock.stopAt = some moment ∧
        moment < clock.now + Clock.timer supervisor.backoff ∧
        supervisor.waitBackoff clock = (false, { clock with now := max clock.now moment })) := by
  unfold waitBackoff
  by_cases hlistens : supervisor.listens = true
  · rw [if_pos hlistens]
    rcases clock.waitOrStop_cases supervisor.backoff with ⟨hwait, hbefore⟩ | hstop
    · exact Or.inl ⟨hwait, fun _ => hbefore⟩
    · exact Or.inr ⟨hlistens, hstop⟩
  · exact Or.inl ⟨if_neg hlistens, fun h => absurd h hlistens⟩

theorem precedes_waitBackoff (clock : Clock) (supervisor : Supervisor σ) :
    clock.Precedes (supervisor.waitBackoff clock).2 := by
  rcases supervisor.waitBackoff_cases clock with ⟨hwait, -⟩ | ⟨-, moment, -, -, hwait⟩
  · rw [hwait]
    exact clock.precedes_advance supervisor.backoff
  · rw [hwait]
    exact ⟨Nat.le_max_left _ _, rfl⟩

theorem precedes_beginAttempt (clock : Clock) (supervisor : Supervisor σ) :
    clock.Precedes (supervisor.beginAttempt clock).2 := by
  have hwait := supervisor.precedes_waitBackoff clock
  unfold beginAttempt
  split
  · split
    all_goals
      next hpassed =>
      rw [hpassed] at hwait
      exact hwait
  · rfl

theorem precedes_attempt (clock : Clock) (supervisor : Supervisor σ) :
    clock.Precedes (supervisor.attempt clock).2.1 := by
  unfold attempt
  simp only
  split <;> exact clock.precedes_advance _

variable [Sink σ]

/-- Whatever `ensureConnected` goes through, its clock `Precedes` the one after. -/
theorem precedes_ensureConnected (clock : Clock) (supervisor : Supervisor σ) :
    clock.Precedes (supervisor.ensureConnected clock).2.1 := by
  -- One round is a pause, if one is due, and an attempt; after a failure the search starts over.
  fun_induction ensureConnected clock supervisor with
  | case1 => rfl
  | case2 => rfl
  | case3 clock supervisor _ _ _ hbegin =>
    have hbegan := supervisor.precedes_beginAttempt clock
    rw [hbegin] at hbegan
    exact hbegan
  | case4 clock supervisor _ _ begun started hbegin later next hattempt =>
    have hbegan := supervisor.precedes_beginAttempt clock
    have hmade := begun.precedes_attempt started
    rw [hbegin] at hbegan
    rw [hattempt] at hmade
    exact hbegan.trans hmade
  | case5 clock supervisor _ _ begun started hbegin later next hattempt _ ih =>
    have hbegan := supervisor.precedes_beginAttempt clock
    have hmade := begun.precedes_attempt started
    rw [hbegin] at hbegan
    rw [hattempt] at hmade
    exact (hbegan.trans hmade).trans ih

/-- A `submission` on the session that is held; this is what `submit` does after `ensureConnected`.
-/
def deliver (inStep : TransportError → Bool) (submission : Clock → σ → Reply × Clock × σ)
    (clock : Clock) (supervisor : Supervisor σ) : Reply × Clock × Supervisor σ :=
  match supervisor.session with
  | none => (.error .closed, clock, supervisor)
  | some session =>
    match submission clock session with
    | (.ok (), later, left) => (.ok (), later, { supervisor with session := some left })
    | (.error e, later, left) =>
      let left := { supervisor with session := some left }
      (.error e, later, if inStep e then left else left.retire.apply .sendFailed)

/-- A `submit` is `ensureConnected`, and then `deliver` if that succeeds. -/
theorem submit_eq (inStep : TransportError → Bool) (submission : Clock → σ → Reply × Clock × σ)
    (clock : Clock) (supervisor : Supervisor σ) :
    supervisor.submit inStep submission clock =
      match supervisor.ensureConnected clock with
      | (.error e, later, left) => (.error e, later, left)
      | (.ok (), later, held) => held.deliver inStep submission later := by
  unfold submit deliver
  rcases supervisor.ensureConnected clock with ⟨reply, later, held⟩
  rcases reply with e | _
  · rfl
  · simp only
    rcases held.session with _ | session
    · rfl
    · simp only
      rcases submission later session with ⟨e | _, after, left⟩
      · simp only
        split <;> rfl
      · rfl

theorem precedes_deliver {submission : Clock → σ → Reply × Clock × σ}
    (hsubmission : ∀ (clock : Clock) (session : σ),
      clock.Precedes (submission clock session).2.1)
    (inStep : TransportError → Bool) (clock : Clock) (supervisor : Supervisor σ) :
    clock.Precedes (supervisor.deliver inStep submission clock).2.1 := by
  unfold deliver
  split
  · rfl
  · next session _ =>
    have hsubmitted := hsubmission clock session
    split
    all_goals
      next hsubmit =>
      rw [hsubmit] at hsubmitted
      exact hsubmitted

/-- If the `submission` only takes time, so does `submit`. -/
theorem precedes_submit {submission : Clock → σ → Reply × Clock × σ}
    (hsubmission : ∀ (clock : Clock) (session : σ),
      clock.Precedes (submission clock session).2.1)
    (inStep : TransportError → Bool) (clock : Clock) (supervisor : Supervisor σ) :
    clock.Precedes (supervisor.submit inStep submission clock).2.1 := by
  have hensured := supervisor.precedes_ensureConnected clock
  rw [submit_eq]
  rcases hensure : supervisor.ensureConnected clock with ⟨e | _, later, held⟩
  all_goals rw [hensure] at hensured
  · exact hensured
  · exact hensured.trans (held.precedes_deliver hsubmission inStep later)

instance [Sink.Punctual σ] : Sink.Punctual (Supervisor σ) where
  send bytes := precedes_submit (Sink.Punctual.send bytes) _
  sendSplit bytes cut := precedes_submit (Sink.Punctual.sendSplit bytes cut) _

end Supervisor

instance {ω : Type} [Writer ω] : Sink.Punctual (SessionOver ω) where
  send bytes clock session := by
    cases session with
    | stream session => exact Sink.Punctual.send bytes clock session
    | supervised supervisor => exact Sink.Punctual.send bytes clock supervisor
    | datagram session => exact Sink.Punctual.send bytes clock session
    | mixed pair => exact Sink.Punctual.send bytes clock pair
  sendSplit bytes cut clock session := by
    cases session with
    | stream session => exact Sink.Punctual.sendSplit bytes cut clock session
    | supervised supervisor => exact Sink.Punctual.sendSplit bytes cut clock supervisor
    | datagram session => exact Sink.Punctual.sendSplit bytes cut clock session
    | mixed pair => exact Sink.Punctual.sendSplit bytes cut clock pair

end Volley
