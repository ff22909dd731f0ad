import Mathlib.Data.Nat.Find
import Volley.Proofs.Sink.Hom
import Volley.Proofs.Supervisor.Lifecycle

/-!
# The sessions of a supervisor

As long as nobody raises the stop signal, a supervisor that needs a session goes through the
attempts of its connector until one succeeds, and then holds the session of that attempt
(`Supervisor.ensureConnected_of_first`). It asks nothing of a session for this, so only the attempts
up to that one matter. A submission is then one submission to the session that is held, whose
failure ends the session (`Supervisor.submit_of_ensured`).

Nothing of this depends on what else a session may know: a map between sessions that commutes with
what can be asked of them is one between their supervisors (`Sink.Hom.supervisor`).

## Main definitions

* `Connector.Follows`: a connector makes certain attempts, up to some number.
* `FirstSession`: which attempt is the first that succeeds.
* `Supervisor.map`: a supervisor of other sessions.

## Main results

* `Supervisor.ensureConnected_of_first`: the first attempt that succeeds gives the session.
* `Supervisor.submit_of_ensured`: what becomes of a submission.
* `Sink.Hom.supervisor`: maps between sessions are maps between their supervisors.
-/

namespace Volley

variable {σ τ : Type}

namespace Supervisor

/-- One turn of `ensureConnected`: without an open session and a raised signal it calls
`beginAttempt`, then `attempt`, and starts over if the attempt fails. -/
theorem ensureConnected_eq [Sink σ] (clock : Clock) (supervisor : Supervisor σ) :
    supervisor.ensureConnected clock =
      if supervisor.holdsOpen clock then (.ok (), clock, supervisor)
      else if supervisor.stopped clock then (.error .closed, clock, supervisor)
      else
        match supervisor.beginAttempt clock with
        | (none, later) => (.error .closed, later, supervisor)
        | (some begun, later) =>
          match begun.attempt later with
          | (true, later, next) => (.ok (), later, next)
          | (false, later, next) => next.ensureConnected later := by
  rw [ensureConnected]
  split
  · rfl
  · split
    · rfl
    · split
      · next hbegin => rw [hbegin]
      · next hbegin =>
        split
        all_goals
          next hattempt => simp only [hbegin, hattempt]

/-! ## Attempts one after the other -/

variable [Sink σ]

/-- If `holdsOpen` is true, `ensureConnected` returns `.ok ()` and changes nothing. -/
theorem ensureConnected_of_holdsOpen {clock : Clock} {supervisor : Supervisor σ}
    (h : supervisor.holdsOpen clock = true) :
    supervisor.ensureConnected clock = (.ok (), clock, supervisor) := by
  rw [ensureConnected_eq, if_pos h]

/-- While `stopAt` is `none`, `ensureConnected` without a session comes to an `attempt` of a
supervisor `begun`, with the same connector and the same sessions in `retired`. -/
theorem ensureConnected_of_none {clock : Clock} {supervisor : Supervisor σ}
    (hstop : clock.stopAt = none) (hnone : supervisor.session = none) :
    ∃ (begun : Supervisor σ) (started : Clock), started.stopAt = none ∧
      begun.connector = supervisor.connector ∧ begun.session = none ∧
      begun.retired = supervisor.retired ∧
      supervisor.ensureConnected clock =
        match begun.attempt started with
        | (true, later, next) => (.ok (), later, next)
        | (false, later, next) => next.ensureConnected later := by
  have hclosed : supervisor.holdsOpen clock = false := by
    rw [holdsOpen, hnone]
    rfl
  have hrunning : supervisor.stopped clock = false := by
    rw [stopped, Clock.stopped_of_stopAt_none hstop, Bool.and_false]
  -- Nothing ends the pause, if there is one.
  have hbegin : ∃ begun started, supervisor.beginAttempt clock = (some begun, started) ∧
      started.stopAt = none ∧ begun.connector = supervisor.connector ∧
      begun.session = supervisor.session ∧ begun.retired = supervisor.retired := by
    have hwait : supervisor.waitBackoff clock = (true, clock.advance supervisor.backoff) := by
      unfold waitBackoff Clock.waitOrStop
      rw [hstop]
      split <;> rfl
    unfold beginAttempt
    rw [hwait]
    split
    · exact ⟨_, _, rfl, hstop, rfl, rfl, rfl⟩
    · exact ⟨_, _, rfl, hstop, rfl, rfl, rfl⟩
  obtain ⟨begun, started, hbegin, hstarted, hconnector, hsession, hretired⟩ := hbegin
  refine ⟨begun, started, hstarted, hconnector, hsession.trans hnone, hretired, ?_⟩
  rw [ensureConnected_eq, hclosed, hrunning, hbegin]
  rfl

/-- If the result of `connector.next` is a session, `ensureConnected` succeeds and holds it. -/
theorem ensureConnected_of_ok {clock : Clock} {supervisor : Supervisor σ} {session : σ}
    (hstop : clock.stopAt = none) (hnone : supervisor.session = none)
    (hresult : supervisor.connector.next.1.result = .ok session) :
    ∃ later held, supervisor.ensureConnected clock = (.ok (), later, held) ∧
      later.stopAt = none ∧ held.session = some session ∧ held.retired = supervisor.retired ∧
      held.connector = supervisor.connector.next.2 := by
  obtain ⟨begun, started, hstarted, hconnector, hsession, hretired, hensure⟩ :=
    ensureConnected_of_none hstop hnone
  rw [← hconnector] at hresult ⊢
  simp only [attempt, hresult] at hensure
  refine ⟨_, _, hensure, hstarted, rfl, ?_, rfl⟩
  show begun.session.toList ++ begun.retired = supervisor.retired
  rw [hsession, hretired]
  rfl

/-- If the result of `connector.next` is an error, `ensureConnected` goes on with a supervisor that
has no session and the connector without that attempt. -/
theorem ensureConnected_of_error {clock : Clock} {supervisor : Supervisor σ} {e : TransportError}
    (hstop : clock.stopAt = none) (hnone : supervisor.session = none)
    (hresult : supervisor.connector.next.1.result = .error e) :
    ∃ (later : Clock) (next : Supervisor σ),
      supervisor.ensureConnected clock = next.ensureConnected later ∧ later.stopAt = none ∧
      next.session = none ∧ next.retired = supervisor.retired ∧
      next.connector = supervisor.connector.next.2 := by
  obtain ⟨begun, started, hstarted, hconnector, hsession, hretired, hensure⟩ :=
    ensureConnected_of_none hstop hnone
  rw [← hconnector] at hresult ⊢
  simp only [attempt, hresult] at hensure
  exact ⟨_, _, hensure, hstarted, hsession, hretired, rfl⟩

/-- What `submit` does once `ensureConnected` has succeeded: the `submission` is made on the session
that is held, and if it fails with an error that is not `inStep`, the session is closed and joins
`retired`. -/
theorem submit_of_ensured {inStep : TransportError → Bool}
    {submission : Clock → σ → Reply × Clock × σ} {clock later : Clock}
    {supervisor held : Supervisor σ} {session : σ}
    (hensure : supervisor.ensureConnected clock = (.ok (), later, held))
    (hsession : held.session = some session) :
    supervisor.submit inStep submission clock =
      match submission later session with
      | (.ok (), after, left) => (.ok (), after, { held with session := some left })
      | (.error e, after, left) =>
        if inStep e then (.error e, after, { held with session := some left })
        else (.error e, after, (retire { held with session := some left }).apply .sendFailed) := by
  unfold submit
  rw [hensure]
  simp only [hsession]
  rcases submission later session with ⟨reply, after, left⟩
  cases reply <;> rfl

/-- After `Sink.close` the `sessions` of a supervisor are those of `retired` and the held one,
closed. -/
theorem sessions_close (supervisor : Supervisor σ) :
    (Sink.close supervisor).sessions =
      supervisor.retired.reverse ++ (supervisor.session.map Sink.close).toList := by
  show ((supervisor.session.map Sink.close).toList ++ supervisor.retired).reverse ++ [] = _
  rw [List.append_nil, List.reverse_append]
  cases supervisor.session <;> rfl

end Supervisor

/-- From here on, a connector makes the attempts number `n` and so on, at least those below `bound`.
-/
def Connector.Follows (connector : Connector σ) (attempts : Nat → Attempt σ) (n bound : Nat) :
    Prop :=
  ∀ k, n + k < bound → connector.attempt k = attempts (n + k)

namespace Connector.Follows

variable {connector : Connector σ} {attempts : Nat → Attempt σ} {n bound : Nat}

theorem next_fst (h : connector.Follows attempts n bound) (hlt : n < bound) :
    connector.next.1 = attempts n := by
  rw [Connector.next_fst]
  exact h 0 hlt

theorem next_snd (h : connector.Follows attempts n bound) :
    connector.next.2.Follows attempts (n + 1) bound := by
  intro k hk
  have hk' : n + (k + 1) < bound := by omega
  rw [attempt_next, h (k + 1) hk']
  congr 1
  omega

/-- A connector that `Follows` the attempts up to `bound` does so up to any `fewer`. -/
theorem mono {fewer : Nat} (h : connector.Follows attempts n bound) (hle : fewer ≤ bound) :
    connector.Follows attempts n fewer :=
  fun k hk => h k (Nat.lt_of_lt_of_le hk hle)

end Connector.Follows

/-- A connector that makes the first `bound` of certain attempts. -/
def Connector.ofAttempts (attempts : Nat → Attempt σ) (bound : Nat) (otherwise : σ) : Connector σ :=
  ⟨(List.range bound).map attempts, otherwise⟩

theorem Connector.attempt_ofAttempts {attempts : Nat → Attempt σ} {n bound : Nat} (h : n < bound)
    (otherwise : σ) : (ofAttempts attempts bound otherwise).attempt n = attempts n := by
  simp [attempt, ofAttempts, List.getD_eq_getElem?_getD, List.getElem?_range h]

/-- Attempt number `m` is the first from number `n` on that succeeds, and this is its session. -/
structure FirstSession (attempts : Nat → Attempt σ) (n m : Nat) (session : σ) : Prop where
  le : n ≤ m
  succeeds : (attempts m).result = .ok session
  first : ∀ k, n ≤ k → k < m → ∃ e, (attempts k).result = .error e

/-- If attempts succeed again and again, there is a `FirstSession` from any number `n` on. -/
theorem exists_firstSession {attempts : Nat → Attempt σ}
    (h : ∀ n, ∃ m, n ≤ m ∧ ∃ session, (attempts m).result = .ok session) (n : Nat) :
    ∃ m session, FirstSession attempts n m session := by
  classical
  obtain ⟨hle, session, hsession⟩ := Nat.find_spec (h n)
  refine ⟨Nat.find (h n), session, hle, hsession, fun k hk hlt => ?_⟩
  cases hresult : (attempts k).result with
  | error e => exact ⟨e, rfl⟩
  | ok session => exact absurd ⟨hk, session, hresult⟩ (Nat.find_min (h n) hlt)

/-- While `stopAt` is `none`, `ensureConnected` without a session gets the `FirstSession` of the
attempts that its connector `Follows`, and the connector that is left follows from `m + 1` on. -/
theorem Supervisor.ensureConnected_of_first [Sink σ] {attempts : Nat → Attempt σ}
    {n m bound : Nat} {session : σ} (hfirst : FirstSession attempts n m session)
    (hbound : m < bound) {supervisor : Supervisor σ}
    (hfollows : supervisor.connector.Follows attempts n bound)
    (hnone : supervisor.session = none) {clock : Clock} (hstop : clock.stopAt = none) :
    ∃ later held, supervisor.ensureConnected clock = (.ok (), later, held) ∧
      later.stopAt = none ∧ held.session = some session ∧ held.retired = supervisor.retired ∧
      held.connector.Follows attempts (m + 1) bound := by
  -- The induction is on the number of attempts that fail before the one that succeeds.
  induction hfailures : m - n generalizing n supervisor clock with
  | zero =>
    obtain rfl : n = m := by
      have hle := hfirst.le
      omega
    have hresult : supervisor.connector.next.1.result = .ok session := by
      rw [hfollows.next_fst hbound, hfirst.succeeds]
    obtain ⟨later, held, hensure, hlater, hsession, hretired, hconnector⟩ :=
      ensureConnected_of_ok hstop hnone hresult
    refine ⟨later, held, hensure, hlater, hsession, hretired, ?_⟩
    rw [hconnector]
    exact hfollows.next_snd
  | succ failures ih =>
    have hlt : n < m := by omega
    obtain ⟨e, he⟩ := hfirst.first n (Nat.le_refl n) hlt
    have hresult : supervisor.connector.next.1.result = .error e := by
      rw [hfollows.next_fst (Nat.lt_trans hlt hbound), he]
    obtain ⟨later, next, hensure, hlater, hsession, hretired, hconnector⟩ :=
      ensureConnected_of_error hstop hnone hresult
    have hnext : next.connector.Follows attempts (n + 1) bound := by
      rw [hconnector]
      exact hfollows.next_snd
    have hrest : FirstSession attempts (n + 1) m session :=
      ⟨hlt, hfirst.succeeds, fun k hk => hfirst.first k (Nat.le_of_succ_le hk)⟩
    rw [hensure, ← hretired]
    exact ih hrest hnext hsession hlater (by omega)

/-! ## Maps between sessions -/

theorem Attempt.result_map_eq_ok_iff {f : σ → τ} {attempt : Attempt σ} {image : τ} :
    (attempt.map f).result = .ok image ↔
      ∃ session, attempt.result = .ok session ∧ f session = image := by
  obtain ⟨delay, result⟩ := attempt
  cases result with
  | error e => simp [map, Except.map]
  | ok session => simp [map, Except.map]

/-- The connector whose attempts yield the images under `f` of the sessions of `connector`. -/
def Connector.map (f : σ → τ) (connector : Connector σ) : Connector τ :=
  ⟨connector.script.map (Attempt.map f), f connector.otherwise⟩

theorem Connector.next_map (f : σ → τ) (connector : Connector σ) :
    (connector.map f).next = connector.next.map (Attempt.map f) (Connector.map f) := by
  obtain ⟨script, otherwise⟩ := connector
  cases script <;> rfl

theorem Connector.attempt_map (f : σ → τ) (connector : Connector σ) (n : Nat) :
    (connector.map f).attempt n = (connector.attempt n).map f := by
  have hotherwise : (⟨0, .ok (f connector.otherwise)⟩ : Attempt τ) =
      Attempt.map f ⟨0, .ok connector.otherwise⟩ := rfl
  simp only [attempt, map, hotherwise, List.getD_eq_getElem?_getD, List.getElem?_map,
    Option.getD_map]

namespace Supervisor

/-- The supervisor with the images under `f` for its sessions, held and `retired`. -/
def map (f : σ → τ) (supervisor : Supervisor σ) : Supervisor τ :=
  { supervisor with
    connector := supervisor.connector.map f
    session := supervisor.session.map f
    retired := supervisor.retired.map f }

variable (f : σ → τ)

theorem beginAttempt_map (clock : Clock) (supervisor : Supervisor σ) :
    (supervisor.map f).beginAttempt clock =
      (supervisor.beginAttempt clock).map (Option.map (map f)) id := by
  have hwait : (supervisor.map f).waitBackoff clock = supervisor.waitBackoff clock := rfl
  have hbackoff : (supervisor.map f).state.needsBackoff = supervisor.state.needsBackoff := rfl
  unfold beginAttempt
  rw [hwait, hbackoff]
  split
  · split <;> rfl
  · rfl

theorem hold_map (session : σ) (supervisor : Supervisor σ) :
    (supervisor.map f).hold (f session) = (supervisor.hold session).map f := by
  obtain ⟨_, _, _, _, held, _, _, _, _, _⟩ := supervisor
  cases held <;> rfl

theorem attempt_map (clock : Clock) (supervisor : Supervisor σ) :
    (supervisor.map f).attempt clock = (supervisor.attempt clock).map id (Prod.map id (map f)) := by
  have hnext : (supervisor.map f).connector.next =
      supervisor.connector.next.map (Attempt.map f) (Connector.map f) :=
    Connector.next_map f supervisor.connector
  have hdraw : ∀ now, (supervisor.map f).draw now = (supervisor.draw now).map f := by
    intro now
    simp only [draw, hnext]
    rfl
  unfold attempt
  simp only [hdraw, hnext, Prod.map_fst, Attempt.map]
  cases supervisor.connector.next.1.result with
  | error e => rfl
  | ok session =>
    simp only [Except.map, hold_map]
    rfl

variable {f} [Sink σ] [Sink τ]

theorem holdsOpen_map (hf : Sink.Hom f) (clock : Clock) (supervisor : Supervisor σ) :
    (supervisor.map f).holdsOpen clock = supervisor.holdsOpen clock := by
  unfold holdsOpen map
  cases supervisor.session with
  | none => rfl
  | some session => exact hf.isOpen_eq clock session

theorem ensureConnected_map (hf : Sink.Hom f) (clock : Clock) (supervisor : Supervisor σ) :
    (supervisor.map f).ensureConnected clock =
      (supervisor.ensureConnected clock).map id (Prod.map id (map f)) := by
  have hstopped : ∀ (clock : Clock) (supervisor : Supervisor σ),
      (supervisor.map f).stopped clock = supervisor.stopped clock := fun _ _ => rfl
  fun_induction ensureConnected clock supervisor with
  | case1 clock supervisor hopen =>
    rw [ensureConnected_eq, holdsOpen_map hf, if_pos hopen]
    rfl
  | case2 clock supervisor hclosed hstop =>
    rw [ensureConnected_eq, holdsOpen_map hf, if_neg hclosed, hstopped, if_pos hstop]
    rfl
  | case3 clock supervisor hclosed hstop later hbegin =>
    rw [ensureConnected_eq, holdsOpen_map hf, if_neg hclosed, hstopped, if_neg hstop,
      beginAttempt_map, hbegin]
    rfl
  | case4 clock supervisor hclosed hstop begun started hbegin later next hattempt =>
    rw [ensureConnected_eq, holdsOpen_map hf, if_neg hclosed, hstopped, if_neg hstop,
      beginAttempt_map, hbegin]
    simp only [Prod.map_apply, Option.map_some, id_eq, attempt_map, hattempt]
  | case5 clock supervisor hclosed hstop begun started hbegin later next hattempt _ ih =>
    rw [ensureConnected_eq, holdsOpen_map hf, if_neg hclosed, hstopped, if_neg hstop,
      beginAttempt_map, hbegin]
    simp only [Prod.map_apply, Option.map_some, id_eq, attempt_map, hattempt, ih]

theorem retire_map (hf : Sink.Hom f) (supervisor : Supervisor σ) :
    (supervisor.map f).retire = supervisor.retire.map f := by
  unfold retire map
  cases supervisor.session with
  | none => rfl
  | some session => simp [hf.close_eq]

theorem submit_map (hf : Sink.Hom f) {inStep : TransportError → Bool}
    {submission : Clock → σ → Reply × Clock × σ} {image : Clock → τ → Reply × Clock × τ}
    (himage : ∀ clock session,
      image clock (f session) = (submission clock session).map id (Prod.map id f))
    (clock : Clock) (supervisor : Supervisor σ) :
    (supervisor.map f).submit inStep image clock =
      (supervisor.submit inStep submission clock).map id (Prod.map id (map f)) := by
  unfold submit
  rw [ensureConnected_map hf]
  rcases supervisor.ensureConnected clock with ⟨reply, later, next⟩
  cases reply with
  | error e => rfl
  | ok =>
    simp only [Prod.map_apply, id_eq]
    have hsession : (next.map f).session = next.session.map f := rfl
    rw [hsession]
    cases next.session with
    | none => rfl
    | some session =>
      simp only [Option.map_some, himage]
      rcases submission later session with ⟨reply, after, left⟩
      cases reply with
      | ok => rfl
      | error e =>
        simp only [Prod.map_apply, id_eq]
        split
        · rfl
        · have hretire := retire_map hf { next with session := some left }
          exact congrArg (fun retired => (Except.error e, after, retired.apply .sendFailed)) hretire

end Supervisor

/-- A `Sink.Hom` between sessions gives one between their supervisors, by `Supervisor.map`. -/
theorem Sink.Hom.supervisor [Sink σ] [Sink τ] {f : σ → τ} (hf : Sink.Hom f) :
    Sink.Hom (Supervisor.map f) where
  isOpen_eq _ _ := rfl
  send_eq bytes := Supervisor.submit_map hf (hf.send_eq bytes)
  sendSplit_eq bytes cut := Supervisor.submit_map hf (hf.sendSplit_eq bytes cut)
  close_eq supervisor := by
    show (supervisor.map f).retire.apply .closed = (supervisor.retire.apply .closed).map f
    rw [Supervisor.retire_map hf]
    rfl

end Volley
