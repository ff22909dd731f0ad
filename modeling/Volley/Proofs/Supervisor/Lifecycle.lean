import Volley.Sink.Recorder
import Volley.Sink.Stream
import Volley.Supervisor.Basic

/-!
# The life of a supervisor

A supervisor keeps three things that have to agree: the state of its connection, the session that it
holds, and whether that session is open. They are changed at different places, by attempts that
succeed or fail, by writes that fail, and when the supervisor is closed. Between two requests they
agree nevertheless, whatever is asked and whenever the stop signal is raised, provided that a
session is open when it is handed out and is closed by nothing but a failed write or whoever holds
it.

## Main definitions

* `Sink.Steadfast`: a sink that is closed by nothing but a failed write or whoever holds it.
* `Connector.attempt`: the attempts that a connector makes, by their number.
* `Supervisor.Request`, `Supervisor.serveAll`: what can be asked of a supervisor, any number of
  times.
* `Supervisor.Orderly`: state, session and record agree.

## Main results

* `Supervisor.Orderly.ensureConnected`, `Supervisor.Orderly.serve`: every request keeps the order.
* `Supervisor.orderly_serveAll`: a supervisor is in order after any requests.
-/

namespace Volley

/-! ## Sinks that stay open -/

/-- A sink whose `isOpen` changes by a write that fails, or by `close`, and by nothing else: not by
the passing of time, by a write that succeeds, or by an answer that `isInvalidSplit`. -/
class Sink.Steadfast (σ : Type) [Sink σ] : Prop where
  isOpen_eq : ∀ (clock later : Clock) (sink : σ), Sink.isOpen clock sink = Sink.isOpen later sink
  isOpen_send : ∀ {bytes : Bytes} {clock later : Clock} {sink next : σ},
    Sink.isOpen clock sink = true → Sink.send bytes clock sink = (.ok (), later, next) →
      Sink.isOpen later next = true
  isOpen_sendSplit : ∀ {bytes : Bytes} {cut : Nat} {clock later : Clock} {reply : Reply}
    {sink next : σ}, Sink.isOpen clock sink = true →
      Sink.sendSplit bytes cut clock sink = (reply, later, next) →
      (∀ e, reply = .error e → e.isInvalidSplit = true) → Sink.isOpen later next = true

/-- If a `send` that succeeds keeps `isOpen`, and none fails with an error that `isInvalidSplit`,
then `sendInTwo` keeps `isOpen` when it succeeds or answers that the cut is invalid. -/
theorem isOpen_sendInTwo {σ : Type} {send : Bytes → Clock → σ → Reply × Clock × σ}
    {isOpen : σ → Bool}
    (hok : ∀ {bytes clock later sink next}, isOpen sink = true →
      send bytes clock sink = (.ok (), later, next) → isOpen next = true)
    (herror : ∀ {bytes clock later sink next e}, send bytes clock sink = (.error e, later, next) →
      e.isInvalidSplit = false)
    {bytes : Bytes} {cut : Nat} {clock later : Clock} {reply : Reply} {sink next : σ}
    (hopen : isOpen sink = true) (h : sendInTwo send bytes cut clock sink = (reply, later, next))
    (hreply : ∀ e, reply = .error e → e.isInvalidSplit = true) : isOpen next = true := by
  -- A write never says that its bytes cannot be cut, so an answer of this kind comes before it.
  have hwrite : ∀ {bytes : Bytes} {clock : Clock} {sink : σ}, isOpen sink = true →
      send bytes clock sink = (reply, later, next) → isOpen next = true := by
    intro bytes clock sink hopen h
    cases reply with
    | ok => exact hok hopen h
    | error e => exact absurd (hreply e rfl) (by rw [herror h]; decide)
  unfold sendInTwo at h
  split at h
  · cases h
    exact hopen
  · split at h
    · next hhead => exact hwrite (hok hopen hhead) h
    · next hhead =>
      cases h
      exact absurd (hreply _ rfl) (by rw [herror hhead]; decide)

namespace Recorder

theorem isOpen_of_send_ok {bytes : Bytes} {clock later : Clock} {recorder next : Recorder}
    (hopen : recorder.isOpen = true) (h : recorder.send bytes clock = (.ok (), later, next)) :
    next.isOpen = true := by
  unfold send at h
  split at h
  · cases h
  · split at h
    · cases h
    · cases h
      exact hopen

theorem isInvalidSplit_of_send {bytes : Bytes} {clock later : Clock} {recorder next : Recorder}
    {e : TransportError} (h : recorder.send bytes clock = (.error e, later, next)) :
    e.isInvalidSplit = false := by
  unfold send at h
  split at h
  · cases h
    rfl
  · split at h
    · cases h
      rfl
    · cases h

instance : Sink.Steadfast Recorder where
  isOpen_eq _ _ _ := rfl
  isOpen_send := isOpen_of_send_ok
  isOpen_sendSplit := isOpen_sendInTwo isOpen_of_send_ok isInvalidSplit_of_send

end Recorder

namespace StreamSession

variable {ω : Type} [Writer ω]

theorem isOpen_of_write_ok {bytes : Bytes} {clock later : Clock} {session next : StreamSession ω}
    (hopen : session.isOpen = true) (h : session.write bytes clock = (.ok (), later, next)) :
    next.isOpen = true := by
  unfold write at h
  split at h
  · cases h
  · split at h
    · cases h
    · split at h
      · cases h
      · cases h
        exact hopen

/-- An error of `writeWithin` is one of the stream or of its limit, never one that `isInvalidSplit`.
-/
theorem isInvalidSplit_of_writeWithin {limit : Nat} {bytes : Bytes} {clock later : Clock}
    {writer next : ω} {e : TransportError}
    (h : writeWithin limit bytes clock writer = (.error e, later, next)) :
    e.isInvalidSplit = false := by
  unfold writeWithin at h
  split at h
  · cases h
  · cases h
    rfl
  · split at h
    · cases h
      rfl
    · split at h
      · cases h
      · cases h
        rfl
      · cases h
        rfl

/-- The same holds of `flushWithin`. -/
theorem isInvalidSplit_of_flushWithin {limit : Nat} {clock later : Clock} {writer next : ω}
    {e : TransportError} (h : flushWithin limit clock writer = (.error e, later, next)) :
    e.isInvalidSplit = false := by
  unfold flushWithin at h
  split at h
  · cases h
  · cases h
    rfl
  · split at h
    · cases h
      rfl
    · split at h
      · cases h
      · cases h
        rfl
      · cases h
        rfl

theorem isInvalidSplit_of_write {bytes : Bytes} {clock later : Clock}
    {session next : StreamSession ω} {e : TransportError}
    (h : session.write bytes clock = (.error e, later, next)) : e.isInvalidSplit = false := by
  unfold write at h
  split at h
  · cases h
    rfl
  · split at h
    · next hwrite =>
      cases h
      exact isInvalidSplit_of_writeWithin hwrite
    · split at h
      · next hflush =>
        cases h
        exact isInvalidSplit_of_flushWithin hflush
      · cases h

instance : Sink.Steadfast (StreamSession ω) where
  isOpen_eq _ _ _ := rfl
  isOpen_send := isOpen_of_write_ok
  isOpen_sendSplit := isOpen_sendInTwo isOpen_of_write_ok isInvalidSplit_of_write

end StreamSession

/-! ## Attempts -/

/-- The attempt that a connector makes after `n` others. -/
def Connector.attempt {σ : Type} (connector : Connector σ) (n : Nat) : Attempt σ :=
  connector.script.getD n ⟨0, .ok connector.otherwise⟩

namespace Connector

variable {σ : Type}

/-- The first component of `connector.next` is `connector.attempt 0`. -/
theorem next_fst (connector : Connector σ) : connector.next.1 = connector.attempt 0 := by
  unfold next attempt
  cases connector.script <;> rfl

theorem attempt_next (connector : Connector σ) (n : Nat) :
    connector.next.2.attempt n = connector.attempt (n + 1) := by
  unfold next attempt
  cases h : connector.script with
  | nil => simp only [h, List.getD_nil]
  | cons first script => simp only [List.getD_cons_succ]

/-- Every session that is the result of `connector.attempt n`, for any `n`, has `isOpen` at every
clock. -/
def HandsOutOpen [Sink σ] (connector : Connector σ) : Prop :=
  ∀ n session, (connector.attempt n).result = .ok session →
    ∀ clock, Sink.isOpen clock session = true

/-- For `HandsOutOpen` it is enough that the sessions of `script` and the one in `otherwise` are
open. -/
theorem handsOutOpen_of_script [Sink σ] {connector : Connector σ}
    (hscript : ∀ attempt ∈ connector.script, ∀ session, attempt.result = .ok session →
      ∀ clock, Sink.isOpen clock session = true)
    (hotherwise : ∀ clock, Sink.isOpen clock connector.otherwise = true) :
    connector.HandsOutOpen := by
  intro n session hresult
  rw [attempt, List.getD_eq_getElem?_getD] at hresult
  cases hattempt : connector.script[n]? with
  | some attempt =>
    rw [hattempt] at hresult
    exact hscript attempt (List.mem_of_getElem? hattempt) session hresult
  | none =>
    rw [hattempt] at hresult
    cases hresult
    exact hotherwise

theorem HandsOutOpen.next [Sink σ] {connector : Connector σ} (h : connector.HandsOutOpen) :
    connector.next.2.HandsOutOpen := by
  intro n session hsession
  rw [attempt_next] at hsession
  exact h (n + 1) session hsession

end Connector

namespace Supervisor

variable {σ : Type}

/-! ## Supervisors in order -/

/-- A supervisor in the middle of an attempt: its state is `.connecting`, it has no `session`, it
has `ignored` no event, and its connector `HandsOutOpen`. -/
structure Attempting [Sink σ] (supervisor : Supervisor σ) : Prop where
  state : supervisor.state = .connecting
  session : supervisor.session = none
  ignored : supervisor.ignored = []
  handsOutOpen : supervisor.connector.HandsOutOpen

/-- State, session and record agree: the state is not `.connecting`, a `session` is held exactly in
the state `.connected`, it is open, and no event has been `ignored`. -/
structure Orderly [Sink σ] (supervisor : Supervisor σ) : Prop where
  state_ne : supervisor.state ≠ .connecting
  isSome_iff : supervisor.session.isSome = true ↔ supervisor.state = .connected
  isOpen : ∀ session, supervisor.session = some session → ∀ clock, Sink.isOpen clock session = true
  ignored : supervisor.ignored = []
  handsOutOpen : supervisor.connector.HandsOutOpen

/-- If `transition?` gives a next state for the event, `apply` sets it and adds nothing to
`ignored`. -/
theorem apply_of_some {supervisor : Supervisor σ} {event : ConnectionEvent}
    {state : ConnectionState} (h : supervisor.state.transition? event = some state) :
    supervisor.apply event = { supervisor with state } := by
  simp only [apply, ConnectionState.after, h, Option.getD_some, Option.isSome_some, if_true]

variable [Sink σ]

/-- A new supervisor is `Orderly` if its connector `HandsOutOpen`. -/
theorem Orderly.new {connector : Connector σ} (h : connector.HandsOutOpen) (backoff : Nat)
    (listens : Bool) : (Supervisor.new connector backoff listens).Orderly := by
  refine ⟨?_, ?_, ?_, rfl, h⟩
  · intro hstate
    cases hstate
  · constructor
    · intro hsession
      cases hsession
    · intro hstate
      cases hstate
  · intro session hsession
    cases hsession

/-- If a supervisor is `Orderly`, `holdsOpen` is to have a `session`, at any clock. -/
theorem Orderly.holdsOpen_eq {supervisor : Supervisor σ} (h : supervisor.Orderly) (clock : Clock) :
    supervisor.holdsOpen clock = supervisor.session.isSome := by
  unfold holdsOpen
  cases hsession : supervisor.session with
  | none => rfl
  | some session => exact h.isOpen session hsession clock

/-- If a supervisor that is `Orderly` has no `session`, its state is `.disconnected` or `.failed`.
-/
theorem Orderly.state_of_none {supervisor : Supervisor σ} (h : supervisor.Orderly)
    (hsession : supervisor.session = none) :
    supervisor.state = .disconnected ∨ supervisor.state = .failed := by
  have hne := h.state_ne
  have hiff := h.isSome_iff
  rw [hsession] at hiff
  cases hstate : supervisor.state with
  | disconnected => exact Or.inl rfl
  | failed => exact Or.inr rfl
  | connecting => exact absurd hstate hne
  | connected => exact absurd (hiff.mpr hstate) Bool.false_ne_true

/-- A `beginAttempt` that is not stopped leads from `Orderly` without a session to `Attempting`. -/
theorem Orderly.beginAttempt {supervisor begun : Supervisor σ} {clock later : Clock}
    (h : supervisor.Orderly) (hsession : supervisor.session = none)
    (hbegin : supervisor.beginAttempt clock = (some begun, later)) : begun.Attempting := by
  unfold Supervisor.beginAttempt at hbegin
  rcases h.state_of_none hsession with hstate | hstate
  · have happly : supervisor.state.transition? .connectRequested = some .connecting := by
      rw [hstate]
      rfl
    rw [hstate, if_neg (by decide), apply_of_some happly] at hbegin
    cases hbegin
    exact ⟨rfl, hsession, h.ignored, h.handsOutOpen⟩
  · have happly : supervisor.state.transition? .backoffElapsed = some .connecting := by
      rw [hstate]
      rfl
    rw [hstate, if_pos (by decide), apply_of_some happly] at hbegin
    -- The pause passes, or no attempt begins.
    split at hbegin
    · cases hbegin
      exact ⟨rfl, hsession, h.ignored, h.handsOutOpen⟩
    · cases hbegin

/-- To `draw` the next attempt from the connector keeps `Attempting`. -/
theorem Attempting.draw {supervisor : Supervisor σ} (h : supervisor.Attempting) (now : Nat) :
    (supervisor.draw now).Attempting :=
  ⟨h.state, h.session, h.ignored, h.handsOutOpen.next⟩

/-- To `hold` an open session leads from `Attempting` to `Orderly`. -/
theorem Attempting.hold {supervisor : Supervisor σ} (h : supervisor.Attempting) {session : σ}
    (hopen : ∀ clock, Sink.isOpen clock session = true) : (supervisor.hold session).Orderly := by
  have happly : supervisor.state.transition? .connectSucceeded = some .connected := by
    rw [h.state]
    rfl
  unfold Supervisor.hold
  rw [apply_of_some happly]
  refine ⟨?_, Iff.intro (fun _ => rfl) (fun _ => rfl), ?_, h.ignored, h.handsOutOpen⟩
  · intro hstate
    cases hstate
  · intro other hother
    cases hother
    exact hopen

/-- To `miss` leads from `Attempting` to `Orderly`, without a `session`. -/
theorem Attempting.miss {supervisor : Supervisor σ} (h : supervisor.Attempting) :
    supervisor.miss.Orderly ∧ supervisor.miss.session = none := by
  have happly : supervisor.state.transition? .connectFailed = some .failed := by
    rw [h.state]
    rfl
  unfold Supervisor.miss
  rw [apply_of_some happly]
  refine ⟨⟨?_, ?_, ?_, h.ignored, h.handsOutOpen⟩, h.session⟩
  · intro hstate
    cases hstate
  · show supervisor.session.isSome = true ↔ ConnectionState.failed = .connected
    rw [h.session]
    exact Iff.intro (fun hsome => by cases hsome) (fun hstate => by cases hstate)
  · show ∀ session, supervisor.session = some session → ∀ clock, Sink.isOpen clock session = true
    rw [h.session]
    intro session hsession
    cases hsession

/-- An `attempt` leads from `Attempting` to `Orderly`, without a `session` unless it is a `success`.
-/
theorem Attempting.attempt {supervisor next : Supervisor σ} {clock later : Clock} {success : Bool}
    (h : supervisor.Attempting) (hattempt : supervisor.attempt clock = (success, later, next)) :
    next.Orderly ∧ (success = false → next.session = none) := by
  have hdrawn := h.draw clock.now
  unfold Supervisor.attempt at hattempt
  simp only at hattempt
  split at hattempt
  · next session hresult =>
    rw [Connector.next_fst] at hresult
    cases hattempt
    refine ⟨hdrawn.hold (h.handsOutOpen 0 session hresult), ?_⟩
    intro hsuccess
    cases hsuccess
  · cases hattempt
    exact ⟨hdrawn.miss.1, fun _ => hdrawn.miss.2⟩

/-- The supervisor that `ensureConnected` leaves is `Orderly`, whatever it answers. -/
theorem Orderly.ensureConnected {supervisor : Supervisor σ} (h : supervisor.Orderly)
    (clock : Clock) : (supervisor.ensureConnected clock).2.2.Orderly := by
  fun_induction Supervisor.ensureConnected clock supervisor with
  | case1 => exact h
  | case2 => exact h
  | case3 => exact h
  | case4 clock supervisor hclosed _ begun _ hbegin _ next hattempt =>
    -- Without an open session there is none at all, so the attempt begins in good order.
    have hnone : supervisor.session = none := by simpa [h.holdsOpen_eq] using hclosed
    exact ((h.beginAttempt hnone hbegin).attempt hattempt).1
  | case5 clock supervisor hclosed _ begun _ hbegin _ next hattempt _ ih =>
    have hnone : supervisor.session = none := by simpa [h.holdsOpen_eq] using hclosed
    exact ih ((h.beginAttempt hnone hbegin).attempt hattempt).1

/-- An `Orderly` supervisor that holds a `session` stays so with another open one in its place. -/
theorem Orderly.withSession {supervisor : Supervisor σ} (h : supervisor.Orderly) {session : σ}
    (hheld : supervisor.session.isSome = true) (hopen : ∀ clock, Sink.isOpen clock session = true) :
    Orderly { supervisor with session := some session } := by
  refine ⟨h.state_ne, ?_, ?_, h.ignored, h.handsOutOpen⟩
  · exact Iff.intro (fun _ => h.isSome_iff.mp hheld) (fun _ => rfl)
  · intro other hother
    cases hother
    exact hopen

/-- To `retire` the session and `apply` an event that leads to a `state` other than `.connecting`
and `.connected` keeps `Orderly`. -/
theorem Orderly.retire {supervisor : Supervisor σ} (h : supervisor.Orderly) (session : Option σ)
    {event : ConnectionEvent} {state : ConnectionState}
    (hevent : supervisor.state.transition? event = some state) (hne : state ≠ .connecting)
    (hstate : state ≠ .connected) :
    ((Supervisor.retire { supervisor with session }).apply event).Orderly := by
  have happly : (Supervisor.retire { supervisor with session }).state.transition? event =
      some state := hevent
  rw [apply_of_some happly]
  refine ⟨hne, ?_, ?_, h.ignored, h.handsOutOpen⟩
  · exact Iff.intro (fun hsome => by cases hsome) (fun hconnected => absurd hconnected hstate)
  · intro session hsession
    cases hsession

/-- A `submit` keeps `Orderly`, if the session stays open unless the `submission` fails with an
error that is not `inStep`. -/
theorem Orderly.submit {supervisor : Supervisor σ} (h : supervisor.Orderly)
    {inStep : TransportError → Bool} {submission : Clock → σ → Reply × Clock × σ}
    (hopen : ∀ {clock later : Clock} {reply : Reply} {session next : σ},
      Sink.isOpen clock session = true → submission clock session = (reply, later, next) →
        (∀ e, reply = .error e → inStep e = true) → ∀ clock, Sink.isOpen clock next = true)
    (clock : Clock) : (supervisor.submit inStep submission clock).2.2.Orderly := by
  have hensured := h.ensureConnected clock
  unfold Supervisor.submit
  split
  · next hensure =>
    rw [hensure] at hensured
    exact hensured
  · next later next hensure =>
    rw [hensure] at hensured
    split
    · exact hensured
    · next session hsession =>
      have hheld : next.session.isSome = true := by rw [hsession]; rfl
      rcases hsubmission : submission later session with ⟨reply, after, left⟩
      have hleft := hopen (hensured.isOpen session hsession later) hsubmission
      simp only
      cases reply with
      | ok =>
        refine hensured.withSession hheld (hleft ?_)
        intro e he
        cases he
      | error e =>
        simp only
        split
        · next hinStep =>
          refine hensured.withSession hheld (hleft ?_)
          intro other hother
          cases hother
          exact hinStep
        · -- The session is given up, in the one state in which a write can fail.
          have hconnected : next.state = .connected := hensured.isSome_iff.mp hheld
          have hevent : next.state.transition? .sendFailed = some .failed := by
            rw [hconnected]
            rfl
          exact hensured.retire _ hevent (by decide) (by decide)

/-! ## Requests -/

/-- What can be asked of a `Supervisor`. -/
inductive Request where
  | send (bytes : Bytes)
  | sendSplit (bytes : Bytes) (cut : Nat)
  /-- Make sure that a session is held. -/
  | ensureConnected
  | close
  deriving DecidableEq, Repr

/-- The supervisor after `request` has been asked of it at `clock`. -/
def serve (request : Request) (clock : Clock) (supervisor : Supervisor σ) : Supervisor σ :=
  match request with
  | .send bytes => (Sink.send bytes clock supervisor).2.2
  | .sendSplit bytes cut => (Sink.sendSplit bytes cut clock supervisor).2.2
  | .ensureConnected => (supervisor.ensureConnected clock).2.2
  | .close => Sink.close supervisor

/-- The supervisor after a list of requests, one after the other by `serve`, each with a clock of
its own, at which the stop signal may have been raised or be about to be. -/
def serveAll (requests : List (Request × Clock)) (supervisor : Supervisor σ) : Supervisor σ :=
  requests.foldl (fun supervisor (request, clock) => supervisor.serve request clock) supervisor

variable [Sink.Steadfast σ]

/-- Every request keeps `Orderly`: one case for each constructor of `Request`. -/
theorem Orderly.serve {supervisor : Supervisor σ} (h : supervisor.Orderly) (request : Request)
    (clock : Clock) : (supervisor.serve request clock).Orderly := by
  -- A steadfast session that is open at some moment is open at all of them.
  have halways : ∀ {session : σ} {clock : Clock}, Sink.isOpen clock session = true →
      ∀ later, Sink.isOpen later session = true := by
    intro session clock hopen later
    rw [Sink.Steadfast.isOpen_eq later clock session]
    exact hopen
  cases request with
  | send bytes =>
    refine h.submit ?_ clock
    intro clock later reply session next hopen hsend hkept
    cases reply with
    | ok => exact halways (Sink.Steadfast.isOpen_send hopen hsend)
    | error e => exact absurd (hkept e rfl) Bool.false_ne_true
  | sendSplit bytes cut =>
    refine h.submit ?_ clock
    intro clock later reply session next hopen hsend hkept
    exact halways (Sink.Steadfast.isOpen_sendSplit hopen hsend hkept)
  | ensureConnected => exact h.ensureConnected clock
  | close =>
    have hevent : supervisor.state.transition? .closed = some .disconnected := by
      cases supervisor.state <;> rfl
    exact h.retire supervisor.session hevent (by decide) (by decide)

/-- Any number of requests keep `Orderly`, by induction over the list. -/
theorem Orderly.serveAll {supervisor : Supervisor σ} (h : supervisor.Orderly)
    (requests : List (Request × Clock)) : (supervisor.serveAll requests).Orderly := by
  induction requests generalizing supervisor with
  | nil => exact h
  | cons first requests ih =>
    obtain ⟨request, clock⟩ := first
    exact ih (h.serve request clock)

/-- After `serveAll` of any requests, a supervisor whose connector `HandsOutOpen` is not in the
state `.connecting`, holds a `session` exactly in the state `.connected`, and that session is open;
its list `ignored` of events without a meaning in their state is empty. -/
theorem orderly_serveAll {connector : Connector σ} (h : connector.HandsOutOpen) (backoff : Nat)
    (listens : Bool) (requests : List (Request × Clock)) :
    let supervisor := (new connector backoff listens).serveAll requests
    supervisor.state ≠ .connecting ∧
      (supervisor.session.isSome = true ↔ supervisor.state = .connected) ∧
      (∀ session, supervisor.session = some session →
        ∀ clock, Sink.isOpen clock session = true) ∧
      supervisor.ignored = [] := by
  intro supervisor
  have horderly : supervisor.Orderly := (Orderly.new h backoff listens).serveAll requests
  exact ⟨horderly.state_ne, horderly.isSome_iff, horderly.isOpen, horderly.ignored⟩

/-- A connector whose `attempt 0` fails and whose `attempt 1` yields a session that takes one write.
-/
def flaky : Connector Recorder :=
  ⟨[⟨5, .error .timeout⟩, ⟨0, .ok (.new .stream (some 1))⟩], .new .stream none⟩

theorem handsOutOpen_flaky : flaky.HandsOutOpen := by
  refine Connector.handsOutOpen_of_script ?_ fun _ => rfl
  simp [flaky, Sink.isOpen, Recorder.new]

/-- A write, a split with an invalid cut and one with a valid cut, and an `ensureConnected` shortly
before the stop signal is raised. -/
def errands : List (Request × Clock) :=
  [(.send [1], .start), (.sendSplit [2] 1, .start), (.sendSplit [3, 4] 1, .start),
    (.ensureConnected, ⟨20, some 25⟩)]

/-- By `serveAll errands`, the session of `flaky` is lost in the middle of a write, and the
supervisor is stopped in the pause after it. -/
theorem orderly_serveAll_flaky :
    flaky.HandsOutOpen ∧
      ((new flaky 10 true).serveAll errands).failedAttempts = 1 ∧
      ((new flaky 10 true).serveAll errands).connects = 1 ∧
      ((new flaky 10 true).serveAll errands).state = .failed ∧
      ((new flaky 10 true).serveAll errands).session = none ∧
      ((new flaky 10 true).serveAll errands).ignored = [] := by
  have hopen : flaky.HandsOutOpen := by
    intro n session hsession clock
    rcases n with _ | _ | n
    · cases hsession
    · cases hsession
      rfl
    · cases hsession
      rfl
  have hstate : ((new flaky 10 true).serveAll errands).state = .failed := by decide +kernel
  obtain ⟨-, hheld, -, hignored⟩ := orderly_serveAll hopen 10 true errands
  have hnone : ((new flaky 10 true).serveAll errands).session = none := by
    cases hsession : ((new flaky 10 true).serveAll errands).session with
    | none => rfl
    | some session =>
      rw [hsession, hstate] at hheld
      cases hheld.mp rfl
  exact ⟨hopen, by decide +kernel, by decide +kernel, hstate, hnone, hignored⟩

end Supervisor

end Volley
