import Volley.Sink.Basic
import Volley.Supervisor.State

/-!
# A stream that is opened again

A supervisor looks like one stream sink and holds one session at a time. When it needs a session it
opens one, as often as it takes, with a pause after each failure; a write that fails costs the
session and is reported, never repeated. The stop signal ends every pause, and no attempt begins
once it is raised.

Attempts follow a connector: a script of attempts that may fail or take time, after which every
attempt succeeds at once.
-/

namespace Volley

/-- One attempt to open a session. -/
structure Attempt (σ : Type) where
  /-- How long the attempt takes, in milliseconds. -/
  delay : Nat
  /-- The session that it yields, or why it yields none. -/
  result : Except TransportError σ

/-- The attempt that takes as long, with the image under `f` of its session. -/
def Attempt.map {σ τ : Type} (f : σ → τ) (attempt : Attempt σ) : Attempt τ :=
  ⟨attempt.delay, attempt.result.map f⟩

/-- What becomes of the attempts to open a session. -/
structure Connector (σ : Type) where
  /-- The attempts to come. -/
  script : List (Attempt σ)
  /-- The session that every attempt after them yields at once. -/
  otherwise : σ

/-- The next attempt of `script`, or one that yields `otherwise` at once, and the connector after
it. -/
def Connector.next {σ : Type} (connector : Connector σ) : Attempt σ × Connector σ :=
  match connector.script with
  | [] => (⟨0, .ok connector.otherwise⟩, connector)
  | attempt :: script => (attempt, { connector with script })

/-- A stream sink that opens its session again after a failure. -/
structure Supervisor (σ : Type) where
  connector : Connector σ
  /-- The pause after a failure, in milliseconds. -/
  backoff : Nat
  /-- Whether the supervisor listens to the stop signal. -/
  listens : Bool
  state : ConnectionState
  session : Option σ
  /-- The sessions that are no longer held, the latest first. -/
  retired : List σ
  /-- The number of attempts that succeeded. -/
  connects : Nat
  /-- The number of attempts that failed. -/
  failedAttempts : Nat
  /-- The moments at which attempts began, the latest first. -/
  attemptTimes : List Nat
  /-- The events that meant nothing in the state that they found, each with that state, the latest
  first. -/
  ignored : List (ConnectionState × ConnectionEvent)

namespace Supervisor

variable {σ : Type}

/-- A supervisor that has not opened a session. -/
def new (connector : Connector σ) (backoff : Nat) (listens : Bool) : Supervisor σ where
  connector
  backoff
  listens
  state := .disconnected
  session := none
  retired := []
  connects := 0
  failedAttempts := 0
  attemptTimes := []
  ignored := []

/-- The number of attempts in `connects` after the first. -/
def reconnects (supervisor : Supervisor σ) : Nat :=
  supervisor.connects - 1

/-- Every session there has been, in order: those in `retired`, and then the one that is held. -/
def sessions (supervisor : Supervisor σ) : List σ :=
  supervisor.retired.reverse ++ supervisor.session.toList

/-- Whether the supervisor knows that the run is being stopped: it `listens`, and the clock is
`stopped`. -/
def stopped (clock : Clock) (supervisor : Supervisor σ) : Bool :=
  supervisor.listens && clock.stopped

/-- Notes an event by `ConnectionState.after`. One that means nothing in the present state changes
nothing and is put on record in `ignored`. -/
def apply (supervisor : Supervisor σ) (event : ConnectionEvent) : Supervisor σ :=
  { supervisor with
    state := supervisor.state.after event
    ignored :=
      if (supervisor.state.transition? event).isSome then supervisor.ignored
      else (supervisor.state, event) :: supervisor.ignored }

/-- Waits for the pause to pass; `false` if the stop signal ended it. -/
def waitBackoff (clock : Clock) (supervisor : Supervisor σ) : Bool × Clock :=
  if supervisor.listens then clock.waitOrStop supervisor.backoff
  else (true, clock.advance supervisor.backoff)

/-- Waits until the next attempt may begin, and notes that it does; `none` if the stop signal came
first. -/
def beginAttempt (clock : Clock) (supervisor : Supervisor σ) : Option (Supervisor σ) × Clock :=
  if supervisor.state.needsBackoff then
    match supervisor.waitBackoff clock with
    | (true, clock) => (some (supervisor.apply .backoffElapsed), clock)
    | (false, clock) => (none, clock)
  else (some (supervisor.apply .connectRequested), clock)

/-- Takes the `next` attempt off the connector, and notes in `attemptTimes` when it begins. -/
def draw (now : Nat) (supervisor : Supervisor σ) : Supervisor σ :=
  { supervisor with
    connector := supervisor.connector.next.2
    attemptTimes := now :: supervisor.attemptTimes }

/-- Holds the `session` that an attempt has yielded, and counts it in `connects`. One that was held
before moves to `retired`. -/
def hold (session : σ) (supervisor : Supervisor σ) : Supervisor σ :=
  { supervisor.apply .connectSucceeded with
    connects := supervisor.connects + 1
    retired := supervisor.session.toList ++ supervisor.retired
    session := some session }

/-- Counts an attempt that has yielded no session in `failedAttempts`. -/
def miss (supervisor : Supervisor σ) : Supervisor σ :=
  { supervisor.apply .connectFailed with failedAttempts := supervisor.failedAttempts + 1 }

/-- Makes one attempt: `draw`, and then `hold` or `miss`. The answer is whether it yielded a
session. -/
def attempt (clock : Clock) (supervisor : Supervisor σ) : Bool × Clock × Supervisor σ :=
  let attempt := supervisor.connector.next.1
  let supervisor := supervisor.draw clock.now
  let clock := clock.advance attempt.delay
  match attempt.result with
  | .ok session => (true, clock, supervisor.hold session)
  | .error _ => (false, clock, supervisor.miss)

/-- A `beginAttempt` leaves `connector` as it is. -/
theorem connector_of_beginAttempt {clock later : Clock} {supervisor next : Supervisor σ}
    (h : supervisor.beginAttempt clock = (some next, later)) :
    next.connector = supervisor.connector := by
  unfold beginAttempt at h
  split at h
  · split at h
    · cases h
      rfl
    · cases h
  · cases h
    rfl

/-- An `attempt` that fails uses up a part of `script`. -/
theorem script_of_attempt {clock later : Clock} {supervisor next : Supervisor σ}
    (h : supervisor.attempt clock = (false, later, next)) :
    next.connector.script.length < supervisor.connector.script.length := by
  unfold attempt at h
  simp only at h
  split at h
  · cases h
  · next hresult =>
    cases h
    show supervisor.connector.next.2.script.length < supervisor.connector.script.length
    unfold Connector.next at hresult ⊢
    split
    · next hscript =>
      rw [hscript] at hresult
      cases hresult
    · next hscript =>
      rw [hscript]
      exact Nat.lt_succ_self _

variable [Sink σ]

/-- Whether there is a `session` for which `Sink.isOpen`. -/
def holdsOpen (clock : Clock) (supervisor : Supervisor σ) : Bool :=
  supervisor.session.any (Sink.isOpen clock)

/-- Makes sure that an open session is held, by `beginAttempt` and `attempt` as often as it takes.
It gives up only when the supervisor is `stopped`. -/
def ensureConnected (clock : Clock) (supervisor : Supervisor σ) : Reply × Clock × Supervisor σ :=
  if supervisor.holdsOpen clock then (.ok (), clock, supervisor)
  else if supervisor.stopped clock then (.error .closed, clock, supervisor)
  else
    match hb : supervisor.beginAttempt clock with
    | (none, clock) => (.error .closed, clock, supervisor)
    | (some begun, clock) =>
      match ha : begun.attempt clock with
      | (true, clock, next) => (.ok (), clock, next)
      | (false, clock, next) =>
        have : next.connector.script.length < supervisor.connector.script.length := by
          have := script_of_attempt ha
          rwa [connector_of_beginAttempt hb] at this
        ensureConnected clock next
termination_by supervisor.connector.script.length

/-- Closes the `session`, if one is held, and moves it to `retired`. -/
def retire (supervisor : Supervisor σ) : Supervisor σ :=
  { supervisor with
    session := none
    retired := (supervisor.session.map Sink.close).toList ++ supervisor.retired }

/-- Makes a `submission` on an open session after `ensureConnected`. A failure costs the session,
unless it is one after which the session is known to be `inStep` with its peer. -/
def submit (inStep : TransportError → Bool) (submission : Clock → σ → Reply × Clock × σ)
    (clock : Clock) (supervisor : Supervisor σ) : Reply × Clock × Supervisor σ :=
  match supervisor.ensureConnected clock with
  | (.error e, clock, supervisor) => (.error e, clock, supervisor)
  | (.ok (), clock, supervisor) =>
    match supervisor.session with
    | none => (.error .closed, clock, supervisor)
    | some session =>
      let (reply, clock, session) := submission clock session
      let supervisor := { supervisor with session := some session }
      match reply with
      | .ok () => (.ok (), clock, supervisor)
      | .error e =>
        if inStep e then (.error e, clock, supervisor)
        else (.error e, clock, supervisor.retire.apply .sendFailed)

instance : Sink (Supervisor σ) where
  wire _ := .stream
  isOpen clock supervisor := !supervisor.stopped clock
  send bytes := submit (fun _ => false) (Sink.send bytes)
  sendSplit bytes cut := submit TransportError.isInvalidSplit (Sink.sendSplit bytes cut)
  close supervisor := supervisor.retire.apply .closed

end Supervisor

end Volley
