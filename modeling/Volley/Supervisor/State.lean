/-!
# The life of a supervised connection

A connection is asked for, comes about or does not, fails, and is asked for again after a pause.
The states and the events that lead from one to the next are a small machine of their own; an event
that means nothing in a state is not an error, it is simply ignored.
-/

namespace Volley

/-- Where a supervised connection stands. -/
inductive ConnectionState where
  /-- There is no connection, and none is being opened. -/
  | disconnected
  /-- One is being opened. -/
  | connecting
  /-- A session is held. -/
  | connected
  /-- The last attempt or the last write failed. -/
  | failed
  deriving DecidableEq, Repr, Inhabited

/-- What happens to a supervised connection. -/
inductive ConnectionEvent where
  /-- Somebody needs a session. -/
  | connectRequested
  | connectSucceeded
  | connectFailed
  /-- A write on the session failed. -/
  | sendFailed
  /-- The pause after a failure is over. -/
  | backoffElapsed
  /-- The connection is given up. -/
  | closed
  deriving DecidableEq, Repr

namespace ConnectionState

/-- The state after an event, if the event means something in this one. -/
def transition? : ConnectionState → ConnectionEvent → Option ConnectionState
  | _, .closed => some disconnected
  | disconnected, .connectRequested => some connecting
  | failed, .backoffElapsed => some connecting
  | connecting, .connectSucceeded => some connected
  | connecting, .connectFailed => some failed
  | connected, .sendFailed => some failed
  | _, _ => none

/-- The state after `event` by `transition?`; one that means nothing here leaves it as it is. -/
def after (state : ConnectionState) (event : ConnectionEvent) : ConnectionState :=
  (state.transition? event).getD state

/-- Whether a pause has to pass before the next attempt: the state is `failed`. -/
def needsBackoff (state : ConnectionState) : Bool :=
  state == failed

end ConnectionState

end Volley
