import Volley.Bytes
import Volley.Clock

/-!
# Sinks

A sink takes the bytes of frames. What it does with them, how long it takes and whether it can still
be used afterwards is the sink's own affair; this module says what all sinks have in common, and
what can go wrong with any of them.
-/

namespace Volley

/-- What the operating system, or a peer, can answer instead of taking bytes. -/
inductive IoError where
  | brokenPipe
  | connectionReset
  | timedOut
  | notConnected
  | interrupted
  /-- Bytes were offered and none was taken. -/
  | writeZero
  | connectionRefused
  | networkUnreachable
  deriving DecidableEq, Repr

/-- The wording of an `IoError`. -/
def IoError.message : IoError → String
  | brokenPipe => "broken pipe"
  | connectionReset => "connection reset"
  | timedOut => "timed out"
  | notConnected => "not connected"
  | interrupted => "operation interrupted"
  | writeZero => "write zero"
  | connectionRefused => "Connection refused (os error 111)"
  | networkUnreachable => "Network is unreachable (os error 101)"

/-- Why bytes could not be submitted. -/
inductive TransportError where
  /-- There is no connection to the address. -/
  | connect (address : String) (cause : IoError)
  | io (cause : IoError)
  /-- The time for the operation ran out. -/
  | timeout
  /-- The session was closed before. -/
  | closed
  /-- The bytes do not fit one datagram. -/
  | datagramTooLarge (size : Nat)
  /-- The place to cut at is not inside the bytes. -/
  | invalidSplit (cut size : Nat)
  deriving DecidableEq, Repr

/-- The wording of a `TransportError`. -/
def TransportError.message : TransportError → String
  | connect address cause => s!"failed to connect to {address}: {cause.message}"
  | io cause => s!"I/O error: {cause.message}"
  | timeout => "I/O timeout"
  | closed => "session closed"
  | datagramTooLarge size => s!"datagram of {size} bytes exceeds the UDP payload limit"
  | invalidSplit cut size => s!"split point {cut} must lie strictly inside a {size}-byte buffer"

/-- Whether the error is `invalidSplit`: only the place to cut at was wrong, so nothing can have
been written. -/
def TransportError.isInvalidSplit : TransportError → Bool
  | invalidSplit _ _ => true
  | connect _ _ => false
  | io _ => false
  | timeout => false
  | closed => false
  | datagramTooLarge _ => false

/-- Which wire a sink writes to. -/
inductive Wire where
  /-- An ordered stream of bytes. -/
  | stream
  /-- One frame per datagram. -/
  | datagram
  /-- A stream and datagrams by turns. -/
  | mixed
  deriving DecidableEq, Repr

/-- The answer to a submission. -/
abbrev Reply := Except TransportError Unit

/-- A destination for the bytes of frames. Every submission takes the clock as it finds it and
returns it as it leaves it. -/
class Sink (σ : Type) where
  /-- The wire that the sink writes to. -/
  wire : σ → Wire
  /-- Whether a later submission can still succeed. -/
  isOpen : Clock → σ → Bool
  /-- Submits bytes as one write or one datagram. -/
  send : Bytes → Clock → σ → Reply × Clock × σ
  /-- Submits bytes as two consecutive writes, the first of `cut` bytes. -/
  sendSplit : Bytes → (cut : Nat) → Clock → σ → Reply × Clock × σ
  /-- Releases what the sink holds. -/
  close : σ → σ

/-- The two parts of `bytes` that are cut at `cut`; neither part may be empty. -/
def splitAtCut (bytes : Bytes) (cut : Nat) : Except TransportError (Bytes × Bytes) :=
  if 0 < cut ∧ cut < bytes.length then .ok (bytes.take cut, bytes.drop cut)
  else .error (.invalidSplit cut bytes.length)

/-- Submits the parts of `splitAtCut` by `send`, the second only if the first succeeds. -/
def sendInTwo {σ : Type} (send : Bytes → Clock → σ → Reply × Clock × σ) (bytes : Bytes) (cut : Nat)
    (clock : Clock) (sink : σ) : Reply × Clock × σ :=
  match splitAtCut bytes cut with
  | .error e => (.error e, clock, sink)
  | .ok (head, tail) =>
    match send head clock sink with
    | (.ok (), clock, sink) => send tail clock sink
    | (.error e, clock, sink) => (.error e, clock, sink)

end Volley
