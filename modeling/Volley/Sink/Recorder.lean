import Volley.Sink.Basic

/-!
# A sink that keeps what it is given

A recorder takes every write and remembers it. It can be told to fail once, at a given attempt. One
that plays a stream is closed by its failure; one that plays datagrams goes on.
-/

namespace Volley

/-- A sink that remembers its writes. -/
structure Recorder where
  /-- The wire that the recorder plays. -/
  wire : Wire
  /-- The number of attempts before the one that fails, if one does. -/
  failAfter : Option Nat
  /-- The number of writes attempted while the sink was open. -/
  attempts : Nat
  isOpen : Bool
  /-- The writes that succeeded, the latest first. -/
  log : List Bytes
  deriving DecidableEq, Repr

namespace Recorder

/-- A recorder that has not been used. -/
def new (wire : Wire) (failAfter : Option Nat) : Recorder :=
  ⟨wire, failAfter, 0, true, []⟩

/-- The writes of `log`, in order. -/
def writes (recorder : Recorder) : List Bytes :=
  recorder.log.reverse

/-- The bytes of all `writes`, one after the other. -/
def bytes (recorder : Recorder) : Bytes :=
  recorder.writes.flatten

/-- Attempts one write; number `failAfter` is the one that fails, and closes the recorder unless it
plays datagrams. -/
def send (bytes : Bytes) (clock : Clock) (recorder : Recorder) : Reply × Clock × Recorder :=
  if !recorder.isOpen then (.error .closed, clock, recorder)
  else if recorder.failAfter = some recorder.attempts then
    (.error (.io .brokenPipe), clock,
      { recorder with
        attempts := recorder.attempts + 1
        isOpen := recorder.wire == .datagram })
  else
    (.ok (), clock,
      { recorder with attempts := recorder.attempts + 1, log := bytes :: recorder.log })

instance : Sink Recorder where
  wire := Recorder.wire
  isOpen _ recorder := recorder.isOpen
  send := send
  sendSplit := sendInTwo send
  close recorder := { recorder with isOpen := false }

end Recorder

end Volley
