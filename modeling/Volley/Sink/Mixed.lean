import Volley.Sink.Basic

/-!
# Two sinks by turns

A pair of sinks takes single writes by turns, the first of the pair first, whatever became of the
writes before. A write in two parts makes sense on a stream only and does not count as a turn.
-/

namespace Volley

/-- A stream sink and a datagram sink. -/
structure Mixed (σ δ : Type) where
  stream : σ
  datagram : δ
  /-- The number of single writes so far. -/
  sends : Nat
  deriving DecidableEq, Repr

namespace Mixed

variable {σ δ : Type} [Sink σ] [Sink δ]

/-- A pair that has not been used. -/
def new (stream : σ) (datagram : δ) : Mixed σ δ :=
  ⟨stream, datagram, 0⟩

/-- Submits bytes to `stream` if `sends` is even, and to `datagram` if it is odd. -/
def send (bytes : Bytes) (clock : Clock) (pair : Mixed σ δ) : Reply × Clock × Mixed σ δ :=
  if pair.sends % 2 = 0 then
    let (reply, clock, stream) := Sink.send bytes clock pair.stream
    (reply, clock, { pair with stream, sends := pair.sends + 1 })
  else
    let (reply, clock, datagram) := Sink.send bytes clock pair.datagram
    (reply, clock, { pair with datagram, sends := pair.sends + 1 })

/-- Submits bytes to `stream` in two parts. -/
def sendSplit (bytes : Bytes) (cut : Nat) (clock : Clock) (pair : Mixed σ δ) :
    Reply × Clock × Mixed σ δ :=
  let (reply, clock, stream) := Sink.sendSplit bytes cut clock pair.stream
  (reply, clock, { pair with stream })

instance : Sink (Mixed σ δ) where
  wire _ := .mixed
  isOpen clock pair := Sink.isOpen clock pair.stream && Sink.isOpen clock pair.datagram
  send := send
  sendSplit := sendSplit
  close pair := { pair with stream := Sink.close pair.stream, datagram := Sink.close pair.datagram }

end Mixed

end Volley
