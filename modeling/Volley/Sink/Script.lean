import Volley.Sink.Stream

/-!
# A stream that follows a script

The answers to offers and flushes are fixed in advance; once a script is used up, everything is
taken and every flush succeeds.
-/

namespace Volley

/-- The sending end of a stream whose answers are fixed in advance. -/
structure Script where
  /-- The answers to the offers to come. -/
  offers : List Taken
  /-- The answers to the flushes to come. -/
  flushes : List Flushed
  /-- The pieces that were taken, the latest first. -/
  taken : List Bytes
  /-- The number of flushes so far. -/
  flushCalls : Nat
  /-- The number of times the stream was ended in order. -/
  shutdowns : Nat
  deriving DecidableEq, Repr

namespace Script

/-- A script that has not been started. -/
def new (offers : List Taken) (flushes : List Flushed) : Script :=
  ⟨offers, flushes, [], 0, 0⟩

/-- The bytes of all pieces in `taken`. -/
def bytes (script : Script) : Bytes :=
  script.taken.reverse.flatten

/-- The answer to an offer of `size` bytes, and the answers after it. An offer that is interrupted
is simply made again. -/
def nextOffer (size : Nat) : List Taken → Taken × List Taken
  | [] => (.accepted size, [])
  | .failed .interrupted :: rest => nextOffer size rest
  | .accepted count :: rest => (.accepted (min count size), rest)
  | .stalled :: rest => (.stalled, rest)
  | .failed cause :: rest => (.failed cause, rest)

/-- Takes what `nextOffer` says. -/
def write (bytes : Bytes) (script : Script) : Taken × Script :=
  match nextOffer bytes.length script.offers with
  | (.accepted count, offers) =>
    (.accepted count, { script with offers, taken := bytes.take count :: script.taken })
  | (answer, offers) => (answer, { script with offers })

/-- Flushes as the next of `flushes` says. -/
def flush (script : Script) : Flushed × Script :=
  let script := { script with flushCalls := script.flushCalls + 1 }
  match script.flushes with
  | [] => (.done, script)
  | answer :: flushes => (answer, { script with flushes })

instance : Writer Script where
  write := write
  flush := flush
  shutdown script := { script with shutdowns := script.shutdowns + 1 }
  release script := script

end Script

end Volley
