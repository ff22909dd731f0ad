import Volley.Frame.Codec

/-!
# Capturing frames

A receiver that keeps every frame it is sent. A stream is read frame by frame up to its first fault,
and an end in the middle of a frame is a fault too; a datagram is one frame or a fault.
-/

namespace Volley

/-- How a frame arrived. -/
inductive Ingress where
  | stream
  | datagram
  deriving DecidableEq, Repr

/-- What a receiver has got. -/
structure Capture where
  /-- The frames in the order of their arrival, the latest first. -/
  log : List (Ingress × Frame)
  /-- The number of streams, at fault or not. -/
  connections : Nat
  /-- The number of streams and datagrams at fault. -/
  rejected : Nat
  deriving DecidableEq, Repr

namespace Capture

/-- A receiver that has got nothing. -/
def empty : Capture := ⟨[], 0, 0⟩

/-- The frames of `log` in the order of their arrival. -/
def frames (capture : Capture) : List (Ingress × Frame) :=
  capture.log.reverse

/-- A stream as far as it has been read. -/
structure Reading where
  /-- The bytes that are not part of a frame yet. -/
  buffer : Bytes
  /-- The frames so far, the latest first. -/
  frames : List Frame
  /-- Whether a fault has ended the reading. -/
  failed : Bool
  deriving DecidableEq, Repr

namespace Reading

/-- A stream of which nothing has been read. -/
def start : Reading := ⟨[], [], false⟩

/-- Takes the answers of a decoder, of which at most the last is a fault; a fault sets `failed`. -/
def take (reading : Reading) : List Codec.Answer → Reading
  | [] => reading
  | .ok (some frame) :: rest => take { reading with frames := frame :: reading.frames } rest
  | .ok none :: rest => take reading rest
  | .error _ :: _ => { reading with failed := true }

/-- Reads a `piece` of the stream: `buffer` with the piece behind it goes through `Codec.drain`. -/
def feed (codec : Codec) (reading : Reading) (piece : Bytes) : Reading :=
  if reading.failed then reading
  else
    let (answers, buffer) := codec.drain (reading.buffer ++ piece)
    { reading with buffer }.take answers

/-- Comes to the end of the stream, where `Codec.decodeEnd` looks at what is left in `buffer`. -/
def finish (codec : Codec) (reading : Reading) : Reading :=
  if reading.failed then reading
  else
    match codec.decodeEnd reading.buffer with
    | (.error _, buffer) => { reading with buffer, failed := true }
    | (.ok (some frame), buffer) => { reading with buffer, frames := frame :: reading.frames }
    | (.ok none, buffer) => { reading with buffer }

end Reading

/-- Receives one stream in the given `pieces`, up to its end. -/
def stream (capture : Capture) (pieces : List Bytes) : Capture :=
  let codec : Codec := {}
  let reading := (pieces.foldl (Reading.feed codec) Reading.start).finish codec
  { log := reading.frames.map (Ingress.stream, ·) ++ capture.log
    connections := capture.connections + 1
    rejected := capture.rejected + if reading.failed then 1 else 0 }

/-- Receives one datagram, a frame of which `Frame.parse` reads all bytes, or `rejected`. -/
def datagram (capture : Capture) (bytes : Bytes) : Capture :=
  match Frame.parse bytes with
  | .ok frame => { capture with log := (Ingress.datagram, frame) :: capture.log }
  | .error _ => { capture with rejected := capture.rejected + 1 }

end Capture

end Volley
