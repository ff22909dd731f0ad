import Volley.Frame.Decode
import Volley.Event

/-!
# Frames out of a byte stream

A stream delivers bytes in pieces that know nothing of frames. The codec keeps what has arrived in
a buffer and takes whole frames off its front. Two kinds of malformed input are told apart by when
they are noticed: a bad length is refused from the length field alone and leaves the buffer as it
was, a bad body is refused once it is complete and is taken off the buffer with its error.
-/

namespace Volley

/-- A decoder for one stream, with the `limit` that it sets to the bodies of frames. -/
structure Codec where
  /-- The longest body that is accepted. -/
  limit : Nat := 10 * 1024 * 1024
  deriving DecidableEq, Repr

namespace Codec

/-- Why a stream cannot be read or written any further. -/
inductive Failure where
  /-- The front of the buffer is not a frame. -/
  | malformed (cause : DecodeError)
  /-- An event cannot be written. -/
  | unencodable (cause : EncodingError)
  /-- The stream ended inside a frame. -/
  | unfinished
  deriving DecidableEq, Repr

/-- The wording of a stream failure. -/
def Failure.message : Failure → String
  | .malformed cause => cause.message
  | .unencodable cause => cause.message
  | .unfinished => "bytes remaining on stream"

/-- What one attempt to take a frame off a buffer gives: a frame, `none` when the buffer does not
hold a whole one yet, or an error. -/
abbrev Answer := Except Failure (Option Frame)

/-- Takes one frame off the front of `buffer`, by `Frame.parseBody`. A length beyond `limit`, or
below `Frame.bodyHeaderSize`, is refused and left there. -/
def decode (codec : Codec) (buffer : Bytes) : Answer × Bytes :=
  match Bytes.readUInt32? buffer with
  | none => (.ok none, buffer)
  | some (size, rest) =>
    -- The length alone decides these two, however much of the body has arrived.
    if size > codec.limit then
      (.error (.malformed (.frameTooLarge size codec.limit)), buffer)
    else if size < Frame.bodyHeaderSize then
      (.error (.malformed (.bodyTooShort size)), buffer)
    else if (rest.take size).length < size then
      (.ok none, buffer)
    else
      match Frame.parseBody (rest.take size) with
      | .ok frame => (.ok (some frame), rest.drop size)
      | .error e => (.error (.malformed e), rest.drop size)

/-- Takes one frame off the front of `buffer` when no more bytes will come: a buffer that holds only
part of a frame is then an error, `Failure.unfinished`. -/
def decodeEnd (codec : Codec) (buffer : Bytes) : Answer × Bytes :=
  match codec.decode buffer with
  | (.ok none, rest) => if rest.isEmpty then (.ok none, rest) else (.error .unfinished, rest)
  | answer => answer

/-- Appends the frame of an event to `buffer`, by `Event.append`. -/
def encode (buffer : Bytes) (event : Event) : Except Failure Unit × Bytes :=
  match event.append buffer with
  | (.ok _, buffer) => (.ok (), buffer)
  | (.error e, buffer) => (.error (.unencodable e), buffer)

/-- What `readUInt32?` leaves is four bytes less. -/
theorem length_of_readUInt32? {buffer rest : Bytes} {size : Nat}
    (h : Bytes.readUInt32? buffer = some (size, rest)) : buffer.length = rest.length + 4 := by
  match buffer, h with
  | _ :: _ :: _ :: _ :: tail, h =>
    simp only [Bytes.readUInt32?, Option.some.injEq, Prod.mk.injEq] at h
    simp [h.2]

/-- A frame that `decode` takes off shortens the buffer. -/
theorem length_decode_lt {codec : Codec} {buffer rest : Bytes} {frame : Frame}
    (h : codec.decode buffer = (.ok (some frame), rest)) : rest.length < buffer.length := by
  unfold decode at h
  split at h
  · cases h
  · next size tail htail =>
    have := length_of_readUInt32? htail
    repeat' split at h
    all_goals cases h
    simp
    omega

/-- Takes frames off `buffer` by `decode`, until there is no whole frame left or one is malformed.
The answers are listed in order, the one that ended it last. -/
def drain (codec : Codec) (buffer : Bytes) : List Answer × Bytes :=
  match h : codec.decode buffer with
  | (.ok (some frame), rest) =>
    have := length_decode_lt h
    let (answers, left) := drain codec rest
    (.ok (some frame) :: answers, left)
  | (answer, rest) => ([answer], rest)
termination_by buffer.length

/-- The frames among the answers of a decoder. -/
def framesOf (answers : List Answer) : List Frame :=
  answers.filterMap fun answer => match answer with
    | .ok frame => frame
    | .error _ => none

/-- The frames that `drain` finds at the front of a buffer, up to the first fault or the first that
is not whole. -/
def frames (codec : Codec) (buffer : Bytes) : List Frame :=
  framesOf (codec.drain buffer).1

end Codec

end Volley
