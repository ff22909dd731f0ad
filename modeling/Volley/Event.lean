import Volley.Frame.Basic

/-!
# Events

An event is what a worker means to send. Its id is bookkeeping of the sender: it appears in the
payload, and never in the frame around it.
-/

namespace Volley

/-- One planned event. -/
structure Event where
  /-- The number by which the sender knows the event. -/
  id : UInt64
  priority : Priority
  topic : String
  payload : Bytes
  deriving DecidableEq, Repr

namespace Event

/-- The length of `encode`, computed without encoding the event. -/
def encodedLength (event : Event) : Nat :=
  Frame.lengthFieldSize + Frame.bodyHeaderSize + event.topic.utf8ByteSize + event.payload.length

/-- The frame of the event, with the `wire` byte of its tier. -/
def encode (event : Event) : Except EncodingError Bytes :=
  Frame.encode event.priority.wire event.topic event.payload

/-- Appends the frame of the event to `buffer`: how many bytes were added, or why none were, and the
buffer afterwards. -/
def append (buffer : Bytes) (event : Event) : Except EncodingError Nat × Bytes :=
  Frame.append buffer event.priority.wire event.topic event.payload

/-- The result of `Frame.encodeInto` for the event: the `buffer` with its frame behind it, and the
number of bytes added. -/
def encodeInto (buffer : Bytes) (event : Event) : Except EncodingError (Nat × Bytes) :=
  Frame.encodeInto buffer event.priority.wire event.topic event.payload

/-- What `encode` makes of several events, one after the other, or the first reason why one of them
cannot be encoded. -/
def encodeAll : List Event → Except EncodingError Bytes
  | [] => .ok []
  | event :: rest =>
    match event.encode with
    | .error e => .error e
    | .ok bytes =>
      match encodeAll rest with
      | .error e => .error e
      | .ok more => .ok (bytes ++ more)

end Event

end Volley
