import Volley.Bytes
import Volley.Priority

/-!
# Frames

A frame carries one event: a 32-bit body length, then the body, which is the tier, a 16-bit topic
length, the topic in UTF-8 and the payload. All numbers are big-endian. This module holds the
layout, its limits and the encoder.

Encoding looks at lengths only until every limit is known to hold (`Frame.bodyLength`); the bytes
are put together by `Frame.assemble` afterwards, so a refused event leaves a buffer as it was.
-/

namespace Volley

/-- One event as it travels: the `priority` of its tier, its `topic` and its `payload`. -/
structure Frame where
  priority : Priority
  topic : String
  payload : Bytes
  deriving DecidableEq, Repr

/-- Why an event cannot be written as a `Frame`. -/
inductive EncodingError where
  /-- The byte stands for no tier. -/
  | invalidPriority (value : UInt8)
  /-- The topic is longer than its length field can say. -/
  | topicTooLong (length : Nat)
  /-- The topic is not text. -/
  | topicNotUtf8
  /-- The body is longer than its length field can say. -/
  | frameTooLarge (length : Nat)
  deriving DecidableEq, Repr

/-- The wording of an encoding failure. -/
def EncodingError.message : EncodingError → String
  | .invalidPriority value => s!"invalid priority {value}"
  | .topicTooLong length => s!"topic too long: {length} bytes"
  | .topicNotUtf8 => "topic is not valid UTF-8"
  | .frameTooLarge length => s!"frame body too large: {length} bytes"

namespace Frame

/-- The number of bytes of the length that opens a frame. -/
def lengthFieldSize : Nat := 4

/-- The number of bytes of a body before its topic: the tier and the topic's length. -/
def bodyHeaderSize : Nat := 3

/-- The longest topic that its 16-bit length can announce. -/
def maxTopicSize : Nat := 0xFFFF

/-- The longest body that its 32-bit length can announce. -/
def maxBodySize : Nat := 0xFFFFFFFF

/-- The largest size that memory can have; a longer sum is reported as this one. -/
def maxAddressable : Nat := 0xFFFFFFFFFFFFFFFF

/-- The longest frame that fits one datagram. -/
def maxDatagramSize : Nat := 65507

/-- The length of the body of an event with these sizes, or the first limit that it breaks: that of
the `priority`, then `maxTopicSize`, then `maxBodySize`. -/
def bodyLength (priority : UInt8) (topicSize payloadSize : Nat) : Except EncodingError Nat :=
  if priority > Priority.critical.wire then
    .error (.invalidPriority priority)
  else if topicSize > maxTopicSize then
    .error (.topicTooLong topicSize)
  else if bodyHeaderSize + topicSize + payloadSize > maxBodySize then
    .error (.frameTooLarge (min (bodyHeaderSize + topicSize + payloadSize) maxAddressable))
  else
    .ok (bodyHeaderSize + topicSize + payloadSize)

/-- The bytes of a frame, laid out without looking at the limits of `bodyLength`. -/
def assemble (priority : UInt8) (topic payload : Bytes) : Bytes :=
  Bytes.ofUInt32 (bodyHeaderSize + topic.length + payload.length) ++
    priority :: Bytes.ofUInt16 topic.length ++ topic ++ payload

/-- The frame of an event whose `topic` is given as UTF-8: what `assemble` makes, if `bodyLength`
accepts the sizes. -/
def encodeTopicBytes (priority : UInt8) (topic payload : Bytes) : Except EncodingError Bytes :=
  match bodyLength priority topic.length payload.length with
  | .error e => .error e
  | .ok _ => .ok (assemble priority topic payload)

/-- The frame of an event. -/
def encode (priority : UInt8) (topic : String) (payload : Bytes) : Except EncodingError Bytes :=
  encodeTopicBytes priority (Bytes.ofText topic) payload

/-- The frame of an event whose `topic` comes as bytes of unknown content: they must be text, by
`Bytes.text?`, before anything else is looked at. -/
def encodeRaw (priority : UInt8) (topic payload : Bytes) : Except EncodingError Bytes :=
  match Bytes.text? topic with
  | none => .error .topicNotUtf8
  | some text => encode priority text payload

/-- Appends the frame of an event to `buffer`: how many bytes were added, or why none were, and the
buffer afterwards. -/
def append (buffer : Bytes) (priority : UInt8) (topic : String) (payload : Bytes) :
    Except EncodingError Nat × Bytes :=
  match bodyLength priority topic.utf8ByteSize payload.length with
  | .error e => (.error e, buffer)
  | .ok size =>
    (.ok (lengthFieldSize + size), buffer ++ assemble priority (Bytes.ofText topic) payload)

/-- What `append` leaves of `buffer`, with the number of bytes that were `added`. -/
def encodeInto (buffer : Bytes) (priority : UInt8) (topic : String) (payload : Bytes) :
    Except EncodingError (Nat × Bytes) :=
  match append buffer priority topic payload with
  | (.error e, _) => .error e
  | (.ok added, longer) => .ok (added, longer)

/-- What `encode` makes of the fields of a frame. -/
def toBytes (frame : Frame) : Except EncodingError Bytes :=
  encode frame.priority.wire frame.topic frame.payload

theorem length_assemble (priority : UInt8) (topic payload : Bytes) :
    (assemble priority topic payload).length =
      lengthFieldSize + bodyHeaderSize + topic.length + payload.length := by
  simp [assemble, lengthFieldSize, bodyHeaderSize]
  omega

end Frame

end Volley
