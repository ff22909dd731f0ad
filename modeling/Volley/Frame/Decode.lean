import Volley.Frame.Basic

/-!
# Reading a frame

`Frame.parse` reads a byte string that must be exactly one frame; `Frame.parseBody` reads what
follows the length. Each reports the first condition that fails, in the order in which the fields
stand.
-/

namespace Volley

/-- Why bytes are not a frame. -/
inductive DecodeError where
  /-- The bytes end inside a number. -/
  | shortBuffer
  /-- The announced body length is not the length of what follows. -/
  | lengthMismatch (declared actual : Nat)
  /-- The body cannot hold a tier and a topic length. -/
  | bodyTooShort (length : Nat)
  /-- The byte stands for no tier. -/
  | invalidPriority (value : UInt8)
  /-- The topic would reach past the end of the body. -/
  | topicOverrun (topic rest : Nat)
  /-- The topic is not text. -/
  | topicNotUtf8
  /-- The announced body length is over the reader's limit. -/
  | frameTooLarge (length limit : Nat)
  deriving DecidableEq, Repr

/-- The wording of a decoding failure. -/
def DecodeError.message : DecodeError → String
  | .shortBuffer => "buffer too short"
  | .lengthMismatch declared actual => s!"length mismatch: declared {declared}, actual {actual}"
  | .bodyTooShort length => s!"frame body too short: {length} bytes"
  | .invalidPriority value => s!"invalid priority {value}"
  | .topicOverrun topic rest => s!"topic length {topic} exceeds remaining body {rest}"
  | .topicNotUtf8 => "topic is not valid UTF-8"
  | .frameTooLarge length limit => s!"frame too large: {length} bytes exceeds limit {limit}"

namespace Frame

/-- Reads the `body` of a frame: tier, topic length, topic, and the rest as payload. -/
def parseBody (body : Bytes) : Except DecodeError Frame :=
  match body with
  | tier :: high :: low :: rest =>
    match Priority.ofWire? tier with
    | none => .error (.invalidPriority tier)
    | some priority =>
      let topicSize := high.toNat * 0x100 + low.toNat
      if topicSize > rest.length then
        .error (.topicOverrun topicSize rest.length)
      else
        match Bytes.text? (rest.take topicSize) with
        | none => .error .topicNotUtf8
        | some topic => .ok { priority, topic, payload := rest.drop topicSize }
  | short => .error (.bodyTooShort short.length)

/-- Reads `bytes` that are exactly one frame: a length, and a body of this length for `parseBody`.
-/
def parse (bytes : Bytes) : Except DecodeError Frame :=
  match Bytes.readUInt32? bytes with
  | none => .error .shortBuffer
  | some (declared, body) =>
    if declared ≠ body.length then .error (.lengthMismatch declared body.length)
    else parseBody body

end Frame

end Volley
