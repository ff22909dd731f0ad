import Volley.Event
import Volley.Payload.Body

/-!
# A corpus of frames

A few well-formed inputs with which the fuzzing of a decoder can start, each with the name of the
file that holds it.
-/

namespace Volley.Corpus

/-- A frame with a topic and a payload of text. -/
def alert : Except EncodingError Bytes :=
  Frame.encode Priority.high.wire "system/alerts" (Bytes.ofText "High severity alert")

/-- The shortest frame there is. -/
def emptyTopic : Except EncodingError Bytes :=
  Frame.encode Priority.batch.wire "" []

/-- The frame of an event as a worker sends it. -/
def jsonPayload : Except EncodingError Bytes :=
  match Payload.body 10001 1700000000000 .critical 128 with
  | .error _ => .ok []
  | .ok payload =>
    Event.encode { id := 10001, priority := .critical, topic := "trading/orders", payload }

/-- Two frames without anything between them. -/
def sticky : Except EncodingError Bytes := do
  let first ← Frame.encode Priority.low.wire "analytics/clicks" (Bytes.ofText "first")
  let second ← Frame.encode Priority.medium.wire "metrics/cpu" (Bytes.ofText "second")
  return first ++ second

/-- The directory of the files. -/
def directory : String := "fuzz/corpus"

/-- The files, in the order of their names. -/
def files : Except EncodingError (List (String × Bytes)) := do
  return [("alert.bin", ← alert), ("empty_topic.bin", ← emptyTopic),
    ("json_payload.bin", ← jsonPayload), ("sticky.bin", ← sticky)]

end Volley.Corpus
