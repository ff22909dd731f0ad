import Volley.Proofs.Frame.Acceptance

/-!
# Writing into a buffer that is used again

Several events are encoded one after the other into one buffer. An event that breaks a limit must
leave no byte behind, since a header without its body would shift every frame after it. Whether an
event is refused, and why, depends on its tier and its lengths only
(`Frame.bodyLength_eq_error_iff`), and it is known before the first byte is written. So the buffer
gets whole frames, those of the events that were accepted (`Frame.appendAll_eq`).

There are several ways to encode an event. They differ in what they take and where the bytes go, and
agree in everything else: what one of them refuses the others refuse for the same reason, and what
one of them accepts the others write as the same bytes.

## Main definitions

* `Frame.Refused`: the first limit that an event breaks.
* `Frame.appended`: what a buffer and the answer are, given the encoding of an event.
* `Frame.Request`, `Frame.appendAll`: a sequence of events for one buffer.

## Main results

* `Frame.append_eq`: the buffer gets the whole encoding or nothing.
* `Frame.appends_whole_frames`: any sequence of events, and all ways to encode one.
-/

namespace Volley

namespace Frame

/-! ## Limits -/

/-- Why an event with a topic and a payload of these sizes is refused. The limits are looked at in
their order, and a body too long for memory is reported as one of `maxAddressable` bytes. -/
inductive Refused (priority : UInt8) (topicSize payloadSize : Nat) : EncodingError → Prop where
  | priority (h : Priority.critical.wire < priority) :
      Refused priority topicSize payloadSize (.invalidPriority priority)
  | topic (hpriority : priority ≤ Priority.critical.wire) (h : maxTopicSize < topicSize) :
      Refused priority topicSize payloadSize (.topicTooLong topicSize)
  | body (hpriority : priority ≤ Priority.critical.wire) (htopic : topicSize ≤ maxTopicSize)
      (h : maxBodySize < bodyHeaderSize + topicSize + payloadSize)
      (hmemory : bodyHeaderSize + topicSize + payloadSize ≤ maxAddressable) :
      Refused priority topicSize payloadSize
        (.frameTooLarge (bodyHeaderSize + topicSize + payloadSize))
  | memory (hpriority : priority ≤ Priority.critical.wire) (htopic : topicSize ≤ maxTopicSize)
      (h : maxAddressable < bodyHeaderSize + topicSize + payloadSize) :
      Refused priority topicSize payloadSize (.frameTooLarge maxAddressable)

variable {priority : UInt8} {topicSize payloadSize : Nat}

/-- The errors of `bodyLength` are those of `Refused`: one for each event, that of the first limit
broken. -/
theorem bodyLength_eq_error_iff {e : EncodingError} :
    bodyLength priority topicSize payloadSize = .error e ↔
      Refused priority topicSize payloadSize e := by
  constructor
  · intro h
    unfold bodyLength at h
    by_cases hpriority : priority > Priority.critical.wire
    · rw [if_pos hpriority] at h
      cases h
      exact .priority hpriority
    rw [if_neg hpriority] at h
    by_cases htopic : topicSize > maxTopicSize
    · rw [if_pos htopic] at h
      cases h
      exact .topic (UInt8.not_lt.mp hpriority) htopic
    rw [if_neg htopic] at h
    by_cases hbody : bodyHeaderSize + topicSize + payloadSize > maxBodySize
    · rw [if_pos hbody] at h
      cases h
      -- The sum that is reported is cut off where memory ends.
      by_cases hmemory : bodyHeaderSize + topicSize + payloadSize ≤ maxAddressable
      · rw [Nat.min_eq_left hmemory]
        exact .body (UInt8.not_lt.mp hpriority) (Nat.not_lt.mp htopic) hbody hmemory
      · rw [Nat.min_eq_right (Nat.le_of_not_le hmemory)]
        exact .memory (UInt8.not_lt.mp hpriority) (Nat.not_lt.mp htopic) (Nat.not_le.mp hmemory)
    · rw [if_neg hbody] at h
      cases h
  · intro h
    unfold bodyLength
    cases h with
    | priority hpriority => rw [if_pos hpriority]
    | topic hpriority htopic => rw [if_neg (UInt8.not_lt.mpr hpriority), if_pos htopic]
    | body hpriority htopic hbody hmemory =>
      rw [if_neg (UInt8.not_lt.mpr hpriority), if_neg (Nat.not_lt.mpr htopic), if_pos hbody,
        Nat.min_eq_left hmemory]
    | memory hpriority htopic hmemory =>
      have hbody : maxBodySize < bodyHeaderSize + topicSize + payloadSize :=
        Nat.lt_trans (by decide) hmemory
      rw [if_neg (UInt8.not_lt.mpr hpriority), if_neg (Nat.not_lt.mpr htopic), if_pos hbody,
        Nat.min_eq_right (Nat.le_of_lt hmemory)]

/-! ## One event -/

/-- What comes of an event that is appended to `buffer`, if this is its `encoding`: the whole
encoding is behind what was there and its length is the answer, or nothing has changed. -/
def appended (buffer : Bytes) (encoding : Except EncodingError Bytes) :
    Except EncodingError Nat × Bytes :=
  match encoding with
  | .ok bytes => (.ok bytes.length, buffer ++ bytes)
  | .error e => (.error e, buffer)

variable {topic : String} {payload bytes : Bytes}

/-- An event is refused by `encode` for the reason for which its sizes are `Refused`. -/
theorem encode_eq_error_iff {e : EncodingError} :
    encode priority topic payload = .error e ↔
      Refused priority topic.utf8ByteSize payload.length e := by
  rw [← bodyLength_eq_error_iff, encode, encodeTopicBytes, Bytes.length_ofText]
  cases bodyLength priority topic.utf8ByteSize payload.length <;> simp

/-- What `encode` makes is seven bytes longer than the topic and the payload. -/
theorem length_of_encode (h : encode priority topic payload = .ok bytes) :
    bytes.length = lengthFieldSize + bodyHeaderSize + topic.utf8ByteSize + payload.length := by
  unfold encode encodeTopicBytes at h
  split at h
  · cases h
  · cases h
    rw [length_assemble, Bytes.length_ofText]

/-- By `Frame.append`, a buffer gets the whole of what `encode` makes, or nothing. -/
theorem append_eq (buffer : Bytes) (priority : UInt8) (topic : String) (payload : Bytes) :
    append buffer priority topic payload = appended buffer (encode priority topic payload) := by
  unfold append encode encodeTopicBytes
  rw [Bytes.length_ofText]
  cases hlength : bodyLength priority topic.utf8ByteSize payload.length with
  | error e => rfl
  | ok size =>
    obtain ⟨-, -, -, rfl⟩ := bodyLength_eq_ok_iff.mp hlength
    simp only [appended, length_assemble, Bytes.length_ofText, Nat.add_assoc]

/-- What `encode` makes is what `append` leaves in an empty buffer. -/
theorem encode_eq_append_nil (priority : UInt8) (topic : String) (payload : Bytes) :
    encode priority topic payload =
      (append [] priority topic payload).1.map fun _ => (append [] priority topic payload).2 := by
  rw [append_eq]
  cases encode priority topic payload <;> rfl

/-- By `encodeInto`, a buffer is handed back exactly if `encode` has made something to append to it.
-/
theorem encodeInto_eq (buffer : Bytes) (priority : UInt8) (topic : String) (payload : Bytes) :
    encodeInto buffer priority topic payload =
      (encode priority topic payload).map fun bytes => (bytes.length, buffer ++ bytes) := by
  rw [encodeInto, append_eq]
  cases encode priority topic payload <;> rfl

/-- A topic that comes as the UTF-8 form of a text is encoded by `encodeRaw` as by `encode`. -/
theorem encodeRaw_ofText (priority : UInt8) (topic : String) (payload : Bytes) :
    encodeRaw priority (Bytes.ofText topic) payload = encode priority topic payload := by
  rw [encodeRaw, Bytes.text?_ofText]

/-- Bytes that are the UTF-8 form of no text are refused by `encodeRaw` as `topicNotUtf8`. -/
theorem encodeRaw_of_not_text {topic : Bytes} (h : ¬ ∃ text : String, Bytes.ofText text = topic)
    (priority : UInt8) (payload : Bytes) :
    encodeRaw priority topic payload = .error .topicNotUtf8 := by
  unfold encodeRaw
  split
  · rfl
  · next text htext => exact absurd ⟨text, Bytes.ofText_of_text? htext⟩ h

/-! ## Several events -/

/-- An event that is to be written into a buffer. Its `priority` need not be that of a tier. -/
structure Request where
  priority : UInt8
  topic : String
  payload : Bytes
  deriving DecidableEq, Repr

/-- What `encode` makes of the event on its own. -/
def Request.encoding (request : Request) : Except EncodingError Bytes :=
  encode request.priority request.topic request.payload

/-- The result of `append` for one request after the other, whatever becomes of each. -/
def appendAll (buffer : Bytes) : List Request → List (Except EncodingError Nat) × Bytes
  | [] => ([], buffer)
  | request :: requests =>
    let (answer, longer) := append buffer request.priority request.topic request.payload
    let (answers, last) := appendAll longer requests
    (answer :: answers, last)

/-- Behind what was in `buffer` come the encodings of the `requests` that have one, and nothing
else; each request is answered as if it were the only one. -/
theorem appendAll_eq (buffer : Bytes) (requests : List Request) :
    appendAll buffer requests =
      (requests.map fun request => request.encoding.map List.length,
        buffer ++ (requests.filterMap fun request => request.encoding.toOption).flatten) := by
  induction requests generalizing buffer with
  | nil => simp [appendAll]
  | cons request requests ih =>
    rw [appendAll, append_eq]
    simp only [ih, List.map_cons, List.filterMap_cons, Request.encoding]
    -- The first event leaves its encoding for the others to be put behind, or nothing.
    cases encode request.priority request.topic request.payload with
    | ok bytes => simp [appended, Except.map, Except.toOption]
    | error e => simp [appended, Except.map, Except.toOption]

end Frame

/-! ## Events as they are planned -/

/-- An `Event` is appended like any other `Request`. -/
theorem Event.append_eq (buffer : Bytes) (event : Event) :
    event.append buffer = Frame.appended buffer event.encode :=
  Frame.append_eq buffer event.priority.wire event.topic event.payload

theorem Event.encodeInto_eq (buffer : Bytes) (event : Event) :
    event.encodeInto buffer =
      event.encode.map fun bytes => (bytes.length, buffer ++ bytes) :=
  Frame.encodeInto_eq buffer event.priority.wire event.topic event.payload

/-- By `Codec.encode`, an event is appended as by `Event.append`, without the number of its bytes.
-/
theorem Codec.encode_eq (buffer : Bytes) (event : Event) :
    Codec.encode buffer event =
      match event.encode with
      | .ok bytes => (.ok (), buffer ++ bytes)
      | .error e => (.error (.unencodable e), buffer) := by
  rw [Codec.encode, Event.append_eq]
  cases event.encode <;> rfl

/-- Requests that `appendAll` appends to a buffer leave in it what was there and then the encodings
of those that were accepted. An event is refused by `append` exactly if it is `Refused`, for the
first limit that it breaks, and then the buffer is as it was; otherwise the answer is the number of
bytes that were `added`. All ways to encode an event, `encode`, `encodeInto`, `encodeRaw` and
`Codec.encode`, give the same bytes or the same reason, and `encodedLength` is the length of the
bytes; a topic of `encodeRaw` has to be text before anything else. -/
theorem Frame.appends_whole_frames :
    (∀ (buffer : Bytes) (requests : List Request),
      appendAll buffer requests =
        (requests.map fun request => request.encoding.map List.length,
          buffer ++ (requests.filterMap fun request => request.encoding.toOption).flatten)) ∧
    (∀ (buffer : Bytes) (priority : UInt8) (topic : String) (payload : Bytes),
      (∀ e, (append buffer priority topic payload).1 = .error e ↔
        Refused priority topic.utf8ByteSize payload.length e) ∧
      (∀ e, (append buffer priority topic payload).1 = .error e →
        (append buffer priority topic payload).2 = buffer) ∧
      (∀ added, (append buffer priority topic payload).1 = .ok added →
        added = 7 + topic.utf8ByteSize + payload.length ∧
          ∃ bytes, bytes.length = added ∧ encode priority topic payload = .ok bytes ∧
            (append buffer priority topic payload).2 = buffer ++ bytes)) ∧
    (∀ (priority : UInt8) (topic : String) (payload : Bytes),
      (encode priority topic payload =
        (append [] priority topic payload).1.map fun _ => (append [] priority topic payload).2) ∧
      (∀ buffer, encodeInto buffer priority topic payload =
        (encode priority topic payload).map fun bytes => (bytes.length, buffer ++ bytes)) ∧
      encodeRaw priority (Bytes.ofText topic) payload = encode priority topic payload) ∧
    (∀ (priority : UInt8) (topic payload : Bytes),
      (¬ ∃ text : String, Bytes.ofText text = topic) →
        encodeRaw priority topic payload = .error .topicNotUtf8) ∧
    (∀ event : Event,
      event.encode = encode event.priority.wire event.topic event.payload ∧
      (∀ bytes, event.encode = .ok bytes → bytes.length = event.encodedLength) ∧
      (∀ buffer, event.append buffer = appended buffer event.encode ∧
        event.encodeInto buffer =
          event.encode.map (fun bytes => (bytes.length, buffer ++ bytes)) ∧
        Codec.encode buffer event =
          match event.encode with
          | .ok bytes => (.ok (), buffer ++ bytes)
          | .error e => (.error (.unencodable e), buffer))) := by
  refine ⟨appendAll_eq, fun buffer priority topic payload => ?_,
    fun priority topic payload => ⟨encode_eq_append_nil priority topic payload,
      fun buffer => encodeInto_eq buffer priority topic payload,
      encodeRaw_ofText priority topic payload⟩,
    fun priority topic payload h => encodeRaw_of_not_text h priority payload,
    fun event => ⟨rfl, fun bytes h => Event.length_of_encode h, fun buffer =>
      ⟨event.append_eq buffer, event.encodeInto_eq buffer, Codec.encode_eq buffer event⟩⟩⟩
  simp only [append_eq, ← encode_eq_error_iff]
  cases hencode : encode priority topic payload with
  | ok bytes =>
    simp only [appended, reduceCtorEq, Except.ok.injEq, implies_true, IsEmpty.forall_iff, true_and]
    rintro added rfl
    exact ⟨length_of_encode hencode, bytes, rfl, rfl, rfl⟩
  | error e => simp [appended]

/-- Of three events for a buffer that holds a byte, only the second has a tier: by `appendAll`, it
alone gets into the buffer. -/
theorem Frame.appends_whole_frames_between_refusals :
    appendAll [7] [⟨9, "a", [0]⟩, ⟨3, "a", [0]⟩, ⟨5, "", []⟩] =
      ([.error (.invalidPriority 9), .ok 9, .error (.invalidPriority 5)],
        [7, 0, 0, 0, 5, 3, 0, 1, 97, 0]) ∧
    ((append [7] 9 "a" [0]).1 = .error (.invalidPriority 9) ∧ (append [7] 9 "a" [0]).2 = [7]) ∧
    ((append [7] 3 "a" [0]).1 = .ok 9 ∧
      9 = 7 + "a".utf8ByteSize + ([0] : Bytes).length) ∧
    ((¬ ∃ text : String, Bytes.ofText text = [0xFF]) ∧
      encodeRaw 9 [0xFF] [] = .error .topicNotUtf8) := by
  have hrefused : (append [7] 9 "a" [0]).1 = .error (.invalidPriority 9) :=
    ((appends_whole_frames.2.1 [7] 9 "a" [0]).1 _).mpr (.priority (by decide))
  have haccepted : (append [7] 3 "a" [0]).1 = .ok 9 := rfl
  have hbytes : ¬ ∃ text : String, Bytes.ofText text = [0xFF] :=
    Bytes.text?_eq_none_iff.mp (by decide +kernel)
  refine ⟨(appends_whole_frames.1 _ _).trans rfl,
    ⟨hrefused, (appends_whole_frames.2.1 [7] 9 "a" [0]).2.1 _ hrefused⟩,
    ⟨haccepted, ((appends_whole_frames.2.1 [7] 3 "a" [0]).2.2 _ haccepted).1⟩,
    hbytes, appends_whole_frames.2.2.2.1 9 [0xFF] [] hbytes⟩

end Volley
