import Mathlib.Order.WellFounded
import Volley.Proofs.Frame.Resynchronisation

/-!
# Which bytes are a frame

Bytes are one frame if they meet six conditions, each about a fixed place in them. The reader looks
at the conditions in their order and reports the first that fails, together with the numbers that it
has found at this place; later conditions do not matter then, and need not even make sense.

The streaming decoder checks lengths on its own before it hands a body to the same reader. On bytes
that announce their own length, within its limit, it gives the same frame or the same error. The
buffer is taken off in either case, except that a body which cannot hold a header is refused from
its length alone, and stays.

## Main definitions

* `Frame.Condition`: what bytes have to meet to be one frame, in order.
* `Frame.Condition.FailsFirst`: a condition fails, and those before it hold.

## Main results

* `Frame.parse_eq_ok_iff_fields`: the bytes that are read as a given frame, field by field.
* `Frame.parse_eq_error_iff`: each error is that of the first condition that fails.
* `Codec.decode_agrees_with_parse`: the two readers agree.
-/

namespace Volley

namespace Bytes

/-- The first four bytes as a number, the high byte first; missing bytes count as zero. -/
def leading32 (bytes : Bytes) : Nat :=
  (bytes.getD 0 0).toNat * 0x1000000 + (bytes.getD 1 0).toNat * 0x10000 +
    (bytes.getD 2 0).toNat * 0x100 + (bytes.getD 3 0).toNat

/-- From `lengthFieldSize` bytes or more `readUInt32?` reads their `leading32`. -/
theorem readUInt32?_of_le {bytes : Bytes} (h : Frame.lengthFieldSize ≤ bytes.length) :
    readUInt32? bytes = some (bytes.leading32, bytes.drop Frame.lengthFieldSize) := by
  match bytes, h with
  | _ :: _ :: _ :: _ :: _, _ => rfl

/-- Bytes are refused by `text?` exactly if they are the UTF-8 form of no text. -/
theorem text?_eq_none_iff {bytes : Bytes} :
    text? bytes = none ↔ ¬ ∃ text : String, ofText text = bytes := by
  constructor
  · rintro hnone ⟨text, rfl⟩
    simp at hnone
  · intro h
    cases htext : text? bytes with
    | none => rfl
    | some text => exact absurd ⟨text, ofText_of_text? htext⟩ h

theorem ofText_injective : Function.Injective ofText := by
  intro text other h
  have htext := text?_ofText text
  rw [h, text?_ofText] at htext
  exact (Option.some.inj htext).symm

end Bytes

theorem Priority.wire_injective : Function.Injective wire := by
  intro priority other h
  have hpriority := ofWire?_wire priority
  rw [h, ofWire?_wire] at hpriority
  exact (Option.some.inj hpriority).symm

/-- A byte stands for no tier exactly if it is above the one of `Priority.critical`. -/
theorem Priority.ofWire?_eq_none_iff {value : UInt8} :
    ofWire? value = none ↔ critical.wire < value := by
  constructor
  · intro hnone
    refine UInt8.not_le.mp fun hle => ?_
    obtain ⟨priority, rfl⟩ := exists_wire_of_le hle
    simp at hnone
  · intro hlt
    cases htier : ofWire? value with
    | none => rfl
    | some priority =>
      have hle := priority.wire_le
      rw [wire_of_ofWire? htier] at hle
      exact absurd hlt (UInt8.not_lt.mpr hle)

namespace Frame

/-! ## The fields of a byte string -/

/-- The number of bytes of a frame before its topic: those of the length, and those of
`bodyHeaderSize`. -/
def headerSize : Nat := lengthFieldSize + bodyHeaderSize

/-- The byte at the place of the tier, the fifth. -/
def tierByte (bytes : Bytes) : UInt8 :=
  bytes.getD 4 0

/-- The number at the place of the topic's length, in the sixth and the seventh byte. -/
def topicSize (bytes : Bytes) : Nat :=
  (bytes.getD 5 0).toNat * 0x100 + (bytes.getD 6 0).toNat

/-- The bytes at the place of the topic: the `topicSize` bytes behind the header. -/
def topicBytes (bytes : Bytes) : Bytes :=
  (bytes.drop headerSize).take (topicSize bytes)

/-- What follows the `topicBytes`. -/
def payloadBytes (bytes : Bytes) : Bytes :=
  (bytes.drop headerSize).drop (topicSize bytes)

/-- What `bytes` have to meet to be one frame. -/
inductive Condition where
  /-- There is a length. -/
  | lengthPresent
  /-- The length is that of the body. -/
  | lengthRight
  /-- The body holds a tier and the length of a topic. -/
  | headerPresent
  /-- The tier is one of the five. -/
  | tierKnown
  /-- The topic ends within the body. -/
  | topicInside
  /-- The topic is text. -/
  | topicText
  deriving DecidableEq, Repr

namespace Condition

/-- The place of a condition in the order in which `Frame.parse` looks at them. -/
def place : Condition → Nat
  | lengthPresent => 0
  | lengthRight => 1
  | headerPresent => 2
  | tierKnown => 3
  | topicInside => 4
  | topicText => 5

/-- Whether `bytes` meet a condition. -/
def Holds (bytes : Bytes) : Condition → Prop
  | lengthPresent => lengthFieldSize ≤ bytes.length
  | lengthRight => bytes.leading32 = bytes.length - lengthFieldSize
  | headerPresent => headerSize ≤ bytes.length
  | tierKnown => tierByte bytes ≤ Priority.critical.wire
  | topicInside => topicSize bytes ≤ bytes.length - headerSize
  | topicText => ∃ topic : String, Bytes.ofText topic = topicBytes bytes

/-- The `DecodeError` that is reported of `bytes` that do not meet a condition. -/
def fault (bytes : Bytes) : Condition → DecodeError
  | lengthPresent => .shortBuffer
  | lengthRight => .lengthMismatch bytes.leading32 (bytes.length - lengthFieldSize)
  | headerPresent => .bodyTooShort (bytes.length - lengthFieldSize)
  | tierKnown => .invalidPriority (tierByte bytes)
  | topicInside => .topicOverrun (topicSize bytes) (bytes.length - headerSize)
  | topicText => .topicNotUtf8

/-- A condition fails, and all those with a smaller `place` hold. -/
structure FailsFirst (bytes : Bytes) (condition : Condition) : Prop where
  fails : ¬ condition.Holds bytes
  holds : ∀ earlier : Condition, earlier.place < condition.place → earlier.Holds bytes

/-- Either `bytes` meet every `Condition`, or one `FailsFirst`. -/
theorem forall_holds_or_exists_failsFirst (bytes : Bytes) :
    (∀ condition : Condition, condition.Holds bytes) ∨
      ∃ condition : Condition, condition.FailsFirst bytes := by
  refine or_iff_not_imp_left.mpr fun hall => ?_
  -- Of the conditions that fail take the one with the lowest place.
  obtain ⟨condition, hfails, hleast⟩ :=
    (measure place).wf.has_min {condition | ¬ condition.Holds bytes} (not_forall.mp hall)
  refine ⟨condition, hfails, fun earlier hbefore => ?_⟩
  by_contra hearlier
  exact hleast earlier hearlier hbefore

end Condition

/-! ## The reader -/

variable {bytes : Bytes}

/-- Once the length is right, `Frame.parse` reads what follows it as a body. -/
theorem parse_of_lengthRight (hpresent : Condition.lengthPresent.Holds bytes)
    (hright : Condition.lengthRight.Holds bytes) :
    parse bytes = parseBody (bytes.drop lengthFieldSize) := by
  have hlength : bytes.leading32 = (bytes.drop lengthFieldSize).length := by
    rw [List.length_drop]
    exact hright
  rw [parse, Bytes.readUInt32?_of_le hpresent]
  simp only [hlength, ne_eq, not_true_eq_false, if_false]

/-- A body shorter than `bodyHeaderSize` is refused as `bodyTooShort`. -/
theorem parseBody_of_short {body : Bytes} (h : body.length < bodyHeaderSize) :
    parseBody body = .error (.bodyTooShort body.length) := by
  match body, h with
  | [], _ | [_], _ | [_, _], _ => rfl

/-- A body that holds a header is `tierByte`, two more bytes, and what follows them. -/
theorem drop_lengthFieldSize (h : Condition.headerPresent.Holds bytes) :
    bytes.drop lengthFieldSize =
      tierByte bytes :: bytes.getD 5 0 :: bytes.getD 6 0 :: bytes.drop headerSize := by
  match bytes, h with
  | _ :: _ :: _ :: _ :: _ :: _ :: _ :: _, _ => rfl

/-- How `Frame.parse` goes on behind a header: it looks at the `tierByte`, the `topicSize` and the
`topicBytes`, in this order. -/
theorem parse_of_headerPresent (hright : Condition.lengthRight.Holds bytes)
    (hheader : Condition.headerPresent.Holds bytes) :
    parse bytes =
      match Priority.ofWire? (tierByte bytes) with
      | none => .error (.invalidPriority (tierByte bytes))
      | some priority =>
        if topicSize bytes > bytes.length - headerSize then
          .error (.topicOverrun (topicSize bytes) (bytes.length - headerSize))
        else
          match Bytes.text? (topicBytes bytes) with
          | none => .error .topicNotUtf8
          | some topic => .ok { priority, topic, payload := payloadBytes bytes } := by
  have hpresent : Condition.lengthPresent.Holds bytes :=
    Nat.le_trans (Nat.le_add_right lengthFieldSize bodyHeaderSize) hheader
  rw [parse_of_lengthRight hpresent hright, drop_lengthFieldSize hheader, parseBody,
    List.length_drop]
  rfl

/-- If every `Condition` holds, `Frame.parse` reads the frame whose fields are the `tierByte`, the
`topicBytes` and the `payloadBytes`. -/
theorem exists_parse_of_holds (h : ∀ condition : Condition, condition.Holds bytes) :
    ∃ frame, parse bytes = .ok frame ∧ frame.priority.wire = tierByte bytes ∧
      Bytes.ofText frame.topic = topicBytes bytes ∧ frame.payload = payloadBytes bytes := by
  obtain ⟨priority, hpriority⟩ := Priority.exists_wire_of_le (h .tierKnown)
  obtain ⟨topic, htopic⟩ := h .topicText
  refine ⟨⟨priority, topic, payloadBytes bytes⟩, ?_, hpriority, htopic, rfl⟩
  rw [parse_of_headerPresent (h .lengthRight) (h .headerPresent), ← hpriority, ← htopic]
  simp only [Priority.ofWire?_wire, Bytes.text?_ofText, if_neg (Nat.not_lt.mpr (h .topicInside))]

/-- Otherwise `Frame.parse` reports the `fault` of the condition that `FailsFirst`. -/
theorem parse_of_failsFirst {condition : Condition} (h : condition.FailsFirst bytes) :
    parse bytes = .error (condition.fault bytes) := by
  have hfails := h.fails
  -- One case for each condition; those before it say how far the reader gets.
  cases condition with
  | lengthPresent =>
    rw [parse, Bytes.readUInt32?_eq_none_iff.mpr (Nat.not_le.mp hfails)]
    rfl
  | lengthRight =>
    have hpresent := h.holds .lengthPresent (by decide)
    have hne : bytes.leading32 ≠ (bytes.drop lengthFieldSize).length := by
      rw [List.length_drop]
      exact hfails
    rw [parse, Bytes.readUInt32?_of_le hpresent]
    simp only [if_pos hne]
    rw [List.length_drop]
    rfl
  | headerPresent =>
    have hpresent := h.holds .lengthPresent (by decide)
    have hshort : (bytes.drop lengthFieldSize).length < bodyHeaderSize := by
      simp only [Condition.Holds, headerSize] at hpresent hfails
      rw [List.length_drop]
      omega
    rw [parse_of_lengthRight hpresent (h.holds .lengthRight (by decide)),
      parseBody_of_short hshort, List.length_drop]
    rfl
  | tierKnown =>
    have hnone := Priority.ofWire?_eq_none_iff.mpr (UInt8.not_le.mp hfails)
    rw [parse_of_headerPresent (h.holds .lengthRight (by decide))
      (h.holds .headerPresent (by decide)), hnone]
    rfl
  | topicInside =>
    obtain ⟨priority, hpriority⟩ :=
      Priority.exists_wire_of_le (h.holds .tierKnown (by decide))
    rw [parse_of_headerPresent (h.holds .lengthRight (by decide))
      (h.holds .headerPresent (by decide)), ← hpriority]
    simp only [Priority.ofWire?_wire, if_pos (Nat.not_le.mp hfails)]
    rfl
  | topicText =>
    obtain ⟨priority, hpriority⟩ :=
      Priority.exists_wire_of_le (h.holds .tierKnown (by decide))
    have hinside := h.holds .topicInside (by decide)
    rw [parse_of_headerPresent (h.holds .lengthRight (by decide))
      (h.holds .headerPresent (by decide)), ← hpriority]
    simp only [Priority.ofWire?_wire, if_neg (Nat.not_lt.mpr hinside),
      Bytes.text?_eq_none_iff.mpr hfails]
    rfl

/-- A `frame` is read exactly if every `Condition` holds and the frame has the fields of the bytes.
-/
theorem parse_eq_ok_iff_fields {frame : Frame} :
    parse bytes = .ok frame ↔
      (∀ condition : Condition, condition.Holds bytes) ∧ frame.priority.wire = tierByte bytes ∧
        Bytes.ofText frame.topic = topicBytes bytes ∧ frame.payload = payloadBytes bytes := by
  constructor
  · intro hframe
    have hall : ∀ condition : Condition, condition.Holds bytes := by
      refine (Condition.forall_holds_or_exists_failsFirst bytes).resolve_right ?_
      rintro ⟨condition, hfirst⟩
      rw [parse_of_failsFirst hfirst] at hframe
      cases hframe
    obtain ⟨other, hother, hfields⟩ := exists_parse_of_holds hall
    rw [hframe] at hother
    cases hother
    exact ⟨hall, hfields⟩
  · rintro ⟨hall, hpriority, htopic, hpayload⟩
    obtain ⟨other, hother, hpriority', htopic', hpayload'⟩ := exists_parse_of_holds hall
    -- The bytes leave no choice for the tier, the topic and the payload.
    have hsame : other = frame := by
      obtain ⟨tier, topic, payload⟩ := other
      obtain ⟨tier', topic', payload'⟩ := frame
      simp only [mk.injEq]
      exact ⟨Priority.wire_injective (hpriority'.trans hpriority.symm),
        Bytes.ofText_injective (htopic'.trans htopic.symm), hpayload'.trans hpayload.symm⟩
    rw [hother, hsame]

/-- An error of `Frame.parse` is the `fault` of the condition that `FailsFirst`, and the other way
round. -/
theorem parse_eq_error_iff {e : DecodeError} :
    parse bytes = .error e ↔
      ∃ condition : Condition, condition.FailsFirst bytes ∧ e = condition.fault bytes := by
  constructor
  · intro he
    rcases Condition.forall_holds_or_exists_failsFirst bytes with hall | ⟨condition, hfirst⟩
    · obtain ⟨frame, hframe, -⟩ := exists_parse_of_holds hall
      rw [hframe] at he
      cases he
    · rw [parse_of_failsFirst hfirst] at he
      cases he
      exact ⟨condition, hfirst, rfl⟩
  · rintro ⟨condition, hfirst, rfl⟩
    exact parse_of_failsFirst hfirst

end Frame

/-! ## The streaming decoder -/

namespace Codec

/-- The answer of a `Codec` that reports what was read. -/
def answerOf : Except DecodeError Frame → Answer
  | .ok frame => .ok (some frame)
  | .error cause => .error (.malformed cause)

variable {codec : Codec} {bytes : Bytes}

/-- Bytes that announce their own length, within `codec.limit`, are answered as `Frame.parse` reads
them. They stay in the buffer only if they are fewer than `headerSize`. -/
theorem decode_of_lengthRight (hpresent : Frame.Condition.lengthPresent.Holds bytes)
    (hright : Frame.Condition.lengthRight.Holds bytes)
    (hlimit : bytes.length - Frame.lengthFieldSize ≤ codec.limit) :
    codec.decode bytes =
      (answerOf (Frame.parse bytes), if bytes.length < Frame.headerSize then bytes else []) := by
  have hread := Bytes.readUInt32?_of_le hpresent
  have hlength : (bytes.drop Frame.lengthFieldSize).length = bytes.leading32 := by
    rw [List.length_drop]
    exact hright.symm
  rw [← List.length_drop, hlength] at hlimit
  rw [Frame.parse_of_lengthRight hpresent hright]
  by_cases hshort : bytes.length < Frame.headerSize
  · -- The decoder refuses the length, the one-shot reader the body of this length.
    have hbody : (bytes.drop Frame.lengthFieldSize).length < Frame.bodyHeaderSize := by
      simp only [Frame.Condition.Holds, Frame.headerSize] at hpresent hshort
      rw [List.length_drop]
      omega
    rw [if_pos hshort, Frame.parseBody_of_short hbody, hlength]
    rw [hlength] at hbody
    exact decode_of_too_short hread hlimit hbody
  · have hheader : Frame.bodyHeaderSize ≤ (bytes.drop Frame.lengthFieldSize).length := by
      simp only [Frame.headerSize] at hshort
      rw [List.length_drop]
      omega
    obtain ⟨hbytes, hsize⟩ := Bytes.eq_of_readUInt32? hread
    rw [← hlength] at hbytes hlimit hsize
    have hframed := decode_framed hheader hlimit hsize []
    rw [List.append_nil, ← hbytes] at hframed
    rw [hframed, if_neg hshort]
    rfl

/-- Of such bytes `Frame.parse` reports `bodyTooShort` exactly if they are fewer than `headerSize`.
-/
theorem exists_parse_eq_bodyTooShort_iff (hpresent : Frame.Condition.lengthPresent.Holds bytes)
    (hright : Frame.Condition.lengthRight.Holds bytes) :
    (∃ n, Frame.parse bytes = .error (.bodyTooShort n)) ↔ bytes.length < Frame.headerSize := by
  constructor
  · rintro ⟨n, herror⟩
    obtain ⟨condition, hfirst, hfault⟩ := Frame.parse_eq_error_iff.mp herror
    -- Only the condition on the header is reported in this way.
    cases condition with
    | headerPresent => exact Nat.not_le.mp hfirst.fails
    | lengthPresent | lengthRight | tierKnown | topicInside | topicText => cases hfault
  · intro hshort
    have hfirst : Frame.Condition.headerPresent.FailsFirst bytes := by
      refine ⟨Nat.not_le.mpr hshort, fun earlier hbefore => ?_⟩
      cases earlier with
      | lengthPresent => exact hpresent
      | lengthRight => exact hright
      | headerPresent | tierKnown | topicInside | topicText => exact absurd hbefore (by decide)
    exact ⟨_, Frame.parse_of_failsFirst hfirst⟩

/-- On bytes that announce their own length, within `codec.limit`, `Codec.decode` gives what
`Frame.parse` gives, and takes them off the buffer unless the answer is `bodyTooShort`. For any
bytes, `Frame.parse` reads a frame exactly if they hold a header, announce their own length, and
have a known `tierByte` and a topic that ends inside and is text; the frame then has their fields.
Otherwise the error is the `fault` of the condition that `FailsFirst`. -/
theorem decode_agrees_with_parse (codec : Codec) (bytes : Bytes) :
    (4 ≤ bytes.length → bytes.leading32 = bytes.length - 4 → bytes.length - 4 ≤ codec.limit →
      (codec.decode bytes).1 = answerOf (Frame.parse bytes) ∧
      ((∃ n, Frame.parse bytes = .error (.bodyTooShort n)) → (codec.decode bytes).2 = bytes) ∧
      ((¬ ∃ n, Frame.parse bytes = .error (.bodyTooShort n)) → (codec.decode bytes).2 = [])) ∧
    ((∃ frame, Frame.parse bytes = .ok frame) ↔
      7 ≤ bytes.length ∧ bytes.leading32 = bytes.length - 4 ∧ Frame.tierByte bytes ≤ 4 ∧
        Frame.topicSize bytes ≤ bytes.length - 7 ∧
        ∃ topic : String, Bytes.ofText topic = Frame.topicBytes bytes) ∧
    (∀ frame, Frame.parse bytes = .ok frame →
      frame.priority.wire = Frame.tierByte bytes ∧
        Bytes.ofText frame.topic = Frame.topicBytes bytes ∧
        frame.payload = Frame.payloadBytes bytes) ∧
    (∀ cause, Frame.parse bytes = .error cause ↔
      ∃ condition : Frame.Condition,
        condition.FailsFirst bytes ∧ cause = condition.fault bytes) := by
  refine ⟨fun hpresent hright hlimit => ?_, ?_, ?_, fun cause => Frame.parse_eq_error_iff⟩
  · -- The decoder takes the bytes off the buffer unless the body is too short for a header.
    have hshort := exists_parse_eq_bodyTooShort_iff hpresent hright
    rw [decode_of_lengthRight hpresent hright hlimit]
    refine ⟨rfl, fun h => if_pos (hshort.mp h), fun h => if_neg fun hlt => h (hshort.mpr hlt)⟩
  · constructor
    · rintro ⟨frame, hframe⟩
      have hall := (Frame.parse_eq_ok_iff_fields.mp hframe).1
      exact ⟨hall .headerPresent, hall .lengthRight, hall .tierKnown, hall .topicInside,
        hall .topicText⟩
    · rintro ⟨hheader, hright, htier, hinside, htext⟩
      have hall : ∀ condition : Frame.Condition, condition.Holds bytes := by
        intro condition
        cases condition with
        | lengthPresent => exact Nat.le_trans (by decide) hheader
        | lengthRight => exact hright
        | headerPresent => exact hheader
        | tierKnown => exact htier
        | topicInside => exact hinside
        | topicText => exact htext
      obtain ⟨frame, hframe, -⟩ := Frame.exists_parse_of_holds hall
      exact ⟨frame, hframe⟩
  · intro frame hframe
    exact (Frame.parse_eq_ok_iff_fields.mp hframe).2

/-- With a `limit` of five, a frame of nine bytes is taken off the buffer; a body of two bytes is
refused and stays. -/
theorem decode_agrees_with_parse_short_body :
    (4 ≤ [0, 0, 0, 5, 3, 0, 1, 97, 0].length ∧
      Bytes.leading32 [0, 0, 0, 5, 3, 0, 1, 97, 0] = 9 - 4 ∧ 9 - 4 ≤ (⟨5⟩ : Codec).limit ∧
      (⟨5⟩ : Codec).decode [0, 0, 0, 5, 3, 0, 1, 97, 0] = (.ok (some ⟨.high, "a", [0]⟩), [])) ∧
    (4 ≤ [0, 0, 0, 2, 1, 0].length ∧ Bytes.leading32 [0, 0, 0, 2, 1, 0] = 6 - 4 ∧
      6 - 4 ≤ (⟨5⟩ : Codec).limit ∧
      (⟨5⟩ : Codec).decode [0, 0, 0, 2, 1, 0] =
        (.error (.malformed (.bodyTooShort 2)), [0, 0, 0, 2, 1, 0])) := by
  have hframe : Frame.parse [0, 0, 0, 5, 3, 0, 1, 97, 0] = .ok ⟨.high, "a", [0]⟩ := by
    rw [Frame.parse_eq_ok_iff]
    rfl
  have hshort : Frame.parse [0, 0, 0, 2, 1, 0] = .error (.bodyTooShort 2) := by
    simp [Frame.parse, Bytes.readUInt32?, Frame.parseBody]
  obtain ⟨hanswer, -, htaken⟩ := (decode_agrees_with_parse ⟨5⟩ [0, 0, 0, 5, 3, 0, 1, 97, 0]).1
    (by decide) (by decide) (by decide)
  obtain ⟨hanswer', hstays, -⟩ := (decode_agrees_with_parse ⟨5⟩ [0, 0, 0, 2, 1, 0]).1
    (by decide) (by decide) (by decide)
  refine ⟨⟨by decide, by decide, by decide, Prod.ext ?_ (htaken ?_)⟩,
    ⟨by decide, by decide, by decide, Prod.ext ?_ (hstays ⟨2, hshort⟩)⟩⟩
  · rw [hanswer, hframe]
    rfl
  · rintro ⟨n, hn⟩
    rw [hframe] at hn
    cases hn
  · rw [hanswer', hshort]
    rfl

end Codec

end Volley
