import Volley.Frame.Decode

/-!
# Reading is the inverse of writing

Every frame has exactly one encoding, and the reader accepts exactly the encodings. A body is the
tier, the length of the topic, the topic and the payload, one after the other (`Frame.body`); the
reader of bodies accepts the bodies of frames whose topic fits its length field and nothing else
(`Frame.parseBody_eq_ok_iff`). The length in front of a body says how long it is, so the same holds
of frames (`Frame.parse_eq_ok_iff`).

## Main definitions

* `Frame.body`: the bytes of a frame behind its length.
* `Frame.Fits`: the lengths of a frame can be written into its length fields.

## Main results

* `Frame.encode_eq_ok_iff`: what is written, and under which limits.
* `Frame.encode_parse_inverse`: reading undoes writing, and writing undoes reading.
-/

namespace Volley

namespace Bytes

@[simp]
theorem length_ofText (text : String) : (ofText text).length = text.utf8ByteSize := by
  rw [ofText, Array.length_toList]
  rfl

/-- The bytes that `ofUInt16` makes of a number are those that it was put together from. -/
theorem ofUInt16_join (high low : UInt8) :
    ofUInt16 (high.toNat * 0x100 + low.toNat) = [high, low] := by
  have hhigh := high.toNat_lt
  have hlow := low.toNat_lt
  simp only [ofUInt16, List.cons.injEq, and_true]
  constructor
  · rw [← UInt8.toNat_inj, UInt8.toNat_ofNat']
    omega
  · rw [← UInt8.toNat_inj, UInt8.toNat_ofNat']
    omega

/-- Two bytes, `high` and `low`, stand for a number of sixteen bits. -/
theorem join_lt (high low : UInt8) : high.toNat * 0x100 + low.toNat < 0x10000 := by
  have hhigh := high.toNat_lt
  have hlow := low.toNat_lt
  omega

/-- Bytes of which `readUInt32?` reads a number begin with what `ofUInt32` makes of it. -/
theorem eq_of_readUInt32? {bytes rest : Bytes} {n : Nat} (h : readUInt32? bytes = some (n, rest)) :
    bytes = ofUInt32 n ++ rest ∧ n < 0x100000000 := by
  match bytes, h with
  | a :: b :: c :: d :: tail, h =>
    simp only [readUInt32?, Option.some.injEq, Prod.mk.injEq] at h
    obtain ⟨rfl, rfl⟩ := h
    have ha := a.toNat_lt
    have hb := b.toNat_lt
    have hc := c.toNat_lt
    have hd := d.toNat_lt
    refine ⟨?_, by omega⟩
    simp only [ofUInt32, List.cons_append, List.nil_append, List.cons.injEq, and_true,
      ← UInt8.toNat_inj, UInt8.toNat_ofNat']
    omega

end Bytes

namespace Priority

/-- A byte up to the one of `critical` is the `wire` of a tier. -/
theorem exists_wire_of_le {value : UInt8} (h : value ≤ critical.wire) :
    ∃ priority : Priority, priority.wire = value := by
  have hle : value.toNat ≤ 4 := h
  have hvalue : value = UInt8.ofNat value.toNat := by simp
  rw [hvalue]
  -- Five bytes are left, one for each tier.
  match value.toNat, hle with
  | 0, _ => exact ⟨batch, rfl⟩
  | 1, _ => exact ⟨low, rfl⟩
  | 2, _ => exact ⟨medium, rfl⟩
  | 3, _ => exact ⟨high, rfl⟩
  | 4, _ => exact ⟨critical, rfl⟩

/-- No tier has a `wire` above the one of `critical`. -/
theorem wire_le (priority : Priority) : priority.wire ≤ critical.wire := by
  cases priority <;> decide

end Priority

namespace Frame

/-- The bytes of a frame behind its length: the `wire` of its tier, its topic with its length, and
the payload. -/
def body (frame : Frame) : Bytes :=
  frame.priority.wire :: Bytes.ofUInt16 frame.topic.utf8ByteSize ++ Bytes.ofText frame.topic ++
    frame.payload

/-- The sizes of a frame are within `maxTopicSize` and `maxBodySize`, so they can be written. -/
structure Fits (frame : Frame) : Prop where
  topic : frame.topic.utf8ByteSize ≤ maxTopicSize
  body : bodyHeaderSize + frame.topic.utf8ByteSize + frame.payload.length ≤ maxBodySize

theorem length_body (frame : Frame) :
    frame.body.length = bodyHeaderSize + frame.topic.utf8ByteSize + frame.payload.length := by
  simp only [body, bodyHeaderSize, List.length_append, List.length_cons, Bytes.length_ofUInt16,
    Bytes.length_ofText]

/-! ## Writing -/

/-- By `bodyLength`, the sizes of an event are accepted exactly when they are within the limits. -/
theorem bodyLength_eq_ok_iff {priority : UInt8} {topicSize payloadSize length : Nat} :
    bodyLength priority topicSize payloadSize = .ok length ↔
      priority ≤ Priority.critical.wire ∧ topicSize ≤ maxTopicSize ∧
        bodyHeaderSize + topicSize + payloadSize ≤ maxBodySize ∧
        length = bodyHeaderSize + topicSize + payloadSize := by
  unfold bodyLength
  -- The limits are checked in turn, and a check that fails contradicts one part of the right side.
  by_cases hpriority : priority > Priority.critical.wire
  · simp only [if_pos hpriority, reduceCtorEq, false_iff]
    rintro ⟨hle, -⟩
    exact UInt8.not_lt.mpr hle hpriority
  by_cases htopic : topicSize > maxTopicSize
  · simp only [if_neg hpriority, if_pos htopic, reduceCtorEq, false_iff]
    rintro ⟨-, hle, -⟩
    omega
  by_cases hbody : bodyHeaderSize + topicSize + payloadSize > maxBodySize
  · simp only [if_neg hpriority, if_neg htopic, if_pos hbody, reduceCtorEq, false_iff]
    rintro ⟨-, -, hle, -⟩
    omega
  · simp only [if_neg hpriority, if_neg htopic, if_neg hbody, Except.ok.injEq]
    constructor
    · rintro rfl
      exact ⟨UInt8.not_lt.mp hpriority, Nat.not_lt.mp htopic, Nat.not_lt.mp hbody, rfl⟩
    · rintro ⟨-, -, -, rfl⟩
      rfl

/-- A frame is accepted by `encode` exactly when it `Fits`, and then written as its length and its
`body`. -/
theorem encode_eq_ok_iff {frame : Frame} {bytes : Bytes} :
    encode frame.priority.wire frame.topic frame.payload = .ok bytes ↔
      frame.Fits ∧ bytes = Bytes.ofUInt32 frame.body.length ++ frame.body := by
  have hassemble : assemble frame.priority.wire (Bytes.ofText frame.topic) frame.payload =
      Bytes.ofUInt32 frame.body.length ++ frame.body := by
    rw [length_body]
    simp only [assemble, body, Bytes.length_ofText, List.cons_append, List.append_assoc]
  unfold encode encodeTopicBytes
  rw [Bytes.length_ofText, hassemble]
  cases hlength : bodyLength frame.priority.wire frame.topic.utf8ByteSize frame.payload.length with
  | ok length =>
    obtain ⟨-, htopic, hbody, -⟩ := bodyLength_eq_ok_iff.mp hlength
    simp only [Except.ok.injEq]
    constructor
    · rintro rfl
      exact ⟨⟨htopic, hbody⟩, rfl⟩
    · rintro ⟨-, rfl⟩
      rfl
  | error e =>
    simp only [reduceCtorEq, false_iff]
    -- The lengths of a frame that fits are accepted, so this one does not fit.
    rintro ⟨hfits, -⟩
    have hok := bodyLength_eq_ok_iff.mpr ⟨frame.priority.wire_le, hfits.topic, hfits.body, rfl⟩
    rw [hlength] at hok
    cases hok

/-- A frame that `Fits` is written by `encode`. -/
theorem Fits.encode_eq {frame : Frame} (h : frame.Fits) :
    encode frame.priority.wire frame.topic frame.payload =
      .ok (Bytes.ofUInt32 frame.body.length ++ frame.body) :=
  encode_eq_ok_iff.mpr ⟨h, rfl⟩

/-! ## Reading -/

/-- By `parseBody`, the `body` of a frame is read as this frame, if its topic is within
`maxTopicSize`. -/
theorem parseBody_body {frame : Frame} (h : frame.topic.utf8ByteSize ≤ maxTopicSize) :
    parseBody frame.body = .ok frame := by
  have hjoin : (UInt8.ofNat (frame.topic.utf8ByteSize / 0x100)).toNat * 0x100 +
      (UInt8.ofNat frame.topic.utf8ByteSize).toNat = frame.topic.utf8ByteSize := by
    simp only [UInt8.toNat_ofNat']
    simp only [maxTopicSize] at h
    omega
  -- The length field says where the topic ends, so the cut gives back both parts.
  have htake : (Bytes.ofText frame.topic ++ frame.payload).take frame.topic.utf8ByteSize =
      Bytes.ofText frame.topic := by
    rw [← Bytes.length_ofText]
    exact List.take_left
  have hdrop : (Bytes.ofText frame.topic ++ frame.payload).drop frame.topic.utf8ByteSize =
      frame.payload := by
    rw [← Bytes.length_ofText]
    exact List.drop_left
  have hlength : ¬ frame.topic.utf8ByteSize >
      (Bytes.ofText frame.topic ++ frame.payload).length := by
    rw [List.length_append, Bytes.length_ofText]
    omega
  simp only [body, Bytes.ofUInt16, List.cons_append, List.nil_append, parseBody,
    Priority.ofWire?_wire, hjoin, if_neg hlength, htake, hdrop, Bytes.text?_ofText]

/-- Bytes that `parseBody` reads are the `body` of the frame that it reads. -/
theorem eq_of_parseBody {bytes : Bytes} {frame : Frame} (h : parseBody bytes = .ok frame) :
    bytes = frame.body ∧ frame.topic.utf8ByteSize ≤ maxTopicSize := by
  unfold parseBody at h
  split at h
  · next tier high low rest =>
    split at h
    · cases h
    · next priority htier =>
      simp only at h
      split at h
      · cases h
      · next hrest =>
        split at h
        · cases h
        · next topic htext =>
          cases h
          -- The topic has the length that was read, because so many bytes were taken for it.
          have htopic := Bytes.ofText_of_text? htext
          have hsize : topic.utf8ByteSize = high.toNat * 0x100 + low.toNat := by
            rw [← Bytes.length_ofText, htopic, List.length_take]
            omega
          refine ⟨?_, ?_⟩
          · simp only [body, hsize, Bytes.ofUInt16_join, Priority.wire_of_ofWire? htier, htopic,
              List.cons_append, List.nil_append, List.take_append_drop]
          · have hlt := Bytes.join_lt high low
            simp only [maxTopicSize]
            omega
  · cases h

/-- By `parseBody`, the bodies of frames are accepted, and nothing else. -/
theorem parseBody_eq_ok_iff {bytes : Bytes} {frame : Frame} :
    parseBody bytes = .ok frame ↔
      bytes = frame.body ∧ frame.topic.utf8ByteSize ≤ maxTopicSize := by
  constructor
  · exact eq_of_parseBody
  · rintro ⟨rfl, htopic⟩
    exact parseBody_body htopic

/-- By `parse`, what `encode` has written is accepted, and nothing else. -/
theorem parse_eq_ok_iff {bytes : Bytes} {frame : Frame} :
    parse bytes = .ok frame ↔
      encode frame.priority.wire frame.topic frame.payload = .ok bytes := by
  rw [encode_eq_ok_iff]
  constructor
  · intro h
    unfold parse at h
    split at h
    · cases h
    · next declared rest hread =>
      split at h
      · cases h
      · next hlength =>
        -- The reader wants the declared length to be that of all the rest.
        have hdeclared : declared = rest.length := by omega
        obtain ⟨rfl, hlt⟩ := Bytes.eq_of_readUInt32? hread
        obtain ⟨rfl, htopic⟩ := eq_of_parseBody h
        subst hdeclared
        refine ⟨⟨htopic, ?_⟩, rfl⟩
        rw [length_body] at hlt
        simp only [maxBodySize]
        omega
  · rintro ⟨hfits, rfl⟩
    have hlt : frame.body.length < 0x100000000 := by
      have hbody := hfits.body
      rw [length_body]
      simp only [maxBodySize] at hbody
      omega
    rw [parse, Bytes.readUInt32?_ofUInt32 hlt]
    simp only [ne_eq, not_true_eq_false, if_false]
    exact parseBody_body hfits.topic

/-- Within the limits, `encode` writes an event as bytes that `parse` reads as exactly its
`priority`, `topic` and `payload`; and bytes that `parse` reads as a frame are what `encode` writes
for it, so that no two byte strings are read as the same frame. -/
theorem encode_parse_inverse :
    (∀ (priority : UInt8) (topic : String) (payload : Bytes), priority ≤ 4 →
      topic.utf8ByteSize ≤ 65535 → 3 + topic.utf8ByteSize + payload.length ≤ 4294967295 →
      ∃ bytes frame, encode priority topic payload = .ok bytes ∧ parse bytes = .ok frame ∧
        frame.priority.wire = priority ∧ frame.topic = topic ∧ frame.payload = payload) ∧
    (∀ (bytes : Bytes) (frame : Frame), parse bytes = .ok frame →
      encode frame.priority.wire frame.topic frame.payload = .ok bytes) ∧
    (∀ (bytes other : Bytes) (frame : Frame), parse bytes = .ok frame →
      parse other = .ok frame → bytes = other) := by
  refine ⟨?_, fun bytes frame h => parse_eq_ok_iff.mp h, ?_⟩
  · intro priority topic payload hpriority htopic hbody
    obtain ⟨tier, rfl⟩ := Priority.exists_wire_of_le hpriority
    have hfits : (Frame.mk tier topic payload).Fits := ⟨htopic, hbody⟩
    exact ⟨_, ⟨tier, topic, payload⟩, hfits.encode_eq, parse_eq_ok_iff.mpr hfits.encode_eq, rfl,
      rfl, rfl⟩
  · intro bytes other frame hbytes hother
    have h := (parse_eq_ok_iff.mp hbytes).symm.trans (parse_eq_ok_iff.mp hother)
    exact Except.ok.inj h

/-- An event of the tier `high`, and a frame of nine bytes. -/
theorem encode_parse_inverse_alert :
    ((3 : UInt8) ≤ 4 ∧ "system/alerts".utf8ByteSize ≤ 65535 ∧
      3 + "system/alerts".utf8ByteSize + (Bytes.ofText "High severity alert").length ≤ 4294967295 ∧
      ∃ bytes frame, encode 3 "system/alerts" (Bytes.ofText "High severity alert") = .ok bytes ∧
        parse bytes = .ok frame ∧ frame.priority.wire = 3 ∧ frame.topic = "system/alerts" ∧
        frame.payload = Bytes.ofText "High severity alert") ∧
    (parse [0, 0, 0, 5, 3, 0, 1, 97, 0] = .ok ⟨.high, "a", [0]⟩ ∧
      encode 3 "a" [0] = .ok [0, 0, 0, 5, 3, 0, 1, 97, 0]) := by
  have hparse : parse [0, 0, 0, 5, 3, 0, 1, 97, 0] = .ok ⟨.high, "a", [0]⟩ := by
    rw [parse_eq_ok_iff]
    rfl
  refine ⟨⟨by decide, by decide, by decide, ?_⟩, hparse, ?_⟩
  · exact encode_parse_inverse.1 3 "system/alerts" (Bytes.ofText "High severity alert")
      (by decide) (by decide) (by decide)
  · exact encode_parse_inverse.2.1 _ _ hparse

end Frame

end Volley
