import Volley.Proofs.Frame.Fragmentation
import Volley.Proofs.Frame.RoundTrip

/-!
# Frames one after the other

A stream carries frames without anything between them. A body of admissible length behind its own
length is taken off as a whole, whatever follows it, and what it is read as depends on nothing else
(`Codec.decode_framed`). A decoder that is given the frames of several events therefore finds these
events in their order, and then goes on with what follows (`Codec.drain_encodeAll`). If the frames
break off somewhere, it finds the first of the events and nothing wrong (`Codec.drain_of_prefix`).
-/

namespace Volley

namespace Event

/-- The `Frame` that a reader finds of an event. -/
def frame (event : Event) : Frame :=
  ⟨event.priority, event.topic, event.payload⟩

theorem encode_eq_ok_iff {event : Event} {bytes : Bytes} :
    event.encode = .ok bytes ↔
      event.frame.Fits ∧
        bytes = Bytes.ofUInt32 event.frame.body.length ++ event.frame.body :=
  @Frame.encode_eq_ok_iff event.frame bytes

/-- The frame of an event has the length that `encodedLength` has computed. -/
theorem length_of_encode {event : Event} {bytes : Bytes} (h : event.encode = .ok bytes) :
    bytes.length = event.encodedLength := by
  obtain ⟨-, rfl⟩ := encode_eq_ok_iff.mp h
  rw [List.length_append, Bytes.length_ofUInt32, Frame.length_body]
  simp only [encodedLength, frame, Frame.lengthFieldSize]
  omega

theorem encodeAll_cons_eq_ok_iff {event : Event} {rest : List Event} {bytes : Bytes} :
    encodeAll (event :: rest) = .ok bytes ↔
      ∃ front back, event.encode = .ok front ∧ encodeAll rest = .ok back ∧
        bytes = front ++ back := by
  rw [encodeAll]
  cases event.encode with
  | error e => simp
  | ok front =>
    cases encodeAll rest with
    | error e => simp
    | ok back => simp [eq_comm]

/-- By `encodeAll`, the frames of two lists of events stand one after the other. -/
theorem encodeAll_append {events others : List Event} {front back : Bytes}
    (hfront : encodeAll events = .ok front) (hback : encodeAll others = .ok back) :
    encodeAll (events ++ others) = .ok (front ++ back) := by
  induction events generalizing front with
  | nil =>
    cases hfront
    exact hback
  | cons event rest ih =>
    obtain ⟨first, more, hfirst, hmore, rfl⟩ := encodeAll_cons_eq_ok_iff.mp hfront
    rw [List.cons_append, List.append_assoc]
    exact encodeAll_cons_eq_ok_iff.mpr ⟨first, more ++ back, hfirst, ih hmore, rfl⟩

/-- Events that `encode` accepts one by one are accepted by `encodeAll`. -/
theorem exists_encodeAll {events : List Event}
    (h : ∀ event ∈ events, ∃ bytes, event.encode = .ok bytes) :
    ∃ bytes, encodeAll events = .ok bytes := by
  induction events with
  | nil => exact ⟨[], rfl⟩
  | cons event rest ih =>
    obtain ⟨front, hfront⟩ := h event List.mem_cons_self
    obtain ⟨back, hback⟩ := ih fun other hmem => h other (List.mem_cons_of_mem event hmem)
    exact ⟨front ++ back, encodeAll_cons_eq_ok_iff.mpr ⟨front, back, hfront, hback, rfl⟩⟩

/-- What `encodeAll` makes has the length of all frames together. -/
theorem length_of_encodeAll {events : List Event} {bytes : Bytes}
    (h : encodeAll events = .ok bytes) :
    bytes.length = (events.map encodedLength).foldr (· + ·) 0 := by
  induction events generalizing bytes with
  | nil =>
    cases h
    rfl
  | cons event rest ih =>
    obtain ⟨front, back, hfront, hback, rfl⟩ := encodeAll_cons_eq_ok_iff.mp h
    rw [List.length_append, length_of_encode hfront, ih hback]
    rfl

end Event

namespace Codec

/-- By `Codec.decode`, a body within `codec.limit` is taken off together with its length, whatever
it holds and whatever follows it. -/
theorem decode_framed {codec : Codec} {body : Bytes} (hshort : Frame.bodyHeaderSize ≤ body.length)
    (hlimit : body.length ≤ codec.limit) (hsize : body.length < 0x100000000) (more : Bytes) :
    codec.decode (Bytes.ofUInt32 body.length ++ body ++ more) =
      (match Frame.parseBody body with
        | .ok frame => .ok (some frame)
        | .error e => .error (.malformed e), more) := by
  -- The length that is read is that of the body, so the cut falls right behind it.
  rw [List.append_assoc, decode, Bytes.readUInt32?_ofUInt32 hsize]
  simp only [List.take_left, List.drop_left, Nat.not_lt.mpr hlimit, Nat.not_lt.mpr hshort,
    Nat.lt_irrefl, if_false]
  cases Frame.parseBody body with
  | ok frame => rfl
  | error e => rfl

/-- By `Codec.decode`, the frame of an event is taken off and read as `Event.frame`. -/
theorem decode_encode {codec : Codec} {event : Event} {bytes : Bytes}
    (h : event.encode = .ok bytes) (hlimit : event.frame.body.length ≤ codec.limit)
    (more : Bytes) : codec.decode (bytes ++ more) = (.ok (some event.frame), more) := by
  obtain ⟨hfits, rfl⟩ := Event.encode_eq_ok_iff.mp h
  -- A body holds at least its header, and its length can be written in four bytes.
  have hlength := event.frame.length_body
  have hbody := hfits.body
  have hshort : Frame.bodyHeaderSize ≤ event.frame.body.length := by omega
  have hsize : event.frame.body.length < 0x100000000 := by
    simp only [Frame.maxBodySize] at hbody
    omega
  rw [decode_framed hshort hlimit hsize, Frame.parseBody_body hfits.topic]

/-- By `Codec.drain`, nothing comes out of no bytes. -/
theorem drain_nil (codec : Codec) : codec.drain [] = ([.ok none], []) :=
  drain_of_stop rfl (by simp)

/-- By `Codec.drain`, out of the frames of `events` come these events in order, and then whatever
there is in `more`, the bytes that follow. -/
theorem drain_encodeAll {codec : Codec} {events : List Event} {bytes : Bytes}
    (h : Event.encodeAll events = .ok bytes)
    (hlimit : ∀ event ∈ events, event.frame.body.length ≤ codec.limit) (more : Bytes) :
    codec.drain (bytes ++ more) =
      ((events.map fun event => .ok (some event.frame)) ++ (codec.drain more).1,
        (codec.drain more).2) := by
  induction events generalizing bytes with
  | nil =>
    cases h
    rfl
  | cons event rest ih =>
    obtain ⟨front, back, hfront, hback, rfl⟩ := Event.encodeAll_cons_eq_ok_iff.mp h
    have hfirst := hlimit event List.mem_cons_self
    rw [List.append_assoc, drain_of_frame (decode_encode hfront hfirst (back ++ more)),
      ih hback fun other hmem => hlimit other (List.mem_cons_of_mem event hmem)]
    rfl

/-- A strict beginning of a frame is not taken for a frame by `Codec.decode`. -/
theorem decode_of_strict_prefix {codec : Codec} {event : Event} {bytes part : Bytes}
    (h : event.encode = .ok bytes) (hlimit : event.frame.body.length ≤ codec.limit)
    (hpart : part <+: bytes) (hne : part ≠ bytes) : codec.decode part = (.ok none, part) := by
  rcases hdecode : codec.decode part with ⟨answer, rest⟩
  by_cases hanswer : answer = .ok none
  · subst hanswer
    rw [eq_of_decode_none hdecode]
  · -- Any other answer would be the answer for the whole frame, which leaves nothing over.
    exfalso
    obtain ⟨more, rfl⟩ := hpart
    have hlonger := decode_append hdecode hanswer more
    have hwhole := decode_encode h hlimit []
    rw [List.append_nil, hlonger, Prod.mk.injEq, List.append_eq_nil_iff] at hwhole
    rw [hwhole.2.2, List.append_nil] at hne
    exact hne rfl

/-- By `Codec.drain`, out of a beginning of the frames of `events` come the first `k` of them, and
no error. -/
theorem drain_of_prefix {codec : Codec} {events : List Event} {bytes part : Bytes}
    (h : Event.encodeAll events = .ok bytes)
    (hlimit : ∀ event ∈ events, event.frame.body.length ≤ codec.limit) (hpart : part <+: bytes) :
    ∃ k rest, codec.drain part =
      (((events.take k).map fun event => .ok (some event.frame)) ++ [.ok none], rest) := by
  induction events generalizing bytes part with
  | nil =>
    cases h
    rw [List.prefix_nil.mp hpart]
    exact ⟨0, [], drain_nil codec⟩
  | cons event events ih =>
    obtain ⟨front, back, hfront, hback, rfl⟩ := Event.encodeAll_cons_eq_ok_iff.mp h
    have hfirst := hlimit event List.mem_cons_self
    -- The part holds all of the first frame, or it ends within it.
    by_cases hlong : front <+: part
    · obtain ⟨part, rfl⟩ := hlong
      have hmore : part <+: back := (List.prefix_append_right_inj front).mp hpart
      obtain ⟨k, rest, hdrain⟩ :=
        ih hback (fun other hmem => hlimit other (List.mem_cons_of_mem event hmem)) hmore
      refine ⟨k + 1, rest, ?_⟩
      rw [drain_of_frame (decode_encode hfront hfirst part), hdrain]
      rfl
    · have hshort : part <+: front :=
        (List.prefix_or_prefix_of_prefix hpart (List.prefix_append front back)).resolve_right hlong
      have hne : part ≠ front := by
        rintro rfl
        exact hlong (List.prefix_refl part)
      have hdecode := decode_of_strict_prefix hfront hfirst hshort hne
      exact ⟨0, part, drain_of_stop hdecode (by simp)⟩

end Codec

end Volley
