import Volley.Capture
import Volley.Proofs.Frame.Fragmentation

/-!
# What a receiver captures

A receiver judges senders, so it must not be misled by the way in which bytes reach it. Of a stream
it keeps the frames that a decoder finds in the whole of it, however it was cut on its way, and it
counts the stream as rejected once if anything is wrong with it: a malformed frame, or an end that
leaves bytes over. A datagram is kept or counted, and never both.

The receiver keeps its frames the latest first and does not keep the cause of a fault; apart from
that its work on a stream is that of `Codec.feed` (`Reading.feed_ofCodec`). What is left is the end
of the stream, at which the buffer has no whole frame (`Codec.decode_buffer_read`).

## Main definitions

* `Capture.Reading.ofCodec`: what a receiver keeps of what a reader has.

## Main results

* `Capture.Reading.feedAll_finish`: a stream as the receiver leaves it at its end.
* `Capture.captured`: the frames and the rejected streams and datagrams.
-/

namespace Volley

namespace Codec

/-- In the `buffer` that `Codec.read` leaves there is no whole frame. -/
theorem decode_buffer_read {codec : Codec} {stream : Bytes}
    (h : (codec.read stream).fault = none) :
    codec.decode (codec.read stream).buffer = (.ok none, (codec.read stream).buffer) := by
  -- Each frame that is taken off shortens the stream and changes nothing in what is left at last.
  induction hn : stream.length using Nat.strongRecOn generalizing stream with
  | ind n ih =>
    rcases hdecode : codec.decode stream with ⟨answer, rest⟩
    match answer with
    | .ok (some frame) =>
      have hlt : rest.length < n := hn ▸ length_decode_lt hdecode
      rw [read_of_frame hdecode] at h ⊢
      exact ih rest.length hlt h rfl
    | .ok none =>
      rw [read_of_none hdecode]
      rwa [eq_of_decode_none hdecode] at hdecode
    | .error e =>
      rw [read_of_error hdecode] at h
      cases h

end Codec

namespace Capture

namespace Reading

/-- What a receiver keeps of a `Codec.Reading`. -/
def ofCodec (reading : Codec.Reading) : Reading :=
  ⟨reading.buffer, reading.frames.reverse, reading.fault.isSome⟩

/-- Of the answers of `Codec.drain` a receiver takes the frames, and whether there is a fault. -/
theorem take_drain (codec : Codec) (buffer : Bytes) (reading : Reading) :
    reading.take (codec.drain buffer).1 =
      { reading with
        frames := (Codec.framesOf (codec.drain buffer).1).reverse ++ reading.frames
        failed := reading.failed || (Codec.faultOf (codec.drain buffer).1).isSome } := by
  -- A fault is the last answer, so no frame comes after the place where the receiver stops.
  induction hn : buffer.length using Nat.strongRecOn generalizing buffer reading with
  | ind n ih =>
    rcases hdecode : codec.decode buffer with ⟨answer, rest⟩
    match answer with
    | .ok (some frame) =>
      have hlt : rest.length < n := hn ▸ Codec.length_decode_lt hdecode
      have hrest := ih rest.length hlt rest { reading with frames := frame :: reading.frames } rfl
      rw [Codec.drain_of_frame hdecode]
      simp only [take, hrest, Codec.framesOf, Codec.faultOf, List.filterMap_cons,
        List.findSome?_cons, List.reverse_cons, List.append_assoc, List.singleton_append]
    | .ok none =>
      rw [Codec.drain_of_stop hdecode (by simp)]
      simp [take, Codec.framesOf, Codec.faultOf]
    | .error e =>
      rw [Codec.drain_of_stop hdecode (by simp)]
      simp [take, Codec.framesOf, Codec.faultOf]

/-- A receiver works on a piece as `Codec.feed` does. -/
theorem feed_ofCodec (codec : Codec) (reading : Codec.Reading) (piece : Bytes) :
    feed codec (ofCodec reading) piece = ofCodec (codec.feed reading piece) := by
  cases hfault : reading.fault with
  | some e =>
    rw [Codec.feed_of_fault hfault, feed, ofCodec, hfault]
    rfl
  | none =>
    have hfailed : (ofCodec reading).failed = false := by
      rw [ofCodec, hfault]
      rfl
    rw [feed, hfailed, Codec.feed, hfault]
    simp only [Bool.false_eq_true, if_false, take_drain]
    simp only [ofCodec, hfault, Option.isSome_none, Bool.false_or, List.reverse_append]

/-- A receiver works on several pieces as `Codec.feedAll` does. -/
theorem foldl_feed (codec : Codec) (pieces : List Bytes) :
    pieces.foldl (feed codec) start = ofCodec (codec.feedAll pieces) := by
  induction pieces using List.reverseRecOn with
  | nil => rfl
  | append_singleton pieces piece ih =>
    simp only [Codec.feedAll, List.foldl_append, List.foldl_cons, List.foldl_nil] at ih ⊢
    rw [ih, feed_ofCodec]

/-- At the end of a stream a receiver has the `frames` of the whole stream, and the stream has
`failed` if it has a `fault` or leaves bytes in the `buffer`. -/
theorem feedAll_finish (codec : Codec) (pieces : List Bytes) :
    let whole := codec.read pieces.flatten
    let reading := (pieces.foldl (feed codec) start).finish codec
    reading.frames = whole.frames.reverse ∧
      reading.failed = (whole.fault.isSome || !whole.buffer.isEmpty) := by
  intro whole reading
  obtain ⟨hframes, hfault, hbuffer, -⟩ := codec.feedAll_flatten pieces
  have hreading : reading = (ofCodec (codec.feedAll pieces)).finish codec := by
    rw [← foldl_feed]
  cases hwhole : whole.fault with
  | some e =>
    have hsome : (codec.feedAll pieces).fault = some e := hfault.trans hwhole
    have hfailed : (ofCodec (codec.feedAll pieces)).failed = true := by
      rw [ofCodec, hsome]
      rfl
    rw [hreading, finish, if_pos hfailed]
    exact ⟨congrArg List.reverse hframes, hfailed⟩
  | none =>
    have hnone : (codec.feedAll pieces).fault = none := hfault.trans hwhole
    have hfailed : (ofCodec (codec.feedAll pieces)).failed = false := by
      rw [ofCodec, hnone]
      rfl
    -- Without a fault the buffer is that of the whole stream, and it does not begin with a frame.
    have hleft : (ofCodec (codec.feedAll pieces)).buffer = whole.buffer := hbuffer hnone
    have hdecode : codec.decode whole.buffer = (.ok none, whole.buffer) :=
      Codec.decode_buffer_read hwhole
    have hkept : (ofCodec (codec.feedAll pieces)).frames = whole.frames.reverse :=
      congrArg List.reverse hframes
    rw [hreading, finish, if_neg (by simp [hfailed]), hleft]
    cases hempty : whole.buffer.isEmpty with
    | true =>
      have hend : codec.decodeEnd whole.buffer = (.ok none, whole.buffer) := by
        rw [Codec.decodeEnd, hdecode]
        simp only [hempty, if_true]
      rw [hend]
      exact ⟨hkept, hfailed⟩
    | false =>
      have hend : codec.decodeEnd whole.buffer = (.error .unfinished, whole.buffer) := by
        rw [Codec.decodeEnd, hdecode]
        simp only [hempty, Bool.false_eq_true, if_false]
      rw [hend]
      exact ⟨hkept, rfl⟩

end Reading

/-- Of a stream in whatever `pieces` a receiver records, in order, the frames that `Codec.read`
finds in the whole of it, and it counts the stream as `rejected` once if it has a `fault` or leaves
bytes over. A datagram it records or counts as `rejected`, as `Frame.parse` says. -/
theorem captured (capture : Capture) (pieces : List Bytes) (bytes : Bytes) :
    let whole := Codec.read {} pieces.flatten
    ((capture.stream pieces).frames = capture.frames ++ whole.frames.map (Ingress.stream, ·) ∧
      (capture.stream pieces).rejected =
        capture.rejected + (if whole.fault.isSome ∨ whole.buffer ≠ [] then 1 else 0) ∧
      (capture.stream pieces).connections = capture.connections + 1) ∧
    (capture.datagram bytes).connections = capture.connections ∧
    ((∃ frame, Frame.parse bytes = .ok frame ∧
        (capture.datagram bytes).frames = capture.frames ++ [(Ingress.datagram, frame)] ∧
        (capture.datagram bytes).rejected = capture.rejected) ∨
      (∃ e, Frame.parse bytes = .error e ∧
        (capture.datagram bytes).frames = capture.frames ∧
        (capture.datagram bytes).rejected = capture.rejected + 1)) := by
  intro whole
  obtain ⟨hframes, hfailed⟩ := Reading.feedAll_finish {} pieces
  refine ⟨⟨?_, ?_, rfl⟩, ?_, ?_⟩
  · rw [stream, frames, hframes]
    simp [frames, whole]
  · rw [stream, hfailed]
    simp [whole]
  · rw [datagram]
    split <;> rfl
  · cases hparse : Frame.parse bytes with
    | ok frame =>
      refine .inl ⟨frame, rfl, ?_, ?_⟩
      · simp [datagram, hparse, frames]
      · simp [datagram, hparse]
    | error e =>
      refine .inr ⟨e, rfl, ?_, ?_⟩
      · simp [datagram, hparse, frames]
      · simp [datagram, hparse]

end Capture

end Volley
