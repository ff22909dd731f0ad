import Mathlib.Data.List.Induction
import Volley.Frame.Codec

/-!
# Streams in pieces

A reader adds each piece of a stream to its buffer and takes frames off the buffer until there is no
whole one; the first fault ends its work. What it gets out of a stream does not depend on where the
stream was cut.

An answer of the decoder is final once it is anything but "not a whole frame yet": more bytes do not
change it and stay behind what it leaves (`decode_append`). Reading a stream is therefore reading
its first part, and then what that left together with the second part (`read_append`). By induction
on the pieces, a reader that got them one by one differs from a reader of the whole in one thing
only, the bytes that came after a fault and were never looked at (`read_flatten`).

## Main definitions

* `Codec.Reading`: what a reader has of a stream.
* `Codec.feed`, `Codec.feedAll`: the reader's work on one piece, and on several.
* `Codec.read`: the reader's work on a stream that comes in one piece.

## Main results

* `Codec.feedAll_flatten`: the frames, the fault and, unless there is a fault, the buffer do not
  depend on the pieces.
-/

namespace Volley

namespace Bytes

/-- A number that `readUInt32?` reads stays the same when `more` bytes come. -/
theorem readUInt32?_append {bytes rest : Bytes} {n : Nat}
    (h : readUInt32? bytes = some (n, rest)) (more : Bytes) :
    readUInt32? (bytes ++ more) = some (n, rest ++ more) := by
  match bytes, h with
  | _ :: _ :: _ :: _ :: tail, h =>
    simp only [readUInt32?, Option.some.injEq, Prod.mk.injEq] at h
    obtain ⟨rfl, rfl⟩ := h
    rfl

end Bytes

namespace Codec

/-! ## One answer -/

/-- An attempt of `Codec.decode` that finds no whole frame leaves the buffer as it was. -/
theorem eq_of_decode_none {codec : Codec} {buffer rest : Bytes}
    (h : codec.decode buffer = (.ok none, rest)) : rest = buffer := by
  unfold decode at h
  split at h
  · cases h
    rfl
  · -- Of the answers behind a length only the one for an incomplete body is `none`.
    repeat' split at h
    all_goals cases h
    rfl

/-- Any other answer of `Codec.decode` depends only on the bytes that were there: `more` bytes that
come later stay behind what it leaves. -/
theorem decode_append {codec : Codec} {buffer rest : Bytes} {answer : Answer}
    (h : codec.decode buffer = (answer, rest)) (hne : answer ≠ .ok none) (more : Bytes) :
    codec.decode (buffer ++ more) = (answer, rest ++ more) := by
  unfold decode at h ⊢
  split at h
  · -- Without a whole length the answer is `none`.
    cases h
    exact absurd rfl hne
  · next size tail htail =>
    rw [Bytes.readUInt32?_append htail more]
    simp only
    by_cases hlarge : size > codec.limit
    · rw [if_pos hlarge] at h ⊢
      cases h
      rfl
    -- A length beyond the limit, or too small for a header, is a fault whatever comes after it.
    rw [if_neg hlarge] at h ⊢
    by_cases hshort : size < Frame.bodyHeaderSize
    · rw [if_pos hshort] at h ⊢
      cases h
      rfl
    rw [if_neg hshort] at h ⊢
    by_cases hpart : (tail.take size).length < size
    · rw [if_pos hpart] at h
      cases h
      exact absurd rfl hne
    · -- The body is complete, so neither part of the cut reaches into the new bytes.
      have hsize : size ≤ tail.length := by
        simp only [List.length_take] at hpart
        omega
      rw [if_neg hpart] at h
      rw [List.take_append_of_le_length hsize, List.drop_append_of_le_length hsize, if_neg hpart]
      cases hbody : Frame.parseBody (tail.take size) with
      | ok frame =>
        rw [hbody] at h
        cases h
        rfl
      | error e =>
        rw [hbody] at h
        cases h
        rfl

/-! ## Taking frames off until there is none -/

/-- A frame at the front is the first answer of `Codec.drain`, and the others are those for what it
leaves. -/
theorem drain_of_frame {codec : Codec} {buffer rest : Bytes} {frame : Frame}
    (h : codec.decode buffer = (.ok (some frame), rest)) :
    codec.drain buffer = (.ok (some frame) :: (codec.drain rest).1, (codec.drain rest).2) := by
  rw [drain]
  split
  · next heq =>
    rw [h] at heq
    cases heq
    rfl
  · next hne heq =>
    rw [h] at heq
    cases heq
    exact absurd rfl (hne frame)

/-- An answer that is no frame is the last one of `Codec.drain`. -/
theorem drain_of_stop {codec : Codec} {buffer rest : Bytes} {answer : Answer}
    (h : codec.decode buffer = (answer, rest)) (hne : ∀ frame, answer ≠ .ok (some frame)) :
    codec.drain buffer = ([answer], rest) := by
  rw [drain]
  split
  · next heq =>
    rw [h] at heq
    cases heq
    exact absurd rfl (hne _)
  · next heq =>
    rw [h] at heq
    cases heq
    rfl

/-! ## The reader -/

/-- What a reader has of a stream. -/
structure Reading where
  /-- The frames it has taken off. -/
  frames : List Frame
  /-- The fault that ended its work, if there was one. -/
  fault : Option Failure
  /-- The bytes that are neither part of a frame nor gone with a fault. -/
  buffer : Bytes
  deriving DecidableEq, Repr

/-- A `Reading` of a stream of which nothing has been seen. -/
def Reading.start : Reading := ⟨[], none, []⟩

/-- The first `Failure` among the answers of a decoder. -/
def faultOf (answers : List Answer) : Option Failure :=
  answers.findSome? fun answer => match answer with
    | .ok _ => none
    | .error e => some e

/-- Adds a piece of the stream to the `buffer` and takes frames off by `Codec.drain` until there is
no whole one. A reading with a `fault` stays as it is. -/
def feed (codec : Codec) (reading : Reading) (piece : Bytes) : Reading :=
  match reading.fault with
  | some _ => reading
  | none =>
    let (answers, buffer) := codec.drain (reading.buffer ++ piece)
    { frames := reading.frames ++ framesOf answers, fault := faultOf answers, buffer }

/-- A `Reading` to which the `pieces` of a stream have been fed one by one. -/
def feedAll (codec : Codec) (pieces : List Bytes) : Reading :=
  pieces.foldl codec.feed .start

/-- A `Reading` to which a stream has been fed in one piece. -/
def read (codec : Codec) (stream : Bytes) : Reading :=
  codec.feed .start stream

theorem read_eq (codec : Codec) (stream : Bytes) :
    codec.read stream =
      ⟨framesOf (codec.drain stream).1, faultOf (codec.drain stream).1, (codec.drain stream).2⟩ :=
  rfl

/-- A frame at the front of a stream comes before the `frames` of the rest. -/
theorem read_of_frame {codec : Codec} {stream rest : Bytes} {frame : Frame}
    (h : codec.decode stream = (.ok (some frame), rest)) :
    codec.read stream = { codec.read rest with frames := frame :: (codec.read rest).frames } := by
  rw [read_eq, read_eq, drain_of_frame h]
  rfl

/-- A stream that begins with less than a frame stays in the `buffer`. -/
theorem read_of_none {codec : Codec} {stream rest : Bytes}
    (h : codec.decode stream = (.ok none, rest)) : codec.read stream = ⟨[], none, stream⟩ := by
  rw [read_eq, drain_of_stop h (by simp), eq_of_decode_none h]
  rfl

/-- A stream that does not begin with a frame gives nothing but the `fault`. -/
theorem read_of_error {codec : Codec} {stream rest : Bytes} {e : Failure}
    (h : codec.decode stream = (.error e, rest)) : codec.read stream = ⟨[], some e, rest⟩ := by
  rw [read_eq, drain_of_stop h (by simp)]
  rfl

/-- After a `fault` nothing more is looked at. -/
theorem feed_of_fault {codec : Codec} {reading : Reading} {e : Failure}
    (h : reading.fault = some e) (piece : Bytes) : codec.feed reading piece = reading := by
  rw [feed, h]

/-- Without a `fault`, a piece is read together with what the `buffer` holds. -/
theorem feed_of_no_fault {codec : Codec} {reading : Reading} (h : reading.fault = none)
    (piece : Bytes) :
    codec.feed reading piece =
      { codec.read (reading.buffer ++ piece) with
        frames := reading.frames ++ (codec.read (reading.buffer ++ piece)).frames } := by
  rw [feed, h]
  rfl

/-- To `read` two parts of a stream at once is to `read` the first and then `feed` the second, but
for the second part staying in the `buffer` when the first has a `fault`. -/
theorem read_append (codec : Codec) (front back : Bytes) :
    codec.read (front ++ back) =
      match (codec.read front).fault with
      | some _ => { codec.read front with buffer := (codec.read front).buffer ++ back }
      | none => codec.feed (codec.read front) back := by
  -- Each frame that is taken off shortens the front, and the back never changes.
  induction hn : front.length using Nat.strongRecOn generalizing front with
  | ind n ih =>
    rcases hdecode : codec.decode front with ⟨answer, rest⟩
    match answer with
    | .ok (some frame) =>
      have hlt : rest.length < n := hn ▸ length_decode_lt hdecode
      rw [read_of_frame (decode_append hdecode (by simp) back), read_of_frame hdecode,
        ih rest.length hlt rest rfl]
      cases hfault : (codec.read rest).fault with
      | some e => rfl
      | none =>
        rw [feed_of_no_fault hfault, feed_of_no_fault (by exact hfault)]
        rfl
    | .ok none =>
      rw [read_of_none hdecode, feed_of_no_fault rfl]
      rfl
    | .error e =>
      rw [read_of_error (decode_append hdecode (by simp) back), read_of_error hdecode]

/-- A reader of `pieces` has what a reader of the whole has, up to the `unseen` bytes behind a
`fault`, which only the reader of the whole has put into its `buffer`. -/
theorem read_flatten (codec : Codec) (pieces : List Bytes) :
    ∃ unseen,
      codec.read pieces.flatten =
        { codec.feedAll pieces with buffer := (codec.feedAll pieces).buffer ++ unseen } ∧
      ((codec.feedAll pieces).fault = none → unseen = []) := by
  induction pieces using List.reverseRecOn with
  | nil =>
    refine ⟨[], ?_, fun _ => rfl⟩
    have hempty : codec.decode [] = (.ok none, []) := rfl
    exact read_of_none hempty
  | append_singleton pieces piece ih =>
    obtain ⟨unseen, hread, hunseen⟩ := ih
    -- The last piece is fed to what the pieces before it have left.
    have hlast : codec.feedAll (pieces ++ [piece]) = codec.feed (codec.feedAll pieces) piece := by
      simp only [feedAll, List.foldl_append, List.foldl_cons, List.foldl_nil]
    rw [hlast, List.flatten_append, List.flatten_singleton, read_append, hread]
    cases hfault : (codec.feedAll pieces).fault with
    | some e =>
      -- It joins the bytes that are never looked at.
      rw [feed_of_fault hfault]
      refine ⟨unseen ++ piece, ?_, fun h => ?_⟩
      · simp only [List.append_assoc]
      · rw [hfault] at h
        cases h
    | none =>
      rw [hunseen hfault]
      refine ⟨[], ?_, fun _ => rfl⟩
      simp only [List.append_nil]

/-- However a stream is cut into `pieces`, `feedAll` gets the same `frames` and meets the same
`fault` as for the whole in one piece; without a fault the `buffer` is the same as well, and with
one that of the pieces is a beginning of the other. -/
theorem feedAll_flatten (codec : Codec) (pieces : List Bytes) :
    (codec.feedAll pieces).frames = (codec.feedAll [pieces.flatten]).frames ∧
      (codec.feedAll pieces).fault = (codec.feedAll [pieces.flatten]).fault ∧
      ((codec.feedAll pieces).fault = none →
        (codec.feedAll pieces).buffer = (codec.feedAll [pieces.flatten]).buffer) ∧
      (codec.feedAll pieces).buffer <+: (codec.feedAll [pieces.flatten]).buffer := by
  have hwhole : codec.feedAll [pieces.flatten] = codec.read pieces.flatten := rfl
  obtain ⟨unseen, hread, hunseen⟩ := codec.read_flatten pieces
  rw [hwhole, hread]
  refine ⟨rfl, rfl, fun h => ?_, List.prefix_append _ _⟩
  rw [hunseen h, List.append_nil]

end Codec

end Volley
