import Volley.Proofs.Frame.Sequence

/-!
# After a fault

A caller is free to go on with a stream after the decoder has reported a fault. Whether there is any
use in it depends on the fault. The length in front of a body says where the next one begins, so a
body that is no frame is taken off as a whole and costs nothing but itself. A length that cannot be
right says nothing about what follows: it stays at the front of the buffer, and every later call
reports it again.

In both cases the number of calls until there is no frame to be had is bounded by the number of
bytes, since a frame has at least seven of them.

## Main definitions

* `Codec.calls`: successive calls of the decoder, with what arrives between them.
* `Codec.Admits`, `Codec.Unfinished`: a body that is taken off as a whole, and bytes that are less
  than that.
* `Codec.framed`: bodies behind their lengths.

## Main results

* `Codec.calls_framed`: the calls on a stream of bodies, well-formed or not.
* `Codec.calls_of_stuck`: a fault that leaves the buffer as it was is reported for ever.
* `Codec.exists_calls_drain`: draining a buffer is a bounded number of calls.
-/

namespace Volley

/-- A number is read by `readUInt32?` unless there are fewer than `lengthFieldSize` bytes. -/
theorem Bytes.readUInt32?_eq_none_iff {bytes : Bytes} :
    readUInt32? bytes = none ↔ bytes.length < Frame.lengthFieldSize := by
  match bytes with
  | [] | [_] | [_, _] | [_, _, _] => simp [readUInt32?, Frame.lengthFieldSize]
  | _ :: _ :: _ :: _ :: _ => simp [readUInt32?, Frame.lengthFieldSize]

namespace Codec

/-- Successive calls of `Codec.decode`, each after one more piece of the stream has arrived. A call
is listed with its `Answer` and the buffer that it leaves. -/
def calls (codec : Codec) : List Bytes → Bytes → List (Answer × Bytes)
  | [], _ => []
  | piece :: pieces, buffer =>
    codec.decode (buffer ++ piece) :: codec.calls pieces (codec.decode (buffer ++ piece)).2

/-- As many as `n` calls between which nothing arrives. -/
def repeated (codec : Codec) (n : Nat) (buffer : Bytes) : List (Answer × Bytes) :=
  codec.calls (List.replicate n []) buffer

theorem repeated_succ (codec : Codec) (n : Nat) (buffer : Bytes) :
    codec.repeated (n + 1) buffer =
      codec.decode buffer :: codec.repeated n (codec.decode buffer).2 := by
  rw [repeated, List.replicate_succ, calls, List.append_nil]
  rfl

/-! ## Bodies behind their lengths -/

/-- A body that `Codec.decode` takes off the buffer as a whole, whatever it holds: one that can hold
a header and is within `codec.limit`. -/
structure Admits (codec : Codec) (body : Bytes) : Prop where
  header : Frame.bodyHeaderSize ≤ body.length
  limit : body.length ≤ codec.limit
  size : body.length < 0x100000000

/-- The `bodies` one after the other, each behind its length. -/
def framed (bodies : List Bytes) : Bytes :=
  bodies.flatMap fun body => Bytes.ofUInt32 body.length ++ body

/-- The `Answer` to a whole body, by `Frame.parseBody`. -/
def answerTo (body : Bytes) : Answer :=
  match Frame.parseBody body with
  | .ok frame => .ok (some frame)
  | .error cause => .error (.malformed cause)

/-- Bytes that are less than a frame: the length is cut off, or it is within `codec.limit` and the
body behind it is cut off. -/
def Unfinished (codec : Codec) (bytes : Bytes) : Prop :=
  bytes.length < Frame.lengthFieldSize ∨
    ∃ size rest, Bytes.readUInt32? bytes = some (size, rest) ∧ Frame.bodyHeaderSize ≤ size ∧
      size ≤ codec.limit ∧ rest.length < size

variable {codec : Codec} {bodies : List Bytes} {body tail buffer : Bytes}

theorem framed_cons (body : Bytes) (bodies : List Bytes) :
    framed (body :: bodies) = Bytes.ofUInt32 body.length ++ body ++ framed bodies := by
  rw [framed, List.flatMap_cons]
  rfl

/-- A body that is `framed` takes `lengthFieldSize` bytes more. -/
theorem length_framed_cons (body : Bytes) (bodies : List Bytes) :
    (framed (body :: bodies)).length =
      Frame.lengthFieldSize + body.length + (framed bodies).length := by
  rw [framed_cons, List.length_append, List.length_append, Bytes.length_ofUInt32]
  rfl

/-- A body at the front of the buffer that the codec `Admits` is answered, by `answerTo`, and taken
off with its length. -/
theorem decode_framed_cons (h : codec.Admits body) (bodies : List Bytes) (tail : Bytes) :
    codec.decode (framed (body :: bodies) ++ tail) = (answerTo body, framed bodies ++ tail) := by
  rw [framed_cons, List.append_assoc]
  exact decode_framed h.header h.limit h.size (framed bodies ++ tail)

/-- Bytes that are `Unfinished` are left in the buffer. -/
theorem decode_of_unfinished (h : codec.Unfinished tail) :
    codec.decode tail = (.ok none, tail) := by
  rcases h with hshort | ⟨size, rest, hread, hheader, hlimit, hpart⟩
  · rw [decode, Bytes.readUInt32?_eq_none_iff.mpr hshort]
  · have htake : (rest.take size).length < size := by
      rw [List.length_take]
      omega
    rw [decode, hread]
    simp only [if_neg (Nat.not_lt.mpr hlimit), if_neg (Nat.not_lt.mpr hheader), if_pos htake]

/-- Each of the `bodies` is answered by one call, and what is left after it begins with the next. -/
theorem calls_framed (h : ∀ body ∈ bodies, codec.Admits body) (htail : codec.Unfinished tail) :
    (∀ (i : Nat) (body : Bytes), bodies[i]? = some body →
      (codec.repeated (bodies.length + 1) (framed bodies ++ tail))[i]? =
        some (answerTo body, framed (bodies.drop (i + 1)) ++ tail)) ∧
      (codec.repeated (bodies.length + 1) (framed bodies ++ tail))[bodies.length]? =
        some (.ok none, tail) := by
  induction bodies with
  | nil =>
    refine ⟨nofun, ?_⟩
    have hdecode := decode_of_unfinished htail
    rw [repeated_succ]
    exact congrArg some hdecode
  | cons first bodies ih =>
    obtain ⟨hfirst, hrest⟩ := List.forall_mem_cons.mp h
    obtain ⟨hbodies, hlast⟩ := ih hrest
    rw [List.length_cons, repeated_succ, decode_framed_cons hfirst]
    refine ⟨?_, hlast⟩
    intro i body hbody
    cases i with
    | zero =>
      cases hbody
      rfl
    | succ i => exact hbodies i body hbody

/-! ## Lengths that cannot be right -/

/-- A `cause` that leaves the buffer as it was is reported by every later call, whatever arrives. -/
theorem calls_of_stuck {cause : Failure} (h : codec.decode buffer = (.error cause, buffer))
    (pieces : List Bytes) {i : Nat} (hi : i < pieces.length) :
    (codec.calls pieces buffer)[i]? =
      some (.error cause, buffer ++ (pieces.take (i + 1)).flatten) := by
  induction pieces generalizing buffer i with
  | nil => cases hi
  | cons piece pieces ih =>
    have hmore := decode_append h (by simp) piece
    rw [calls, hmore]
    cases i with
    | zero => simp only [List.getElem?_cons_zero, List.take_succ_cons, List.take_zero,
        List.flatten_cons, List.flatten_nil, List.append_nil]
    | succ i =>
      rw [List.getElem?_cons_succ, ih hmore (Nat.lt_of_succ_lt_succ hi), List.take_succ_cons,
        List.flatten_cons, List.append_assoc]

/-- A length over `codec.limit` is refused as `frameTooLarge` and left where it is. -/
theorem decode_of_too_large {size : Nat} {rest : Bytes}
    (hread : Bytes.readUInt32? buffer = some (size, rest)) (hlarge : codec.limit < size) :
    codec.decode buffer = (.error (.malformed (.frameTooLarge size codec.limit)), buffer) := by
  rw [decode, hread]
  simp only [if_pos hlarge]

/-- A length below `bodyHeaderSize` is refused as `bodyTooShort` and left where it is. -/
theorem decode_of_too_short {size : Nat} {rest : Bytes}
    (hread : Bytes.readUInt32? buffer = some (size, rest)) (hlimit : size ≤ codec.limit)
    (hshort : size < Frame.bodyHeaderSize) :
    codec.decode buffer = (.error (.malformed (.bodyTooShort size)), buffer) := by
  rw [decode, hread]
  simp only [if_neg (Nat.not_lt.mpr hlimit), if_pos hshort]

/-! ## What a buffer begins with -/

/-- A buffer is `Unfinished`, or it begins with a length that is refused, or with a body that the
codec `Admits`. In each case it is known what `Codec.decode` makes of it. -/
theorem decode_cases (codec : Codec) (buffer : Bytes) :
    codec.Unfinished buffer ∧ codec.decode buffer = (.ok none, buffer) ∨
      (∃ cause, codec.decode buffer = (.error (.malformed cause), buffer)) ∨
      ∃ body more, codec.Admits body ∧ buffer = framed [body] ++ more ∧
        codec.decode buffer = (answerTo body, more) := by
  cases hread : Bytes.readUInt32? buffer with
  | none =>
    have hunfinished : codec.Unfinished buffer := .inl (Bytes.readUInt32?_eq_none_iff.mp hread)
    exact .inl ⟨hunfinished, decode_of_unfinished hunfinished⟩
  | some number =>
    obtain ⟨size, rest⟩ := number
    -- The decoder judges the size before it waits for the bytes of the body.
    by_cases hlarge : codec.limit < size
    · exact .inr (.inl ⟨_, decode_of_too_large hread hlarge⟩)
    have hlimit : size ≤ codec.limit := Nat.not_lt.mp hlarge
    by_cases hshort : size < Frame.bodyHeaderSize
    · exact .inr (.inl ⟨_, decode_of_too_short hread hlimit hshort⟩)
    have hheader : Frame.bodyHeaderSize ≤ size := Nat.not_lt.mp hshort
    by_cases hpart : rest.length < size
    · have hunfinished : codec.Unfinished buffer := .inr ⟨size, rest, hread, hheader, hlimit, hpart⟩
      exact .inl ⟨hunfinished, decode_of_unfinished hunfinished⟩
    · obtain ⟨hbuffer, hsize⟩ := Bytes.eq_of_readUInt32? hread
      have hlength : (rest.take size).length = size := by
        rw [List.length_take]
        omega
      -- All of the body is there, so the buffer begins with a whole frame.
      have hadmits : codec.Admits (rest.take size) := by
        refine ⟨?_, ?_, ?_⟩
        · exact hlength.symm ▸ hheader
        · exact hlength.symm ▸ hlimit
        · exact hlength.symm ▸ hsize
      have hwhole : buffer = framed [rest.take size] ++ rest.drop size := by
        rw [framed_cons, hlength, List.append_assoc, List.append_assoc]
        simp only [framed, List.flatMap_nil, List.nil_append, List.take_append_drop]
        exact hbuffer
      refine .inr (.inr ⟨rest.take size, rest.drop size, hadmits, hwhole, ?_⟩)
      rw [hwhole]
      exact decode_framed_cons hadmits [] (rest.drop size)

/-! ## The number of calls -/

/-- A frame that `Codec.decode` takes off has at least a length and a header. -/
theorem length_of_decode_some {rest : Bytes} {frame : Frame}
    (h : codec.decode buffer = (.ok (some frame), rest)) :
    Frame.lengthFieldSize + Frame.bodyHeaderSize + rest.length ≤ buffer.length := by
  rcases codec.decode_cases buffer with
    ⟨-, hnone⟩ | ⟨cause, hstuck⟩ | ⟨body, more, hadmits, rfl, hbody⟩
  · rw [h] at hnone
    cases hnone
  · rw [h] at hstuck
    cases hstuck
  · obtain ⟨-, rfl⟩ := Prod.mk.inj (h.symm.trans hbody)
    have hheader := hadmits.header
    rw [List.length_append, length_framed_cons]
    omega

/-- An answer of `Codec.decode` leaves no more than there was. -/
theorem length_decode_le (codec : Codec) (buffer : Bytes) :
    (codec.decode buffer).2.length ≤ buffer.length := by
  rcases codec.decode_cases buffer with
    ⟨-, hnone⟩ | ⟨cause, hstuck⟩ | ⟨body, more, -, rfl, hbody⟩
  · exact hnone ▸ Nat.le_refl _
  · exact hstuck ▸ Nat.le_refl _
  · rw [hbody, List.length_append]
    exact Nat.le_add_left _ _

/-- What `Codec.drain` does is a number of calls, each of which gives a frame, and one more that
does not. -/
theorem exists_calls_drain (codec : Codec) (buffer : Bytes) :
    ∃ (frames : List Frame) (answer : Answer) (rest : Bytes),
      (∀ frame, answer ≠ .ok (some frame)) ∧
      codec.drain buffer = (frames.map (fun frame => .ok (some frame)) ++ [answer], rest) ∧
      (codec.repeated (frames.length + 1) buffer).map Prod.fst = (codec.drain buffer).1 ∧
      (Frame.lengthFieldSize + Frame.bodyHeaderSize) * frames.length + rest.length ≤
        buffer.length := by
  -- Each frame that is taken off shortens the buffer.
  induction hn : buffer.length using Nat.strongRecOn generalizing buffer with
  | ind n ih =>
    rcases hdecode : codec.decode buffer with ⟨answer, rest⟩
    by_cases hframe : ∃ frame, answer = .ok (some frame)
    · obtain ⟨frame, rfl⟩ := hframe
      have hlt : rest.length < n := hn ▸ length_decode_lt hdecode
      obtain ⟨frames, answer, left, hlast, hdrain, hcalls, hlength⟩ := ih rest.length hlt rest rfl
      have hsize := length_of_decode_some hdecode
      refine ⟨frame :: frames, answer, left, hlast, ?_, ?_, ?_⟩
      · rw [drain_of_frame hdecode, hdrain, List.map_cons, List.cons_append]
      · rw [drain_of_frame hdecode, List.length_cons, repeated_succ, hdecode, List.map_cons, hcalls]
      · rw [List.length_cons, Nat.mul_succ]
        omega
    · have hstop : ∀ frame, answer ≠ .ok (some frame) := not_exists.mp hframe
      have hdrain := drain_of_stop hdecode hstop
      have hle := codec.length_decode_le buffer
      rw [hdecode, hn] at hle
      refine ⟨[], answer, rest, hstop, ?_, ?_, ?_⟩
      · rw [hdrain, List.map_nil, List.nil_append]
      · rw [hdrain, List.length_nil, repeated_succ, hdecode]
        rfl
      · rw [List.length_nil, Nat.mul_zero, Nat.zero_add]
        exact hle

/-! ## The whole -/

/-- On a stream of `framed` bodies that the codec `Admits`, every call answers the next body by
`answerTo`, a frame or what is wrong with it, and takes exactly this body and its length off, until
the bytes are `Unfinished`. A length over `codec.limit`, or else one below `bodyHeaderSize`, is
reported by this call and every later one, whatever arrives, and nothing is taken off. To `drain` a
buffer comes to an end after as many calls as there are frames in it and one more, and every frame
takes the bytes of a length and a header at least. -/
theorem resynchronises (codec : Codec) :
    (∀ bodies tail, (∀ body ∈ bodies, codec.Admits body) → codec.Unfinished tail →
      (∀ (i : Nat) (body : Bytes), bodies[i]? = some body →
        (codec.repeated (bodies.length + 1) (framed bodies ++ tail))[i]? =
            some (answerTo body, framed (bodies.drop (i + 1)) ++ tail) ∧
          (framed (bodies.drop i) ++ tail).length =
            Frame.lengthFieldSize + body.length +
              (framed (bodies.drop (i + 1)) ++ tail).length) ∧
        (codec.repeated (bodies.length + 1) (framed bodies ++ tail))[bodies.length]? =
          some (.ok none, tail)) ∧
    (∀ buffer size rest, Bytes.readUInt32? buffer = some (size, rest) →
      codec.limit < size ∨ size < Frame.bodyHeaderSize → ∃ cause : DecodeError,
        cause = (if codec.limit < size then .frameTooLarge size codec.limit
          else .bodyTooShort size) ∧
        codec.decode buffer = (.error (.malformed cause), buffer) ∧
        ∀ (pieces : List Bytes) (i : Nat), i < pieces.length →
          (codec.calls pieces buffer)[i]? =
            some (.error (.malformed cause), buffer ++ (pieces.take (i + 1)).flatten)) ∧
    ∀ buffer, ∃ (frames : List Frame) (answer : Answer) (rest : Bytes),
      (∀ frame, answer ≠ .ok (some frame)) ∧
      codec.drain buffer = (frames.map (fun frame => .ok (some frame)) ++ [answer], rest) ∧
      (codec.repeated (frames.length + 1) buffer).map Prod.fst = (codec.drain buffer).1 ∧
      (Frame.lengthFieldSize + Frame.bodyHeaderSize) * frames.length + rest.length ≤
        buffer.length := by
  refine ⟨?_, ?_, codec.exists_calls_drain⟩
  · intro bodies tail hbodies htail
    obtain ⟨hanswers, hlast⟩ := calls_framed hbodies htail
    refine ⟨?_, hlast⟩
    intro i body hbody
    refine ⟨hanswers i body hbody, ?_⟩
    obtain ⟨hlt, rfl⟩ := List.getElem?_eq_some_iff.mp hbody
    rw [List.drop_eq_getElem_cons hlt, List.length_append, length_framed_cons, List.length_append,
      Nat.add_assoc]
  · intro buffer size rest hread hwrong
    have hdecode : codec.decode buffer = (.error (.malformed (if codec.limit < size then
        .frameTooLarge size codec.limit else .bodyTooShort size)), buffer) := by
      split
      · next hlarge => exact decode_of_too_large hread hlarge
      · next hlimit =>
        exact decode_of_too_short hread (Nat.not_lt.mp hlimit) (hwrong.resolve_left hlimit)
    refine ⟨_, rfl, hdecode, ?_⟩
    intro pieces i hi
    exact calls_of_stuck hdecode pieces hi

/-- A frame, a body with a tier that does not exist, one with a topic that is too long for it, and a
frame that is all header. -/
def mixedBodies : List Bytes :=
  [[1, 0, 1, 97, 98], [9, 0, 0], [2, 0, 9, 1], [0, 0, 0]]

/-- Both frames of `mixedBodies` are found, although there are two faults between them. The limit is
the length of the first. -/
theorem resynchronises_mixed :
    (∀ body ∈ mixedBodies, (Codec.mk 5).Admits body) ∧
      (Codec.mk 5).Unfinished [0, 0, 0, 5, 1] ∧
      ((Codec.mk 5).repeated 5 (framed mixedBodies ++ [0, 0, 0, 5, 1]))[0]? =
        some (.ok (some ⟨.low, "a", [98]⟩), framed (mixedBodies.drop 1) ++ [0, 0, 0, 5, 1]) ∧
      ((Codec.mk 5).repeated 5 (framed mixedBodies ++ [0, 0, 0, 5, 1]))[1]? =
        some (.error (.malformed (.invalidPriority 9)),
          framed (mixedBodies.drop 2) ++ [0, 0, 0, 5, 1]) ∧
      ((Codec.mk 5).repeated 5 (framed mixedBodies ++ [0, 0, 0, 5, 1]))[2]? =
        some (.error (.malformed (.topicOverrun 9 1)),
          framed (mixedBodies.drop 3) ++ [0, 0, 0, 5, 1]) ∧
      ((Codec.mk 5).repeated 5 (framed mixedBodies ++ [0, 0, 0, 5, 1]))[3]? =
        some (.ok (some ⟨.batch, "", []⟩), [0, 0, 0, 5, 1]) ∧
      ((Codec.mk 5).repeated 5 (framed mixedBodies ++ [0, 0, 0, 5, 1]))[4]? =
        some (.ok none, [0, 0, 0, 5, 1]) := by
  have hadmits : ∀ body ∈ mixedBodies, (Codec.mk 5).Admits body := by
    intro body hbody
    simp only [mixedBodies, List.mem_cons, List.not_mem_nil, or_false] at hbody
    rcases hbody with rfl | rfl | rfl | rfl
    all_goals exact ⟨by decide, by decide, by decide⟩
  have htail : (Codec.mk 5).Unfinished [0, 0, 0, 5, 1] :=
    .inr ⟨5, [1], rfl, by decide, by decide, by decide⟩
  obtain ⟨hstream, -, -⟩ := resynchronises ⟨5⟩
  obtain ⟨hanswers, hlast⟩ := hstream mixedBodies [0, 0, 0, 5, 1] hadmits htail
  exact ⟨hadmits, htail, (hanswers 0 _ rfl).1, (hanswers 1 _ rfl).1, (hanswers 2 _ rfl).1,
    (hanswers 3 _ rfl).1, hlast⟩

end Codec

end Volley
