import Volley.Proofs.Run.Interruption
import Volley.Sink.Mixed

/-!
# Pairs of sinks

A pair of sinks takes single writes by turns, so the number of writes before decides which of the
two is offered the next one, whatever became of them. If frames are offered one by one, the stream
gets those at the even places and the datagram sink those at the odd ones. A pair is open as long as
both sinks are; if the datagram sink always stays open, only a failure of the stream closes the
pair.

What the two sinks are offered is read off their logs, and nobody can tell the pair with logs from
the pair without.

## Main definitions

* `everySecond`: the elements at the even places of a list.
* `Sink.Offered`: what may have become of a sink by some writes.
* `Sink.BreaksAt`, `Sink.StaysOpen`: a stream that may break, and a sink that never closes.
* `Mixed.Dealt`: which frames the two sinks of a pair have been offered.
* `Mixed.Follows`: a pair in the middle of its work.

## Main results

* `Mixed.Dealt.getElem?`: the parity of its place decides which sink a frame goes to.
* `Mixed.hom_unlogged`: no run can tell whether the sinks of a pair keep logs.
* `Mixed.Follows.send`: one frame more, which goes to the sink whose turn it is.
-/

namespace Volley

/-! ## Every second place -/

/-- The elements at the even places of a list. Those at the odd places are `everySecond` of its
tail. -/
def everySecond {α : Type} : List α → List α
  | [] => []
  | [first] => [first]
  | first :: _ :: rest => first :: everySecond rest

section everySecond

variable {α : Type}

theorem everySecond_cons (first : α) (rest : List α) :
    everySecond (first :: rest) = first :: everySecond rest.tail := by
  cases rest <;> rfl

/-- The element of `everySecond` at `place` is the one of the list at `2 * place`. -/
theorem getElem?_everySecond (list : List α) (place : Nat) :
    (everySecond list)[place]? = list[2 * place]? := by
  fun_induction everySecond list generalizing place with
  | case1 => rfl
  | case2 first => cases place <;> rfl
  | case3 first second rest ih =>
    cases place with
    | zero => rfl
    | succ place =>
      rw [List.getElem?_cons_succ, ih]
      rfl

theorem length_everySecond (list : List α) :
    (everySecond list).length = (list.length + 1) / 2 := by
  fun_induction everySecond list with
  | case1 => simp
  | case2 first => simp
  | case3 first second rest ih =>
    simp only [List.length_cons, ih]
    omega

/-- What `everySecond` takes from `more` behind a list depends on whether the list has an even
length. -/
theorem everySecond_append (list more : List α) :
    everySecond (list ++ more) =
      everySecond list ++ everySecond (if list.length % 2 = 0 then more else more.tail) := by
  fun_induction everySecond list with
  | case1 => rfl
  | case2 first => exact everySecond_cons first more
  | case3 first second rest ih =>
    have hparity : (first :: second :: rest).length % 2 = rest.length % 2 := by
      simp only [List.length_cons]
      omega
    rw [hparity]
    exact congrArg (first :: ·) ih

/-- One element at an even place is added to `everySecond list`, and not to `everySecond list.tail`.
-/
theorem everySecond_concat_even {list : List α} (h : list.length % 2 = 0) (last : α) :
    everySecond (list ++ [last]) = everySecond list ++ [last] ∧
      everySecond (list ++ [last]).tail = everySecond list.tail := by
  refine ⟨?_, ?_⟩
  · rw [everySecond_append, if_pos h]
    rfl
  · cases list with
    | nil => rfl
    | cons first rest =>
      -- In the tail the place is odd.
      have hodd : ¬ rest.length % 2 = 0 := by
        simp only [List.length_cons] at h
        omega
      show everySecond (rest ++ [last]) = everySecond rest
      rw [everySecond_append, if_neg hodd]
      exact List.append_nil _

/-- One element at an odd place is added to `everySecond list.tail`, and not to `everySecond list`.
-/
theorem everySecond_concat_odd {list : List α} (h : ¬ list.length % 2 = 0) (last : α) :
    everySecond (list ++ [last]) = everySecond list ∧
      everySecond (list ++ [last]).tail = everySecond list.tail ++ [last] := by
  refine ⟨?_, ?_⟩
  · rw [everySecond_append, if_neg h]
    exact List.append_nil _
  · cases list with
    | nil => exact absurd rfl h
    | cons first rest =>
      have heven : rest.length % 2 = 0 := by
        simp only [List.length_cons] at h
        omega
      show everySecond (rest ++ [last]) = everySecond rest ++ [last]
      rw [everySecond_append, if_pos heven]
      rfl

theorem everySecond_isPrefix {list whole : List α} (h : list <+: whole) :
    everySecond list <+: everySecond whole := by
  obtain ⟨more, rfl⟩ := h
  rw [everySecond_append]
  exact List.prefix_append _ _

end everySecond

/-! ## Logs -/

/-- The `Call` is a write with an error as its reply. -/
def Call.failed : Call → Bool
  | send _ reply _ => !reply.isOk
  | sendSplit _ _ reply _ => !reply.isOk
  | close => false

/-- The submission of `bytes` in one piece, without a cut. -/
def Submission.whole (bytes : Bytes) : Submission :=
  ⟨bytes, none⟩

namespace Logged

variable {σ : Type}

/-- The submissions in the `calls` of a sink, in order. -/
def offered (logged : Logged σ) : List Submission :=
  logged.calls.filterMap Call.submission?

/-- The number of `calls` that have `failed`. -/
def failures (logged : Logged σ) : Nat :=
  logged.calls.countP Call.failed

variable [Sink σ]

theorem offered_close (logged : Logged σ) : (Sink.close logged).offered = logged.offered := by
  simp [offered, Sink.close, Call.submission?]

theorem failures_close (logged : Logged σ) : (Sink.close logged).failures = logged.failures := by
  simp [failures, Sink.close, Call.failed]

/-- A sink with its log after one more `send`. -/
def sent (logged : Logged σ) (frame : Bytes) (reply : Reply) (later : Clock) (left : σ) :
    Logged σ :=
  ⟨left, logged.calls ++ [.send frame reply (Sink.isOpen later left)]⟩

theorem send_eq {logged : Logged σ} {frame : Bytes} {clock later : Clock} {reply : Reply} {left : σ}
    (h : Sink.send frame clock logged.sink = (reply, later, left)) :
    Sink.send frame clock logged = (reply, later, logged.sent frame reply later left) := by
  simp only [Sink.send] at h ⊢
  rw [h]
  rfl

theorem offered_sent (logged : Logged σ) (frame : Bytes) (reply : Reply) (later : Clock)
    (left : σ) :
    (logged.sent frame reply later left).offered = logged.offered ++ [.whole frame] := by
  simp [offered, sent, Call.submission?, Submission.whole]

theorem failures_sent (logged : Logged σ) (frame : Bytes) (reply : Reply) (later : Clock)
    (left : σ) : (logged.sent frame reply later left).failures =
      logged.failures + if reply.isOk then 0 else 1 := by
  cases h : reply.isOk <;> simp [failures, sent, Call.failed, h]

end Logged

/-! ## What may become of a sink -/

namespace Sink

variable {σ : Type} [Sink σ]

/-- What may have become of a `sink` after a `send` of each of these frames, all of them while
`stopAt` is `none`. -/
inductive Offered (sink : σ) : List Bytes → σ → Prop where
  | nothing : Offered sink [] sink
  | concat {frames : List Bytes} {frame : Bytes} {before left : σ} {clock later : Clock}
      {reply : Reply} (earlier : Offered sink frames before) (running : clock.stopAt = none)
      (sent : Sink.send frame clock before = (reply, later, left)) :
      Offered sink (frames ++ [frame]) left

/-- A stream that is offered these frames takes them and stays open, up to the one of number
`failAt`, if this is a number. That one fails and leaves the stream closed. -/
structure BreaksAt (failAt : Option Nat) (frames : List Bytes) (sink : σ) : Prop where
  isOpen : ∀ {done : List Bytes} {left : σ}, Offered sink done left → done <+: frames →
    (∀ n ∈ failAt, done.length ≤ n) →
    ∀ clock : Clock, clock.stopAt = none → Sink.isOpen clock left = true
  takes : ∀ {done : List Bytes} {frame : Bytes} {left : σ}, Offered sink done left →
    done ++ [frame] <+: frames → (∀ n ∈ failAt, done.length < n) →
    ∀ clock : Clock, clock.stopAt = none → (Sink.send frame clock left).1 = .ok ()
  breaks : ∀ {done : List Bytes} {frame : Bytes} {left : σ}, Offered sink done left →
    done ++ [frame] <+: frames → failAt = some done.length →
    ∀ clock : Clock, clock.stopAt = none → ∃ e later closed,
      Sink.send frame clock left = (.error e, later, closed) ∧ Sink.isOpen later closed = false

/-- A sink `Offered` any beginning of these frames is open, whatever becomes of them. -/
def StaysOpen (frames : List Bytes) (sink : σ) : Prop :=
  ∀ {done : List Bytes} {left : σ}, Offered sink done left → done <+: frames →
    ∀ clock : Clock, clock.stopAt = none → Sink.isOpen clock left = true

end Sink

/-! ## Pairs -/

namespace Mixed

variable {σ δ : Type}

/-- The frames have been `offered` by turns: `everySecond` to the stream of a pair, and
`everySecond` of the tail to its datagram sink. -/
structure Dealt (frames : List Bytes) (pair : Mixed (Logged σ) (Logged δ)) : Prop where
  stream : pair.stream.offered = (everySecond frames).map .whole
  datagram : pair.datagram.offered = (everySecond frames.tail).map .whole

/-- Submission number `place` of the stream is the frame at `2 * place`, and that of the datagram
sink the frame at `2 * place + 1`. -/
theorem Dealt.getElem? {frames : List Bytes} {pair : Mixed (Logged σ) (Logged δ)}
    (h : Dealt frames pair) (place : Nat) :
    pair.stream.offered[place]? = frames[2 * place]?.map .whole ∧
      pair.datagram.offered[place]? = frames[2 * place + 1]?.map .whole := by
  refine ⟨?_, ?_⟩
  · rw [h.stream, List.getElem?_map, getElem?_everySecond]
  · rw [h.datagram, List.getElem?_map, getElem?_everySecond, List.getElem?_tail]

/-- The pair of the sinks without their `calls`. -/
def unlogged (pair : Mixed (Logged σ) (Logged δ)) : Mixed σ δ :=
  ⟨pair.stream.sink, pair.datagram.sink, pair.sends⟩

/-- If the frames are `Dealt` and of even number, they are so with one more `sent` to the stream. -/
theorem Dealt.concat_even [Sink σ] {frames : List Bytes} {pair : Mixed (Logged σ) (Logged δ)}
    (h : Dealt frames pair) (heven : frames.length % 2 = 0) (frame : Bytes) (reply : Reply)
    (later : Clock) (left : σ) (sends : Nat) :
    Dealt (frames ++ [frame])
      ⟨pair.stream.sent frame reply later left, pair.datagram, sends⟩ := by
  obtain ⟨hfull, htail⟩ := everySecond_concat_even heven frame
  refine ⟨?_, ?_⟩
  · rw [Logged.offered_sent, h.stream, hfull, List.map_append]
    rfl
  · rw [htail]
    exact h.datagram

/-- If the frames are `Dealt` and of odd number, they are so with one more `sent` to the datagram
sink. -/
theorem Dealt.concat_odd [Sink δ] {frames : List Bytes} {pair : Mixed (Logged σ) (Logged δ)}
    (h : Dealt frames pair) (hodd : ¬ frames.length % 2 = 0) (frame : Bytes) (reply : Reply)
    (later : Clock) (left : δ) (sends : Nat) :
    Dealt (frames ++ [frame])
      ⟨pair.stream, pair.datagram.sent frame reply later left, sends⟩ := by
  obtain ⟨hfull, htail⟩ := everySecond_concat_odd hodd frame
  refine ⟨?_, ?_⟩
  · rw [hfull]
    exact h.stream
  · rw [Logged.offered_sent, h.datagram, htail, List.map_append]
    rfl

variable [Sink σ] [Sink δ]

theorem Dealt.close {frames : List Bytes} {pair : Mixed (Logged σ) (Logged δ)}
    (h : Dealt frames pair) : Dealt frames (Sink.close pair) :=
  ⟨pair.stream.offered_close.trans h.stream, pair.datagram.offered_close.trans h.datagram⟩

/-- To take `unlogged` is a `Sink.Hom`: no run can tell whether the sinks of a pair keep logs. -/
theorem hom_unlogged : Sink.Hom (unlogged (σ := σ) (δ := δ)) where
  isOpen_eq _ _ := rfl
  send_eq bytes clock pair := by
    show Mixed.send bytes clock pair.unlogged = (Mixed.send bytes clock pair).map id _
    unfold Mixed.send
    by_cases hturn : pair.sends % 2 = 0
    · rw [if_pos hturn, if_pos (show pair.unlogged.sends % 2 = 0 from hturn)]
      rfl
    · rw [if_neg hturn, if_neg (show ¬ pair.unlogged.sends % 2 = 0 from hturn)]
      rfl
  sendSplit_eq _ _ _ _ := rfl
  close_eq _ := rfl

/-- With an even number of `sends`, a frame is `sent` to the stream, and the datagram sink stays as
it is. -/
theorem send_of_even {pair : Mixed (Logged σ) (Logged δ)} (h : pair.sends % 2 = 0) {frame : Bytes}
    {clock later : Clock} {reply : Reply} {left : σ}
    (hsend : Sink.send frame clock pair.stream.sink = (reply, later, left)) :
    Sink.send frame clock pair =
      (reply, later, ⟨pair.stream.sent frame reply later left, pair.datagram, pair.sends + 1⟩) := by
  show Mixed.send frame clock pair = _
  rw [Mixed.send, if_pos h, Logged.send_eq hsend]

/-- With an odd number of `sends`, a frame is `sent` to the datagram sink, and the stream stays as
it is. -/
theorem send_of_odd {pair : Mixed (Logged σ) (Logged δ)} (h : ¬ pair.sends % 2 = 0) {frame : Bytes}
    {clock later : Clock} {reply : Reply} {left : δ}
    (hsend : Sink.send frame clock pair.datagram.sink = (reply, later, left)) :
    Sink.send frame clock pair =
      (reply, later, ⟨pair.stream, pair.datagram.sent frame reply later left, pair.sends + 1⟩) := by
  show Mixed.send frame clock pair = _
  rw [Mixed.send, if_neg h, Logged.send_eq hsend]

end Mixed

/-! ## A pair in the middle of a run -/

namespace Mixed

variable {σ δ : Type} [Sink σ] [Sink δ]

/-- A pair after a `send` of each of the frames `done`: they are `Dealt`, each half has been
`Offered` its own, and the stream has not come to its frame number `failAt`, if any. -/
structure Follows (stream : σ) (datagram : δ) (failAt : Option Nat) (done : List Bytes)
    (pair : Mixed (Logged σ) (Logged δ)) : Prop where
  sends_eq : pair.sends = done.length
  dealt : Dealt done pair
  stream : Sink.Offered stream (everySecond done) pair.stream.sink
  datagram : Sink.Offered datagram (everySecond done.tail) pair.datagram.sink
  unbroken : ∀ n ∈ failAt, (everySecond done).length ≤ n

/-- A pair that has not been used `Follows` the empty list of frames. -/
theorem follows_new (stream : σ) (datagram : δ) (failAt : Option Nat) :
    Follows stream datagram failAt [] (new (.new stream) (.new datagram)) :=
  ⟨rfl, ⟨rfl, rfl⟩, .nothing, .nothing, fun _ _ => Nat.zero_le _⟩

/-- The pair that is `left` by a `frame` at place `2 * n`, where the stream fails at its frame
number `n`: all frames are `Dealt`, and the `failures` of the datagram sink are those of the pair
before. -/
structure Breaks (failAt : Option Nat) (done : List Bytes) (frame : Bytes)
    (before left : Mixed (Logged σ) (Logged δ)) : Prop where
  place : ∃ n, failAt = some n ∧ done.length = 2 * n
  dealt : Dealt (done ++ [frame]) left
  failures : left.datagram.failures = before.datagram.failures

section send

variable {stream : σ} {datagram : δ} {failAt : Option Nat}
  {frames done : List Bytes} {frame : Bytes} {pair left : Mixed (Logged σ) (Logged δ)}
  {clock later : Clock} {reply : Reply}

/-- A pair that `Follows` the frames before the stream breaks is open. -/
theorem Follows.isOpen (h : Follows stream datagram failAt done pair)
    (hstream : Sink.BreaksAt failAt (everySecond frames) stream)
    (hdatagram : Sink.StaysOpen (everySecond frames.tail) datagram) (hfront : done <+: frames)
    (hclock : clock.stopAt = none) : Sink.isOpen clock pair = true := by
  have htail : done.tail <+: frames.tail := by simpa using hfront.drop 1
  show (Sink.isOpen clock pair.stream.sink && Sink.isOpen clock pair.datagram.sink) = true
  rw [hstream.isOpen h.stream (everySecond_isPrefix hfront) h.unbroken clock hclock,
    hdatagram h.datagram (everySecond_isPrefix htail) clock hclock]
  rfl

/-- A frame at an even place goes to the stream, which takes it and still `Follows`, or `Breaks`. -/
theorem Follows.send_even (h : Follows stream datagram failAt done pair)
    (heven : done.length % 2 = 0)
    (hstream : Sink.BreaksAt failAt (everySecond frames) stream)
    (hfront : done ++ [frame] <+: frames) (hclock : clock.stopAt = none)
    (hsend : Sink.send frame clock pair = (reply, later, left)) :
    (reply = .ok () ∧ Follows stream datagram failAt (done ++ [frame]) left ∧
      left.datagram = pair.datagram) ∨
    (reply.isOk = false ∧ Sink.isOpen later left = false ∧
      Breaks failAt done frame pair left) := by
  obtain ⟨hfull, htail⟩ := everySecond_concat_even heven frame
  have hshare := everySecond_isPrefix hfront
  rw [hfull] at hshare
  rcases hanswer : Sink.send frame clock pair.stream.sink with ⟨answer, moment, next⟩
  rw [send_of_even (h.sends_eq ▸ heven) hanswer] at hsend
  cases hsend
  have hdealt := h.dealt.concat_even heven frame reply later next (pair.sends + 1)
  by_cases hlast : failAt = some (everySecond done).length
  · -- This is the write with which the stream breaks.
    right
    obtain ⟨e, _, _, hbreak, hclosed⟩ := hstream.breaks h.stream hshare hlast clock hclock
    cases hanswer.symm.trans hbreak
    refine ⟨rfl, ?_, ⟨_, hlast, ?_⟩, hdealt, rfl⟩
    · show (Sink.isOpen later next && _) = false
      rw [hclosed, Bool.false_and]
    · rw [length_everySecond]
      omega
  · left
    have hlt : ∀ n ∈ failAt, (everySecond done).length < n := by
      intro n hn
      refine Nat.lt_of_le_of_ne (h.unbroken n hn) fun heq => hlast ?_
      rw [heq]
      exact hn
    have hok := hstream.takes h.stream hshare hlt clock hclock
    rw [hanswer] at hok
    refine ⟨hok, ⟨?_, hdealt, ?_, ?_, ?_⟩, rfl⟩
    · rw [List.length_append, ← h.sends_eq]
      rfl
    · rw [hfull]
      exact h.stream.concat hclock hanswer
    · rw [htail]
      exact h.datagram
    · intro n hn
      rw [hfull, List.length_append]
      exact hlt n hn

/-- A frame at an odd place goes to the datagram sink, whose `failures` grow by one if it fails. -/
theorem Follows.send_odd (h : Follows stream datagram failAt done pair)
    (hodd : ¬ done.length % 2 = 0) (hclock : clock.stopAt = none)
    (hsend : Sink.send frame clock pair = (reply, later, left)) :
    Follows stream datagram failAt (done ++ [frame]) left ∧
      left.datagram.failures = pair.datagram.failures + if reply.isOk then 0 else 1 := by
  obtain ⟨hfull, htail⟩ := everySecond_concat_odd hodd frame
  rcases hanswer : Sink.send frame clock pair.datagram.sink with ⟨answer, moment, next⟩
  rw [send_of_odd (h.sends_eq ▸ hodd) hanswer] at hsend
  cases hsend
  refine ⟨⟨?_, h.dealt.concat_odd hodd frame reply later next _, ?_, ?_, ?_⟩,
    pair.datagram.failures_sent frame reply later next⟩
  · rw [List.length_append, ← h.sends_eq]
    rfl
  · rw [hfull]
    exact h.stream
  · rw [htail]
    exact h.datagram.concat hclock hanswer
  · rw [hfull]
    exact h.unbroken

/-- Whichever sink a frame goes to, the pair is open after it and `Follows`, unless the frame
`Breaks` its stream. -/
theorem Follows.send [Sink.Punctual σ] [Sink.Punctual δ]
    (h : Follows stream datagram failAt done pair)
    (hstream : Sink.BreaksAt failAt (everySecond frames) stream)
    (hdatagram : Sink.StaysOpen (everySecond frames.tail) datagram)
    (hfront : done ++ [frame] <+: frames) (hclock : clock.stopAt = none)
    (hsend : Sink.send frame clock pair = (reply, later, left)) :
    (Sink.isOpen later left = true ∧ Follows stream datagram failAt (done ++ [frame]) left ∧
      left.datagram.failures = pair.datagram.failures + if reply.isOk then 0 else 1) ∨
    (reply.isOk = false ∧ Sink.isOpen later left = false ∧
      Breaks failAt done frame pair left) := by
  have hlater : later.stopAt = none := by
    have hpunctual := Sink.Punctual.send frame clock pair
    rw [hsend] at hpunctual
    exact hpunctual.stopAt_eq.trans hclock
  by_cases hturn : done.length % 2 = 0
  · rcases h.send_even hturn hstream hfront hclock hsend with ⟨rfl, hleft, hsame⟩ | hbreaks
    · exact Or.inl ⟨hleft.isOpen hstream hdatagram hfront hlater, hleft,
        congrArg Logged.failures hsame⟩
    · exact Or.inr hbreaks
  · obtain ⟨hleft, hfailures⟩ := h.send_odd hturn hclock hsend
    exact Or.inl ⟨hleft.isOpen hstream hdatagram hfront hlater, hleft, hfailures⟩

end send

end Mixed

end Volley
