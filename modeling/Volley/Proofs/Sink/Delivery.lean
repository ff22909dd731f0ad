import Volley.Proofs.Sink.Hom
import Volley.Proofs.Sink.Release
import Volley.Sink.Script

/-!
# What a session delivers

The sending end of a stream may take the bytes of a write in any number of parts, stall in between,
fail, or fail when it is flushed. Whatever it does, a session hands over the bytes of its writes in
order, and when a write breaks off, the session is closed and hands over nothing more. So what the
other side gets is all bytes of the writes that succeeded, and behind them at most a beginning of
the one that broke off.

What a writer has accepted is noted down beside it, and no session can tell.

## Main definitions

* `Tapped`: a writer and the bytes that it has accepted.
* `Sink.transcript`: what is asked of a sink, with its answers.
* `StreamSession.Served`: what an errand does with an open session.

## Main results

* `writeAll_accepts`: what a writer accepts of the bytes that it is offered.
* `StreamSession.hom_untapped`: a session does not notice what is noted down.
* `StreamSession.served`: what becomes of an errand.
* `StreamSession.delivers_in_order`: what a session delivers in the course of errands.
-/

namespace Volley

/-! ## Writers and what they accept -/

/-- A writer with the bytes that it has `accepted`. -/
structure Tapped (ω : Type) where
  writer : ω
  accepted : Bytes

namespace Tapped

variable {ω : Type}

/-- A `Tapped` writer that has `accepted` nothing. -/
def new (writer : ω) : Tapped ω :=
  ⟨writer, []⟩

variable [Writer ω]

/-- The writer's answer, with the bytes of an answer `.accepted count` added to `accepted`. -/
def write (bytes : Bytes) (tapped : Tapped ω) : Taken × Tapped ω :=
  match Writer.write bytes tapped.writer with
  | (.accepted count, writer) => (.accepted count, ⟨writer, tapped.accepted ++ bytes.take count⟩)
  | (.stalled, writer) => (.stalled, ⟨writer, tapped.accepted⟩)
  | (.failed cause, writer) => (.failed cause, ⟨writer, tapped.accepted⟩)

instance : Writer (Tapped ω) where
  write := write
  flush tapped :=
    ((Writer.flush tapped.writer).1, ⟨(Writer.flush tapped.writer).2, tapped.accepted⟩)
  shutdown tapped := ⟨Writer.shutdown tapped.writer, tapped.accepted⟩
  release tapped := ⟨Writer.release tapped.writer, tapped.accepted⟩

/-- A `Tapped` writer answers what the `writer` in it answers. -/
theorem write_untapped (bytes : Bytes) (tapped : Tapped ω) :
    Writer.write bytes tapped.writer = (Writer.write bytes tapped).map id Tapped.writer := by
  show _ = (write bytes tapped).map id Tapped.writer
  unfold write
  split
  all_goals
    next h => exact h

/-- Only the first `count` bytes of an answer `.accepted count` are added to `accepted`. -/
theorem accepted_of_write {bytes : Bytes} {tapped left : Tapped ω} {answer : Taken}
    (h : Writer.write bytes tapped = (answer, left)) :
    left.accepted = tapped.accepted ++
      match answer with
      | .accepted count => bytes.take count
      | .stalled => []
      | .failed _ => [] := by
  replace h : write bytes tapped = (answer, left) := h
  unfold write at h
  split at h
  · cases h
    rfl
  · cases h
    exact (List.append_nil _).symm
  · cases h
    exact (List.append_nil _).symm

end Tapped

/-- This `part` of the bytes was accepted if an attempt to write them ended so: all of them, all but
the `rest`, or a strict beginning. -/
def Written.Accepts (bytes part : Bytes) : Written → Prop
  | all => part = bytes
  | stalled rest => part ++ rest = bytes ∧ rest ≠ []
  | failed _ => part <+: bytes ∧ part ≠ bytes

namespace Written.Accepts

variable {bytes part : Bytes} {written : Written}

/-- What was accepted in `front` of the bytes comes in front of the `part`. -/
theorem append (front : Bytes) (h : written.Accepts bytes part) :
    written.Accepts (front ++ bytes) (front ++ part) := by
  cases written with
  | all => exact congrArg (front ++ ·) h
  | stalled rest =>
    obtain ⟨hrest, hne⟩ := h
    exact ⟨by rw [List.append_assoc, hrest], hne⟩
  | failed cause =>
    obtain ⟨hpart, hne⟩ := h
    exact ⟨(List.prefix_append_right_inj front).mpr hpart,
      fun heq => hne (List.append_cancel_left heq)⟩

/-- An attempt that does not end with `.all` has accepted a strict beginning of the bytes. -/
theorem strict (h : written.Accepts bytes part) (hne : written ≠ .all) :
    part <+: bytes ∧ part ≠ bytes := by
  cases written with
  | all => exact absurd rfl hne
  | stalled rest =>
    obtain ⟨rfl, hrest⟩ := h
    exact ⟨List.prefix_append _ _, fun heq => hrest (List.self_eq_append_right.mp heq)⟩
  | failed cause => exact h

end Written.Accepts

variable {ω : Type} [Writer ω]

/-- What `writeAll` adds to `accepted` is a `part` that its result `Accepts`. -/
theorem writeAll_accepts (bytes : Bytes) (tapped : Tapped ω) :
    ∃ part, (writeAll bytes tapped).2.accepted = tapped.accepted ++ part ∧
      (writeAll bytes tapped).1.Accepts bytes part := by
  fun_induction writeAll bytes tapped with
  | case1 tapped => exact ⟨[], (List.append_nil _).symm, rfl⟩
  | case2 bytes tapped hne left hwrite =>
    exact ⟨[], Tapped.accepted_of_write hwrite, List.nil_prefix, fun h => hne h.symm⟩
  | case3 bytes tapped hne count next hwrite ih =>
    -- The rest is what is left when the accepted bytes are dropped.
    obtain ⟨part, hpart, haccepts⟩ := ih
    have hfront := haccepts.append (bytes.take (count + 1))
    rw [List.take_append_drop] at hfront
    refine ⟨bytes.take (count + 1) ++ part, ?_, hfront⟩
    rw [hpart, Tapped.accepted_of_write hwrite, List.append_assoc]
  | case4 bytes tapped hne left hwrite =>
    exact ⟨[], Tapped.accepted_of_write hwrite, rfl, hne⟩
  | case5 bytes tapped hne cause left hwrite =>
    exact ⟨[], Tapped.accepted_of_write hwrite, List.nil_prefix, fun h => hne h.symm⟩

/-- The result of `writeAll` is the same over a `Tapped` writer and over the `writer` in it. -/
theorem writeAll_untapped (bytes : Bytes) (tapped : Tapped ω) :
    writeAll bytes tapped.writer = (writeAll bytes tapped).map id Tapped.writer := by
  fun_induction writeAll bytes tapped with
  | case1 tapped => rw [writeAll, if_pos rfl]; rfl
  | case2 bytes tapped hne left hwrite =>
    rw [writeAll, if_neg hne, Tapped.write_untapped, hwrite]
    rfl
  | case3 bytes tapped hne count next hwrite ih =>
    rw [writeAll, if_neg hne, Tapped.write_untapped, hwrite]
    exact ih
  | case4 bytes tapped hne left hwrite =>
    rw [writeAll, if_neg hne, Tapped.write_untapped, hwrite]
    rfl
  | case5 bytes tapped hne cause left hwrite =>
    rw [writeAll, if_neg hne, Tapped.write_untapped, hwrite]
    rfl

/-- The failures `io` and `timeout`, with which a write breaks off. -/
def TransportError.breaksOff : TransportError → Bool
  | io _ => true
  | timeout => true
  | connect _ _ => false
  | closed => false
  | datagramTooLarge _ => false
  | invalidSplit _ _ => false

/-- A kind of writer whose `flush` is always `.done`. -/
def Writer.Flushes (ω : Type) [Writer ω] : Prop :=
  ∀ writer : ω, (Writer.flush writer).1 = .done

/-- If `writeWithin` succeeds, all bytes have been accepted; if it fails, its error `breaksOff`, and
a strict beginning of them has. -/
theorem writeWithin_cases (limit : Nat) (bytes : Bytes) (clock : Clock) (tapped : Tapped ω) :
    (∃ later left, writeWithin limit bytes clock tapped = (.ok (), later, left) ∧
      left.accepted = tapped.accepted ++ bytes) ∨
    (∃ e later left part, writeWithin limit bytes clock tapped = (.error e, later, left) ∧
      e.breaksOff = true ∧ left.accepted = tapped.accepted ++ part ∧ part <+: bytes ∧
        part ≠ bytes) := by
  obtain ⟨part, hpart, haccepts⟩ := writeAll_accepts bytes tapped
  rcases hwritten : writeAll bytes tapped with ⟨written, left⟩
  rw [hwritten] at hpart haccepts
  unfold writeWithin
  rw [hwritten]
  cases written with
  | all =>
    obtain rfl : part = bytes := haccepts
    exact Or.inl ⟨_, _, rfl, hpart⟩
  | failed cause => exact Or.inr ⟨_, _, _, part, rfl, rfl, hpart, haccepts⟩
  | stalled rest =>
    by_cases hlimit : limit = 0
    · simp only [if_pos hlimit]
      exact Or.inr ⟨_, _, _, part, rfl, rfl, hpart, haccepts.strict nofun⟩
    · -- What is left is offered once more.
      obtain ⟨more, hmore, hrest⟩ := writeAll_accepts rest left
      rcases hagain : writeAll rest left with ⟨again, last⟩
      rw [hagain] at hmore hrest
      have hboth := hrest.append part
      rw [haccepts.1] at hboth
      rw [hpart, List.append_assoc] at hmore
      simp only [if_neg hlimit, hagain]
      cases again with
      | all =>
        have hwhole : part ++ more = bytes := hboth
        rw [hwhole] at hmore
        exact Or.inl ⟨_, _, rfl, hmore⟩
      | failed cause => exact Or.inr ⟨_, _, _, _, rfl, rfl, hmore, hboth⟩
      | stalled rest' => exact Or.inr ⟨_, _, _, _, rfl, rfl, hmore, hboth.strict nofun⟩

/-- A `flushWithin` leaves `accepted` as it is; its error `breaksOff`, and there is none if the
writer `Flushes`. -/
theorem flushWithin_cases (limit : Nat) (clock : Clock) (tapped : Tapped ω) :
    (∃ later left, flushWithin limit clock tapped = (.ok (), later, left) ∧
      left.accepted = tapped.accepted) ∨
    (∃ e later left, flushWithin limit clock tapped = (.error e, later, left) ∧
      e.breaksOff = true ∧ left.accepted = tapped.accepted ∧ ¬ Writer.Flushes ω) := by
  have hfails : ∀ tapped : Tapped ω, (Writer.flush tapped).1 ≠ .done → ¬ Writer.Flushes ω :=
    fun tapped hne hflushes => hne (hflushes tapped.writer)
  have hsame : ∀ tapped : Tapped ω, (Writer.flush tapped).2.accepted = tapped.accepted :=
    fun _ => rfl
  have hfirst := hfails tapped
  have hkept := hsame tapped
  unfold flushWithin
  rcases hflush : Writer.flush tapped with ⟨answer, left⟩
  rw [hflush] at hfirst hkept
  cases answer with
  | done => exact Or.inl ⟨_, _, rfl, hkept⟩
  | failed cause => exact Or.inr ⟨_, _, _, rfl, rfl, hkept, hfirst nofun⟩
  | stalled =>
    have hunfinished := hfirst nofun
    by_cases hlimit : limit = 0
    · simp only [if_pos hlimit]
      exact Or.inr ⟨_, _, _, rfl, rfl, hkept, hunfinished⟩
    · -- The flush is tried once more.
      have hstill := (hsame left).trans hkept
      simp only [if_neg hlimit]
      rcases hagain : Writer.flush left with ⟨again, last⟩
      rw [hagain] at hstill
      cases again with
      | done => exact Or.inl ⟨_, _, rfl, hstill⟩
      | failed cause => exact Or.inr ⟨_, _, _, rfl, rfl, hstill, hunfinished⟩
      | stalled => exact Or.inr ⟨_, _, _, rfl, rfl, hstill, hunfinished⟩

/-! ## What is not noticed -/

theorem writeWithin_untapped (limit : Nat) (bytes : Bytes) (clock : Clock) (tapped : Tapped ω) :
    writeWithin limit bytes clock tapped.writer =
      (writeWithin limit bytes clock tapped).map id (Prod.map id Tapped.writer) := by
  unfold writeWithin
  rw [writeAll_untapped]
  rcases writeAll bytes tapped with ⟨written, left⟩
  cases written with
  | all => rfl
  | failed cause => rfl
  | stalled rest =>
    simp only [Prod.map_apply, id_eq]
    by_cases hlimit : limit = 0
    · rw [if_pos hlimit, if_pos hlimit]
      rfl
    · rw [if_neg hlimit, if_neg hlimit, writeAll_untapped]
      rcases writeAll rest left with ⟨again, last⟩
      cases again <;> rfl

theorem flushWithin_untapped (limit : Nat) (clock : Clock) (tapped : Tapped ω) :
    flushWithin limit clock tapped.writer =
      (flushWithin limit clock tapped).map id (Prod.map id Tapped.writer) := by
  have hsame : ∀ tapped : Tapped ω,
      Writer.flush tapped.writer = (Writer.flush tapped).map id Tapped.writer := fun _ => rfl
  unfold flushWithin
  rw [hsame tapped]
  rcases Writer.flush tapped with ⟨answer, left⟩
  cases answer with
  | done => rfl
  | failed cause => rfl
  | stalled =>
    simp only [Prod.map_apply, id_eq]
    by_cases hlimit : limit = 0
    · rw [if_pos hlimit, if_pos hlimit]
      rfl
    · rw [if_neg hlimit, if_neg hlimit, hsame left]
      rcases Writer.flush left with ⟨again, last⟩
      cases again <;> rfl

/-! ## Sessions -/

namespace StreamSession

/-- An open `StreamSession` takes the bytes of a `write` as a whole and stays open, or it takes a
beginning of them and is closed, with an error that `breaksOff`. If the writer `Flushes`, this
beginning is a strict one. -/
theorem write_cases {session : StreamSession (Tapped ω)} (h : session.isOpen = true) (bytes : Bytes)
    (clock : Clock) :
    (∃ later left, session.write bytes clock = (.ok (), later, left) ∧ left.isOpen = true ∧
      left.writer.accepted = session.writer.accepted ++ bytes) ∨
    (∃ e later left part, session.write bytes clock = (.error e, later, left) ∧
      e.breaksOff = true ∧ left.isOpen = false ∧
      left.writer.accepted = session.writer.accepted ++ part ∧ part <+: bytes ∧
      (Writer.Flushes ω → part ≠ bytes)) := by
  unfold write
  rw [h]
  simp only [Bool.not_true, Bool.false_eq_true, if_false]
  rcases writeWithin_cases session.limit bytes clock session.writer with
    ⟨later, left, hwrite, haccepted⟩ | ⟨e, later, left, part, hwrite, hbreaks, haccepted, hpart⟩
  · rw [hwrite]
    simp only
    rcases flushWithin_cases session.limit later left with
      ⟨done, last, hflush, hkept⟩ | ⟨e, done, last, hflush, hbreaks, hkept, hflushes⟩
    · rw [hflush]
      exact Or.inl ⟨_, _, rfl, rfl, hkept.trans haccepted⟩
    · -- All bytes have gone out, but nobody knows whether they arrived.
      rw [hflush]
      exact Or.inr ⟨e, _, _, bytes, rfl, hbreaks, rfl, hkept.trans haccepted, List.prefix_rfl,
        fun hall => absurd hall hflushes⟩
  · rw [hwrite]
    exact Or.inr ⟨e, _, _, part, rfl, hbreaks, rfl, haccepted, hpart.1, fun _ => hpart.2⟩

end StreamSession

/-! ## Errands and their answers -/

namespace Errand

/-- The bytes that an `Errand` submits; there are none in `close`. -/
def bytes : Errand → Bytes
  | send bytes => bytes
  | sendSplit bytes _ => bytes
  | close => []

/-- An `Errand` that submits bytes and has its `cut`, if any, strictly inside them. -/
def CutsInside : Errand → Prop
  | send _ => True
  | sendSplit bytes cut => 0 < cut ∧ cut < bytes.length
  | close => False

end Errand

/-- An `Errand` with the `Reply` to it. -/
abbrev Answered := Errand × Reply

namespace Answered

/-- The reply to the errand is `.ok ()`. -/
def succeeded (answered : Answered) : Bool :=
  answered.2.isOk

/-- The reply to the errand is an error that `breaksOff`. -/
def brokeOff (answered : Answered) : Bool :=
  match answered.2 with
  | .ok _ => false
  | .error e => e.breaksOff

/-- The bytes of the entries that `succeeded`, in their order. -/
def delivered (entries : List Answered) : Bytes :=
  (entries.filter succeeded).flatMap fun entry => entry.1.bytes

theorem delivered_cons (entry : Answered) (entries : List Answered) :
    delivered (entry :: entries) =
      (if entry.succeeded then entry.1.bytes else []) ++ delivered entries := by
  rw [delivered, List.filter_cons]
  split <;> rfl

end Answered

namespace Sink

variable {σ τ : Type} [Sink σ] [Sink τ]

/-- The errands of a list, each with the `Reply` of the sink as the errands before have left it. -/
def transcript : List (Errand × Clock) → σ → List Answered
  | [], _ => []
  | (errand, clock) :: rest, sink =>
    (errand, (errand.serve clock sink).1) :: transcript rest (errand.serve clock sink).2

/-- A `Sink.Hom` changes no entry of the `transcript`, and takes the sink `after` the errands to the
one after them. -/
theorem Hom.transcript_eq {f : σ → τ} (hf : Hom f) (errands : List (Errand × Clock)) (sink : σ) :
    transcript errands (f sink) = transcript errands sink ∧
      after errands (f sink) = f (after errands sink) := by
  have hserve : ∀ (errand : Errand) (clock : Clock) (sink : σ),
      errand.serve clock (f sink) = (errand.serve clock sink).map id f := by
    intro errand clock sink
    cases errand with
    | send bytes =>
      simp only [Errand.serve, hf.send_eq]
      rfl
    | sendSplit bytes cut =>
      simp only [Errand.serve, hf.sendSplit_eq]
      rfl
    | close =>
      simp only [Errand.serve, hf.close_eq]
      rfl
  induction errands generalizing sink with
  | nil => exact ⟨rfl, rfl⟩
  | cons first rest ih =>
    obtain ⟨errand, clock⟩ := first
    obtain ⟨htranscript, hafter⟩ := ih (errand.serve clock sink).2
    simp only [transcript, after_cons, hserve, Prod.map_fst, Prod.map_snd, id_eq, htranscript,
      hafter, and_self]

end Sink

namespace StreamSession

/-- What an `Errand` does with an open session: its bytes are `accepted`, a part of them is and the
session is closed, the `cut` is refused, or the session is closed by `close`. -/
inductive Served (errand : Errand) (session left : StreamSession (Tapped ω)) : Reply → Prop where
  | delivered (submits : errand ≠ .close) (isOpen : left.isOpen = true)
      (accepted : left.writer.accepted = session.writer.accepted ++ errand.bytes) :
      Served errand session left (.ok ())
  | brokeOff {e : TransportError} {part : Bytes} (breaks : e.breaksOff = true)
      (closed : left.isOpen = false)
      (accepted : left.writer.accepted = session.writer.accepted ++ part)
      (beginning : part <+: errand.bytes) (unflushed : Writer.Flushes ω → part ≠ errand.bytes) :
      Served errand session left (.error e)
  | refused {cut size : Nat} (submits : errand ≠ .close) (same : left = session) :
      Served errand session left (.error (.invalidSplit cut size))
  | ended (close : errand = .close) (closed : left.isOpen = false)
      (accepted : left.writer.accepted = session.writer.accepted) :
      Served errand session left (.ok ())

variable {session : StreamSession (Tapped ω)}

/-- A `sendSplit` whose cut is not strictly inside its bytes is answered with `.invalidSplit`, and
the session stays as it is, open or closed. -/
theorem serve_of_not_inside {ω : Type} [Writer ω] {bytes : Bytes} {cut : Nat}
    (h : ¬ (0 < cut ∧ cut < bytes.length)) (clock : Clock) (session : StreamSession ω) :
    (Errand.sendSplit bytes cut).serve clock session =
      (.error (.invalidSplit cut bytes.length), session) := by
  have hsplit : sendInTwo write bytes cut clock session =
      (.error (.invalidSplit cut bytes.length), clock, session) := by
    rw [sendInTwo, splitAtCut, if_neg h]
  show ((sendInTwo write bytes cut clock session).1,
    (sendInTwo write bytes cut clock session).2.2) = _
  rw [hsplit]

/-- Whatever the `errand`, an open session has `Served` it in one of these ways. -/
theorem served (h : session.isOpen = true) (errand : Errand) (clock : Clock) :
    Served errand session (errand.serve clock session).2 (errand.serve clock session).1 := by
  cases errand with
  | send bytes =>
    show Served (.send bytes) session (session.write bytes clock).2.2 (session.write bytes clock).1
    rcases write_cases h bytes clock with
      ⟨_, _, hwrite, hopen, haccepted⟩ |
        ⟨_, _, _, part, hwrite, hbreaks, hclosed, haccepted, hpart, hstrict⟩
    · rw [hwrite]
      exact .delivered nofun hopen haccepted
    · rw [hwrite]
      exact .brokeOff hbreaks hclosed haccepted hpart hstrict
  | close =>
    show Served .close session session.close (.ok ())
    rw [close, if_pos h]
    exact .ended rfl rfl rfl
  | sendSplit bytes cut =>
    -- Each part is a write of its own, if neither of them is empty.
    by_cases hcut : 0 < cut ∧ cut < bytes.length
    · show Served (.sendSplit bytes cut) session (sendInTwo write bytes cut clock session).2.2
        (sendInTwo write bytes cut clock session).1
      rw [sendInTwo, splitAtCut, if_pos hcut]
      simp only
      rcases write_cases h (bytes.take cut) clock with
        ⟨later, half, hwrite, hopen, haccepted⟩ |
          ⟨e, later, half, part, hwrite, hbreaks, hclosed, haccepted, hpart, -⟩
      · -- The first part is delivered, and the second decides.
        rw [hwrite]
        simp only
        rcases write_cases hopen (bytes.drop cut) later with
          ⟨_, left, hrest, hstill, hboth⟩ |
            ⟨e, _, left, part, hrest, hbreaks, hclosed, hboth, hpart, hstrict⟩
        · rw [hrest]
          refine .delivered nofun hstill ?_
          rw [hboth, haccepted, List.append_assoc, List.take_append_drop]
          rfl
        · rw [hrest]
          rw [haccepted, List.append_assoc] at hboth
          refine .brokeOff hbreaks hclosed hboth ?_ fun hflushes heq => hstrict hflushes ?_
          · have hwhole := (List.prefix_append_right_inj (bytes.take cut)).mpr hpart
            rwa [List.take_append_drop] at hwhole
          · have hwhole : bytes.take cut ++ part = bytes := heq
            exact List.append_cancel_left (hwhole.trans (List.take_append_drop cut bytes).symm)
      · -- The second part is never written, so something is missing.
        rw [hwrite]
        have hshort := hpart.length_le
        rw [List.length_take] at hshort
        refine .brokeOff hbreaks hclosed haccepted (hpart.trans (List.take_prefix _ _)) ?_
        intro _ heq
        have hall : part.length = bytes.length := congrArg List.length heq
        omega
    · rw [serve_of_not_inside hcut]
      exact .refused nofun rfl

/-- A closed session stays as it is, and an errand that `CutsInside` is answered with `.closed`. -/
theorem serve_of_closed (h : session.isOpen = false) (errand : Errand) (clock : Clock) :
    (errand.serve clock session).2 = session ∧
      (errand.CutsInside → (errand.serve clock session).1 = .error .closed) ∧
      Answered.brokeOff (errand, (errand.serve clock session).1) = false ∧
      (Answered.succeeded (errand, (errand.serve clock session).1) = true → errand.bytes = []) := by
  have hwrite := fun bytes => write_of_closed h bytes clock
  cases errand with
  | send bytes =>
    have hserve : (Errand.send bytes).serve clock session = (.error .closed, session) := by
      show ((session.write bytes clock).1, (session.write bytes clock).2.2) = _
      rw [hwrite]
    rw [hserve]
    exact ⟨rfl, fun _ => rfl, rfl, nofun⟩
  | close =>
    have hserve : Errand.close.serve clock session = (.ok (), session) := by
      show (_, session.close) = _
      rw [close, h]
      rfl
    rw [hserve]
    exact ⟨rfl, nofun, rfl, fun _ => rfl⟩
  | sendSplit bytes cut =>
    by_cases hcut : 0 < cut ∧ cut < bytes.length
    · have hserve :
          (Errand.sendSplit bytes cut).serve clock session = (.error .closed, session) := by
        show ((sendInTwo write bytes cut clock session).1,
          (sendInTwo write bytes cut clock session).2.2) = _
        rw [sendInTwo, splitAtCut, if_pos hcut]
        simp only [hwrite]
      rw [hserve]
      exact ⟨rfl, fun _ => rfl, rfl, nofun⟩
    · rw [serve_of_not_inside hcut]
      exact ⟨rfl, fun hinside => absurd hinside hcut, rfl, nofun⟩

/-- A closed session stays as it is after any errands: every entry of the `transcript` that
`CutsInside` is answered with `.closed`, none of them `brokeOff`, and nothing is `delivered`. -/
theorem transcript_of_closed (h : session.isOpen = false) (errands : List (Errand × Clock)) :
    Sink.after errands session = session ∧
      (∀ entry ∈ Sink.transcript errands session, entry.1.CutsInside → entry.2 = .error .closed) ∧
      (∀ entry ∈ Sink.transcript errands session, entry.brokeOff = false) ∧
      Answered.delivered (Sink.transcript errands session) = [] := by
  induction errands with
  | nil => exact ⟨rfl, List.forall_mem_nil _, List.forall_mem_nil _, rfl⟩
  | cons first rest ih =>
    obtain ⟨errand, clock⟩ := first
    obtain ⟨hafter, hclosed, hbroke, hdelivered⟩ := ih
    obtain ⟨hsame, hfirst, hfirstBroke, hnothing⟩ := serve_of_closed h errand clock
    simp only [Sink.after_cons, Sink.transcript, hsame]
    refine ⟨hafter, List.forall_mem_cons.mpr ⟨hfirst, hclosed⟩,
      List.forall_mem_cons.mpr ⟨hfirstBroke, hbroke⟩, ?_⟩
    rw [Answered.delivered_cons, hdelivered, List.append_nil]
    split
    · next hok => exact hnothing hok
    · rfl

/-- Which `part` is accepted besides what is delivered: nothing if no entry `brokeOff`, else a
beginning of the bytes of the first that did, and a strict one if the writer `Flushes`. -/
def Remainder (ω : Type) [Writer ω] (part : Bytes) : Option Answered → Prop
  | none => part = []
  | some entry => part <+: entry.1.bytes ∧ (Writer.Flushes ω → part ≠ entry.1.bytes)

/-- What is `accepted` in the course of errands is what the `transcript` has `delivered`, and behind
it a `Remainder`. -/
theorem exists_remainder (errands : List (Errand × Clock)) (session : StreamSession (Tapped ω)) :
    ∃ part, (Sink.after errands session).writer.accepted =
        session.writer.accepted ++ Answered.delivered (Sink.transcript errands session) ++ part ∧
      Remainder ω part ((Sink.transcript errands session).find? Answered.brokeOff) := by
  induction errands generalizing session with
  | nil => exact ⟨[], by simp [Sink.transcript, Answered.delivered], rfl⟩
  | cons first rest ih =>
    obtain ⟨errand, clock⟩ := first
    by_cases hopen : session.isOpen = true
    · have hserved := served hopen errand clock
      rw [Sink.after_cons, Sink.transcript]
      generalize (errand.serve clock session).1 = reply at hserved ⊢
      generalize (errand.serve clock session).2 = left at hserved ⊢
      obtain ⟨part, haccepted, hremainder⟩ := ih left
      -- An errand that does not break off comes before what the others deliver.
      have hcons : Answered.brokeOff (errand, reply) = false →
          left.writer.accepted = session.writer.accepted ++
            (if Answered.succeeded (errand, reply) then errand.bytes else []) →
          ∃ part, (Sink.after rest left).writer.accepted = session.writer.accepted ++
              Answered.delivered ((errand, reply) :: Sink.transcript rest left) ++ part ∧
            Remainder ω part
              (((errand, reply) :: Sink.transcript rest left).find? Answered.brokeOff) := by
        intro hwhole hleft
        refine ⟨part, ?_, ?_⟩
        · rw [haccepted, hleft, Answered.delivered_cons]
          simp only [List.append_assoc]
        · rw [List.find?_cons_of_neg (by rw [hwhole]; exact Bool.false_ne_true)]
          exact hremainder
      cases hserved with
      | delivered _ _ hleft => exact hcons rfl hleft
      | refused _ hsame => exact hcons rfl (by rw [hsame]; exact (List.append_nil _).symm)
      | ended hclose _ hleft =>
        refine hcons rfl ?_
        rw [hleft, hclose]
        exact (List.append_nil _).symm
      | @brokeOff e part hbreaks hclosed hleft hpart hstrict =>
        -- Nothing is accepted after it.
        obtain ⟨hafter, -, -, hdelivered⟩ := transcript_of_closed hclosed rest
        refine ⟨part, ?_, ?_⟩
        · rw [hafter, hleft, Answered.delivered_cons, hdelivered]
          simp [Answered.succeeded, Except.isOk, Except.toBool]
        · have hbroke : Answered.brokeOff (errand, .error e) = true := hbreaks
          rw [List.find?_cons_of_pos hbroke]
          exact ⟨hpart, hstrict⟩
    · have hclosed : session.isOpen = false := by simpa using hopen
      obtain ⟨hafter, -, hbroke, hdelivered⟩ :=
        transcript_of_closed hclosed ((errand, clock) :: rest)
      have hnone : (Sink.transcript ((errand, clock) :: rest) session).find? Answered.brokeOff =
          none := by
        simpa using hbroke
      rw [hafter, hdelivered, hnone]
      exact ⟨[], by simp, rfl⟩

/-- The session is not `isOpen` after errands of which one is `close` or `brokeOff`. -/
theorem isOpen_after {errands : List (Errand × Clock)} {session : StreamSession (Tapped ω)}
    (h : ∃ entry ∈ Sink.transcript errands session, entry.1 = .close ∨ entry.brokeOff = true) :
    (Sink.after errands session).isOpen = false := by
  induction errands generalizing session with
  | nil =>
    obtain ⟨entry, hmem, -⟩ := h
    cases hmem
  | cons first rest ih =>
    obtain ⟨errand, clock⟩ := first
    by_cases hopen : session.isOpen = true
    · have hserved := served hopen errand clock
      rw [Sink.transcript] at h
      rw [Sink.after_cons]
      generalize (errand.serve clock session).1 = reply at hserved h
      generalize (errand.serve clock session).2 = left at hserved h ⊢
      by_cases hleft : left.isOpen = true
      · -- This errand has not closed the session, so it is one of the others.
        refine ih ?_
        obtain ⟨entry, hmem, hends⟩ := h
        rcases List.mem_cons.mp hmem with rfl | hrest
        · cases hserved with
          | delivered hsubmits => exact absurd hends (by simp [hsubmits, Answered.brokeOff])
          | refused hsubmits =>
            exact absurd hends (by simp [hsubmits, Answered.brokeOff, TransportError.breaksOff])
          | brokeOff _ hclosed => exact absurd hleft (by simp [hclosed])
          | ended _ hclosed => exact absurd hleft (by simp [hclosed])
        · exact ⟨entry, hrest, hends⟩
      · have hclosed : left.isOpen = false := by simpa using hleft
        rw [(transcript_of_closed hclosed rest).1]
        exact hclosed
    · have hclosed : session.isOpen = false := by simpa using hopen
      rw [(transcript_of_closed hclosed _).1]
      exact hclosed

/-- The session over the `writer` that is `Tapped`. -/
def untapped (session : StreamSession (Tapped ω)) : StreamSession ω :=
  ⟨session.writer.writer, session.isOpen, session.limit⟩

theorem write_untapped (bytes : Bytes) (clock : Clock) (session : StreamSession (Tapped ω)) :
    session.untapped.write bytes clock =
      (session.write bytes clock).map id (Prod.map id untapped) := by
  obtain ⟨tapped, isOpen, limit⟩ := session
  cases isOpen with
  | false => rfl
  | true =>
    have hwrite := writeWithin_untapped limit bytes clock tapped
    simp only [write, untapped, Bool.not_true, Bool.false_eq_true, if_false, hwrite]
    rcases writeWithin limit bytes clock tapped with ⟨reply, later, left⟩
    cases reply with
    | error e => rfl
    | ok _ =>
      have hflush := flushWithin_untapped limit later left
      simp only [Prod.map_apply, id_eq, hflush]
      rcases flushWithin limit later left with ⟨reply, last, done⟩
      cases reply <;> rfl

/-- To take `untapped` is a `Sink.Hom`: no errand can tell the difference. -/
theorem hom_untapped : Sink.Hom (untapped (ω := ω)) where
  isOpen_eq _ _ := rfl
  send_eq := write_untapped
  sendSplit_eq bytes cut clock session := by
    show sendInTwo write bytes cut clock session.untapped =
      (sendInTwo write bytes cut clock session).map id (Prod.map id untapped)
    unfold sendInTwo
    cases splitAtCut bytes cut with
    | error e => rfl
    | ok parts =>
      obtain ⟨head, tail⟩ := parts
      simp only [write_untapped head]
      rcases session.write head clock with ⟨reply, later, left⟩
      cases reply with
      | error e => rfl
      | ok _ => exact write_untapped tail later left
  close_eq session := by
    obtain ⟨tapped, isOpen, limit⟩ := session
    cases isOpen <;> rfl

/-- What a `StreamSession` on any `writer` delivers in the course of any errands. The bytes
`accepted` are those `delivered`, in order, and behind them a `Remainder` of the first entry that
`brokeOff`. After that entry, or after `close`, the session is never open again, what is asked of it
is answered with `.closed`, and `accepted` stays as it is. An invalid cut leaves the session as it
is. All this is true of the session without `Tapped` as well. -/
theorem delivers_in_order (writer : ω) (limit : Nat) (errands : List (Errand × Clock)) :
    let session : StreamSession (Tapped ω) := .new (.new writer) limit
    let left := Sink.after errands session
    let entries := Sink.transcript errands session
    (∃ part, left.writer.accepted = Answered.delivered entries ++ part ∧
      Remainder ω part (entries.find? Answered.brokeOff)) ∧
    ((∃ entry ∈ entries, entry.1 = .close ∨ entry.brokeOff = true) →
      ∀ more : List (Errand × Clock),
        (∀ clock, Sink.isOpen clock (Sink.after more left) = false) ∧
        (Sink.after more left).writer.accepted = left.writer.accepted ∧
        ∀ entry ∈ Sink.transcript more left, entry.1.CutsInside → entry.2 = .error .closed) ∧
    (∀ (bytes : Bytes) (cut : Nat) (clock : Clock), ¬ (0 < cut ∧ cut < bytes.length) →
      (Errand.sendSplit bytes cut).serve clock left =
        (.error (.invalidSplit cut bytes.length), left)) ∧
    (Sink.transcript errands (StreamSession.new writer limit) = entries ∧
      Sink.after errands (StreamSession.new writer limit) = left.untapped) := by
  intro session left entries
  refine ⟨exists_remainder errands session, ?_, ?_, ?_⟩
  · intro hends more
    have hclosed : left.isOpen = false := isOpen_after hends
    obtain ⟨hafter, hrefused, -, -⟩ := transcript_of_closed hclosed more
    rw [hafter]
    exact ⟨fun _ => hclosed, rfl, hrefused⟩
  · intro bytes cut clock hcut
    exact serve_of_not_inside hcut clock left
  · exact hom_untapped.transcript_eq errands session

/-- A `Script` that takes a single byte first, and whose second flush fails: the bytes of the second
write have all been `accepted`, those of the third have not. -/
theorem delivers_in_order_unflushed :
    let writer : Script := .new [.accepted 1] [.done, .failed .brokenPipe]
    let session : StreamSession (Tapped Script) := .new (.new writer) 10
    let errands : List (Errand × Clock) :=
      [(.send [1, 2], .start), (.sendSplit [3, 4] 2, .start), (.send [3, 4], .start),
        (.send [5], .start)]
    (∃ part, [1, 2, 3, 4] = Answered.delivered (Sink.transcript errands session) ++ part ∧
      Remainder Script part ((Sink.transcript errands session).find? Answered.brokeOff)) ∧
    (Sink.transcript errands session).map Prod.snd =
      [.ok (), .error (.invalidSplit 2 2), .error (.io .brokenPipe), .error .closed] ∧
    ∀ more : List (Errand × Clock),
      (Sink.after more (Sink.after errands session)).writer.accepted = [1, 2, 3, 4] := by
  intro writer session errands
  obtain ⟨hpart, hends, -⟩ := delivers_in_order writer 10 errands
  have haccepted : (Sink.after errands session).writer.accepted = [1, 2, 3, 4] := by
    decide +kernel
  have hbroke : ∃ entry ∈ Sink.transcript errands session,
      entry.1 = .close ∨ entry.brokeOff = true := by
    decide +kernel
  refine ⟨?_, by decide +kernel, fun more => ?_⟩
  · rw [← haccepted]
    exact hpart
  · exact (hends hbroke more).2.1.trans haccepted

end StreamSession

end Volley
