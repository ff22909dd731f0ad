import Volley.Proofs.Supervisor.Sessions
import Volley.Sink.Datagram
import Volley.Sink.Mixed
import Volley.Sink.Pipe

/-!
# Sinks that have been released

Whoever closes a sink, or finds it closed, has done with it: nothing more should be written. For a
session on a stream and for a recorder this is so, and they are never open again (`Sink.Final`).

The other sinks are made of parts, or have nothing that could be closed. A pair of sinks passes on
what it is asked, so each of its halves is at its end when it is closed, by whatever closed it, and
the other half is not concerned. A supervisor has nothing more to do with a session that it has
given up, but it is not at an end when it is closed: the next submission opens a session again. Its
end is the stop signal. From then on it opens no session, and what it is asked to submit goes to the
session that it still holds, if it holds one, or is refused. A failure says nothing about a session
that sends datagrams.

## Main definitions

* `Errand`: what can be asked of a sink.
* `Sink.Ended`: a sink is closed, or found closed, in the course of errands.
* `Sink.Refuses`: every submission fails and leaves the sink as it is.
* `Sink.Final`: a sink that refuses everything when it is closed.

## Main results

* `Sink.Ended.isOpen_after`: what has been closed once is closed after all errands.
* `Supervisor.retired_suffix_after`: sessions that were given up are not touched again.
* `Supervisor.unwound_after`: a supervisor after the stop signal.
* `Sink.refused_after_end`: the sinks of the program after their end.
-/

namespace Volley

/-- What can be asked of any `Sink`. -/
inductive Errand where
  | send (bytes : Bytes)
  | sendSplit (bytes : Bytes) (cut : Nat)
  | close
  deriving DecidableEq, Repr

namespace Errand

variable {σ : Type} [Sink σ]

/-- Whether an `Errand` submits bytes, which all but `close` do. -/
def submits : Errand → Bool
  | send _ => true
  | sendSplit _ _ => true
  | close => false

/-- The reply to an `Errand`, and the sink after it. The reply to `close` is always `.ok ()`. -/
def serve (errand : Errand) (clock : Clock) (sink : σ) : Reply × σ :=
  match errand with
  | send bytes => ((Sink.send bytes clock sink).1, (Sink.send bytes clock sink).2.2)
  | sendSplit bytes cut =>
    ((Sink.sendSplit bytes cut clock sink).1, (Sink.sendSplit bytes cut clock sink).2.2)
  | close => (.ok (), Sink.close sink)

end Errand

namespace Sink

variable {σ : Type} [Sink σ]

/-- The sink after a list of errands, each served with a clock of its own. -/
def after (errands : List (Errand × Clock)) (sink : σ) : σ :=
  errands.foldl (fun sink (errand, clock) => (errand.serve clock sink).2) sink

@[simp]
theorem after_nil (sink : σ) : after [] sink = sink := rfl

@[simp]
theorem after_cons (errand : Errand) (clock : Clock) (errands : List (Errand × Clock)) (sink : σ) :
    after ((errand, clock) :: errands) sink = after errands (errand.serve clock sink).2 := rfl

theorem after_append (done errands : List (Errand × Clock)) (sink : σ) :
    after (done ++ errands) sink = after errands (after done sink) := by
  simp only [after, List.foldl_append]

/-- Every errand that `submits` is answered with an error and leaves the sink as it is. -/
def Refuses (sink : σ) : Prop :=
  ∀ (errand : Errand) (clock : Clock), errand.submits = true →
    ∃ e, errand.serve clock sink = (.error e, sink)

/-- One of the errands is `close`, or at some moment between them `isOpen` is false. -/
def Ended (isOpen : Clock → σ → Bool) (errands : List (Errand × Clock)) (sink : σ) : Prop :=
  (∃ clock, (.close, clock) ∈ errands) ∨
    ∃ done rest clock, errands = done ++ rest ∧ isOpen clock (after done sink) = false

/-- If `Sink.close` makes `isOpen` false, and no errand makes it true again, then it is false
`after` all errands once they have `Ended` the sink. -/
theorem Ended.isOpen_after {isOpen : Clock → σ → Bool}
    (hclose : ∀ clock sink, isOpen clock (Sink.close sink) = false)
    (hserve : ∀ {clock sink}, isOpen clock sink = false → ∀ (errand : Errand) (later : Clock),
      isOpen clock (errand.serve later sink).2 = false)
    {errands : List (Errand × Clock)} {sink : σ} (h : Ended isOpen errands sink) :
    ∃ clock, isOpen clock (after errands sink) = false := by
  have hkept : ∀ {clock : Clock} {sink : σ} (rest : List (Errand × Clock)),
      isOpen clock sink = false → isOpen clock (after rest sink) = false := by
    intro clock sink rest hclosed
    induction rest generalizing sink with
    | nil => exact hclosed
    | cons first rest ih =>
      obtain ⟨errand, later⟩ := first
      exact ih (hserve hclosed errand later)
  rcases h with ⟨clock, hmem⟩ | ⟨done, rest, clock, rfl, hclosed⟩
  · obtain ⟨done, rest, rfl⟩ := List.append_of_mem hmem
    refine ⟨clock, ?_⟩
    rw [after_append, after_cons]
    exact hkept rest (hclose clock (after done sink))
  · exact ⟨clock, by rw [after_append]; exact hkept rest hclosed⟩

/-- A sink that `close` leaves not open, and that `Refuses` while it is not open. -/
class Final (σ : Type) [Sink σ] : Prop where
  isOpen_close : ∀ (clock : Clock) (sink : σ), Sink.isOpen clock (Sink.close sink) = false
  refuses : ∀ {clock : Clock} {sink : σ}, Sink.isOpen clock sink = false → Refuses sink

namespace Final

/-- No errand opens a `Final` sink again. -/
theorem isOpen_serve [Final σ] {clock : Clock} {sink : σ} (h : Sink.isOpen clock sink = false)
    (errand : Errand) (later : Clock) : Sink.isOpen clock (errand.serve later sink).2 = false := by
  cases hsubmits : errand.submits with
  | true =>
    obtain ⟨e, hserve⟩ := refuses h errand later hsubmits
    rw [hserve]
    exact h
  | false =>
    cases errand with
    | close => exact isOpen_close clock sink
    | send _ => cases hsubmits
    | sendSplit _ _ => cases hsubmits

/-- A `Final` sink `Refuses` after errands that have `Ended` it. -/
theorem refuses_after [Final σ] {errands : List (Errand × Clock)} {sink : σ}
    (h : Ended Sink.isOpen errands sink) : Refuses (after errands sink) := by
  obtain ⟨clock, hclosed⟩ := h.isOpen_after isOpen_close isOpen_serve
  exact refuses hclosed

end Final

end Sink

/-- If `send` is refused, so is `sendInTwo`, with its first part. -/
theorem sendInTwo_of_refused {σ : Type} {send : Bytes → Clock → σ → Reply × Clock × σ}
    {clock : Clock} {sink : σ} (h : ∀ bytes, send bytes clock sink = (.error .closed, clock, sink))
    (bytes : Bytes) (cut : Nat) :
    ∃ e, sendInTwo send bytes cut clock sink = (.error e, clock, sink) := by
  unfold sendInTwo
  split
  · exact ⟨_, rfl⟩
  · next head tail _ =>
    rw [h head]
    exact ⟨_, rfl⟩

/-! ## Sinks that are final -/

namespace Recorder

theorem send_of_closed {recorder : Recorder} (h : recorder.isOpen = false) (bytes : Bytes)
    (clock : Clock) : recorder.send bytes clock = (.error .closed, clock, recorder) := by
  simp only [send, h, Bool.not_false, if_true]

instance : Sink.Final Recorder where
  isOpen_close _ _ := rfl
  refuses {_ recorder} hclosed errand clock hsubmits := by
    have hsend := fun bytes => send_of_closed hclosed bytes clock
    cases errand with
    | send bytes =>
      refine ⟨.closed, ?_⟩
      simp only [Errand.serve, Sink.send, hsend]
    | sendSplit bytes cut =>
      obtain ⟨e, hsplit⟩ := sendInTwo_of_refused hsend bytes cut
      refine ⟨e, ?_⟩
      simp only [Errand.serve, Sink.sendSplit, hsplit]
    | close => cases hsubmits

end Recorder

namespace StreamSession

variable {ω : Type} [Writer ω]

theorem write_of_closed {session : StreamSession ω} (h : session.isOpen = false) (bytes : Bytes)
    (clock : Clock) : session.write bytes clock = (.error .closed, clock, session) := by
  simp only [write, h, Bool.not_false, if_true]

instance : Sink.Final (StreamSession ω) where
  isOpen_close clock session := by
    show session.close.isOpen = false
    unfold close
    split
    · rfl
    · next hclosed => exact Bool.eq_false_iff.mpr hclosed
  refuses {_ session} hclosed errand clock hsubmits := by
    have hwrite := fun bytes => write_of_closed hclosed bytes clock
    cases errand with
    | send bytes =>
      refine ⟨.closed, ?_⟩
      simp only [Errand.serve, Sink.send, hwrite]
    | sendSplit bytes cut =>
      obtain ⟨e, hsplit⟩ := sendInTwo_of_refused hwrite bytes cut
      refine ⟨e, ?_⟩
      simp only [Errand.serve, Sink.sendSplit, hsplit]
    | close => cases hsubmits

end StreamSession

/-! ## The halves of a pair -/

namespace Mixed

variable {σ δ : Type}

/-- Whether an errand submits bytes to the `stream` of a pair. -/
def MeansStream (errand : Errand) (pair : Mixed σ δ) : Prop :=
  match errand with
  | .send _ => pair.sends % 2 = 0
  | .sendSplit _ _ => True
  | .close => False

/-- Whether an errand submits bytes to the `datagram` sink of a pair. -/
def MeansDatagram (errand : Errand) (pair : Mixed σ δ) : Prop :=
  match errand with
  | .send _ => pair.sends % 2 ≠ 0
  | .sendSplit _ _ => False
  | .close => False

variable [Sink σ] [Sink δ]

/-- No submission changes `pair.stream`, and those that `MeansStream` are answered with an error. -/
def StreamRefuses (pair : Mixed σ δ) : Prop :=
  ∀ (errand : Errand) (clock : Clock), errand.submits = true →
    (errand.serve clock pair).2.stream = pair.stream ∧
      (pair.MeansStream errand → ∃ e, (errand.serve clock pair).1 = .error e)

/-- No submission changes `pair.datagram`, and those that `MeansDatagram` are answered with an
error. -/
def DatagramRefuses (pair : Mixed σ δ) : Prop :=
  ∀ (errand : Errand) (clock : Clock), errand.submits = true →
    (errand.serve clock pair).2.datagram = pair.datagram ∧
      (pair.MeansDatagram errand → ∃ e, (errand.serve clock pair).1 = .error e)

/-- An errand does to `pair.stream` what it would do to that sink by itself, or the stream is left
alone. -/
theorem serve_stream (errand : Errand) (clock : Clock) (pair : Mixed σ δ) :
    ((errand.serve clock pair).2.stream = (errand.serve clock pair.stream).2 ∧
        (errand.serve clock pair).1 = (errand.serve clock pair.stream).1) ∨
      ((errand.serve clock pair).2.stream = pair.stream ∧ ¬ pair.MeansStream errand) := by
  cases errand with
  | send bytes =>
    by_cases hturn : pair.sends % 2 = 0
    · left
      simp only [Errand.serve, Sink.send, send, hturn, if_true, and_self]
    · right
      simp only [Errand.serve, Sink.send, send, hturn, if_false, MeansStream, not_false_eq_true,
        and_self]
  | sendSplit bytes cut => exact .inl ⟨rfl, rfl⟩
  | close => exact .inl ⟨rfl, rfl⟩

/-- An errand does to `pair.datagram` what it would do to that sink by itself, or that is left
alone. -/
theorem serve_datagram (errand : Errand) (clock : Clock) (pair : Mixed σ δ) :
    ((errand.serve clock pair).2.datagram = (errand.serve clock pair.datagram).2 ∧
        (errand.serve clock pair).1 = (errand.serve clock pair.datagram).1) ∨
      ((errand.serve clock pair).2.datagram = pair.datagram ∧ ¬ pair.MeansDatagram errand) := by
  cases errand with
  | send bytes =>
    by_cases hturn : pair.sends % 2 = 0
    · right
      simp only [Errand.serve, Sink.send, send, hturn, if_true, MeansDatagram, ne_eq,
        not_true_eq_false, not_false_eq_true, and_self]
    · left
      simp only [Errand.serve, Sink.send, send, hturn, if_false, and_self]
  | sendSplit bytes cut => exact .inr ⟨rfl, not_false⟩
  | close => exact .inl ⟨rfl, rfl⟩

/-- If the stream is `Final`, `StreamRefuses` holds after errands that have closed the pair, or
found the stream not open. -/
theorem streamRefuses_after [Sink.Final σ] {errands : List (Errand × Clock)} {pair : Mixed σ δ}
    (h : Sink.Ended (fun clock pair => Sink.isOpen clock pair.stream) errands pair) :
    (Sink.after errands pair).StreamRefuses := by
  obtain ⟨clock, hclosed⟩ := h.isOpen_after
    (fun clock pair => Sink.Final.isOpen_close clock pair.stream)
    (fun {clock pair} hclosed errand later => by
      rcases pair.serve_stream errand later with ⟨hstream, -⟩ | ⟨hstream, -⟩
      · rw [hstream]
        exact Sink.Final.isOpen_serve hclosed errand later
      · rw [hstream]
        exact hclosed)
  intro errand later hsubmits
  obtain ⟨e, hserve⟩ := Sink.Final.refuses hclosed errand later hsubmits
  rcases (Sink.after errands pair).serve_stream errand later with
    ⟨hstream, hreply⟩ | ⟨hstream, hmeant⟩
  · rw [hserve] at hstream hreply
    exact ⟨hstream, fun _ => ⟨e, hreply⟩⟩
  · exact ⟨hstream, fun h => absurd h hmeant⟩

/-- If the datagram sink is `Final`, `DatagramRefuses` holds after errands that have closed the
pair, or found that sink not open. -/
theorem datagramRefuses_after [Sink.Final δ] {errands : List (Errand × Clock)} {pair : Mixed σ δ}
    (h : Sink.Ended (fun clock pair => Sink.isOpen clock pair.datagram) errands pair) :
    (Sink.after errands pair).DatagramRefuses := by
  obtain ⟨clock, hclosed⟩ := h.isOpen_after
    (fun clock pair => Sink.Final.isOpen_close clock pair.datagram)
    (fun {clock pair} hclosed errand later => by
      rcases pair.serve_datagram errand later with ⟨hdatagram, -⟩ | ⟨hdatagram, -⟩
      · rw [hdatagram]
        exact Sink.Final.isOpen_serve hclosed errand later
      · rw [hdatagram]
        exact hclosed)
  intro errand later hsubmits
  obtain ⟨e, hserve⟩ := Sink.Final.refuses hclosed errand later hsubmits
  rcases (Sink.after errands pair).serve_datagram errand later with
    ⟨hdatagram, hreply⟩ | ⟨hdatagram, hmeant⟩
  · rw [hserve] at hdatagram hreply
    exact ⟨hdatagram, fun _ => ⟨e, hreply⟩⟩
  · exact ⟨hdatagram, fun h => absurd h hmeant⟩

end Mixed

/-! ## Supervisors -/

namespace Supervisor

variable {σ : Type}

/-- An `attempt` only adds to `retired`, at its front. -/
theorem retired_suffix_attempt {clock later : Clock} {supervisor next : Supervisor σ}
    {success : Bool} (h : supervisor.attempt clock = (success, later, next)) :
    supervisor.retired <:+ next.retired := by
  unfold attempt at h
  simp only at h
  split at h
  · cases h
    exact List.suffix_append _ _
  · cases h
    exact List.suffix_refl _

/-- A `beginAttempt` leaves `retired` as it is. -/
theorem retired_of_beginAttempt {clock later : Clock} {supervisor next : Supervisor σ}
    (h : supervisor.beginAttempt clock = (some next, later)) :
    next.retired = supervisor.retired := by
  unfold beginAttempt at h
  split at h
  · split at h
    · cases h
      rfl
    · cases h
  · cases h
    rfl

/-- What is `left` of a supervisor after the stop signal: no entry more in `attemptTimes`, as many
`sessions` as before, and no `session` held if it held none. -/
structure Unwound (before left : Supervisor σ) : Prop where
  listens : left.listens = before.listens
  attemptTimes : left.attemptTimes = before.attemptTimes
  length_sessions : left.sessions.length = before.sessions.length
  session : before.session = none → left.session = none

namespace Unwound

theorem refl (supervisor : Supervisor σ) : supervisor.Unwound supervisor :=
  ⟨rfl, rfl, rfl, id⟩

theorem trans {first second third : Supervisor σ} (h : first.Unwound second)
    (h' : second.Unwound third) : first.Unwound third :=
  ⟨h'.listens.trans h.listens, h'.attemptTimes.trans h.attemptTimes,
    h'.length_sessions.trans h.length_sessions, h'.session ∘ h.session⟩

/-- A supervisor is `Unwound` by another session in the place of the one it holds. -/
theorem withSession {supervisor : Supervisor σ} {session : σ}
    (h : supervisor.session = some session) (left : σ) :
    supervisor.Unwound { supervisor with session := some left } := by
  refine ⟨rfl, rfl, ?_, ?_⟩
  · simp only [sessions, h, List.length_append, Option.toList_some, List.length_singleton]
  · intro hnone
    rw [h] at hnone
    cases hnone

end Unwound

variable [Sink σ]

theorem retired_suffix_ensureConnected (clock : Clock) (supervisor : Supervisor σ) :
    supervisor.retired <:+ (supervisor.ensureConnected clock).2.2.retired := by
  fun_induction ensureConnected clock supervisor with
  | case1 => exact List.suffix_refl _
  | case2 => exact List.suffix_refl _
  | case3 => exact List.suffix_refl _
  | case4 clock supervisor _ _ begun _ hbegin _ next hattempt =>
    exact retired_of_beginAttempt hbegin ▸ retired_suffix_attempt hattempt
  | case5 clock supervisor _ _ begun _ hbegin _ next hattempt _ ih =>
    exact (retired_of_beginAttempt hbegin ▸ retired_suffix_attempt hattempt).trans ih

theorem retired_suffix_submit (inStep : TransportError → Bool)
    (submission : Clock → σ → Reply × Clock × σ) (clock : Clock) (supervisor : Supervisor σ) :
    supervisor.retired <:+ (supervisor.submit inStep submission clock).2.2.retired := by
  have hensured := supervisor.retired_suffix_ensureConnected clock
  unfold submit
  split
  · next hensure =>
    rw [hensure] at hensured
    exact hensured
  · next later held hensure =>
    rw [hensure] at hensured
    split
    · exact hensured
    · next session hsession =>
      rcases submission later session with ⟨reply, after, left⟩
      cases reply with
      | ok => exact hensured
      | error e =>
        simp only
        split
        · exact hensured
        · exact hensured.trans (List.suffix_append _ _)

/-- What is in `retired` stays there as it is, whatever errands are served. -/
theorem retired_suffix_after (errands : List (Errand × Clock)) (supervisor : Supervisor σ) :
    supervisor.retired <:+ (Sink.after errands supervisor).retired := by
  induction errands generalizing supervisor with
  | nil => exact List.suffix_refl _
  | cons first errands ih =>
    obtain ⟨errand, clock⟩ := first
    refine List.IsSuffix.trans ?_ (ih (errand.serve clock supervisor).2)
    cases errand with
    | send bytes => exact retired_suffix_submit _ _ clock supervisor
    | sendSplit bytes cut => exact retired_suffix_submit _ _ clock supervisor
    | close => exact List.suffix_append _ _

/-- Once it is `stopped`, `ensureConnected` answers with `.closed` unless `holdsOpen`, and changes
nothing. -/
theorem ensureConnected_of_stopped {clock : Clock} {supervisor : Supervisor σ}
    (hstopped : supervisor.stopped clock = true) :
    supervisor.ensureConnected clock =
      (if supervisor.holdsOpen clock then .ok () else .error .closed, clock, supervisor) := by
  rw [ensureConnected_eq, hstopped]
  split <;> rfl

namespace Unwound

/-- A supervisor is `Unwound` by `retire` with the `event` that is the cause of it. -/
theorem retire (supervisor : Supervisor σ) (event : ConnectionEvent) :
    supervisor.Unwound (supervisor.retire.apply event) := by
  refine ⟨rfl, rfl, ?_, fun _ => rfl⟩
  have hsessions : (supervisor.retire.apply event).sessions = (Sink.close supervisor).sessions :=
    rfl
  rw [hsessions, sessions_close]
  simp only [sessions, List.length_append, Option.length_toList, Option.isSome_map]

theorem submit {supervisor : Supervisor σ} {clock : Clock}
    (hstopped : supervisor.stopped clock = true) (inStep : TransportError → Bool)
    (submission : Clock → σ → Reply × Clock × σ) :
    supervisor.Unwound (supervisor.submit inStep submission clock).2.2 := by
  unfold Supervisor.submit
  rw [ensureConnected_of_stopped hstopped]
  cases hopen : supervisor.holdsOpen clock with
  | false => exact refl supervisor
  | true =>
    simp only [if_true]
    split
    · exact refl supervisor
    · next session hsession =>
      rcases submission clock session with ⟨reply, later, left⟩
      have hheld := withSession hsession left
      cases reply with
      | ok => exact hheld
      | error e =>
        simp only
        split
        · exact hheld
        · exact hheld.trans (retire _ _)

theorem serve {supervisor : Supervisor σ} {clock : Clock}
    (hstopped : supervisor.stopped clock = true) (errand : Errand) :
    supervisor.Unwound (errand.serve clock supervisor).2 := by
  cases errand with
  | send bytes => exact submit hstopped _ _
  | sendSplit bytes cut => exact submit hstopped _ _
  | close => exact retire supervisor .closed

end Unwound

/-- A supervisor that `listens` is `Unwound` by errands served while the clock is `stopped`, and has
no `session` if one of them is `close`. -/
theorem unwound_after {supervisor : Supervisor σ} (hlistens : supervisor.listens = true)
    {errands : List (Errand × Clock)} (hraised : ∀ entry ∈ errands, entry.2.stopped = true) :
    supervisor.Unwound (Sink.after errands supervisor) ∧
      ((∃ clock, (.close, clock) ∈ errands) → (Sink.after errands supervisor).session = none) := by
  induction errands generalizing supervisor with
  | nil => exact ⟨.refl supervisor, fun ⟨clock, hmem⟩ => absurd hmem List.not_mem_nil⟩
  | cons first errands ih =>
    obtain ⟨errand, clock⟩ := first
    have hstopped : supervisor.stopped clock = true := by
      rw [stopped, hlistens, hraised (errand, clock) List.mem_cons_self]
      rfl
    have hserve : supervisor.Unwound (errand.serve clock supervisor).2 := .serve hstopped errand
    obtain ⟨hrest, hclose⟩ := ih (hserve.listens.trans hlistens)
      fun entry hmem => hraised entry (List.mem_cons_of_mem _ hmem)
    refine ⟨hserve.trans hrest, ?_⟩
    rintro ⟨moment, hmem⟩
    rcases List.mem_cons.mp hmem with hfirst | hmem
    · -- The session is given up here, and none is opened afterwards.
      cases hfirst
      exact hrest.session rfl
    · exact hclose ⟨moment, hmem⟩

/-- Once it is `stopped`, a supervisor without an open session answers every submission with
`.closed` and stays as it is. -/
theorem serve_of_stopped {supervisor : Supervisor σ} {clock : Clock}
    (hstopped : supervisor.stopped clock = true) (hclosed : supervisor.holdsOpen clock = false)
    {errand : Errand} (hsubmits : errand.submits = true) :
    errand.serve clock supervisor = (.error .closed, supervisor) := by
  have hensure : supervisor.ensureConnected clock = (.error .closed, clock, supervisor) := by
    rw [ensureConnected_of_stopped hstopped, hclosed]
    rfl
  have hsubmit : ∀ (inStep : TransportError → Bool) (submission : Clock → σ → Reply × Clock × σ),
      supervisor.submit inStep submission clock = (.error .closed, clock, supervisor) := by
    intro inStep submission
    rw [submit, hensure]
  cases errand with
  | send bytes => simp only [Errand.serve, Sink.send, hsubmit]
  | sendSplit bytes cut => simp only [Errand.serve, Sink.sendSplit, hsubmit]
  | close => cases hsubmits

end Supervisor

/-! ## All sinks -/

namespace Sink

/-- What sinks do once errands have `Ended` them. A `StreamSession` and a `Recorder` are `Final` and
`Refuses` holds of them. Of a `Mixed` pair, either half that is `Final` refuses what is meant for
it, and if both are, every submission to a closed pair fails. No submission closes a
`DatagramSession`. A `Supervisor` never touches what is in `retired`, where `close` puts its
session; once it is found not open and the signal stays raised, it begins no attempt, has no new
session, and without an open session answers `.closed` to every submission. -/
theorem refused_after_end {ω σ δ : Type} [Writer ω] [Sink σ] [Sink δ] :
    (∀ errands (session : StreamSession ω),
      Ended Sink.isOpen errands session → Refuses (after errands session)) ∧
    (∀ errands (recorder : Recorder),
      Ended Sink.isOpen errands recorder → Refuses (after errands recorder)) ∧
    (∀ errands (pair : Mixed σ δ),
      (Final σ → Ended (fun clock pair => Sink.isOpen clock pair.stream) errands pair →
        (after errands pair).StreamRefuses) ∧
      (Final δ → Ended (fun clock pair => Sink.isOpen clock pair.datagram) errands pair →
        (after errands pair).DatagramRefuses) ∧
      (Final σ → Final δ → (∃ clock, (.close, clock) ∈ errands) →
        ∀ (errand : Errand) (clock : Clock), errand.submits = true →
          ∃ e, (errand.serve clock (after errands pair)).1 = .error e)) ∧
    (∀ errands (session : DatagramSession) (clock : Clock),
      (∀ entry ∈ errands, entry.1.submits = true) →
        Sink.isOpen clock (after errands session) = true) ∧
    ∀ done later (supervisor : Supervisor σ),
      let before := after done supervisor
      let left := after later before
      before.retired <:+ left.retired ∧
      ((Sink.close before).session = none ∧
        (Sink.close before).retired =
          (before.session.map Sink.close).toList ++ before.retired) ∧
      ∀ clock, Sink.isOpen clock before = false → (∀ entry ∈ later, entry.2.stopped = true) →
        left.attemptTimes = before.attemptTimes ∧
        left.sessions.length = before.sessions.length ∧
        (before.session = none ∨ (∃ clock, (.close, clock) ∈ later) → left.session = none) ∧
        ∀ (errand : Errand) (moment : Clock), errand.submits = true → moment.stopped = true →
          left.holdsOpen moment = false → errand.serve moment left = (.error .closed, left) := by
  refine ⟨fun _ _ h => Final.refuses_after h, fun _ _ h => Final.refuses_after h, ?_,
    fun _ _ _ _ => rfl, ?_⟩
  · intro errands pair
    refine ⟨fun _ h => Mixed.streamRefuses_after h, fun _ h => Mixed.datagramRefuses_after h, ?_⟩
    intro _ _ hclose errand clock hsubmits
    have hrefused : (after errands pair).StreamRefuses := Mixed.streamRefuses_after (.inl hclose)
    have hrefused' : (after errands pair).DatagramRefuses :=
      Mixed.datagramRefuses_after (.inl hclose)
    have hstream := (hrefused errand clock hsubmits).2
    have hdatagram := (hrefused' errand clock hsubmits).2
    -- A single write is meant for the half whose turn it is, and one in two parts for the stream.
    cases errand with
    | send bytes =>
      by_cases hturn : (after errands pair).sends % 2 = 0
      · exact hstream hturn
      · exact hdatagram hturn
    | sendSplit bytes cut => exact hstream trivial
    | close => cases hsubmits
  · intro done later supervisor before left
    refine ⟨Supervisor.retired_suffix_after later before, ⟨rfl, rfl⟩, ?_⟩
    intro clock hclosed hraised
    have hstopped : before.stopped clock = true := by simpa [Sink.isOpen] using hclosed
    have hlistens : before.listens = true := by
      rw [Supervisor.stopped, Bool.and_eq_true] at hstopped
      exact hstopped.1
    obtain ⟨hunwound, hclose⟩ := Supervisor.unwound_after hlistens hraised
    refine ⟨hunwound.attemptTimes, hunwound.length_sessions, ?_, ?_⟩
    · rintro (hnone | hclosing)
      · exact hunwound.session hnone
      · exact hclose hclosing
    · intro errand moment hsubmits hmoment hheld
      refine Supervisor.serve_of_stopped ?_ hheld hsubmits
      rw [Supervisor.stopped, hunwound.listens, hlistens, hmoment]
      rfl

/-- A `Mixed` pair of recorders closed after two writes, one on each half, fails in the third; a
supervisor that is found not open, and is then closed, has had its one session. -/
theorem refused_after_end_closed :
    let pair : Mixed Recorder Recorder := .new (.new .stream none) (.new .datagram none)
    let supervisor : Supervisor Recorder := .new ⟨[], .new .stream none⟩ 10 true
    let errands : List (Errand × Clock) :=
      [(.send [1], .start), (.send [2], .start), (.close, .start)]
    let raised : Clock := ⟨7, some 5⟩
    let before := after [(.send [1], .start)] supervisor
    let left := after [(.close, raised)] before
    ((after errands pair).stream.writes = [[1]] ∧ (after errands pair).datagram.writes = [[2]] ∧
      ∃ e, ((Errand.send [3]).serve .start (after errands pair)).1 = .error e) ∧
    (Sink.isOpen raised before = false ∧ left.sessions.length = before.sessions.length ∧
      left.session = none) := by
  intro pair supervisor errands raised before left
  obtain ⟨-, -, hpair, -, hsupervisor⟩ := @refused_after_end Pipe Recorder Recorder _ _ _
  obtain ⟨-, -, hfails⟩ := hpair errands pair
  obtain ⟨-, -, hunwound⟩ := hsupervisor [(.send [1], .start)] [(.close, raised)] supervisor
  have hclose : ∃ clock, (Errand.close, clock) ∈ errands :=
    ⟨.start, List.mem_cons_of_mem _ (List.mem_cons_of_mem _ List.mem_cons_self)⟩
  have hclosed : Sink.isOpen raised before = false := by decide +kernel
  obtain ⟨-, hlength, hsession, -⟩ := hunwound raised hclosed (by decide)
  refine ⟨⟨by decide, by decide, ?_⟩, hclosed, hlength, ?_⟩
  · exact hfails inferInstance inferInstance hclose (.send [3]) .start rfl
  · exact hsession (.inr ⟨raised, List.mem_cons_self⟩)

/-- Four sinks that have `Ended`, or are not `isOpen`, and yet answer a submission with `.ok ()`: a
closed `Supervisor` opens a session again, one found not open after the signal submits to the
session that it still holds, a `Mixed` pair whose stream has failed sends its next write as a
datagram, and so does a closed `DatagramSession`. -/
theorem submitted_after_end :
    (let errands : List (Errand × Clock) := [(.send [1], .start), (.close, .start)]
      let supervisor := Supervisor.new ⟨[], Recorder.new .stream none⟩ 10 true
      let answer := (Errand.send [2]).serve .start (after errands supervisor)
      Ended Sink.isOpen errands supervisor ∧ answer.1 = .ok () ∧
        answer.2.sessions.map Recorder.writes = [[[1]], [[2]]]) ∧
    (let supervisor := after [(.send [1], .start)]
        (Supervisor.new ⟨[], Recorder.new .stream none⟩ 10 true)
      let raised : Clock := ⟨7, some 5⟩
      let answer := (Errand.send [2]).serve raised supervisor
      Sink.isOpen raised supervisor = false ∧ answer.1 = .ok () ∧
        answer.2.sessions.map Recorder.writes = [[[1], [2]]]) ∧
    (let pair := after [(.send [1], .start)]
        (Mixed.new (Recorder.new .stream (some 0)) (Recorder.new .datagram none))
      let answer := (Errand.send [2]).serve .start pair
      Sink.isOpen .start pair = false ∧ answer.1 = .ok () ∧ answer.2.datagram.writes = [[2]]) ∧
    (let session := after [(.close, .start)] (DatagramSession.new .clear)
      let answer := (Errand.send [2]).serve .start session
      answer.1 = .ok () ∧ answer.2.datagrams = [[2]]) := by
  refine ⟨⟨.inl ⟨.start, ?_⟩, ?_, ?_⟩, ⟨?_, ?_, ?_⟩, ⟨?_, ?_, ?_⟩, ?_, ?_⟩
  · exact List.mem_cons_of_mem _ List.mem_cons_self
  all_goals decide +kernel

end Sink

end Volley
