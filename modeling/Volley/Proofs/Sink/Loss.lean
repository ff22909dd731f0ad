import Volley.Proofs.Run.Reconnecting
import Volley.Session

/-!
# How a session is lost

A worker asks after a failed write whether its session is still open, and gives it up if it is not.
What the answer is depends on the kind of the session. The first failure of a stream closes it, and
a pair of a stream and datagrams is closed as soon as one of its halves is. Datagrams have nothing
that could be closed, and a supervisor is open until the run is stopped. So, as long as the run is
not stopped, a session is lost exactly by a failure of a stream that nobody opens again.

## Main definitions

* `Scenario.Transport.isBare`: a worker has a stream that nobody opens again.
* `SessionOver.Suits`: a session that is of the right kind and still open.
* `Run.Flight.Breaks`: a write that fails on such a stream.

## Main results

* `SessionOver.Suits.isOpen`: a session that suits is open until the run is stopped.
* `SessionOver.Suits.offer`: a write leaves a session that suits, or closes it for good.
-/

namespace Volley

/-- Whether a run has a stream that no supervisor opens again: `stream` and `mixed`. -/
def Scenario.Transport.isBare : Scenario.Transport → Bool
  | stream => true
  | supervised => false
  | datagram => false
  | mixed => true

theorem Scenario.Transport.isBare_iff {transport : Scenario.Transport} :
    transport.isBare = true ↔ transport = .stream ∨ transport = .mixed := by
  cases transport <;> decide

/-- If the shape of a step is `.split cut`, the `cut` is strictly inside the bytes of the flight. -/
def Run.Flight.CutInside (flight : Run.Flight) : Prop :=
  ∀ cut, flight.step.shape = .split cut → 0 < cut ∧ cut < flight.bytes.length

variable {ω : Type} [Writer ω]

/-! ## Streams -/

namespace StreamSession

/-- After a `write` on an open `StreamSession` the session is open exactly if the `reply` is
`.ok ()`. -/
theorem isOpen_of_write {session next : StreamSession ω} {bytes : Bytes} {clock later : Clock}
    {reply : Reply} (hopen : session.isOpen = true)
    (h : session.write bytes clock = (reply, later, next)) : next.isOpen = reply.isOk := by
  cases reply with
  | ok => exact isOpen_of_write_ok hopen h
  | error e =>
    rw [write, hopen] at h
    simp only [Bool.not_true, Bool.false_eq_true, if_false] at h
    split at h
    · cases h
      rfl
    · split at h
      · cases h
        rfl
      · cases h

/-- The same holds of `Run.Flight.offer`, also in two parts, if the flight has its `CutInside`. -/
theorem isOpen_of_offer {session next : StreamSession ω} {flight : Run.Flight} {clock later : Clock}
    {reply : Reply} (hopen : session.isOpen = true) (hcut : flight.CutInside)
    (h : flight.offer clock session = (reply, later, next)) : next.isOpen = reply.isOk := by
  by_cases hsplit : ∃ cut, flight.step.shape = .split cut
  · obtain ⟨cut, hshape⟩ := hsplit
    rw [Run.Flight.offer_of_split hshape] at h
    replace h : sendInTwo write flight.bytes cut clock session = (reply, later, next) := h
    rw [sendInTwo, splitAtCut, if_pos (hcut cut hshape)] at h
    simp only at h
    split at h
    · next hhead =>
      have hhalf := isOpen_of_write hopen hhead
      exact isOpen_of_write hhalf h
    · next hhead =>
      cases h
      exact isOpen_of_write hopen hhead
  · rw [Run.Flight.offer_of_ne_split fun cut hshape => hsplit ⟨cut, hshape⟩] at h
    exact isOpen_of_write hopen h

end StreamSession

/-! ## Supervisors -/

namespace Supervisor

variable {σ : Type}

theorem listens_of_beginAttempt {clock later : Clock} {supervisor next : Supervisor σ}
    (h : supervisor.beginAttempt clock = (some next, later)) :
    next.listens = supervisor.listens := by
  unfold beginAttempt at h
  split at h
  · split at h
    · cases h
      rfl
    · cases h
  · cases h
    rfl

theorem listens_of_attempt {clock later : Clock} {supervisor next : Supervisor σ} {success : Bool}
    (h : supervisor.attempt clock = (success, later, next)) :
    next.listens = supervisor.listens := by
  unfold attempt at h
  simp only at h
  split at h
  · cases h
    rfl
  · cases h
    rfl

variable [Sink σ]

theorem listens_ensureConnected (clock : Clock) (supervisor : Supervisor σ) :
    (supervisor.ensureConnected clock).2.2.listens = supervisor.listens := by
  fun_induction ensureConnected clock supervisor with
  | case1 => rfl
  | case2 => rfl
  | case3 => rfl
  | case4 clock supervisor _ _ begun _ hbegin _ next hattempt =>
    exact (listens_of_attempt hattempt).trans (listens_of_beginAttempt hbegin)
  | case5 clock supervisor _ _ begun _ hbegin _ next hattempt _ ih =>
    exact ih.trans ((listens_of_attempt hattempt).trans (listens_of_beginAttempt hbegin))

/-- A `submit` leaves `listens` as it is. -/
theorem listens_submit (inStep : TransportError → Bool)
    (submission : Clock → σ → Reply × Clock × σ) (clock : Clock) (supervisor : Supervisor σ) :
    (supervisor.submit inStep submission clock).2.2.listens = supervisor.listens := by
  have hensured := supervisor.listens_ensureConnected clock
  unfold submit
  split
  · next hensure =>
    rw [hensure] at hensured
    exact hensured
  · next later held hensure =>
    rw [hensure] at hensured
    split
    · exact hensured
    · next session hsession =>
      rcases submission later session with ⟨reply, after, left⟩
      cases reply with
      | ok => exact hensured
      | error e =>
        simp only
        split
        · exact hensured
        · exact hensured

end Supervisor

/-! ## Pairs -/

namespace Mixed

variable {σ δ : Type}

/-- Whether a flight goes to the `stream` of a pair: one of shape `.split` does, and any other if
`pair.sends` is even. -/
def sendsToStream (flight : Run.Flight) (pair : Mixed σ δ) : Bool :=
  match flight.step.shape with
  | .split _ => true
  | _ => pair.sends % 2 = 0

/-- A flight that `sendsToStream` is offered to `pair.stream`; any other leaves `pair.stream` as it
is. -/
theorem stream_of_offer [Sink σ] [Sink δ] {flight : Run.Flight} {clock later : Clock}
    {pair next : Mixed σ δ} {reply : Reply} (h : flight.offer clock pair = (reply, later, next)) :
    if pair.sendsToStream flight then
      flight.offer clock pair.stream = (reply, later, next.stream)
    else next.stream = pair.stream := by
  unfold sendsToStream
  by_cases hsplit : ∃ cut, flight.step.shape = .split cut
  · obtain ⟨cut, hshape⟩ := hsplit
    rw [Run.Flight.offer_of_split hshape] at h ⊢
    cases h
    simp only [hshape, if_true]
    rfl
  · have hwhole : ∀ cut, flight.step.shape ≠ .split cut := fun cut hshape => hsplit ⟨cut, hshape⟩
    rw [Run.Flight.offer_of_ne_split hwhole] at h ⊢
    -- A write in one piece goes by turns.
    replace h : send flight.bytes clock pair = (reply, later, next) := h
    rw [send] at h
    split
    · next cut hshape => exact absurd hshape (hwhole cut)
    · simp only [decide_eq_true_eq]
      split at h
      · next heven =>
        cases h
        rw [if_pos heven]
        rfl
      · next hodd =>
        cases h
        rw [if_neg hodd]

end Mixed

/-! ## Sessions -/

/-- Whether a flight goes to the stream of a `SessionOver`; in a `mixed` pair `sendsToStream`
decides. -/
def Run.Flight.usesStream (flight : Run.Flight) : SessionOver ω → Bool
  | .stream _ => true
  | .supervised _ => true
  | .datagram _ => false
  | .mixed pair => pair.sendsToStream flight

/-- A `reply` that is an error, to a flight that `usesStream`, over a transport that `isBare`:
nobody opens that stream again. -/
structure Run.Flight.Breaks (flight : Run.Flight) (transport : Scenario.Transport)
    (session : SessionOver ω) (reply : Reply) : Prop where
  bare : transport.isBare = true
  stream : flight.usesStream session = true
  failed : reply.isOk = false

omit [Writer ω] in
/-- Where the transport `isBare` and the flight `usesStream`, it `Breaks` the stream exactly if the
`reply` is an error. -/
theorem Run.Flight.breaks_iff {flight : Run.Flight} {transport : Scenario.Transport}
    {session : SessionOver ω} {reply : Reply} (hbare : transport.isBare = true)
    (hstream : flight.usesStream session = true) :
    flight.Breaks transport session reply ↔ reply.isOk = false :=
  ⟨Breaks.failed, fun hfailed => ⟨hbare, hstream, hfailed⟩⟩

namespace SessionOver

/-- The session is of the kind that `transport` asks for. Its stream is open, or it has a supervisor
that `listens` to the stop signal. -/
def Suits (transport : Scenario.Transport) : SessionOver ω → Prop
  | .stream session => transport = .stream ∧ session.isOpen = true
  | .supervised supervisor => transport = .supervised ∧ supervisor.listens = true
  | .datagram _ => transport = .datagram
  | .mixed pair => transport = .mixed ∧ pair.stream.isOpen = true

/-- The `reply` of a session to a flight is that of the sink it wraps, `lift`ed. -/
theorem offer_eq_lift {σ : Type} [Sink σ] (wrap : σ → SessionOver ω)
    (hsend : ∀ bytes clock sink, Sink.send bytes clock (wrap sink) =
      lift wrap (Sink.send bytes clock sink))
    (hsplit : ∀ bytes cut clock sink, Sink.sendSplit bytes cut clock (wrap sink) =
      lift wrap (Sink.sendSplit bytes cut clock sink))
    (flight : Run.Flight) (clock : Clock) (sink : σ) :
    flight.offer clock (wrap sink) = lift wrap (flight.offer clock sink) := by
  unfold Run.Flight.offer
  split
  · exact hsplit _ _ _ _
  · exact hsend _ _ _

namespace Suits

variable {transport : Scenario.Transport} {session left : SessionOver ω} {flight : Run.Flight}
  {clock done : Clock} {reply : Reply}

/-- A session that `Suits` is open until the clock is `stopped`. -/
theorem isOpen (h : session.Suits transport) (hclock : clock.stopped = false) :
    Sink.isOpen clock session = true := by
  cases session with
  | stream session => exact h.2
  | supervised supervisor =>
    show (!(supervisor.listens && clock.stopped)) = true
    rw [hclock, Bool.and_false]
    rfl
  | datagram session => rfl
  | mixed pair =>
    show (pair.stream.isOpen && true) = true
    rw [h.2]
    rfl

/-- A flight that `Breaks` the stream of a session closes the session for good. Any other, also one
that fails, leaves a session that `Suits`. -/
theorem offer (h : session.Suits transport) (hcut : flight.CutInside)
    (hoffer : flight.offer clock session = (reply, done, left)) :
    (flight.Breaks transport session reply → ∀ later : Clock, Sink.isOpen later left = false) ∧
      (¬ flight.Breaks transport session reply → left.Suits transport) := by
  cases session with
  | stream session =>
    obtain ⟨rfl, hopen⟩ := h
    rw [offer_eq_lift .stream (fun _ _ _ => rfl) (fun _ _ _ _ => rfl)] at hoffer
    cases hanswer : flight.offer clock session with
    | mk answer rest =>
      obtain ⟨moment, next⟩ := rest
      rw [hanswer] at hoffer
      cases hoffer
      rw [Run.Flight.breaks_iff rfl rfl, ← StreamSession.isOpen_of_offer hopen hcut hanswer,
        Bool.not_eq_false]
      exact ⟨fun hclosed _ => hclosed, fun hstill => ⟨rfl, hstill⟩⟩
  | supervised supervisor =>
    obtain ⟨rfl, hlistens⟩ := h
    rw [offer_eq_lift .supervised (fun _ _ _ => rfl) (fun _ _ _ _ => rfl),
      Run.Flight.offer_supervisor] at hoffer
    cases hoffer
    refine ⟨fun hbreaks => absurd hbreaks.bare (by decide), fun _ => ⟨rfl, ?_⟩⟩
    rw [Supervisor.listens_submit]
    exact hlistens
  | datagram session =>
    cases h
    rw [offer_eq_lift .datagram (fun _ _ _ => rfl) (fun _ _ _ _ => rfl)] at hoffer
    cases hoffer
    exact ⟨fun hbreaks => absurd hbreaks.bare (by decide), fun _ => rfl⟩
  | mixed pair =>
    obtain ⟨rfl, hopen⟩ := h
    rw [offer_eq_lift .mixed (fun _ _ _ => rfl) (fun _ _ _ _ => rfl)] at hoffer
    cases hanswer : flight.offer clock pair with
    | mk answer rest =>
      obtain ⟨moment, next⟩ := rest
      rw [hanswer] at hoffer
      cases hoffer
      have hstream := Mixed.stream_of_offer hanswer
      cases huses : pair.sendsToStream flight with
      | true =>
        rw [huses, if_pos rfl] at hstream
        have hbreaks : flight.Breaks .mixed (.mixed pair) answer ↔ answer.isOk = false :=
          Run.Flight.breaks_iff rfl huses
        rw [hbreaks, ← StreamSession.isOpen_of_offer hopen hcut hstream, Bool.not_eq_false]
        refine ⟨fun hclosed later => ?_, fun hstill => ⟨rfl, hstill⟩⟩
        -- Half a pair is not enough for the pair to be open.
        show (next.stream.isOpen && true) = false
        rw [hclosed]
        rfl
      | false =>
        rw [huses, if_neg Bool.false_ne_true] at hstream
        refine ⟨fun hbreaks => ?_, fun _ => ⟨rfl, hstream ▸ hopen⟩⟩
        have hturn := hbreaks.stream
        rw [Run.Flight.usesStream, huses] at hturn
        cases hturn

end Suits

end SessionOver

end Volley
