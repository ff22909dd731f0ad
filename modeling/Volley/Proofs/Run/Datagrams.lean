import Volley.Proofs.Run.Unstopped
import Volley.Sink.Datagram

/-!
# Datagram runs

A session without a connection is open whatever becomes of a datagram, so a run over it makes all
its writes. A scenario over datagrams has one frame in each write, and a frame that does not fit a
datagram is refused before anything is sent. If all other datagrams are taken, what is sent is the
frames that fit, in the order of the plan, wherever the others stand among them.

## Main definitions

* `Event.fitsDatagram`: the frame of an event fits one datagram.
* `Route.TakesAll`: every datagram that is offered is taken.
* `DatagramSession.Sorted`: what a session has sent, over the answers that it gave.

## Main results

* `DatagramSession.send_eq`: what becomes of one datagram.
* `Run.keeps_sorted`: every write is sent or refused for its size.
* `Run.datagrams_carry_what_fits`: what a datagram run sends and counts.
-/

namespace Volley

/-- The frame of an event is within `maxDatagramSize`. -/
def Event.fitsDatagram (event : Event) : Bool :=
  event.encodedLength ≤ Frame.maxDatagramSize

/-- Every datagram that is offered is taken: no answer of the route is an error. -/
structure Route.TakesAll (route : Route) : Prop where
  answers : ∀ answer ∈ route.answers, answer = none
  otherwise : route.otherwise = none

theorem Route.TakesAll.next {route : Route} (h : route.TakesAll) :
    ∃ later, route.next = (none, later) ∧ later.TakesAll := by
  obtain ⟨answers, otherwise⟩ := route
  cases answers with
  | nil =>
    have hnone : otherwise = none := h.otherwise
    refine ⟨⟨[], otherwise⟩, ?_, h⟩
    rw [hnone]
    rfl
  | cons answer answers =>
    obtain ⟨hanswer, hrest⟩ := List.forall_mem_cons.mp h.answers
    exact ⟨⟨answers, otherwise⟩, congrArg (·, _) hanswer, hrest, h.otherwise⟩

namespace DatagramSession

/-- A datagram beyond `maxDatagramSize` is refused, and nothing comes of it. Any other is sent. -/
theorem send_eq {session : DatagramSession} (h : session.route.TakesAll) (bytes : Bytes)
    (clock : Clock) :
    (Frame.maxDatagramSize < bytes.length ∧
      Sink.send bytes clock session = (.error (.datagramTooLarge bytes.length), clock, session)) ∨
    (bytes.length ≤ Frame.maxDatagramSize ∧ ∃ left,
      Sink.send bytes clock session = (.ok (), clock, left) ∧ left.route.TakesAll ∧
        left.datagrams = session.datagrams ++ [bytes]) := by
  by_cases hlarge : bytes.length > Frame.maxDatagramSize
  · exact Or.inl ⟨hlarge, if_pos hlarge⟩
  · obtain ⟨route, hnext, hroute⟩ := h.next
    refine Or.inr ⟨Nat.not_lt.mp hlarge, ⟨route, bytes :: session.log⟩, ?_, hroute, ?_⟩
    · show DatagramSession.send bytes clock session = _
      simp only [DatagramSession.send, if_neg hlarge, hnext]
    · exact List.reverse_cons

/-- A session has answered every write by its size, and `datagrams` has what it has taken. -/
structure Sorted (landings : List Run.Landing) (session : DatagramSession) : Prop where
  takesAll : session.route.TakesAll
  isOk_iff : ∀ landing ∈ landings,
    (landing.reply.isOk = true ↔ landing.flight.bytes.length ≤ Frame.maxDatagramSize)
  datagrams_eq : session.datagrams =
    (landings.filter fun landing => landing.reply.isOk).map fun landing => landing.flight.bytes

/-- A new session is `Sorted`, and has sent nothing. -/
theorem sorted_new {route : Route} (h : route.TakesAll) : Sorted [] (new route) :=
  ⟨h, List.forall_mem_nil _, rfl⟩

/-- A session that is `Sorted` is so after one `landing` more. -/
theorem Sorted.concat {landings : List Run.Landing} {session left : DatagramSession}
    {landing : Run.Landing} (h : Sorted landings session) (htakes : left.route.TakesAll)
    (hok : landing.reply.isOk = true ↔ landing.flight.bytes.length ≤ Frame.maxDatagramSize)
    (hsent : left.datagrams = session.datagrams ++
      if landing.reply.isOk then [landing.flight.bytes] else []) :
    Sorted (landings ++ [landing]) left := by
  refine ⟨htakes, ?_, ?_⟩
  · intro other hother
    rcases List.mem_append.mp hother with hother | hother
    · exact h.isOk_iff other hother
    · rw [List.mem_singleton.mp hother]
      exact hok
  · rw [hsent, h.datagrams_eq, List.filter_append, List.map_append, List.filter_singleton]
    cases landing.reply.isOk <;> rfl

end DatagramSession

namespace Run

/-- Every write of a single event keeps the session `Sorted`. -/
theorem keeps_sorted (events : List Event) :
    Keeps (events.map Step.alone) DatagramSession.Sorted := by
  intro landings flight rest plan reply clock later session left htrail hbytes _ hsorted hoffer _
  rw [(htrail.land hbytes reply true).offer_eq_send] at hoffer
  rcases DatagramSession.send_eq hsorted.takesAll flight.bytes clock with
    ⟨hlarge, hsend⟩ | ⟨hsmall, sent, hsend, htakes, hdatagrams⟩
  · -- The session is the same as before the write.
    cases hsend.symm.trans hoffer
    refine hsorted.concat hsorted.takesAll ?_ (List.append_nil _).symm
    exact iff_of_false Bool.false_ne_true (Nat.not_le_of_lt hlarge)
  · cases hsend.symm.trans hoffer
    exact hsorted.concat htakes (iff_of_true rfl hsmall) hdatagrams

/-- A scenario over datagrams, if the route `TakesAll` and nobody raises the stop signal. The run is
`completed`. The `datagrams` are the encodings of the events of which `fitsDatagram` holds, one each
and in the order of the plan, and `Frame.parse` reads each as its event. Their number is counted as
`sent`, and the number of the other events as `errors`; of these there is nothing in any datagram.
-/
theorem datagrams_carry_what_fits {spec : Scenario.Spec} {timestamps : Nat → Int}
    {writes : List Step} {route : Route} {clock : Clock} (hvalid : spec.validate = .ok ())
    (htransport : spec.transport = .datagram)
    (hyields : (Plan.start spec timestamps).Yields writes) (hroute : route.TakesAll)
    (hclock : clock.stopAt = none) :
    ∃ later final,
      scenario spec timestamps (DatagramSession.new route) clock =
        (.ok .completed, later, final) ∧
      final.progress.attempted = spec.count ∧
      List.Forall₂ (fun event datagram => event.encode = .ok datagram ∧
          Frame.parse datagram = .ok event.frame)
        ((writes.flatMap Step.events).filter Event.fitsDatagram) final.sink.datagrams ∧
      final.progress.sent.toNat =
        ((writes.flatMap Step.events).filter Event.fitsDatagram).length ∧
      final.progress.errors.toNat =
        ((writes.flatMap Step.events).filter fun event => !event.fitsDatagram).length := by
  have hstream : spec.transport.isStream = false := by
    rw [htransport]
    rfl
  have hcount : eventCount writes = spec.count.toNat := by
    rw [← remaining_eq_eventCount hyields, Plan.remaining_start]
  have halone := hyields.eq_map_alone (Scenario.Spec.ne_fragmented hvalid hstream)
  generalize writes.flatMap Step.events = events at halone ⊢
  subst halone
  obtain ⟨ending, later, final, hrun, hfinished⟩ := exists_finished_scenario hyields
    (keeps_sorted events) (DatagramSession.sorted_new hroute) hclock
  cases hfinished with
  | transportFailed _ _ _ _ _ hlost =>
    -- A session without a connection is always open.
    cases hlost
  | @completed landings left trail tally hsorted hclosed =>
    obtain ⟨hattempted, hsent, herrors⟩ := trail.counts tally hcount
    have hcarries := trail.carries
    have hall : landings.length = events.length := trail.length_add_eventCount
    rw [hall, List.take_length] at hcarries
    -- An event fits exactly if its write was taken.
    have hpairs : List.Forall₂ (fun landing event => Landing.Carries landing event ∧
        landing.reply.isOk = event.fitsDatagram) landings events := by
      have hboth := (List.forall₂_and_left _ _).mpr ⟨hsorted.isOk_iff, hcarries⟩
      refine hboth.imp ?_
      rintro landing event ⟨hok, hcarries⟩
      refine ⟨hcarries, ?_⟩
      rw [Event.length_of_encode hcarries.encode_eq] at hok
      rw [Bool.eq_iff_iff, hok, Event.fitsDatagram, decide_eq_true_iff]
    have htaken := List.rel_filter (p := fun landing => landing.reply.isOk)
      (q := Event.fitsDatagram) (fun _ _ h => Bool.eq_iff_iff.mp h.2) hpairs
    have hrefused := List.rel_filter (p := fun landing => !landing.reply.isOk)
      (q := fun event => !event.fitsDatagram)
      (fun _ _ h => Bool.eq_iff_iff.mp (congrArg (!·) h.2)) hpairs
    refine ⟨later, final, hrun, hattempted, ?_, ?_, ?_⟩
    · have hsink : final.sink = left := hclosed
      apply List.Forall₂.flip
      rw [hsink, hsorted.datagrams_eq, List.forall₂_map_left_iff]
      refine htaken.imp ?_
      rintro landing event ⟨hcarries, -⟩
      exact ⟨hcarries.encode_eq, Frame.parse_eq_ok_iff.mpr hcarries.encode_eq⟩
    · rw [hsent, trail.eventCount_taken, taken, List.length_map, htaken.length_eq]
    · rw [herrors, trail.eventCount_refused, refused, List.length_map, hrefused.length_eq]
      rfl

/-- Twelve events of a `.chaos` run, with payloads that are short or leave no room for a header in a
datagram. -/
theorem datagrams_carry_what_fits_mixed_sizes :
    ∃ (spec : Scenario.Spec) (writes : List Step) (later : Clock) (final : Run DatagramSession),
      spec = ⟨"chaos", .chaos, .datagram, 12, ⟨[40, 65507], by decide⟩, .load, 7, .zero, 0⟩ ∧
      (Plan.start spec fun _ => 0).Yields writes ∧ Route.clear.TakesAll ∧
      scenario spec (fun _ => 0) (DatagramSession.new .clear) .start =
        (.ok .completed, later, final) ∧
      final.progress.attempted = 12 ∧
      List.Forall₂ (fun event datagram => event.encode = .ok datagram ∧
          Frame.parse datagram = .ok event.frame)
        ((writes.flatMap Step.events).filter Event.fitsDatagram) final.sink.datagrams := by
  let spec : Scenario.Spec :=
    ⟨"chaos", .chaos, .datagram, 12, ⟨[40, 65507], by decide⟩, .load, 7, .zero, 0⟩
  have hroomy : spec.Roomy := by
    intro size hsize
    have hall : ∀ size ∈ [(40 : UInt64), 65507],
        Frame.bodyHeaderSize + Frame.maxTopicSize + size.toNat ≤ Frame.maxBodySize :=
      List.forall_mem_cons.mpr ⟨by decide, List.forall_mem_singleton.mpr (by decide)⟩
    exact hall size hsize
  have hvalid : spec.validate = .ok () := rfl
  have hclear : Route.clear.TakesAll := ⟨List.forall_mem_nil _, rfl⟩
  have hclock : Clock.start.stopAt = none := rfl
  obtain ⟨writes, hyields⟩ := Plan.exists_yields hroomy fun _ => 0
  obtain ⟨later, final, hrun, hattempted, hsent, -⟩ :=
    datagrams_carry_what_fits hvalid rfl hyields hclear hclock
  exact ⟨spec, writes, later, final, rfl, hyields, hclear, hrun, hattempted, hsent⟩

end Run

end Volley
