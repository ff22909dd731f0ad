import Volley.Proofs.Run.Recording
import Volley.Proofs.Run.Unstopped
import Volley.Proofs.Sink.Pairs

/-!
# Mixed runs

A scenario over a pair of sinks has one event in each write, so the place of an event in the plan
decides which of the two sinks it is offered to, whatever became of the events before. The run ends
early only if the pair is not open after a failure. If the datagram sink always stays open, it is
the stream that ends it.

## Main definitions

* `Run.framesOf`: the frames of the answered writes.
* `Run.Alternates`: a pair in the middle of a run.

## Main results

* `Run.keeps_alternates`: every write after which the run goes on keeps the turns.
* `Run.mixed_runs_split_by_parity`: what the sinks of a pair are offered, and how the run ends.
-/

namespace Volley

/-! ## Recorders -/

/-- A recorder that plays a stream is `Playing` as long as it has been offered no more than
`failAfter` writes. -/
theorem Recorder.playing_of_offered {failAfter : Option Nat} {done : List Bytes} {left : Recorder}
    (h : Sink.Offered (new .stream failAfter) done left) (hle : ∀ n ∈ failAfter, done.length ≤ n) :
    left.Playing ∧ left.failAfter = failAfter ∧ left.attempts = done.length := by
  induction h with
  | nothing => exact ⟨⟨rfl, rfl⟩, rfl, rfl⟩
  | @concat frames frame before left clock later reply earlier running sent ih =>
    have hlt : ∀ n ∈ failAfter, frames.length < n := by
      intro n hn
      have hlength := hle n hn
      rwa [List.length_append] at hlength
    obtain ⟨hplaying, hfail, hattempts⟩ := ih fun n hn => Nat.le_of_lt (hlt n hn)
    have hne : before.failAfter ≠ some before.attempts := by
      rw [hfail, hattempts]
      exact fun heq => Nat.lt_irrefl _ (hlt _ heq)
    obtain ⟨next, hsend, hnext, hfail', hattempts', -⟩ := send_of_ne hplaying hne frame clock
    cases hsend.symm.trans sent
    refine ⟨hnext, hfail'.trans hfail, ?_⟩
    rw [hattempts', hattempts, List.length_append]
    rfl

/-- A recorder that plays a stream breaks at the write number `failAfter`. -/
theorem Recorder.breaksAt (failAfter : Option Nat) (frames : List Bytes) :
    Sink.BreaksAt failAfter frames (new .stream failAfter) := by
  refine ⟨fun h _ hle _ _ => (playing_of_offered h hle).1.isOpen, ?_, ?_⟩
  · intro done frame left h _ hlt clock _
    obtain ⟨hplaying, hfail, hattempts⟩ := playing_of_offered h fun n hn => Nat.le_of_lt (hlt n hn)
    have hne : left.failAfter ≠ some left.attempts := by
      rw [hfail, hattempts]
      exact fun heq => Nat.lt_irrefl _ (hlt _ heq)
    obtain ⟨next, hsend, -⟩ := send_of_ne hplaying hne frame clock
    exact congrArg Prod.fst hsend
  · intro done frame left h _ heq clock _
    have hle : ∀ n ∈ failAfter, done.length ≤ n := by
      intro n hn
      cases heq.symm.trans hn
      exact Nat.le_refl _
    obtain ⟨hplaying, hfail, hattempts⟩ := playing_of_offered h hle
    have hlast : left.failAfter = some left.attempts := by rw [hfail, hattempts, heq]
    obtain ⟨closed, hsend, hclosed, -⟩ := send_of_eq hplaying hlast frame clock
    exact ⟨_, clock, closed, hsend, hclosed⟩

/-- A recorder that plays datagrams is open whatever `failAfter` says. -/
theorem Recorder.staysOpen (failAfter : Option Nat) (frames : List Bytes) :
    Sink.StaysOpen frames (new .datagram failAfter) := by
  rintro done left h - clock -
  have hboth : left.wire = .datagram ∧ left.isOpen = true := by
    induction h with
    | nothing => exact ⟨rfl, rfl⟩
    | @concat frames frame before left moment later reply _ _ sent ih =>
      obtain ⟨hwire, hopen⟩ := ih
      replace sent : before.send frame moment = (reply, later, left) := sent
      rw [send, hopen, hwire] at sent
      simp only [Bool.not_true, Bool.false_eq_true, if_false] at sent
      split at sent
      · cases sent
        exact ⟨rfl, rfl⟩
      · cases sent
        exact ⟨rfl, rfl⟩
  exact hboth.2

/-! ## Runs over a pair -/

namespace Run

/-- The frames of the answered writes, one for each of the `landings`. -/
def framesOf (landings : List Landing) : List Bytes :=
  landings.map fun landing => landing.flight.bytes

theorem framesOf_concat (landings : List Landing) (flight : Flight) (reply : Reply)
    (isOpen : Bool) :
    framesOf (landings ++ [⟨flight, reply, isOpen⟩]) = framesOf landings ++ [flight.bytes] := by
  simp [framesOf]

theorem length_refused_concat (landings : List Landing) (flight : Flight) (reply : Reply)
    (isOpen : Bool) :
    (refused (landings ++ [⟨flight, reply, isOpen⟩])).length =
      (refused landings).length + if reply.isOk then 0 else 1 := by
  cases hreply : reply.isOk <;> simp [refused, hreply]

/-- The events of a plan that can be encoded have their frames. -/
theorem exists_frames {events : List Event}
    (h : ∀ event ∈ events, ∃ bytes, event.encode = .ok bytes) :
    ∃ frames : List Bytes, events.map Event.encode = frames.map .ok := by
  induction events with
  | nil => exact ⟨[], rfl⟩
  | cons event rest ih =>
    obtain ⟨hevent, hrest⟩ := List.forall_mem_cons.mp h
    obtain ⟨frame, hframe⟩ := hevent
    obtain ⟨frames, hframes⟩ := ih hrest
    exact ⟨frame :: frames, by rw [List.map_cons, List.map_cons, hframe, hframes]⟩

/-- If events go out one by one, `framesOf` the answered writes are the first `frames` of the plan.
-/
theorem Trail.framesOf_eq {events : List Event} {frames : List Bytes} {landings : List Landing}
    {rest : List Step} {plan : Plan} (h : Trail (events.map Step.alone) landings [] rest plan)
    (hframes : events.map Event.encode = frames.map .ok) :
    framesOf landings = frames.take landings.length := by
  have hcarries : (events.take landings.length).map Event.encode =
      (framesOf landings).map .ok := by
    rw [framesOf, List.map_map, ← List.forall₂_eq_eq_eq, List.forall₂_map_left_iff,
      List.forall₂_map_right_iff]
    apply List.Forall₂.flip
    exact h.carries.imp fun _ _ hcarries => hcarries.encode_eq
  rw [List.map_take, hframes, ← List.map_take] at hcarries
  exact (List.map_injective_iff.mpr (fun _ _ => Except.ok.inj) hcarries).symm

theorem Trail.prefix_frames {events : List Event} {frames : List Bytes} {landings : List Landing}
    {flight : Flight} {reply : Reply} {isOpen : Bool} {rest : List Step} {plan : Plan}
    (h : Trail (events.map Step.alone) (landings ++ [⟨flight, reply, isOpen⟩]) [] rest plan)
    (hframes : events.map Event.encode = frames.map .ok) :
    framesOf landings ++ [flight.bytes] <+: frames := by
  rw [← framesOf_concat, h.framesOf_eq hframes]
  exact List.take_prefix _ _

section Mixed

variable {σ δ : Type} [Sink σ] [Sink δ] {stream : σ} {datagram : δ} {failAt : Option Nat}
  {events : List Event} {frames : List Bytes}

/-- A pair in the middle of a run has been offered `framesOf` the answered writes, and the writes
that were `refused` are those that failed as datagrams. -/
structure Alternates (stream : σ) (datagram : δ) (failAt : Option Nat) (landings : List Landing)
    (pair : Mixed (Logged σ) (Logged δ)) : Prop where
  follows : Mixed.Follows stream datagram failAt (framesOf landings) pair
  failures : pair.datagram.failures = (refused landings).length

variable [Sink.Punctual σ] [Sink.Punctual δ]

/-- Every write after which the run goes on keeps the pair such that it `Alternates`. -/
theorem keeps_alternates (hframes : events.map Event.encode = frames.map .ok)
    (hstream : Sink.BreaksAt failAt (everySecond frames) stream)
    (hdatagram : Sink.StaysOpen (everySecond frames.tail) datagram) :
    Keeps (events.map Step.alone) (Alternates stream datagram failAt) := by
  intro landings flight rest plan reply clock later pair left htrail hbytes hclock halternates
    hoffer hgoes
  have hlanded := htrail.land hbytes reply (Sink.isOpen later left)
  rw [hlanded.offer_eq_send] at hoffer
  rcases halternates.follows.send hstream hdatagram (hlanded.prefix_frames hframes) hclock hoffer
    with ⟨-, hfollows, hfailures⟩ | ⟨hfailed, hclosed, -⟩
  · refine ⟨?_, ?_⟩
    · rw [framesOf_concat]
      exact hfollows
    · rw [hfailures, halternates.failures, length_refused_concat]
  · -- The run does not go on after the write that breaks the stream.
    rw [hfailed, hclosed] at hgoes
    simp at hgoes

/-- What a mixed run that is `Finished` leaves, if its stream breaks and if it does not. -/
theorem Finished.mixed {count : UInt64} {ending : Ending}
    {final : Run (Mixed (Logged σ) (Logged δ))}
    (h : Finished (Alternates stream datagram failAt) (events.map Step.alone) final ending)
    (hframes : events.map Event.encode = frames.map .ok)
    (hstream : Sink.BreaksAt failAt (everySecond frames) stream)
    (hdatagram : Sink.StaysOpen (everySecond frames.tail) datagram)
    (hcount : events.length = count.toNat) :
    final.progress.attempted = count ∧
    ((∃ n, failAt = some n ∧ 2 * n < count.toNat ∧ ending = .transportFailed ∧
        Mixed.Dealt (frames.take (2 * n + 1)) final.sink ∧
        final.progress.errors.toNat = count.toNat - 2 * n + final.sink.datagram.failures) ∨
      ((∀ n, failAt = some n → count.toNat ≤ 2 * n) ∧ ending = .completed ∧
        Mixed.Dealt frames final.sink ∧
        final.progress.errors.toNat = final.sink.datagram.failures)) := by
  have hevents : eventCount (events.map Step.alone) = count.toNat := by
    rw [eventCount, Step.flatMap_events_alone, hcount]
  have hlength : frames.length = events.length := by
    simpa using (congrArg List.length hframes).symm
  cases h with
  | @completed landings left trail tally kept closed =>
    obtain ⟨hattempted, -, herrors⟩ := trail.counts tally hevents
    have hall : landings.length = events.length := trail.length_add_eventCount
    have hdone : framesOf landings = frames := by
      rw [trail.framesOf_eq hframes, hall, ← hlength, List.take_length]
    have hkept := kept.follows
    rw [hdone] at hkept
    -- All frames have been dealt, so the stream has had its half of them without breaking.
    refine ⟨hattempted, Or.inr ⟨fun n hn => ?_, rfl, ?_, ?_⟩⟩
    · have hunbroken := hkept.unbroken n hn
      rw [length_everySecond] at hunbroken
      omega
    · rw [closed]
      exact hkept.dealt.close
    · rw [herrors, trail.eventCount_refused, closed]
      show _ = (Sink.close left.datagram).failures
      rw [Logged.failures_close, kept.failures]
      rfl
  | @transportFailed landings lost flight e clock later before left trail tally kept running failed
      hlost closed =>
    rw [trail.offer_eq_send] at failed
    have hfront := trail.prefix_frames hframes
    rcases kept.follows.send hstream hdatagram hfront running failed with
      ⟨hopen, -⟩ | ⟨-, -, ⟨n, hn, hplace⟩, hdealt, hfailures⟩
    · -- The pair is open after every other write.
      rw [hlost] at hopen
      cases hopen
    obtain ⟨hattempted, -, herrors⟩ := trail.counts tally hevents
    -- The frame that broke the stream is the last one that was dealt.
    have hframesOf := trail.framesOf_eq hframes
    rw [framesOf_concat] at hframesOf
    have hlanded : landings.length = 2 * n := by
      rwa [framesOf, List.length_map] at hplace
    have hmade : (landings ++ [Landing.mk flight (.error e) false]).length = 2 * n + 1 := by
      rw [List.length_append, hlanded]
      rfl
    have hrest : 2 * n + 1 + eventCount lost = count.toNat := by
      rw [← hmade, trail.length_add_eventCount, hcount]
    refine ⟨hattempted, Or.inl ⟨n, hn, by omega, rfl, ?_, ?_⟩⟩
    · rw [closed, ← hmade, ← hframesOf]
      exact hdealt.close
    · rw [herrors, trail.eventCount_refused, length_refused_concat, closed]
      show _ = _ + (Sink.close left.datagram).failures
      rw [Logged.failures_close, hfailures, kept.failures]
      show _ + 1 + _ = _
      omega

/-- A scenario over a pair of sinks, one of them a stream and the other open whatever happens, if
nobody raises the stop signal. The `frames` of the plan are offered to the two sinks by turns, those
at the even places to the stream, and each sink is offered its share in the order of the plan. If
`failAt` says that the stream breaks at its `n`-th write, the frame at the place `2 * n` is the last
that is offered, the run ends as `transportFailed`, and all events from there on count in `errors`.
Otherwise it ends as `completed`. -/
theorem mixed_runs_split_by_parity {spec : Scenario.Spec} {timestamps : Nat → Int}
    {writes : List Step} {clock : Clock} (hvalid : spec.validate = .ok ())
    (htransport : spec.transport = .mixed) (hyields : (Plan.start spec timestamps).Yields writes)
    (hframes : (writes.flatMap Step.events).map Event.encode = frames.map .ok)
    (hstream : Sink.BreaksAt failAt (everySecond frames) stream)
    (hdatagram : Sink.StaysOpen (everySecond frames.tail) datagram)
    (hclock : clock.stopAt = none) :
    ∃ ending later final,
      scenario spec timestamps (Mixed.new (Logged.new stream) (Logged.new datagram)) clock =
        (.ok ending, later, final) ∧
      scenario spec timestamps (Mixed.new stream datagram) clock =
        (.ok ending, later, final.map Mixed.unlogged) ∧
      final.progress.attempted = spec.count ∧
      ((∃ n, failAt = some n ∧ 2 * n < spec.count.toNat ∧ ending = .transportFailed ∧
          Mixed.Dealt (frames.take (2 * n + 1)) final.sink ∧
          final.progress.errors.toNat =
            spec.count.toNat - 2 * n + final.sink.datagram.failures) ∨
        ((∀ n, failAt = some n → spec.count.toNat ≤ 2 * n) ∧ ending = .completed ∧
          Mixed.Dealt frames final.sink ∧
          final.progress.errors.toNat = final.sink.datagram.failures)) := by
  have htransport' : spec.transport.isStream = false := by
    rw [htransport]
    rfl
  have hcount : (writes.flatMap Step.events).length = spec.count.toNat := by
    rw [hyields.length_events, Plan.remaining_start]
  have halone := hyields.eq_map_alone (Scenario.Spec.ne_fragmented hvalid htransport')
  generalize writes.flatMap Step.events = events at halone hframes hcount
  subst halone
  have hnew : Alternates stream datagram failAt [] (Mixed.new (.new stream) (.new datagram)) :=
    ⟨Mixed.follows_new stream datagram failAt, rfl⟩
  obtain ⟨ending, later, final, hrun, hfinished⟩ := exists_finished_scenario hyields
    (keeps_alternates hframes hstream hdatagram) hnew hclock
  obtain ⟨hattempted, hends⟩ := hfinished.mixed hframes hstream hdatagram hcount
  refine ⟨ending, later, final, hrun, ?_, hattempted, hends⟩
  -- The pair without logs is the image of the one with logs.
  have hsame := toEnd_map Mixed.hom_unlogged clock
    (start spec timestamps (Mixed.new (Logged.new stream) (Logged.new datagram)) .zero clock)
  rw [scenario] at hrun
  rw [hrun] at hsame
  exact hsame

end Mixed

/-- Six events over a `Mixed` pair whose stream breaks at its second write, and whose first datagram
fails: the third event is the last that is offered. -/
theorem mixed_runs_split_by_parity_breaking :
    ∃ (spec : Scenario.Spec) (writes : List Step) (frames : List Bytes) (later : Clock)
      (final : Run (Mixed (Logged Recorder) (Logged Recorder))),
      spec = ⟨"burst", .burst, .mixed, 6, .single 40, .load, 7, .zero, 0⟩ ∧
      (Plan.start spec fun _ => 0).Yields writes ∧
      (writes.flatMap Step.events).map Event.encode = frames.map .ok ∧
      scenario spec (fun _ => 0)
          (Mixed.new (Recorder.new .stream (some 1)) (Recorder.new .datagram (some 0))) .start =
        (.ok .transportFailed, later, final.map Mixed.unlogged) ∧
      Mixed.Dealt (frames.take 3) final.sink ∧ final.progress.attempted = 6 ∧
      final.progress.errors.toNat = 4 + final.sink.datagram.failures := by
  let spec : Scenario.Spec := ⟨"burst", .burst, .mixed, 6, .single 40, .load, 7, .zero, 0⟩
  have hroomy : spec.Roomy := Scenario.Spec.roomy_of_single rfl (by decide)
  obtain ⟨writes, hyields⟩ := Plan.exists_yields hroomy fun _ => 0
  have hencodable : ∀ event ∈ writes.flatMap Step.events, ∃ bytes, event.encode = .ok bytes := by
    intro event hevent
    obtain ⟨step, hstep, hmem⟩ := List.mem_flatMap.mp hevent
    exact hyields.encodable step hstep event hmem
  obtain ⟨frames, hframes⟩ := exists_frames hencodable
  have hvalid : spec.validate = .ok () := rfl
  have hclock : Clock.start.stopAt = none := rfl
  obtain ⟨ending, later, final, -, hrun, hattempted, hends⟩ :=
    mixed_runs_split_by_parity hvalid rfl hyields hframes
      (Recorder.breaksAt (some 1) (everySecond frames))
      (Recorder.staysOpen (some 0) (everySecond frames.tail)) hclock
  rcases hends with ⟨n, hn, -, rfl, hdealt, herrors⟩ | ⟨hnever, -⟩
  · cases hn
    exact ⟨spec, writes, frames, later, final, rfl, hyields, hframes, hrun, hdealt, hattempted,
      herrors⟩
  · -- The stream is reached by its second write.
    exact absurd (hnever 1 rfl) (by decide)

end Run

end Volley
