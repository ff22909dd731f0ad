import Mathlib.Data.List.Forall2
import Volley.Proofs.Run.Interruption
import Volley.Proofs.Scenario.Grouping

/-!
# Runs that nobody stops

A run that nobody stops ends in one of two ways: it makes all writes of its plan, or one of them
fails and leaves the sink closed, and the rest is written off. What its sink does in the meantime
can be followed from write to write: a statement about the answers so far and the sink as it is
holds at the end of the run, if every write keeps it after which the run goes on.

Outside of fragments each write is one event on its own. The places of the answers are then those of
the events, and to count events is to count answers.

## Main definitions

* `Run.Keeps`: a statement that is kept by every write after which a run goes on.
* `Run.Finished`: what a run that nobody stops has come to, and what was kept on the way.
* `Step.alone`: the write of one event on its own.

## Main results

* `Run.exists_finished`: a run that nobody stops is finished at its end.
* `Run.exists_finished_scenario`: so is a scenario from its first event on.
* `Plan.Yields.eq_map_alone`: a plan without fragments hands out its events one by one.
-/

namespace Volley

/-! ## Events on their own -/

/-- The write of one event on its own, with the shape `perFrame`. -/
def Step.alone (event : Event) : Step :=
  ⟨[event], .perFrame⟩

@[simp]
theorem Step.events_alone (event : Event) : (alone event).events = [event] :=
  rfl

/-- An event alone is encoded by `encodeAll` as by `encode`. -/
theorem Event.encodeAll_singleton {event : Event} {bytes : Bytes} :
    encodeAll [event] = .ok bytes ↔ event.encode = .ok bytes := by
  rw [encodeAll_cons_eq_ok_iff]
  simp [encodeAll]

@[simp]
theorem Step.flatMap_events_alone (events : List Event) :
    (events.map Step.alone).flatMap Step.events = events := by
  induction events with
  | nil => rfl
  | cons event rest ih => simp [ih]

/-- A scenario that `validate` accepts is not `fragmented` unless its transport is a stream. -/
theorem Scenario.Spec.ne_fragmented {spec : Spec} (h : spec.validate = .ok ())
    (htransport : spec.transport.isStream = false) (frames : UInt64) (mode : FragmentMode) :
    spec.strategy ≠ .fragmented frames mode := by
  intro hstrategy
  rw [validate, hstrategy] at h
  simp only [htransport, Bool.not_false, if_true] at h
  cases h

/-- A plan that is not `fragmented` hands out its events one by one, each by `Step.alone`. -/
theorem Plan.Yields.eq_map_alone {plan : Plan} {writes : List Step} (h : plan.Yields writes)
    (hplain : ∀ frames mode, plan.spec.strategy ≠ .fragmented frames mode) :
    writes = (writes.flatMap Step.events).map Step.alone := by
  have hone : ∀ step ∈ writes, step.events.map Step.alone = [step] := by
    intro step hstep
    obtain ⟨earlier, later, hnext, hspec⟩ := exists_next_of_mem h.steps_eq hstep
    obtain ⟨frames, mode, _, hstrategy, -⟩ | ⟨-, event, -, rfl⟩ := next_cases hnext
    · rw [hspec] at hstrategy
      exact absurd hstrategy (hplain frames mode)
    · rfl
  rw [List.map_flatMap, List.flatMap_congr hone, List.flatMap_singleton']

namespace Run

variable {σ : Type}

/-! ## Counting answers -/

/-- An answered write is that of an `event` on its own, made with the frame of the event. -/
structure Landing.Carries (landing : Landing) (event : Event) : Prop where
  step_eq : landing.step = .alone event
  encode_eq : event.encode = .ok landing.flight.bytes

section Trail

variable {events : List Event} {landings : List Landing} {writes lost rest : List Step}
  {plan : Plan}

/-- If events go out one by one, each answered write `Carries` one of them, in order. -/
theorem Trail.carries (h : Trail (events.map Step.alone) landings [] rest plan) :
    List.Forall₂ Landing.Carries landings (events.take landings.length) := by
  have hsteps : landings.map Landing.step = (events.take landings.length).map Step.alone := by
    rw [List.map_take, h.order, List.append_nil]
    exact (List.take_left' (List.length_map _)).symm
  have hpairs : List.Forall₂ (· = ·) (landings.map Landing.step)
      ((events.take landings.length).map Step.alone) := by
    rw [hsteps]
    exact List.forall₂_refl _
  rw [List.forall₂_map_left_iff, List.forall₂_map_right_iff] at hpairs
  refine ((List.forall₂_and_left _ _).mpr ⟨h.encoded, hpairs⟩).imp ?_
  rintro landing event ⟨hencoded, hstep⟩
  refine ⟨hstep, Event.encodeAll_singleton.mp ?_⟩
  rwa [show landing.flight.step = .alone event from hstep] at hencoded

/-- Then the `eventCount` of answered writes is the number of the answers. -/
theorem Trail.eventCount_filter (h : Trail (events.map Step.alone) landings [] rest plan)
    (p : Landing → Bool) :
    eventCount ((landings.filter p).map Landing.step) = (landings.filter p).length := by
  have hone : ∀ step ∈ (landings.filter p).map Landing.step, step.events.length = 1 := by
    intro step hstep
    obtain ⟨landing, hlanding, rfl⟩ := List.mem_map.mp hstep
    have hmem : landing.step ∈ events.map Step.alone := by
      rw [h.order, List.append_nil]
      exact List.mem_append_left _ (List.mem_map_of_mem (List.mem_of_mem_filter hlanding))
    obtain ⟨event, -, hevent⟩ := List.mem_map.mp hmem
    rw [← hevent]
    rfl
  rw [eventCount, List.length_flatMap, List.map_congr_left hone, List.map_const',
    List.sum_replicate_nat, Nat.mul_one, List.length_map]

theorem Trail.eventCount_refused (h : Trail (events.map Step.alone) landings [] rest plan) :
    eventCount (refused landings) = (refused landings).length := by
  rw [refused, h.eventCount_filter, List.length_map]

theorem Trail.eventCount_taken (h : Trail (events.map Step.alone) landings [] rest plan) :
    eventCount (taken landings) = (taken landings).length := by
  rw [taken, h.eventCount_filter, List.length_map]

/-- The `landings` and the events in the `rest` make up the plan. -/
theorem Trail.length_add_eventCount (h : Trail (events.map Step.alone) landings [] rest plan) :
    landings.length + eventCount rest = events.length := by
  have hanswered := h.eventCount_filter fun _ => true
  rw [List.filter_true] at hanswered
  have htotal : eventCount (events.map Step.alone) = events.length := by
    rw [eventCount, Step.flatMap_events_alone]
  rw [← htotal, h.order, List.append_nil, eventCount_append, hanswered]

/-- What the counters say when every write is among the `landings` or has been `lost`. -/
theorem Trail.counts {progress : Progress} {count : UInt64}
    (h : Trail writes landings [] lost plan) (htally : Tally landings [] lost progress)
    (hcount : eventCount writes = count.toNat) :
    progress.attempted = count ∧ progress.sent.toNat = eventCount (taken landings) ∧
      progress.errors.toNat = eventCount (refused landings) + eventCount lost := by
  obtain ⟨hattempted, -, hsent, hbalance⟩ := h.balance htally (Nat.le_refl _) hcount
  have hsplit := eventCount_landings landings
  rw [h.order] at hcount
  rw [List.append_nil, eventCount_append] at hattempted hcount
  refine ⟨?_, hsent, ?_⟩
  · rw [← UInt64.toNat_inj, hattempted, hcount]
  · have hnone : eventCount [] = 0 := rfl
    omega

end Trail

/-! ## From write to write -/

variable [Sink σ]

/-- An event on its own goes out by `Sink.send`. -/
theorem Trail.offer_eq_send {events : List Event} {landings : List Landing} {flight : Flight}
    {reply : Reply} {isOpen : Bool} {rest : List Step} {plan : Plan}
    (h : Trail (events.map Step.alone) (landings ++ [⟨flight, reply, isOpen⟩]) [] rest plan)
    (clock : Clock) (sink : σ) : flight.offer clock sink = Sink.send flight.bytes clock sink := by
  have hmem : flight.step ∈ events.map Step.alone := by
    rw [h.order]
    simp [Landing.step]
  obtain ⟨event, -, hevent⟩ := List.mem_map.mp hmem
  refine Flight.offer_of_ne_split (fun cut hcut => ?_) clock sink
  rw [← hevent] at hcut
  cases hcut

/-- Every write after which a run goes on keeps `I`, a statement about the `landings` and the sink:
every write that is taken, and every write that fails and leaves the sink open. -/
def Keeps (writes : List Step) (I : List Landing → σ → Prop) : Prop :=
  ∀ {landings : List Landing} {flight : Flight} {rest : List Step} {plan : Plan} {reply : Reply}
    {clock later : Clock} {sink left : σ}, Trail writes landings [flight.step] rest plan →
    Event.encodeAll flight.step.events = .ok flight.bytes → clock.stopAt = none →
    I landings sink → flight.offer clock sink = (reply, later, left) →
    (reply.isOk = true ∨ Sink.isOpen later left = true) →
    I (landings ++ [⟨flight, reply, Sink.isOpen later left⟩]) left

/-- What a run that nobody stops has come to with its ending, where `I` holds of the `landings` and
of the sink before it is closed. -/
inductive Finished (I : List Landing → σ → Prop) (writes : List Step) (final : Run σ) :
    Ending → Prop where
  /-- All writes were made. -/
  | completed {landings : List Landing} {left : σ}
      (trail : Trail writes landings [] [] final.plan)
      (tally : Tally landings [] [] final.progress) (kept : I landings left)
      (closed : final.sink = Sink.close left) : Finished I writes final .completed
  /-- One write failed and left the sink closed, and the writes `lost` were not made. -/
  | transportFailed {landings : List Landing} {lost : List Step} {flight : Flight}
      {e : TransportError} {clock later : Clock} {before left : σ}
      (trail : Trail writes (landings ++ [⟨flight, .error e, false⟩]) [] lost final.plan)
      (tally : Tally (landings ++ [⟨flight, .error e, false⟩]) [] lost final.progress)
      (kept : I landings before) (running : clock.stopAt = none)
      (failed : flight.offer clock before = (.error e, later, left))
      (lost : Sink.isOpen later left = false) (closed : final.sink = Sink.close left) :
      Finished I writes final .transportFailed

section toEnd

variable [Sink.Punctual σ] {I : List Landing → σ → Prop} {writes rest : List Step}
  {landings : List Landing}

/-- By `toEnd`, a run that nobody stops is `Finished` at its end. -/
theorem exists_finished (hkeeps : Keeps writes I) {run : Run σ} {clock : Clock}
    (trail : Trail writes landings [] rest run.plan) (tally : Tally landings [] [] run.progress)
    (hI : I landings run.sink) (hclock : clock.stopAt = none) :
    ∃ ending later final, run.toEnd clock = (.ok ending, later, final) ∧
      Finished I writes final ending := by
  induction rest generalizing landings run clock with
  | nil =>
    have hover := turn_of_yields_nil trail.yields clock
    have hending : run.endingOf = .completed := by
      rw [endingOf_eq run trail.yields]
      rfl
    rw [toEnd_of_over hover, hending]
    exact ⟨_, _, _, rfl, .completed trail tally hI rfl⟩
  | cons step rest ih =>
    have hrunning := Clock.stopped_of_stopAt_none hclock
    obtain ⟨plan, bytes, -, hyields, hbytes, hturn⟩ := turn_of_yields_cons trail.yields hrunning
    rcases hoffer : Flight.offer ⟨step, bytes⟩ clock run.sink with ⟨reply, later, left⟩
    have hlater : later.stopAt = none := by
      have hpunctual := Flight.precedes_offer ⟨step, bytes⟩ clock run.sink
      rw [hoffer] at hpunctual
      exact hpunctual.stopAt_eq.trans hclock
    have hopen := Clock.stopped_of_stopAt_none hlater
    -- The write is now among those that have been answered.
    have hflying : Trail writes landings [step] rest plan := by
      refine ⟨?_, trail.encoded, hyields⟩
      rw [trail.order, List.append_nil, List.append_assoc]
      rfl
    have hlanded : ∀ isOpen,
        Trail writes (landings ++ [⟨⟨step, bytes⟩, reply, isOpen⟩]) [] rest plan :=
      fun isOpen => hflying.land hbytes reply isOpen
    have hkept : reply.isOk = true ∨ Sink.isOpen later left = true →
        I (landings ++ [⟨⟨step, bytes⟩, reply, Sink.isOpen later left⟩]) left :=
      hkeeps hflying hbytes hclock hI hoffer
    have htally := tally.fly ⟨step, bytes⟩
    cases reply with
    | ok _ =>
      rw [toEnd_of_sent hturn hoffer]
      exact ih (hlanded _) (htally.land_ok _) (hkept (Or.inl rfl))
        ((stopAt_pause _ _).trans hlater)
    | error e =>
      by_cases hleft : Sink.isOpen later left = true
      · rw [toEnd_of_failed hturn hoffer hopen hleft]
        exact ih (hlanded _) (htally.land_error e _) (hkept (Or.inr hleft))
          ((stopAt_pause _ _).trans hlater)
      · rw [Bool.not_eq_true] at hleft
        rw [toEnd_of_lost hturn hoffer hopen hleft]
        have hlose := (htally.land_error e false).lose rest
        rw [← remaining_eq_eventCount hyields] at hlose
        exact ⟨_, _, _, rfl, .transportFailed (hlanded _) hlose hI hclock hoffer hleft rfl⟩

/-- By `Run.scenario`, so is a scenario that nobody stops. -/
theorem exists_finished_scenario {spec : Scenario.Spec} {timestamps : Nat → Int} {sink : σ}
    {clock : Clock} (hyields : (Plan.start spec timestamps).Yields writes)
    (hkeeps : Keeps writes I) (hI : I [] sink) (hclock : clock.stopAt = none) :
    ∃ ending later final, scenario spec timestamps sink clock = (.ok ending, later, final) ∧
      Finished I writes final ending :=
  exists_finished hkeeps ⟨rfl, List.forall_mem_nil _, hyields⟩ (Tally.start clock.now) hI hclock

end toEnd

end Run

end Volley
