import Volley.Proofs.Run.Recording
import Volley.Proofs.Scenario.Batches
import Volley.Proofs.Scenario.Rotation
import Volley.Proofs.Sink.Splitting

/-!
# Fragments

A scenario in fragments is a burst whose events go out several at a time. Its writes are all full,
except that the last one takes what is left: fewer events than a full write has, or one event more,
so that no event is left alone. A write in two parts is cut inside its bytes, so nothing that it is
sent through refuses the cut. On a stream the bytes are those of the burst.

## Main definitions

* `Plan.Grouped`: writes that are full up to the last one, which is never a single event.

## Main results

* `Plan.grouped_of_steps`: how many events the writes have.
* `Plan.exists_cut_of_mem`: where a write in two parts is cut.
* `Run.exists_recorded`: what a run leaves on a stream that never fails.
* `Plan.fragments_regroup_burst`: the fragments of a scenario regroup its burst, and nothing else.
-/

namespace Volley

namespace Scenario.Spec

variable {spec : Spec} {frames : UInt64} {mode : FragmentMode}

/-- With at least two `frames`, `batch` takes everything if at most `frames + 1` events are left,
and `frames` of them otherwise. -/
theorem batch_of_fragmented (h : spec.strategy = .fragmented frames mode) (hframes : 2 ≤ frames)
    (remaining : Nat) :
    spec.batch remaining =
      if remaining ≤ frames.toNat + 1 then remaining else frames.toNat := by
  have htwo : 2 ≤ frames.toNat := hframes
  have hfull : max frames.toNat 1 = frames.toNat := by omega
  simp only [batch, h, hfull]
  split <;> split <;> omega

/-- On a stream, a spec of at least two `frames` passes `validate` unless its `count` is one. -/
theorem validate_of_fragmented (h : spec.strategy = .fragmented frames mode) (hframes : 2 ≤ frames)
    (hstream : spec.transport.isStream = true) : spec.validate = .ok () ↔ spec.count ≠ 1 := by
  have htwo : ¬ frames < 2 := UInt64.not_lt.mpr hframes
  simp [validate, h, hstream, htwo]

end Scenario.Spec

namespace Plan

/-- Every step among the `steps` of a plan is the `next` of some `earlier` plan with the same spec.
-/
theorem exists_next_of_mem {plan : Plan} {writes : List Step} {step : Step}
    (h : plan.steps = .ok writes) (hmem : step ∈ writes) :
    ∃ earlier later : Plan, earlier.next = .ok (some (step, later)) ∧ earlier.spec = plan.spec := by
  induction writes generalizing plan with
  | nil => cases hmem
  | cons first rest ih =>
    obtain ⟨-, hnil⟩ | ⟨_, later, _, hnext, hcons, hlater⟩ := steps_cases h
    · cases hnil
    cases hcons
    rcases List.mem_cons.mp hmem with rfl | hrest
    · exact ⟨plan, later, hnext, rfl⟩
    · obtain ⟨earlier, next, hstep, hspec⟩ := ih hlater hrest
      exact ⟨earlier, next, hstep, hspec.trans (length_of_next hnext).2⟩

/-- A plan `Yields` its `steps` if each event of all of them can be encoded. -/
theorem Yields.of_flatMap {plan : Plan} {writes : List Step} (h : plan.steps = .ok writes)
    (hencodable : ∀ event ∈ writes.flatMap Step.events, ∃ bytes, event.encode = .ok bytes) :
    plan.Yields writes := by
  refine ⟨h, fun step hstep event hevent => hencodable event ?_⟩
  exact List.mem_flatMap.mpr ⟨step, hstep, hevent⟩

/-- Writes that are full, up to the last one, which takes what is left of `total` events: at most
one more than a full write has, and never a single one unless there is no other. -/
structure Grouped (frames total : Nat) (writes : List Step) : Prop where
  full : ∀ step ∈ writes.dropLast, step.events.length = frames
  le_last : ∀ step ∈ writes.getLast?, step.events.length ≤ frames + 1
  two_le_last : total ≠ 1 → ∀ step ∈ writes.getLast?, 2 ≤ step.events.length

/-- One write with at most `frames + 1` events is `Grouped`. -/
theorem Grouped.single {frames total : Nat} {step : Step} (hle : step.events.length ≤ frames + 1)
    (htwo : total ≠ 1 → 2 ≤ step.events.length) : Grouped frames total [step] := by
  refine ⟨by simp, ?_, ?_⟩
  · simpa using hle
  · simpa using htwo

/-- A full write in front of others that are `Grouped` keeps them so, if it does not leave a single
event to them. -/
theorem Grouped.cons {frames total left : Nat} {step next : Step} {more : List Step}
    (hfull : step.events.length = frames) (hleft : left ≠ 1)
    (h : Grouped frames left (next :: more)) : Grouped frames total (step :: next :: more) := by
  refine ⟨fun other hother => ?_, ?_, fun _ => ?_⟩
  · rw [List.dropLast_cons_cons] at hother
    rcases List.mem_cons.mp hother with rfl | hother
    · exact hfull
    · exact h.full other hother
  · rw [List.getLast?_cons_cons]
    exact h.le_last
  · rw [List.getLast?_cons_cons]
    exact h.two_le_last hleft

section Fragmented

variable {plan : Plan} {writes : List Step} {frames : UInt64} {mode : Scenario.FragmentMode}

/-- The `steps` of a `.fragmented` plan with at least two `frames` are `Grouped`. -/
theorem grouped_of_steps (hstrategy : plan.spec.strategy = .fragmented frames mode)
    (hframes : 2 ≤ frames) (h : plan.steps = .ok writes) :
    Grouped frames.toNat plan.remaining writes := by
  have htwo : 2 ≤ frames.toNat := hframes
  induction writes generalizing plan with
  | nil => exact ⟨by simp, by simp, by simp⟩
  | cons step rest ih =>
    obtain ⟨-, hnil⟩ | ⟨_, later, _, hnext, hcons, hlater⟩ := steps_cases h
    · cases hnil
    cases hcons
    obtain ⟨hlength, hspec⟩ := length_of_next hnext
    have hsum := remaining_add_length_of_next hnext
    have hne := List.length_pos_iff.mpr (events_ne_nil_of_next hnext)
    rw [Scenario.Spec.batch_of_fragmented hstrategy hframes] at hlength
    have hrest := ih (by rw [hspec]; exact hstrategy) hlater
    cases rest with
    | nil =>
      -- No write comes after it, so it has taken everything that was left.
      have hzero := (length_events_of_steps hlater).symm
      simp only [List.flatMap_nil, List.length_nil] at hzero
      refine Grouped.single ?_ fun hne => by omega
      split at hlength <;> omega
    | cons next more =>
      -- Something is left, so the write is full, and what is left is more than one event.
      have hpos : 0 < later.remaining := by
        obtain ⟨-, hnil⟩ | ⟨_, _, _, hsome, -, -⟩ := steps_cases hlater
        · cases hnil
        · exact Nat.lt_of_le_of_lt (Nat.zero_le _) (remaining_of_next hsome)
      have hfull : step.events.length = frames.toNat ∧ later.remaining ≠ 1 := by
        split at hlength <;> omega
      exact Grouped.cons hfull.1 hfull.2 hrest

/-- With at least two `frames`, some write holds a single event exactly if one event is `remaining`.
-/
theorem forall_length_ne_one_iff (hstrategy : plan.spec.strategy = .fragmented frames mode)
    (hframes : 2 ≤ frames) (h : plan.steps = .ok writes) :
    (∀ step ∈ writes, step.events.length ≠ 1) ↔ plan.remaining ≠ 1 := by
  have htwo : 2 ≤ frames.toNat := hframes
  have hgrouped := grouped_of_steps hstrategy hframes h
  constructor
  · intro hall hone
    obtain ⟨hnone, -⟩ | ⟨step, later, rest, hnext, rfl, -⟩ := steps_cases h
    · rw [next_eq_none_iff.mp hnone] at hone
      cases hone
    · have hlength := (length_of_next hnext).1
      rw [Scenario.Spec.batch_of_fragmented hstrategy hframes, hone, if_pos (by omega)] at hlength
      exact hall step List.mem_cons_self hlength
  · intro hne step hstep
    -- A write is one of the full ones, or the last one.
    cases hlast : writes.getLast? with
    | none =>
      rw [List.getLast?_eq_none_iff.mp hlast] at hstep
      cases hstep
    | some last =>
      rw [← List.dropLast_append_getLast? last hlast] at hstep
      rcases List.mem_append.mp hstep with hfull | htail
      · rw [hgrouped.full step hfull]
        omega
      · rw [List.mem_singleton.mp htail]
        have hlen := hgrouped.two_le_last hne last hlast
        omega

/-- In a `.fragmented` plan the shape of every step is what `shapeOf` chooses for its
`encodedLength`. -/
theorem exists_shape_of_next {later : Plan} {step : Step}
    (hstrategy : plan.spec.strategy = .fragmented frames mode)
    (h : plan.next = .ok (some (step, later))) :
    ∃ random, step.shape = (shapeOf mode step.encodedLength random).1 := by
  obtain ⟨_, _, taken, hchosen, -, -, hshape, -⟩ | ⟨hplain, -⟩ := next_cases h
  · rw [hstrategy] at hchosen
    cases hchosen
    exact ⟨taken.random, hshape⟩
  · exact absurd hstrategy (hplain frames mode)

/-- With the mode `.split`, every step has a `cut` strictly inside its `encodedLength`. -/
theorem exists_cut_of_mem {step : Step} (hstrategy : plan.spec.strategy = .fragmented frames .split)
    (h : plan.steps = .ok writes) (hmem : step ∈ writes) :
    ∃ cut, step.shape = .split cut ∧ 0 < cut ∧ cut < step.encodedLength := by
  obtain ⟨earlier, later, hnext, hspec⟩ := exists_next_of_mem h hmem
  obtain ⟨random, hshape⟩ := exists_shape_of_next (by rw [hspec]; exact hstrategy) hnext
  simp only [shapeOf] at hshape
  exact ⟨_, hshape, cut_of_next hnext hshape⟩

end Fragmented

/-- The `events` of a `.fragmented` plan are those of the same spec with the strategy `.burst`, or
both fail alike. -/
theorem events_fragmented {spec : Scenario.Spec} {frames : UInt64} {mode : Scenario.FragmentMode}
    (h : spec.strategy = .fragmented frames mode) (timestamps : Nat → Int) :
    (start spec timestamps).events =
      (start { spec with strategy := .burst } timestamps).events := by
  have hwindow : spec.window? = none := by rw [Scenario.Spec.window?, h]
  rw [events_start (Or.inr (Or.inr ⟨frames, mode, h⟩)) hwindow, events_start (Or.inl rfl) rfl,
    Scenario.Spec.rotation_with spec .burst spec.count]

end Plan

/-- A sink that `CutsInside` never answers `.invalidSplit` to the bytes of a step with its `cut`
strictly inside them. -/
theorem Step.sendSplit_ne_invalidSplit {σ : Type} [Sink σ] [Sink.CutsInside σ] {step : Step}
    {bytes : Bytes} {cut : Nat} (hcut : 0 < cut ∧ cut < step.encodedLength)
    (hbytes : Event.encodeAll step.events = .ok bytes) (clock : Clock) (sink : σ)
    (place size : Nat) :
    (Sink.sendSplit bytes cut clock sink).1 ≠ .error (.invalidSplit place size) := by
  have hlength : bytes.length = step.encodedLength := Event.length_of_encodeAll hbytes
  rcases hsplit : Sink.sendSplit bytes cut clock sink with ⟨reply, later, next⟩
  rintro rfl
  rw [← hlength] at hcut
  cases Sink.CutsInside.isInvalidSplit_of_sendSplit hcut hsplit

namespace Run

/-- A `Run.scenario` that nobody stops leaves the frames of all its events in a `Recorder` that
never fails. -/
theorem exists_recorded {spec : Scenario.Spec} {timestamps : Nat → Int} {writes : List Step}
    (hyields : (Plan.start spec timestamps).Yields writes) {clock : Clock}
    (hstop : clock.stopAt = none) :
    ∃ later final, scenario spec timestamps (Recorder.new .stream none) clock =
        (.ok .completed, later, final) ∧
      Event.encodeAll (writes.flatMap Step.events) = .ok final.sink.bytes := by
  obtain ⟨ending, later, final, sent, bytes, hend, hrecorded, hbytes, -⟩ :=
    @toEnd_recorder writes (start spec timestamps (Recorder.new .stream none) .zero clock)
      clock hyields ⟨rfl, rfl⟩ hstop
  obtain ⟨rfl, -, hwhole⟩ := hrecorded.eq_whole fun n hfail => by cases hfail
  refine ⟨later, final, hend, ?_⟩
  rw [hwhole, hbytes]
  rfl

end Run

namespace Plan

/-- A `.fragmented` plan with at least two `frames` has the `events` of its `burst`, or fails where
that fails, and only groups them: all `steps` are full except the last, with two to `frames + 1`
events unless `count` is one. With the mode `.split` each `cut` is strictly inside its bytes, and no
session answers `.invalidSplit` to it. Over a stream, `validate` accepts exactly if no step holds a
single event. The bytes that a run leaves in a `Recorder` are those of the burst. -/
theorem fragments_regroup_burst {spec : Scenario.Spec} {frames : UInt64}
    {mode : Scenario.FragmentMode} (hstrategy : spec.strategy = .fragmented frames mode)
    (hframes : 2 ≤ frames) (timestamps : Nat → Int) :
    let burst : Scenario.Spec := { spec with strategy := .burst }
    (start spec timestamps).events = (start burst timestamps).events ∧
      ((∀ size ∈ spec.sizes.toList, size.toNat ≤ Payload.maxPadding) →
        ∃ writes, (start spec timestamps).steps = .ok writes) ∧
      ∀ writes, (start spec timestamps).steps = .ok writes →
        ∃ singles, (start burst timestamps).steps = .ok singles ∧
          writes.flatMap Step.events = singles.flatMap Step.events ∧
          (∀ step ∈ writes.dropLast, step.events.length = frames.toNat) ∧
          (spec.count ≠ 1 → ∀ step ∈ writes.getLast?,
            2 ≤ step.events.length ∧ step.events.length ≤ frames.toNat + 1) ∧
          (mode = .split → ∀ step ∈ writes, ∃ cut, step.shape = .split cut ∧
            0 < cut ∧ cut < step.encodedLength ∧
            ∀ bytes, Event.encodeAll step.events = .ok bytes →
              ∀ (ω : Type) [Writer ω] (session : SessionOver ω) (clock : Clock) (place size : Nat),
                (Sink.sendSplit bytes cut clock session).1 ≠ .error (.invalidSplit place size)) ∧
          (spec.transport.isStream = true →
            (spec.validate = .ok () ↔ ∀ step ∈ writes, step.events.length ≠ 1)) ∧
          ((∀ event ∈ writes.flatMap Step.events, ∃ bytes, event.encode = .ok bytes) →
            ∀ clock : Clock, clock.stopAt = none → ∃ later final laterBurst finalBurst,
              Run.scenario spec timestamps (Recorder.new .stream none) clock =
                (.ok .completed, later, final) ∧
              Run.scenario burst timestamps (Recorder.new .stream none) clock =
                (.ok .completed, laterBurst, finalBurst) ∧
              final.sink.bytes = finalBurst.sink.bytes ∧
              Event.encodeAll (writes.flatMap Step.events) = .ok final.sink.bytes) := by
  intro burst
  have hevents := events_fragmented hstrategy timestamps
  refine ⟨hevents, fun hsizes => exists_steps hsizes timestamps, fun writes hwrites => ?_⟩
  have hremaining : (start spec timestamps).remaining = 1 ↔ spec.count = 1 := by
    rw [remaining_start, ← UInt64.toNat_inj]
    rfl
  have hgrouped := grouped_of_steps hstrategy hframes hwrites
  rw [events_eq_ok_iff.mpr ⟨writes, hwrites, rfl⟩] at hevents
  obtain ⟨singles, hsingles, hflat⟩ := events_eq_ok_iff.mp hevents.symm
  refine ⟨singles, hsingles, hflat.symm, hgrouped.full, ?_, ?_, ?_, ?_⟩
  · intro hcount step hstep
    have hne := mt hremaining.mp hcount
    exact ⟨hgrouped.two_le_last hne step hstep, hgrouped.le_last step hstep⟩
  · rintro rfl step hstep
    obtain ⟨cut, hshape, hcut⟩ := exists_cut_of_mem hstrategy hwrites hstep
    refine ⟨cut, hshape, hcut.1, hcut.2, fun bytes hbytes ω _ session clock place size => ?_⟩
    exact Step.sendSplit_ne_invalidSplit hcut hbytes clock session place size
  · intro hstream
    rw [Scenario.Spec.validate_of_fragmented hstrategy hframes hstream,
      forall_length_ne_one_iff hstrategy hframes hwrites]
    exact (not_congr hremaining).symm
  · -- Both runs complete, and each leaves the frames of the same events.
    intro hencodable clock hstop
    obtain ⟨later, final, hrun, hbytes⟩ :=
      Run.exists_recorded (Yields.of_flatMap hwrites hencodable) hstop
    rw [← hflat] at hencodable
    obtain ⟨laterBurst, finalBurst, hrunBurst, hbytesBurst⟩ :=
      Run.exists_recorded (Yields.of_flatMap hsingles hencodable) hstop
    refine ⟨later, final, laterBurst, finalBurst, hrun, hrunBurst, ?_, hbytes⟩
    rw [hflat, hbytes] at hbytesBurst
    exact Except.ok.inj hbytesBurst

/-- Seven events, three to a write, and each write `.split` in two parts. -/
theorem fragments_regroup_burst_of_seven :
    ∃ (spec : Scenario.Spec) (writes singles : List Step),
      spec = ⟨"fragmented", .fragmented 3 .split, .stream, 7, .single 64, .load, 42, .zero, 0⟩ ∧
      spec.strategy = .fragmented 3 .split ∧ (2 : UInt64) ≤ 3 ∧
      (start spec fun _ => 0).steps = .ok writes ∧
      (start { spec with strategy := .burst } fun _ => 0).steps = .ok singles ∧
      writes.flatMap Step.events = singles.flatMap Step.events ∧
      (∀ step ∈ writes.dropLast, step.events.length = 3) ∧
      (∀ step ∈ writes, ∃ cut, step.shape = .split cut) ∧
      ∀ step ∈ writes, step.events.length ≠ 1 := by
  let spec : Scenario.Spec :=
    ⟨"fragmented", .fragmented 3 .split, .stream, 7, .single 64, .load, 42, .zero, 0⟩
  have htwo : (2 : UInt64) ≤ 3 := by decide
  obtain ⟨-, hbuilt, hall⟩ := @fragments_regroup_burst spec 3 .split rfl htwo fun _ => 0
  have hroomy : spec.Roomy := Scenario.Spec.roomy_of_single rfl (by decide)
  obtain ⟨writes, hwrites⟩ := hbuilt hroomy.le_maxPadding
  obtain ⟨singles, hsingles, hflat, hfull, -, hcut, hvalid, -⟩ := hall writes hwrites
  refine ⟨spec, writes, singles, rfl, rfl, htwo, hwrites, hsingles, hflat, hfull, ?_, ?_⟩
  · intro step hstep
    obtain ⟨cut, hshape, -⟩ := hcut rfl step hstep
    exact ⟨cut, hshape⟩
  · exact (hvalid rfl).mp (by decide)

end Plan

end Volley
