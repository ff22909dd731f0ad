import Volley.Proofs.Payload.Bodies
import Volley.Proofs.Scenario.Steps

/-!
# Plans that can be carried out

A payload has the size that was asked for, and it can be built if memory can hold its padding; the
topics of every family are short. So if the payload sizes of a scenario leave room for a header and
the longest topic, every event of its plan can be built and encoded, whatever else the scenario
says. An event that is sent again is one that was built before, so whatever holds of every fresh
event holds of all, if the plan keeps it in mind for the head of its window.

## Main definitions

* `Scenario.Spec.Roomy`: the payload sizes leave room for the rest of a frame.
* `Plan.Providing`: fresh events can be built and are of some kind, and so is the head of the
  window.

## Main results

* `Plan.Providing.exists_steps`: then all events can be built and are of this kind.
* `Plan.exists_steps`: the writes of a plan can be built if memory can hold the payloads.
* `Plan.exists_yields`: the plan of a roomy scenario yields its writes.
-/

namespace Volley

namespace TopicSet

theorem topics_ne_nil (set : TopicSet) : set.topics ≠ [] := by
  cases set <;> decide

/-- Every topic of a `TopicSet` is within `Frame.maxTopicSize`. -/
theorem utf8ByteSize_le (set : TopicSet) {topic : String} (h : topic ∈ set.topics) :
    topic.utf8ByteSize ≤ Frame.maxTopicSize := by
  have hall : ∀ topic ∈ set.topics, topic.utf8ByteSize ≤ Frame.maxTopicSize := by
    cases set <;> decide
  exact hall topic h

end TopicSet

theorem PayloadSizes.cycle_mem (sizes : PayloadSizes) (index : Nat) :
    sizes.cycle index ∈ sizes.toList :=
  List.get_mem _ _

theorem PayloadSizes.pick_mem (sizes : PayloadSizes) (r : Random) :
    (sizes.pick r).1 ∈ sizes.toList := by
  obtain ⟨size, hmem, hsize⟩ := Random.choose?_mem sizes.ne_nil r
  simp only [pick, hsize, Option.getD_some]
  exact hmem

namespace Scenario.Spec

/-- Every payload size leaves room for a header and the longest topic within `Frame.maxBodySize`. -/
def Roomy (spec : Spec) : Prop :=
  ∀ size ∈ spec.sizes.toList,
    Frame.bodyHeaderSize + Frame.maxTopicSize + size.toNat ≤ Frame.maxBodySize

/-- The sizes of a `Roomy` spec are within `Payload.maxPadding`. -/
theorem Roomy.le_maxPadding {spec : Spec} (h : spec.Roomy) :
    ∀ size ∈ spec.sizes.toList, size.toNat ≤ Payload.maxPadding := by
  intro size hsize
  have hroom := h size hsize
  simp only [Frame.maxBodySize] at hroom
  simp only [Payload.maxPadding]
  omega

theorem roomy_of_single {spec : Spec} {size : UInt64} (h : spec.sizes = .single size)
    (hsize : Frame.bodyHeaderSize + Frame.maxTopicSize + size.toNat ≤ Frame.maxBodySize) :
    spec.Roomy := by
  intro other hmem
  rw [h] at hmem
  rw [List.mem_singleton.mp hmem]
  exact hsize

theorem topicAt_mem (spec : Spec) (index : Nat) : spec.topicAt index ∈ spec.topics.topics := by
  have hpos : 0 < spec.topics.topics.length :=
    List.length_pos_iff.mpr spec.topics.topics_ne_nil
  have hlt := Nat.mod_lt index hpos
  rw [topicAt, List.getD_eq_getElem?_getD, List.getElem?_eq_getElem hlt, Option.getD_some]
  exact List.getElem_mem hlt

/-- What `choices` gives for a fresh event is a topic of the family and a size of the list. -/
theorem choices_mem (spec : Spec) (index : Nat) (random : Random) :
    (spec.choices index random).1.2.1 ∈ spec.topics.topics ∧
      (spec.choices index random).1.2.2 ∈ spec.sizes.toList := by
  have hcycle := spec.sizes.cycle_mem index
  unfold choices
  cases spec.strategy with
  | sweep repeats => exact ⟨spec.topicAt_mem _, hcycle⟩
  | burst => exact ⟨spec.topicAt_mem _, hcycle⟩
  | duplicates interval => exact ⟨spec.topicAt_mem _, hcycle⟩
  | fragmented frames mode => exact ⟨spec.topicAt_mem _, hcycle⟩
  | overflow priority capacity => exact ⟨spec.topicAt_mem _, hcycle⟩
  | tiered => exact ⟨spec.topicAt_mem _, hcycle⟩
  | chaos =>
    -- The topic and the size are drawn, and a draw is a member of its list.
    obtain ⟨topic, hmem, htopic⟩ :=
      Random.choose?_mem spec.topics.topics_ne_nil (random.choose? Priority.all).2
    refine ⟨?_, spec.sizes.pick_mem _⟩
    simp only [htopic, Option.getD_some]
    exact hmem

end Scenario.Spec

namespace Plan

/-- Every `freshEvent` of a plan with this spec succeeds with an event of the kind `P`, and the
`head` of the window, if any, is of this kind too. -/
structure Providing (P : Event → Prop) (plan : Plan) : Prop where
  fresh : ∀ other : Plan, other.spec = plan.spec →
    ∃ event later, other.freshEvent = .ok (event, later) ∧ P event
  head : ∀ event ∈ plan.head, P event

namespace Providing

variable {P : Event → Prop} {plan : Plan}

theorem freshEvent (h : plan.Providing P) :
    ∃ event later, plan.freshEvent = .ok (event, later) ∧ P event ∧ later.Providing P := by
  obtain ⟨event, later, hfresh, hevent⟩ := h.fresh plan rfl
  obtain ⟨-, random, rfl⟩ := eq_of_freshEvent hfresh
  exact ⟨event, _, hfresh, hevent, h.fresh, h.head⟩

/-- A plan that is `Providing` has a `freshInWindow` of the kind `P`, and is `Providing` after it.
-/
theorem freshInWindow (h : plan.Providing P) :
    ∃ event later, plan.freshInWindow = .ok (event, later) ∧ P event ∧ later.Providing P := by
  obtain ⟨event, later, hfresh, hevent, hlater⟩ := h.freshEvent
  unfold Plan.freshInWindow
  rw [hfresh]
  refine ⟨event, _, rfl, hevent, hlater.fresh, fun head hhead => ?_⟩
  simp only at hhead
  split at hhead
  · cases hhead
    exact hevent
  · exact h.head head hhead

/-- Either `nextEvent` is `none`, or it is an event of the kind `P`, and the plan is `Providing`
after it. -/
theorem nextEvent_cases (h : plan.Providing P) :
    plan.nextEvent = .ok none ∨
      ∃ event later, plan.nextEvent = .ok (some (event, later)) ∧ P event ∧ later.Providing P := by
  by_cases hend : plan.emitted ≥ plan.spec.count.toNat
  · left
    rw [nextEvent, if_pos hend]
  right
  -- The event is counted first, which changes neither the scenario nor the head.
  have hcounted : Providing P { plan with emitted := plan.emitted + 1 } := ⟨h.fresh, h.head⟩
  have hnew : Providing P { plan with emitted := plan.emitted + 1, window := 0 } :=
    ⟨h.fresh, h.head⟩
  rw [nextEvent, if_neg hend]
  simp only
  split
  · split
    · split
      · next event hhead =>
        -- The head of the full window is an event that was built before.
        exact ⟨event, _, rfl, h.head event hhead, h.fresh, fun _ hnone => by cases hnone⟩
      · obtain ⟨event, later, hfresh, hevent, hlater⟩ := hnew.freshInWindow
        exact ⟨event, later, by rw [hfresh]; rfl, hevent, hlater⟩
    · obtain ⟨event, later, hfresh, hevent, hlater⟩ := hcounted.freshInWindow
      exact ⟨event, later, by rw [hfresh]; rfl, hevent, hlater⟩
  · obtain ⟨event, later, hfresh, hevent, hlater⟩ := hcounted.freshEvent
    exact ⟨event, later, by rw [hfresh]; rfl, hevent, hlater⟩

/-- Whatever the `limit`, `takeEvents` succeeds with events of the kind `P`. -/
theorem takeEvents (h : plan.Providing P) (limit : Nat) :
    ∃ events later, plan.takeEvents limit = .ok (events, later) ∧ (∀ event ∈ events, P event) ∧
      later.Providing P := by
  induction limit generalizing plan with
  | zero => exact ⟨[], plan, rfl, List.forall_mem_nil _, h⟩
  | succ limit ih =>
    rcases h.nextEvent_cases with hnone | ⟨event, next, hnext, hevent, hproviding⟩
    · refine ⟨[], plan, ?_, List.forall_mem_nil _, h⟩
      rw [Plan.takeEvents, hnone]
    · obtain ⟨events, later, htake, hall, hlater⟩ := ih hproviding
      refine ⟨event :: events, later, ?_, List.forall_mem_cons.mpr ⟨hevent, hall⟩, hlater⟩
      rw [Plan.takeEvents, hnext]
      simp only [htake]

/-- Either `next` is `none`, or it is a step with events of the kind `P`, and the plan is
`Providing` after it. -/
theorem next_cases (h : plan.Providing P) :
    plan.next = .ok none ∨
      ∃ step later, plan.next = .ok (some (step, later)) ∧ (∀ event ∈ step.events, P event) ∧
        later.Providing P := by
  unfold next
  split
  · next frames mode _ =>
    obtain ⟨events, later, htake, hall, hlater⟩ := h.takeEvents (plan.quota frames)
    rw [htake]
    cases events with
    | nil => exact Or.inl rfl
    | cons event events => exact Or.inr ⟨_, _, rfl, hall, hlater.fresh, hlater.head⟩
  · rcases h.nextEvent_cases with hnone | ⟨event, later, hnext, hevent, hproviding⟩
    · rw [hnone]
      exact Or.inl rfl
    · rw [hnext]
      exact Or.inr ⟨_, later, rfl, by simpa using hevent, hproviding⟩

/-- The `steps` of a plan that is `Providing` can all be built, and their events are of the kind
`P`. -/
theorem exists_steps (h : plan.Providing P) :
    ∃ writes, plan.steps = .ok writes ∧ ∀ step ∈ writes, ∀ event ∈ step.events, P event := by
  induction hremaining : plan.remaining using Nat.strongRecOn generalizing plan with
  | ind remaining ih =>
    rcases h.next_cases with hnone | ⟨step, later, hnext, hevents, hproviding⟩
    · have hsteps := steps_of_remaining_eq_zero (next_eq_none_iff.mp hnone)
      exact ⟨[], hsteps, List.forall_mem_nil _⟩
    · have hlt := remaining_of_next hnext
      rw [hremaining] at hlt
      obtain ⟨rest, hrest, hall⟩ := ih _ hlt hproviding rfl
      refine ⟨step :: rest, ?_, List.forall_mem_cons.mpr ⟨hevents, hall⟩⟩
      rw [steps_of_next hnext, hrest]
      rfl

end Providing

/-- If all sizes are within `Payload.maxPadding`, `freshEvent` succeeds, and the length of its
payload is one of the sizes. -/
theorem exists_freshEvent {plan : Plan}
    (h : ∀ size ∈ plan.spec.sizes.toList, size.toNat ≤ Payload.maxPadding) :
    ∃ event later, plan.freshEvent = .ok (event, later) ∧
      event.topic ∈ plan.spec.topics.topics ∧
      ∃ size ∈ plan.spec.sizes.toList, event.payload.length = size.toNat := by
  have hchosen := plan.spec.choices_mem plan.fresh plan.random
  unfold Plan.freshEvent
  -- Only what was chosen matters from here on, not how.
  revert hchosen
  obtain ⟨⟨priority, topic, size⟩, random⟩ := plan.spec.choices plan.fresh plan.random
  rintro ⟨htopic, hsize⟩
  obtain ⟨payload, hpayload⟩ := Payload.exists_body (h size hsize) (plan.spec.idAt plan.fresh)
    (plan.timestamps plan.readings) priority
  simp only [hpayload]
  exact ⟨_, _, rfl, htopic, size, hsize, Payload.length_of_body hpayload⟩

/-- If all sizes are within `Payload.maxPadding`, the plan at its `start` is `Providing`. -/
theorem providing_start {spec : Scenario.Spec}
    (h : ∀ size ∈ spec.sizes.toList, size.toNat ≤ Payload.maxPadding) (timestamps : Nat → Int) :
    (start spec timestamps).Providing fun _ => True := by
  refine ⟨fun other hspec => ?_, fun _ hnone => by cases hnone⟩
  obtain ⟨event, later, hfresh, -⟩ := @exists_freshEvent other (by rw [hspec]; exact h)
  exact ⟨event, later, hfresh, trivial⟩

/-- If all sizes are within `Payload.maxPadding`, the plan at its `start` has `steps`. -/
theorem exists_steps {spec : Scenario.Spec}
    (h : ∀ size ∈ spec.sizes.toList, size.toNat ≤ Payload.maxPadding) (timestamps : Nat → Int) :
    ∃ writes, (start spec timestamps).steps = .ok writes := by
  obtain ⟨writes, hsteps, -⟩ := (providing_start h timestamps).exists_steps
  exact ⟨writes, hsteps⟩

/-- The plan of a `Roomy` spec `Yields` its writes: each of their events can be encoded. -/
theorem exists_yields {spec : Scenario.Spec} (h : spec.Roomy) (timestamps : Nat → Int) :
    ∃ writes, (start spec timestamps).Yields writes := by
  have hproviding : (start spec timestamps).Providing fun event => event.frame.Fits := by
    refine ⟨fun other hspec => ?_, fun _ hnone => by cases hnone⟩
    have hroomy : other.spec.Roomy := by
      rw [hspec]
      exact h
    obtain ⟨event, later, hfresh, htopic, size, hsize, hlength⟩ :=
      exists_freshEvent hroomy.le_maxPadding
    have hshort := TopicSet.utf8ByteSize_le _ htopic
    have hroom := hroomy size hsize
    refine ⟨event, later, hfresh, hshort, ?_⟩
    simp only [Event.frame, hlength]
    omega
  obtain ⟨writes, hsteps, hfits⟩ := hproviding.exists_steps
  refine ⟨writes, hsteps, fun step hstep event hevent => ?_⟩
  exact ⟨_, Event.encode_eq_ok_iff.mpr ⟨hfits step hstep event hevent, rfl⟩⟩

end Plan

end Volley
