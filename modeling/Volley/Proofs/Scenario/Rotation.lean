import Volley.Proofs.Scenario.Fresh

/-!
# Scenarios in rotation

In a burst, in a burst with duplicates and in a burst that is sent in fragments, nothing about an
event is drawn at random: its place among the fresh events and the time fix it
(`Scenario.Spec.rotated`). Without duplicates all events are fresh. A plan then hands out the
rotation from where it stands, however its writes group the events and whatever random numbers their
shapes use up, and it fails where the first of these events cannot be built.

## Main definitions

* `Scenario.Spec.rotated`: the fresh event at a place of a rotation.
* `Scenario.Spec.rotation`: the fresh events from one place on.
* `Plan.events`: the events of all writes of a plan.
* `Plan.Rotating`: a plan of which nothing but a rotation is to come.

## Main results

* `Plan.Rotating.takeEvents_eq`: taking events takes the next ones of the rotation.
* `Plan.Rotating.events_eq`: all writes together hold what is left of the rotation.
-/

namespace Volley

namespace Scenario.Spec

/-- The strategy is `.burst`, `.duplicates` or `.fragmented`, by which tiers and topics go in
rotation. -/
def Rotates (spec : Spec) : Prop :=
  spec.strategy = .burst ∨ (∃ interval, spec.strategy = .duplicates interval) ∨
    ∃ frames mode, spec.strategy = .fragmented frames mode

/-- The fresh event number `index` of a rotation, built at the time `timestamp`. -/
def rotated (spec : Spec) (index : Nat) (timestamp : Int) : Except Payload.TooLarge Event :=
  let id := spec.idAt index
  let priority := Priority.rotating id.toNat
  (Payload.body id timestamp priority (spec.sizes.cycle index).toNat).map fun payload =>
    { id, priority, topic := spec.topicAt id.toNat, payload }

/-- The fresh events of a rotation from the place `first` on, each built at the time that the clock
says when it is read for it. -/
def rotation (spec : Spec) (timestamps : Nat → Int) (first count : Nat) :
    Except Payload.TooLarge (List Event) :=
  (List.range' first count).mapM fun index => spec.rotated index (timestamps index)

/-- The `choices` of a spec that `Rotates` do not use `random`. -/
theorem choices_of_rotates {spec : Spec} (h : spec.Rotates) (index : Nat) (random : Random) :
    spec.choices index random =
      ((Priority.rotating (spec.idAt index).toNat, spec.topicAt (spec.idAt index).toNat,
        spec.sizes.cycle index), random) := by
  unfold choices
  rcases h with hstrategy | ⟨interval, hstrategy⟩ | ⟨frames, mode, hstrategy⟩ <;> rw [hstrategy]

/-- The `rotation` does not depend on `strategy` and `count`. -/
theorem rotation_with (spec : Spec) (strategy : Strategy) (total : UInt64) :
    rotation { spec with strategy, count := total } = spec.rotation :=
  rfl

variable {spec : Spec} {timestamps : Nat → Int}

@[simp]
theorem rotation_zero (first : Nat) : spec.rotation timestamps first 0 = .ok [] :=
  rfl

/-- A `rotation` of one event more begins with the event `rotated` at `first`. -/
theorem rotation_succ (first count : Nat) :
    spec.rotation timestamps first (count + 1) =
      match spec.rotated first (timestamps first) with
      | .error e => .error e
      | .ok event => (spec.rotation timestamps (first + 1) count).map (event :: ·) := by
  -- The places after the first are those of a rotation that begins one later.
  rw [rotation, List.range'_succ, List.mapM_cons, ← rotation]
  cases spec.rotated first (timestamps first) with
  | error e => rfl
  | ok event => cases spec.rotation timestamps (first + 1) count <;> rfl

/-- A `rotation` of `count + more` events is one of `count` and then one of `more`. -/
theorem rotation_add (first count more : Nat) :
    spec.rotation timestamps first (count + more) =
      match spec.rotation timestamps first count with
      | .error e => .error e
      | .ok events => (spec.rotation timestamps (first + count) more).map (events ++ ·) := by
  rw [rotation, ← List.range'_append_1, List.mapM_append, ← rotation, ← rotation]
  cases spec.rotation timestamps first count with
  | error e => rfl
  | ok events => cases spec.rotation timestamps (first + count) more <;> rfl

theorem rotation_succ_eq_ok_iff {first count : Nat} {event : Event} {events : List Event} :
    spec.rotation timestamps first (count + 1) = .ok (event :: events) ↔
      spec.rotated first (timestamps first) = .ok event ∧
        spec.rotation timestamps (first + 1) count = .ok events := by
  rw [rotation_succ]
  cases spec.rotated first (timestamps first) with
  | error e => simp
  | ok built => cases spec.rotation timestamps (first + 1) count <;> simp [Except.map]

/-- A `rotation` consists of certain events exactly if each of them is `rotated` at its place. -/
theorem rotation_eq_ok_iff {first count : Nat} {events : List Event} :
    spec.rotation timestamps first count = .ok events ↔
      events.length = count ∧ ∀ k event, events[k]? = some event →
        spec.rotated (first + k) (timestamps (first + k)) = .ok event := by
  induction count generalizing first events with
  | zero => cases events <;> simp
  | succ count ih =>
    cases events with
    | nil =>
      rw [rotation_succ]
      cases spec.rotated first (timestamps first) with
      | error e => simp
      | ok built => cases spec.rotation timestamps (first + 1) count <;> simp [Except.map]
    | cons event events =>
      have hplace : ∀ k, first + 1 + k = first + (k + 1) := fun k => by omega
      simp only [rotation_succ_eq_ok_iff, ih, List.length_cons, Nat.add_right_cancel_iff, hplace]
      constructor
      · rintro ⟨hfirst, hlength, hrest⟩
        refine ⟨hlength, fun k other hother => ?_⟩
        cases k with
        | zero =>
          cases hother
          exact hfirst
        | succ k => exact hrest k other hother
      · rintro ⟨hlength, hall⟩
        exact ⟨hall 0 event rfl, hlength, fun k => hall (k + 1)⟩

end Scenario.Spec

namespace Plan

/-- The events of all `steps` of a plan. -/
def events (plan : Plan) : Except Payload.TooLarge (List Event) :=
  plan.steps.map fun writes => writes.flatMap Step.events

/-- A plan after `count` more fresh events, none of which is sent again. -/
def past (plan : Plan) (count : Nat) : Plan :=
  { plan with
    readings := plan.readings + count
    emitted := plan.emitted + count
    fresh := plan.fresh + count }

section past

variable (plan : Plan) (count more : Nat)

@[simp]
theorem past_spec : (plan.past count).spec = plan.spec :=
  rfl

@[simp]
theorem past_timestamps : (plan.past count).timestamps = plan.timestamps :=
  rfl

@[simp]
theorem past_fresh : (plan.past count).fresh = plan.fresh + count :=
  rfl

@[simp]
theorem past_remaining : (plan.past count).remaining = plan.remaining - count := by
  simp only [remaining, past]
  omega

@[simp]
theorem past_past : (plan.past count).past more = plan.past (count + more) := by
  simp only [past, Nat.add_assoc]

end past

/-! ## Taking events -/

/-- Without a `window?`, `nextEvent` is `freshEvent` as long as something is `remaining`. -/
theorem nextEvent_of_remaining {plan : Plan} (hwindow : plan.spec.window? = none)
    (hremaining : 0 < plan.remaining) :
    plan.nextEvent = (freshEvent { plan with emitted := plan.emitted + 1 }).map some := by
  unfold remaining at hremaining
  rw [nextEvent, if_neg (by omega)]
  simp only
  split
  · next interval hstrategy =>
    rw [Scenario.Spec.window?, hstrategy] at hwindow
    cases hwindow
  · rfl

/-- If the spec `Rotates`, `freshEvent` is `rotated` at `fresh`, at the next time of `timestamps`.
-/
theorem freshEvent_of_rotates {plan : Plan} (h : plan.spec.Rotates) :
    plan.freshEvent =
      (plan.spec.rotated plan.fresh (plan.timestamps plan.readings)).map fun event =>
        (event, { plan with readings := plan.readings + 1, fresh := plan.fresh + 1 }) := by
  rw [freshEvent, Scenario.Spec.choices_of_rotates h, Scenario.Spec.rotated]
  simp only
  cases Payload.body _ _ _ _ <;> rfl

/-- A plan whose spec `Rotates` without a `window?`, and whose `readings` are as many as its `fresh`
events. -/
structure Rotating (plan : Plan) : Prop where
  rotates : plan.spec.Rotates
  window : plan.spec.window? = none
  readings : plan.readings = plan.fresh

theorem Rotating.past {plan : Plan} (h : plan.Rotating) (count : Nat) :
    (plan.past count).Rotating :=
  ⟨h.rotates, h.window, congrArg (· + count) h.readings⟩

theorem Rotating.nextEvent_eq {plan : Plan} (h : plan.Rotating) (hremaining : 0 < plan.remaining) :
    plan.nextEvent =
      (plan.spec.rotated plan.fresh (plan.timestamps plan.fresh)).map fun event =>
        some (event, plan.past 1) := by
  have hfresh := @freshEvent_of_rotates { plan with emitted := plan.emitted + 1 } h.rotates
  rw [nextEvent_of_remaining h.window hremaining, hfresh]
  simp only [h.readings]
  cases plan.spec.rotated plan.fresh (plan.timestamps plan.fresh) with
  | error e => rfl
  | ok event => simp [Except.map, Plan.past, h.readings]

/-- In a plan that is `Rotating`, `takeEvents` takes the next events of the `rotation`, as many as
`limit` and `remaining` allow. -/
theorem Rotating.takeEvents_eq {plan : Plan} (h : plan.Rotating) (limit : Nat) :
    plan.takeEvents limit =
      (plan.spec.rotation plan.timestamps plan.fresh (min limit plan.remaining)).map fun events =>
        (events, plan.past (min limit plan.remaining)) := by
  induction limit generalizing plan with
  | zero =>
    rw [Nat.zero_min]
    rfl
  | succ limit ih =>
    rcases Nat.eq_zero_or_pos plan.remaining with hzero | hpos
    · rw [takeEvents_of_remaining_eq_zero hzero, hzero, Nat.min_zero]
      rfl
    · -- One event is taken here, and the others from the plan after it.
      have hmin : min (limit + 1) plan.remaining = min limit (plan.past 1).remaining + 1 := by
        rw [past_remaining]
        omega
      rw [hmin, Scenario.Spec.rotation_succ, Plan.takeEvents, h.nextEvent_eq hpos]
      cases plan.spec.rotated plan.fresh (plan.timestamps plan.fresh) with
      | error e => rfl
      | ok event =>
        simp only [Except.map]
        rw [ih (h.past 1), past_past, Nat.add_comm 1]
        simp only [past_spec, past_timestamps, past_fresh]
        cases plan.spec.rotation plan.timestamps (plan.fresh + 1) _ <;> rfl

theorem Rotating.takeEvents_eq_error_iff {plan : Plan} (h : plan.Rotating) {limit : Nat}
    {e : Payload.TooLarge} :
    plan.takeEvents limit = .error e ↔
      plan.spec.rotation plan.timestamps plan.fresh (min limit plan.remaining) = .error e := by
  rw [h.takeEvents_eq]
  cases plan.spec.rotation plan.timestamps plan.fresh (min limit plan.remaining) <;>
    simp [Except.map]

theorem Rotating.takeEvents_eq_ok_iff {plan later : Plan} (h : plan.Rotating) {limit : Nat}
    {events : List Event} :
    plan.takeEvents limit = .ok (events, later) ↔
      plan.spec.rotation plan.timestamps plan.fresh (min limit plan.remaining) = .ok events ∧
        plan.past (min limit plan.remaining) = later := by
  rw [h.takeEvents_eq]
  cases plan.spec.rotation plan.timestamps plan.fresh (min limit plan.remaining) <;>
    simp [Except.map]

/-! ## All events -/

theorem events_eq_ok_iff {plan : Plan} {events : List Event} :
    plan.events = .ok events ↔
      ∃ writes, plan.steps = .ok writes ∧ writes.flatMap Step.events = events := by
  rw [Plan.events]
  cases plan.steps <;> simp [Except.map]

theorem events_of_next {plan later : Plan} {step : Step}
    (h : plan.next = .ok (some (step, later))) :
    plan.events = later.events.map (step.events ++ ·) := by
  rw [events, events, steps_of_next h]
  cases later.steps <;> rfl

/-- If `next` fails, some `takeEvents` fails. -/
theorem exists_takeEvents_of_next_error {plan : Plan} {e : Payload.TooLarge}
    (h : plan.next = .error e) : ∃ limit, plan.takeEvents limit = .error e := by
  unfold next at h
  split at h
  · -- The events of a write in fragments are taken together.
    next frames mode _ =>
    refine ⟨plan.quota frames, ?_⟩
    split at h
    · next htake => rw [htake, Except.error.inj h]
    · cases h
    · cases h
  · -- Any other write is a single event.
    refine ⟨1, ?_⟩
    split at h
    · next hevent => rw [takeEvents, hevent, Except.error.inj h]
    · cases h
    · cases h

/-- Every `next` is a `takeEvents`, after which some of `random` is used up. -/
theorem exists_takeEvents_of_next {plan later : Plan} {step : Step}
    (h : plan.next = .ok (some (step, later))) :
    ∃ limit taken random, plan.takeEvents limit = .ok (step.events, taken) ∧
      later = { taken with random } := by
  obtain ⟨frames, mode, taken, -, htake, -, -, rfl⟩ | ⟨-, event, hevent, rfl⟩ := next_cases h
  · exact ⟨_, taken, _, htake, rfl⟩
  · exact ⟨1, later, later.random, by rw [takeEvents, hevent]; rfl, rfl⟩

/-- If `next` fails in a plan that is `Rotating`, a beginning of what is left of the `rotation`
fails alike. -/
theorem Rotating.of_next_error {plan : Plan} {e : Payload.TooLarge} (h : plan.Rotating)
    (hnext : plan.next = .error e) :
    ∃ count more, plan.remaining = count + more ∧
      plan.spec.rotation plan.timestamps plan.fresh count = .error e := by
  obtain ⟨limit, htake⟩ := exists_takeEvents_of_next_error hnext
  refine ⟨min limit plan.remaining, plan.remaining - min limit plan.remaining, by omega, ?_⟩
  exact h.takeEvents_eq_error_iff.mp htake

/-- A step of a plan that is `Rotating` holds the next events of the `rotation`. -/
theorem Rotating.of_next {plan later : Plan} {step : Step} (h : plan.Rotating)
    (hnext : plan.next = .ok (some (step, later))) :
    ∃ count random, later = { plan.past count with random } ∧
      plan.remaining = count + later.remaining ∧
      plan.spec.rotation plan.timestamps plan.fresh count = .ok step.events := by
  obtain ⟨limit, taken, random, htake, rfl⟩ := exists_takeEvents_of_next hnext
  obtain ⟨hrotation, rfl⟩ := h.takeEvents_eq_ok_iff.mp htake
  have hrest := past_remaining plan (min limit plan.remaining)
  refine ⟨min limit plan.remaining, random, rfl, ?_, hrotation⟩
  simp only [remaining] at hrest ⊢
  omega

/-- The `events` of a plan that is `Rotating` are what is left of the `rotation`, however they are
grouped. -/
theorem Rotating.events_eq {plan : Plan} (h : plan.Rotating) :
    plan.events = plan.spec.rotation plan.timestamps plan.fresh plan.remaining := by
  induction hremaining : plan.remaining using Nat.strongRecOn generalizing plan with
  | ind remaining ih =>
    rcases hnext : plan.next with e | _ | ⟨step, later⟩
    · -- A rotation that fails in a part of it fails as a whole.
      obtain ⟨count, more, hsum, hrotation⟩ := h.of_next_error hnext
      rw [← hremaining, hsum, Scenario.Spec.rotation_add, hrotation, events, steps_of_error hnext]
      rfl
    · have hzero := next_eq_none_iff.mp hnext
      rw [← hremaining, hzero, events, steps_of_remaining_eq_zero hzero]
      rfl
    · obtain ⟨count, random, rfl, hsum, hrotation⟩ := h.of_next hnext
      have hlt := remaining_of_next hnext
      -- The random numbers that the shape used up change nothing in the rotation.
      have hlater : Rotating { plan.past count with random } :=
        ⟨h.rotates, h.window, (h.past count).readings⟩
      have hrest := ih _ (hremaining ▸ hlt) hlater rfl
      rw [← hremaining, hsum, Scenario.Spec.rotation_add, hrotation, events_of_next hnext, hrest]
      rfl

/-- The `events` of a spec that `Rotates` without a `window?` are its `rotation`. -/
theorem events_start {spec : Scenario.Spec} (h : spec.Rotates) (hwindow : spec.window? = none)
    (timestamps : Nat → Int) :
    (start spec timestamps).events = spec.rotation timestamps 0 spec.count.toNat := by
  have hrotating : (start spec timestamps).Rotating := ⟨h, hwindow, rfl⟩
  rw [hrotating.events_eq, remaining_start]
  rfl

end Plan

end Volley
