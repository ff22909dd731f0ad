import Volley.Proofs.Frame.Sequence
import Volley.Proofs.Random
import Volley.Scenario.Plan

/-!
# The writes of a plan

A plan ends: each write takes at least one event off what remains, and there is a next write exactly
as long as something remains. All writes of a plan are therefore a list (`Plan.steps`), whose events
are as many as remain, and statements about a plan go by induction on this list
(`Plan.steps_cases`), or event by event (`Plan.exists_of_steps`).

## Main definitions

* `Plan.steps`: the writes that a plan still has to hand out.
* `Plan.Yields`: these are the writes, and each of their events can be encoded.

## Main results

* `Plan.next_eq_none_iff`, `Plan.remaining_add_length_of_next`: the plan hands out what remains.
* `Plan.cut_of_next`: a write in two parts is cut inside its bytes.
* `Plan.exists_of_steps`: what every event keeps holds of all writes.
* `Plan.length_events_of_steps`: the writes hold the events that remain.
-/

namespace Volley

/-- The `encodedLength` of a step with events is at least two, so there is a place to cut it at. -/
theorem Step.one_lt_encodedLength {step : Step} (h : step.events ≠ []) :
    1 < step.encodedLength := by
  obtain ⟨event, events, hevents⟩ := List.exists_cons_of_ne_nil h
  simp only [encodedLength, hevents, List.map_cons, List.foldr_cons, Event.encodedLength,
    Frame.lengthFieldSize, Frame.bodyHeaderSize]
  omega

namespace Plan

/-! ## One write -/

/-- The id of a `freshEvent` is `idAt` of `fresh`, and only `readings`, `fresh` and `random` change.
-/
theorem eq_of_freshEvent {plan later : Plan} {event : Event}
    (h : plan.freshEvent = .ok (event, later)) :
    event.id = plan.spec.idAt plan.fresh ∧
      ∃ random, later =
        { plan with readings := plan.readings + 1, fresh := plan.fresh + 1, random } := by
  unfold freshEvent at h
  simp only at h
  split at h
  · cases h
  · cases h
    exact ⟨rfl, _, rfl⟩

/-- A `freshEvent` is made of its `choices`, and its payload is `Payload.body` at the next time of
`timestamps`. -/
theorem parts_of_freshEvent {plan later : Plan} {event : Event}
    (h : plan.freshEvent = .ok (event, later)) :
    ∃ size, plan.spec.choices plan.fresh plan.random =
        ((event.priority, event.topic, size), later.random) ∧
      Payload.body event.id (plan.timestamps plan.readings) event.priority size.toNat =
        .ok event.payload := by
  unfold freshEvent at h
  simp only at h
  split at h
  · cases h
  · next payload hpayload =>
    cases h
    exact ⟨_, rfl, hpayload⟩

/-- There is no `nextEvent` exactly if nothing is `remaining`. -/
theorem nextEvent_eq_none_iff {plan : Plan} : plan.nextEvent = .ok none ↔ plan.remaining = 0 := by
  have hmap : ∀ x : Except Payload.TooLarge (Event × Plan), x.map some ≠ .ok none := by
    intro x h
    cases x <;> cases h
  unfold nextEvent remaining
  by_cases hend : plan.emitted ≥ plan.spec.count.toNat
  · rw [if_pos hend]
    exact ⟨fun _ => by omega, fun _ => rfl⟩
  · -- Before the end every branch gives an event or fails.
    rw [if_neg hend]
    refine ⟨fun h => ?_, fun h => by omega⟩
    simp only at h
    split at h
    · split at h
      · split at h
        · cases h
        · exact absurd h (hmap _)
      · exact absurd h (hmap _)
    · exact absurd h (hmap _)

/-- Either `nextEvent` is `none` and nothing is taken, or it is the first of `takeEvents`, and the
others come after it. -/
theorem takeEvents_succ_cases {limit : Nat} {plan later : Plan} {events : List Event}
    (h : plan.takeEvents (limit + 1) = .ok (events, later)) :
    (plan.nextEvent = .ok none ∧ events = [] ∧ later = plan) ∨
    (∃ event next rest, plan.nextEvent = .ok (some (event, next)) ∧
      next.takeEvents limit = .ok (rest, later) ∧ events = event :: rest) := by
  unfold takeEvents at h
  split at h
  · cases h
  · next hnone =>
    cases h
    exact Or.inl ⟨hnone, rfl, rfl⟩
  · next hnext =>
    split at h
    · cases h
    · next hrest =>
      cases h
      exact Or.inr ⟨_, _, _, hnext, hrest, rfl⟩

/-- By `takeEvents` nothing is taken only if `limit` or `remaining` is zero. -/
theorem eq_zero_of_takeEvents_nil {limit : Nat} {plan later : Plan}
    (h : plan.takeEvents limit = .ok ([], later)) : limit = 0 ∨ plan.remaining = 0 := by
  cases limit with
  | zero => exact Or.inl rfl
  | succ limit =>
    obtain ⟨hnone, -⟩ | ⟨_, _, _, -, -, hcons⟩ := takeEvents_succ_cases h
    · exact Or.inr (nextEvent_eq_none_iff.mp hnone)
    · cases hcons

/-- If nothing is `remaining`, `takeEvents` takes nothing. -/
theorem takeEvents_of_remaining_eq_zero {plan : Plan} (h : plan.remaining = 0) (limit : Nat) :
    plan.takeEvents limit = .ok ([], plan) := by
  cases limit with
  | zero => rfl
  | succ limit => rw [takeEvents, nextEvent_eq_none_iff.mpr h]

theorem quota_pos (plan : Plan) (frames : UInt64) : 0 < plan.quota frames := by
  unfold quota
  simp only
  split <;> omega

/-- What a step of `next` can be: the events of `takeEvents` in the shape that `shapeOf` chooses, if
the strategy is `.fragmented`, or one `nextEvent` on its own. -/
theorem next_cases {plan later : Plan} {step : Step} (h : plan.next = .ok (some (step, later))) :
    (∃ frames mode taken, plan.spec.strategy = .fragmented frames mode ∧
      plan.takeEvents (plan.quota frames) = .ok (step.events, taken) ∧ step.events ≠ [] ∧
      step.shape = (shapeOf mode step.encodedLength taken.random).1 ∧
      later = { taken with random := (shapeOf mode step.encodedLength taken.random).2 }) ∨
    ((∀ frames mode, plan.spec.strategy ≠ .fragmented frames mode) ∧
      ∃ event, plan.nextEvent = .ok (some (event, later)) ∧ step = ⟨[event], .perFrame⟩) := by
  unfold next at h
  split at h
  · next frames mode hstrategy =>
    split at h
    · cases h
    · cases h
    · next event events taken htake =>
      simp only [Except.ok.injEq, Option.some.injEq, Prod.mk.injEq] at h
      obtain ⟨rfl, rfl⟩ := h
      exact Or.inl ⟨frames, mode, taken, hstrategy, htake, List.cons_ne_nil _ _, rfl, rfl⟩
  · next hplain =>
    split at h
    · cases h
    · cases h
    · next event after hevent =>
      simp only [Except.ok.injEq, Option.some.injEq, Prod.mk.injEq] at h
      obtain ⟨rfl, rfl⟩ := h
      exact Or.inr ⟨hplain, event, hevent, rfl⟩

/-- There is no `next` write exactly if nothing is `remaining`. -/
theorem next_eq_none_iff {plan : Plan} : plan.next = .ok none ↔ plan.remaining = 0 := by
  constructor
  · intro h
    unfold next at h
    split at h
    · next frames mode _ =>
      split at h
      · cases h
      · next htake =>
        rcases eq_zero_of_takeEvents_nil htake with hquota | hremaining
        · -- Events are always asked for, so it is the plan that has none.
          have hpos := plan.quota_pos frames
          omega
        · exact hremaining
      · cases h
    · split at h
      · cases h
      · next hnone => exact nextEvent_eq_none_iff.mp hnone
      · cases h
  · intro h
    unfold next
    split
    · rw [takeEvents_of_remaining_eq_zero h]
    · rw [nextEvent_eq_none_iff.mpr h]

/-- A step of `next` has events. -/
theorem events_ne_nil_of_next {plan later : Plan} {step : Step}
    (h : plan.next = .ok (some (step, later))) : step.events ≠ [] := by
  obtain ⟨_, _, _, -, -, hne, -⟩ | ⟨-, event, -, rfl⟩ := next_cases h
  · exact hne
  · exact List.cons_ne_nil event []

/-- A step of `next` takes its events off what is `remaining`. -/
theorem remaining_add_length_of_next {plan later : Plan} {step : Step}
    (h : plan.next = .ok (some (step, later))) :
    later.remaining + step.events.length = plan.remaining := by
  obtain ⟨_, _, taken, -, htake, -, -, rfl⟩ | ⟨-, event, hevent, rfl⟩ := next_cases h
  · have hsum := remaining_of_takeEvents htake
    exact hsum
  · exact remaining_of_nextEvent hevent

/-- A `cut` in the shape of a step of `next` is strictly inside its `encodedLength`. -/
theorem cut_of_next {plan later : Plan} {step : Step} {cut : Nat}
    (h : plan.next = .ok (some (step, later))) (hshape : step.shape = .split cut) :
    0 < cut ∧ cut < step.encodedLength := by
  obtain ⟨_, mode, taken, -, -, hne, hchosen, -⟩ | ⟨-, event, -, rfl⟩ := next_cases h
  · have hlong := Step.one_lt_encodedLength hne
    cases mode with
    | sticky =>
      rw [hshape] at hchosen
      cases hchosen
    | split =>
      -- The draw stays below the last byte and is moved up by one, so no part is empty.
      have hcut := Random.below64_lt (Nat.sub_pos_of_lt hlong) taken.random
      rw [hshape] at hchosen
      simp only [shapeOf, WriteShape.split.injEq] at hchosen
      omega
  · cases hshape

/-! ## All writes -/

/-- The writes that a plan still has to hand out. There are at most as many as events `remaining`,
so `pull` is asked for that many. -/
def steps (plan : Plan) : Except Payload.TooLarge (List Step) :=
  (plan.pull plan.remaining).map fun pulled => pulled.map Prod.fst

/-- The `limit` of `pull` does not matter if it is at least `remaining`. -/
private theorem pull_eq {plan : Plan} {limit other : Nat} (hlimit : plan.remaining ≤ limit)
    (hother : plan.remaining ≤ other) : plan.pull limit = plan.pull other := by
  induction limit generalizing plan other with
  | zero =>
    cases other with
    | zero => rfl
    | succ other => rw [pull, pull, next_eq_none_iff.mpr (Nat.le_zero.mp hlimit)]
  | succ limit ih =>
    cases other with
    | zero => rw [pull, pull, next_eq_none_iff.mpr (Nat.le_zero.mp hother)]
    | succ other =>
      rw [pull, pull]
      cases hnext : plan.next with
      | error e => rfl
      | ok found =>
        cases found with
        | none => rfl
        | some pair =>
          obtain ⟨step, later⟩ := pair
          -- The write leaves fewer events, so both limits still cover them.
          have hlt := remaining_of_next hnext
          have hlater : later.remaining ≤ limit := by omega
          have hlater' : later.remaining ≤ other := by omega
          simp only
          rw [ih hlater hlater']

/-- If nothing is `remaining`, there are no `steps`. -/
theorem steps_of_remaining_eq_zero {plan : Plan} (h : plan.remaining = 0) :
    plan.steps = .ok [] := by
  rw [steps, h]
  rfl

/-- The `next` write comes before the `steps` of the plan after it. -/
theorem steps_of_next {plan later : Plan} {step : Step} (h : plan.next = .ok (some (step, later))) :
    plan.steps = later.steps.map (step :: ·) := by
  -- The limit for the writes after this one is at least the number of events after it.
  have hlt := remaining_of_next h
  obtain ⟨limit, hlimit⟩ := Nat.exists_eq_add_of_lt hlt
  have hpull : later.pull (later.remaining + limit) = later.pull later.remaining :=
    pull_eq (Nat.le_add_right _ _) (Nat.le_refl _)
  rw [steps, steps, hlimit, pull, h]
  simp only [hpull]
  cases later.pull later.remaining with
  | error e => rfl
  | ok pulled => rfl

/-- If `next` fails, so does `steps`. -/
theorem steps_of_error {plan : Plan} {e : Payload.TooLarge} (h : plan.next = .error e) :
    plan.steps = .error e := by
  cases hremaining : plan.remaining with
  | zero =>
    rw [next_eq_none_iff.mpr hremaining] at h
    cases h
  | succ limit =>
    rw [steps, hremaining, pull, h]
    rfl

/-- Either `next` is `none` and there are no `steps`, or it is the first of them, and the others are
those of the plan `later`. -/
theorem steps_cases {plan : Plan} {writes : List Step} (h : plan.steps = .ok writes) :
    (plan.next = .ok none ∧ writes = []) ∨
    (∃ step later rest, plan.next = .ok (some (step, later)) ∧ writes = step :: rest ∧
      later.steps = .ok rest) := by
  rcases hnext : plan.next with e | _ | ⟨step, later⟩
  · rw [steps_of_error hnext] at h
    cases h
  · rw [steps_of_remaining_eq_zero (next_eq_none_iff.mp hnext)] at h
    cases h
    exact Or.inl ⟨rfl, rfl⟩
  · rw [steps_of_next hnext] at h
    cases hlater : later.steps with
    | error e =>
      rw [hlater] at h
      cases h
    | ok rest =>
      rw [hlater] at h
      cases h
      exact Or.inr ⟨step, later, rest, rfl, rfl, hlater⟩

/-- An invariant `I` of the events handed out and the plan, which every `nextEvent` keeps, is kept
by `takeEvents`. -/
theorem of_takeEvents {I : List Event → Plan → Prop}
    (hevent : ∀ {handed : List Event} {plan later : Plan} {event : Event}, I handed plan →
      plan.nextEvent = .ok (some (event, later)) → I (handed ++ [event]) later)
    {limit : Nat} {plan later : Plan} {handed events : List Event} (hstart : I handed plan)
    (h : plan.takeEvents limit = .ok (events, later)) : I (handed ++ events) later := by
  induction limit generalizing plan later handed events with
  | zero =>
    cases h
    rwa [List.append_nil]
  | succ limit ih =>
    obtain ⟨-, rfl, rfl⟩ | ⟨event, next, rest, hnext, hrest, rfl⟩ := takeEvents_succ_cases h
    · rwa [List.append_nil]
    · rw [← List.singleton_append, ← List.append_assoc]
      exact ih (hevent hstart hnext) hrest

/-- If every `nextEvent` keeps `I` whatever `random` is, so does `next`, by which some of `random`
is used up for the shape of the step. -/
theorem of_next {I : List Event → Plan → Prop}
    (hevent : ∀ {handed : List Event} {plan later : Plan} {event : Event}, I handed plan →
      plan.nextEvent = .ok (some (event, later)) → I (handed ++ [event]) later)
    (hrandom : ∀ {handed : List Event} {plan : Plan} (random : Random), I handed plan →
      I handed { plan with random })
    {plan later : Plan} {step : Step} {handed : List Event} (hstart : I handed plan)
    (h : plan.next = .ok (some (step, later))) : I (handed ++ step.events) later := by
  obtain ⟨_, _, taken, -, htaken, -, -, rfl⟩ | ⟨-, event, hone, rfl⟩ := next_cases h
  · exact hrandom _ (of_takeEvents hevent hstart htaken)
  · exact hevent hstart hone

/-- If every `nextEvent` keeps `I` whatever `random` is, it holds of the events of all `steps`, with
a plan of which nothing is `remaining`. -/
theorem exists_of_steps {I : List Event → Plan → Prop}
    (hevent : ∀ {handed : List Event} {plan later : Plan} {event : Event}, I handed plan →
      plan.nextEvent = .ok (some (event, later)) → I (handed ++ [event]) later)
    (hrandom : ∀ {handed : List Event} {plan : Plan} (random : Random), I handed plan →
      I handed { plan with random })
    {plan : Plan} {writes : List Step} (h : plan.steps = .ok writes) {handed : List Event}
    (hstart : I handed plan) :
    ∃ later, later.remaining = 0 ∧ I (handed ++ writes.flatMap Step.events) later := by
  induction writes generalizing plan handed with
  | nil =>
    obtain ⟨hnone, -⟩ | ⟨_, _, _, -, hcons, -⟩ := steps_cases h
    · refine ⟨plan, next_eq_none_iff.mp hnone, ?_⟩
      rwa [List.flatMap_nil, List.append_nil]
    · cases hcons
  | cons step rest ih =>
    obtain ⟨-, hnil⟩ | ⟨_, later, _, hnext, hcons, hlater⟩ := steps_cases h
    · cases hnil
    cases hcons
    rw [List.flatMap_cons, ← List.append_assoc]
    exact ih hlater (of_next hevent hrandom hstart hnext)

/-- The `steps` of the plan, of which each event can be encoded. -/
structure Yields (plan : Plan) (writes : List Step) : Prop where
  steps_eq : plan.steps = .ok writes
  encodable : ∀ step ∈ writes, ∀ event ∈ step.events, ∃ bytes, event.encode = .ok bytes

/-- Either nothing is left of a plan that `Yields` its writes, or there is a `next` step, whose
events have an encoding, and the plan `later` still `Yields` the others. -/
theorem Yields.cases {plan : Plan} {writes : List Step} (h : plan.Yields writes) :
    (plan.next = .ok none ∧ writes = []) ∨
    (∃ step later rest bytes, plan.next = .ok (some (step, later)) ∧ writes = step :: rest ∧
      Event.encodeAll step.events = .ok bytes ∧ later.Yields rest) := by
  rcases steps_cases h.steps_eq with hnone | ⟨step, later, rest, hnext, rfl, hlater⟩
  · exact Or.inl hnone
  · obtain ⟨bytes, hbytes⟩ := Event.exists_encodeAll (h.encodable step List.mem_cons_self)
    refine Or.inr ⟨step, later, rest, bytes, hnext, rfl, hbytes, hlater, ?_⟩
    exact fun other hmem => h.encodable other (List.mem_cons_of_mem step hmem)

@[simp]
theorem remaining_start (spec : Scenario.Spec) (timestamps : Nat → Int) :
    (start spec timestamps).remaining = spec.count.toNat := by
  simp only [remaining, start, Nat.sub_zero]

/-- The events of all `steps` are as many as are `remaining`. -/
theorem length_events_of_steps {plan : Plan} {writes : List Step} (h : plan.steps = .ok writes) :
    (writes.flatMap Step.events).length = plan.remaining := by
  let I : List Event → Plan → Prop := fun handed later =>
    handed.length + later.remaining = plan.remaining
  have hevent : ∀ {handed : List Event} {earlier later : Plan} {event : Event}, I handed earlier →
      earlier.nextEvent = .ok (some (event, later)) → I (handed ++ [event]) later := by
    intro handed earlier later event hI hnext
    have hone := remaining_of_nextEvent hnext
    simp only [I, List.length_append, List.length_singleton] at hI ⊢
    omega
  obtain ⟨later, hzero, hsum⟩ := exists_of_steps hevent (fun _ hI => hI) h
    (show I [] plan from Nat.zero_add _)
  simpa only [I, hzero, List.nil_append, Nat.add_zero] using hsum

theorem Yields.length_events {plan : Plan} {writes : List Step} (h : plan.Yields writes) :
    (writes.flatMap Step.events).length = plan.remaining :=
  length_events_of_steps h.steps_eq

end Plan

end Volley
