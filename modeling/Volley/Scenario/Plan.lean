import Volley.Event
import Volley.Payload.Body
import Volley.Saturate
import Volley.Scenario.Spec

/-!
# Plans

A plan hands out the events of a scenario, one write at a time, and builds each event only when it
is needed. A fresh event depends on its place among the fresh events, on the random numbers drawn
so far, and on the time, which is read once for each; an event that is sent again is the very event
that was sent before.
-/

namespace Volley

/-- How the bytes of one write are put on the wire. -/
inductive WriteShape where
  /-- One frame as one write. -/
  | perFrame
  /-- Several frames as one write. -/
  | sticky
  /-- Several frames as two writes, the first of `cut` bytes. -/
  | split (cut : Nat)
  deriving DecidableEq, Repr

/-- The events of one write. -/
structure Step where
  events : List Event
  shape : WriteShape
  deriving DecidableEq, Repr

/-- The length of the frames of a write: the sum of `Event.encodedLength`. -/
def Step.encodedLength (step : Step) : Nat :=
  (step.events.map Event.encodedLength).foldr (· + ·) 0

/-- The events of a scenario that have not been handed out. -/
structure Plan where
  spec : Scenario.Spec
  /-- What the clock says each time it is read, in milliseconds. -/
  timestamps : Nat → Int
  /-- The number of times that the clock has been read. -/
  readings : Nat
  /-- The number of events handed out. -/
  emitted : Nat
  /-- The number of fresh events among them. -/
  fresh : Nat
  /-- The number of fresh events since one was last sent again. -/
  window : Nat
  /-- The first of these. -/
  head : Option Event
  random : Random

namespace Plan

/-- The plan of `spec`, with nothing handed out, and with the random numbers of its `seed`. -/
def start (spec : Scenario.Spec) (timestamps : Nat → Int) : Plan where
  spec
  timestamps
  readings := 0
  emitted := 0
  fresh := 0
  window := 0
  head := none
  random := .ofSeed spec.seed

/-- The number of events that have not been handed out: `count` less those `emitted`. -/
def remaining (plan : Plan) : Nat :=
  plan.spec.count.toNat - plan.emitted

end Plan

namespace Scenario.Spec

/-- The topic number `index` counted round and round through the family. -/
def topicAt (spec : Spec) (index : Nat) : String :=
  spec.topics.topics.getD (index % spec.topics.topics.length) ""

/-- The id of fresh event number `index`: `idBase + index`, by `saturate`. -/
def idAt (spec : Spec) (index : Nat) : UInt64 :=
  saturate (spec.idBase.toNat + index)

/-- The place of fresh event number `index` in the sequence of pairs that a sweep goes through. -/
def pairAt (spec : Spec) (repeats : UInt32) (index : Nat) : Nat :=
  index / max repeats.toNat 1 % spec.topics.pairs

/-- The tier, the topic and the payload size of fresh event number `index`, and the random numbers
that are left after choosing them. -/
def choices (spec : Spec) (index : Nat) (random : Random) :
    (Priority × String × UInt64) × Random :=
  let turn := (spec.idAt index).toNat
  match spec.strategy with
  | .sweep repeats =>
    let pair := spec.pairAt repeats index
    ((Priority.rotating (pair / max spec.topics.topics.length 1), spec.topicAt pair,
      spec.sizes.cycle index), random)
  | .burst | .duplicates _ | .fragmented _ _ =>
    ((Priority.rotating turn, spec.topicAt turn, spec.sizes.cycle index), random)
  | .overflow priority _ => ((priority, spec.topicAt index, spec.sizes.cycle index), random)
  | .chaos =>
    let (priority, random) := random.choose? Priority.all
    let (topic, random) := random.choose? spec.topics.topics
    let (size, random) := spec.sizes.pick random
    ((priority.getD .medium, topic.getD "", size), random)
  | .tiered =>
    let topic := spec.topicAt index
    let priority := (Topic.priority? topic).getD (Priority.rotating index)
    ((priority, topic, spec.sizes.cycle index), random)

end Scenario.Spec

namespace Plan

/-- Builds the next fresh event by `choices` and `Payload.body`; the clock is read once for it. -/
def freshEvent (plan : Plan) : Except Payload.TooLarge (Event × Plan) :=
  let ((priority, topic, size), random) := plan.spec.choices plan.fresh plan.random
  let id := plan.spec.idAt plan.fresh
  match Payload.body id (plan.timestamps plan.readings) priority size.toNat with
  | .error e => .error e
  | .ok payload =>
    .ok ({ id, priority, topic, payload },
      { plan with readings := plan.readings + 1, fresh := plan.fresh + 1, random })

/-- Builds the next fresh event and counts it towards the window of `interval` events after which
its first one is sent again. -/
def freshInWindow (plan : Plan) : Except Payload.TooLarge (Event × Plan) :=
  match plan.freshEvent with
  | .error e => .error e
  | .ok (event, later) =>
    .ok (event, { later with
      window := plan.window + 1
      head := if plan.window = 0 then some event else plan.head })

/-- Hands out one event: by `freshEvent` or `freshInWindow`, or the `head` of a full window again.
-/
def nextEvent (plan : Plan) : Except Payload.TooLarge (Option (Event × Plan)) :=
  if plan.emitted ≥ plan.spec.count.toNat then .ok none
  else
    let plan := { plan with emitted := plan.emitted + 1 }
    match plan.spec.strategy with
    | .duplicates interval =>
      if plan.window ≥ max interval.toNat 1 then
        -- The window is full: its head goes out again and a new window begins.
        match plan.head with
        | some event => .ok (some (event, { plan with window := 0, head := none }))
        | none => ({ plan with window := 0 }.freshInWindow).map some
      else plan.freshInWindow.map some
    | _ => plan.freshEvent.map some

/-- Hands out up to `limit` events. -/
def takeEvents : (limit : Nat) → Plan → Except Payload.TooLarge (List Event × Plan)
  | 0, plan => .ok ([], plan)
  | limit + 1, plan =>
    match plan.nextEvent with
    | .error e => .error e
    | .ok none => .ok ([], plan)
    | .ok (some (event, plan)) =>
      match takeEvents limit plan with
      | .error e => .error e
      | .ok (events, plan) => .ok (event :: events, plan)

/-- The number of events for one write of `frames` frames. A single event that would be left over
goes along with the last full write. -/
def quota (plan : Plan) (frames : UInt64) : Nat :=
  let full := max frames.toNat 1
  if plan.remaining = full + 1 then full + 1 else full

/-- Chooses how a write of several frames goes on the wire; with the mode `.split` the cut is drawn
from `random`. -/
def shapeOf (mode : Scenario.FragmentMode) (total : Nat) (random : Random) : WriteShape × Random :=
  match mode with
  | .sticky => (.sticky, random)
  | .split =>
    let (cut, random) := random.below64 (total - 1)
    (.split (cut + 1), random)

/-- Hands out the events of the next write; `none` when there are no more. -/
def next (plan : Plan) : Except Payload.TooLarge (Option (Step × Plan)) :=
  match plan.spec.strategy with
  | .fragmented frames mode =>
    match plan.takeEvents (plan.quota frames) with
    | .error e => .error e
    | .ok ([], _) => .ok none
    | .ok (event :: events, plan) =>
      let total := (Step.mk (event :: events) .sticky).encodedLength
      let (shape, random) := shapeOf mode total plan.random
      .ok (some (⟨event :: events, shape⟩, { plan with random }))
  | _ =>
    match plan.nextEvent with
    | .error e => .error e
    | .ok none => .ok none
    | .ok (some (event, plan)) => .ok (some (⟨[event], .perFrame⟩, plan))

/-- The next writes, up to `limit` of them, each with the plan after it. -/
def pull : (limit : Nat) → Plan → Except Payload.TooLarge (List (Step × Plan))
  | 0, _ => .ok []
  | limit + 1, plan =>
    match plan.next with
    | .error e => .error e
    | .ok none => .ok []
    | .ok (some (step, plan)) =>
      match pull limit plan with
      | .error e => .error e
      | .ok rest => .ok ((step, plan) :: rest)

theorem spec_of_freshEvent {plan later : Plan} {event : Event}
    (h : plan.freshEvent = .ok (event, later)) :
    later.spec = plan.spec ∧ later.emitted = plan.emitted := by
  unfold freshEvent at h
  simp only at h
  split at h
  · cases h
  · cases h
    exact ⟨rfl, rfl⟩

theorem spec_of_freshInWindow {plan later : Plan} {event : Event}
    (h : plan.freshInWindow = .ok (event, later)) :
    later.spec = plan.spec ∧ later.emitted = plan.emitted := by
  unfold freshInWindow at h
  split at h
  · cases h
  · next hf =>
    cases h
    have := spec_of_freshEvent hf
    exact this

theorem ok_of_map_some {ε α : Type} {x : Except ε α} {a : α}
    (h : x.map some = .ok (some a)) : x = .ok a := by
  cases x with
  | error => cases h
  | ok => cases h; rfl

/-- A `nextEvent` adds one to `emitted`, which was below `count`, and leaves `spec` as it is. -/
theorem emitted_of_nextEvent {plan later : Plan} {event : Event}
    (h : plan.nextEvent = .ok (some (event, later))) :
    later.spec = plan.spec ∧ later.emitted = plan.emitted + 1 ∧
      plan.emitted < plan.spec.count.toNat := by
  unfold nextEvent at h
  split at h
  · cases h
  · next hlt =>
    have hlt : plan.emitted < plan.spec.count.toNat := by omega
    simp only at h
    split at h
    · split at h
      · split at h
        · cases h
          exact ⟨rfl, rfl, hlt⟩
        · have := spec_of_freshInWindow (ok_of_map_some h)
          exact ⟨this.1, this.2, hlt⟩
      · have := spec_of_freshInWindow (ok_of_map_some h)
        exact ⟨this.1, this.2, hlt⟩
    · have := spec_of_freshEvent (ok_of_map_some h)
      exact ⟨this.1, this.2, hlt⟩

theorem remaining_of_nextEvent {plan later : Plan} {event : Event}
    (h : plan.nextEvent = .ok (some (event, later))) : later.remaining + 1 = plan.remaining := by
  obtain ⟨hs, he, hl⟩ := emitted_of_nextEvent h
  unfold remaining
  rw [hs, he]
  omega

/-- The events that `takeEvents` hands out are no longer `remaining`. -/
theorem remaining_of_takeEvents {limit : Nat} {plan later : Plan} {events : List Event}
    (h : plan.takeEvents limit = .ok (events, later)) :
    later.remaining + events.length = plan.remaining := by
  induction limit generalizing plan later events with
  | zero =>
    cases h
    rfl
  | succ limit ih =>
    unfold takeEvents at h
    split at h
    · cases h
    · cases h
      rfl
    · next hn =>
      split at h
      · cases h
      · next ht =>
        cases h
        have h1 := ih ht
        have h2 := remaining_of_nextEvent hn
        simp only [List.length_cons]
        omega

/-- Every `next` leaves less `remaining`. -/
theorem remaining_of_next {plan later : Plan} {step : Step}
    (h : plan.next = .ok (some (step, later))) : later.remaining < plan.remaining := by
  unfold next at h
  split at h
  · split at h
    · cases h
    · cases h
    · next ht =>
      cases h
      have := remaining_of_takeEvents ht
      simp only [List.length_cons] at this
      simp only [remaining] at this ⊢
      omega
  · split at h
    · cases h
    · cases h
    · next hn =>
      cases h
      have := remaining_of_nextEvent hn
      omega

end Plan

end Volley
