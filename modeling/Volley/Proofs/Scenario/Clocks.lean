import Volley.Proofs.Scenario.Buildable
import Volley.Proofs.Scenario.Fresh

/-!
# Plans under different clocks

The clock is read for every fresh event, and what it says goes into the payload. It goes nowhere
else: the padding makes up for the digits of a timestamp, so a payload has its size under every
clock, frames have their lengths, and a write in two parts is cut with the same random number from
the same range. Two plans of one scenario therefore go on in step (`Plan.Alike`), although their
clocks may say anything at all.

## Main definitions

* `Event.outline`, `Step.outline`: an event and a write without the contents of payloads.
* `Plan.Alike`: two plans that differ in their clocks and in contents of payloads only.

## Main results

* `Plan.Alike.nextEvent`, `Plan.Alike.next`: such plans hand out alike and stay alike.
* `Plan.outlines_of_clocks`: the plans of one scenario under any two clocks.
-/

namespace Volley

/-! ## Outlines -/

/-- What is seen of an `Event` without looking into its payload. -/
structure Event.Outline where
  id : UInt64
  priority : Priority
  topic : String
  /-- The length of the payload. -/
  size : Nat
  deriving DecidableEq, Repr

def Event.outline (event : Event) : Event.Outline :=
  ⟨event.id, event.priority, event.topic, event.payload.length⟩

/-- The length of the frame of every event with this `Event.Outline`. -/
def Event.Outline.encodedLength (outline : Event.Outline) : Nat :=
  Frame.lengthFieldSize + Frame.bodyHeaderSize + outline.topic.utf8ByteSize + outline.size

@[simp]
theorem Event.encodedLength_outline (event : Event) :
    event.outline.encodedLength = event.encodedLength :=
  rfl

/-- The outlines of the events of a `Step`, with its shape. -/
structure Step.Outline where
  events : List Event.Outline
  shape : WriteShape
  deriving DecidableEq, Repr

namespace Step

def outline (step : Step) : Step.Outline :=
  ⟨step.events.map Event.outline, step.shape⟩

/-- The `encodedLength` of each event of a step. -/
def frameLengths (step : Step) : List Nat :=
  step.events.map Event.encodedLength

def Outline.frameLengths (outline : Step.Outline) : List Nat :=
  outline.events.map Event.Outline.encodedLength

@[simp]
theorem frameLengths_outline (step : Step) : step.outline.frameLengths = step.frameLengths := by
  simp [Outline.frameLengths, outline, frameLengths]

theorem encodedLength_eq_of_frameLengths {step step' : Step}
    (h : step.frameLengths = step'.frameLengths) : step.encodedLength = step'.encodedLength :=
  congrArg (List.foldr (· + ·) 0) h

/-- Writes with the same `outline` have the same `frameLengths`. -/
theorem map_frameLengths_of_outlines {writes writes' : List Step}
    (h : writes.map outline = writes'.map outline) :
    writes.map frameLengths = writes'.map frameLengths := by
  have hlengths := congrArg (List.map Outline.frameLengths) h
  simpa [Function.comp_def] using hlengths

end Step

namespace Plan

/-! ## Plans that go on in step -/

/-- Two plans with the same spec, counters and `random`. They may have any `timestamps` and
`readings`, and the events in `head` are the same up to their `Event.outline`. -/
structure Alike (plan plan' : Plan) : Prop where
  spec_eq : plan.spec = plan'.spec
  emitted_eq : plan.emitted = plan'.emitted
  fresh_eq : plan.fresh = plan'.fresh
  window_eq : plan.window = plan'.window
  head_eq : plan.head.map Event.outline = plan'.head.map Event.outline
  /-- A window that has begun has a head. -/
  head_ne_none : 0 < plan.window → plan.head ≠ none
  random_eq : plan.random = plan'.random

theorem Alike.start (spec : Scenario.Spec) (timestamps timestamps' : Nat → Int) :
    (Plan.start spec timestamps).Alike (Plan.start spec timestamps') :=
  ⟨rfl, rfl, rfl, rfl, rfl, fun hpos => absurd hpos (Nat.lt_irrefl 0), rfl⟩

namespace Alike

variable {plan plan' later later' : Plan} {event event' : Event}

theorem remaining_eq (h : plan.Alike plan') : plan.remaining = plan'.remaining := by
  rw [remaining, remaining, h.spec_eq, h.emitted_eq]

theorem quota_eq (h : plan.Alike plan') (frames : UInt64) :
    plan.quota frames = plan'.quota frames := by
  rw [quota, quota, h.remaining_eq]

/-- Where `window` is positive, both plans have a `head`, with the same `Event.outline`. -/
theorem exists_head (h : plan.Alike plan') (hpos : 0 < plan.window) :
    ∃ first first', plan.head = some first ∧ plan'.head = some first' ∧
      first.outline = first'.outline := by
  obtain ⟨first, hfirst⟩ := Option.ne_none_iff_exists'.mp (h.head_ne_none hpos)
  have hhead := h.head_eq
  rw [hfirst, Option.map_some, eq_comm, Option.map_eq_some_iff] at hhead
  obtain ⟨first', hfirst', houtline⟩ := hhead
  exact ⟨first, first', hfirst, hfirst', houtline.symm⟩

/-- The fresh events of two plans that are `Alike` have the same `Event.outline`: the payload has
the size that was chosen, whatever the clock says. -/
theorem freshEvent (h : plan.Alike plan') (hfresh : plan.freshEvent = .ok (event, later))
    (hfresh' : plan'.freshEvent = .ok (event', later')) :
    event.outline = event'.outline ∧ later.Alike later' := by
  obtain ⟨hid, random, rfl⟩ := eq_of_freshEvent hfresh
  obtain ⟨hid', random', rfl⟩ := eq_of_freshEvent hfresh'
  obtain ⟨size, hchosen, hbody⟩ := parts_of_freshEvent hfresh
  obtain ⟨size', hchosen', hbody'⟩ := parts_of_freshEvent hfresh'
  -- The same tier, topic and size are chosen, and the same random numbers are left.
  rw [h.spec_eq, h.fresh_eq, h.random_eq, hchosen'] at hchosen
  simp only [Prod.mk.injEq] at hchosen
  obtain ⟨⟨hpriority, htopic, hsize⟩, hrandom⟩ := hchosen
  rw [h.spec_eq, h.fresh_eq, ← hid'] at hid
  have hlength : event.payload.length = event'.payload.length := by
    rw [Payload.length_of_body hbody, Payload.length_of_body hbody', hsize]
  refine ⟨?_, h.spec_eq, h.emitted_eq, congrArg (· + 1) h.fresh_eq, h.window_eq, h.head_eq,
    h.head_ne_none, hrandom.symm⟩
  rw [Event.outline, Event.outline, hid, hpriority, htopic, hlength]

/-- By `nextEvent` two plans that are `Alike` both hand out a fresh event or both send the `head`
again, with the same `Event.outline`. -/
theorem nextEvent (h : plan.Alike plan') (hnext : plan.nextEvent = .ok (some (event, later)))
    (hnext' : plan'.nextEvent = .ok (some (event', later'))) :
    event.outline = event'.outline ∧ later.Alike later' := by
  have hemitted : plan.emitted + 1 = plan'.emitted + 1 := congrArg (· + 1) h.emitted_eq
  -- The strategy and the window say which of the cases it is, and the plans agree in both.
  have hcases := cases_of_nextEvent hnext'
  rw [← h.spec_eq, ← h.window_eq] at hcases
  rcases cases_of_nextEvent hnext with ⟨hnone, built, hfresh, rfl⟩ |
    ⟨n, hn, hroom, built, hfresh, rfl⟩ | ⟨n, hn, hfull, hagain⟩
  · simp only [hnone, reduceCtorEq, false_and, exists_false, or_false, true_and] at hcases
    obtain ⟨built', hfresh', rfl⟩ := hcases
    obtain ⟨houtline, halike⟩ := h.freshEvent hfresh hfresh'
    exact ⟨houtline, { halike with emitted_eq := hemitted }⟩
  · simp only [hn, reduceCtorEq, false_and, false_or, Option.some.injEq, exists_eq_left', hroom,
      Nat.not_le.mpr hroom, or_false, true_and] at hcases
    obtain ⟨built', hfresh', rfl⟩ := hcases
    obtain ⟨houtline, halike⟩ := h.freshEvent hfresh hfresh'
    refine ⟨houtline, halike.spec_eq, hemitted, halike.fresh_eq, rfl, ?_, fun _ => ?_,
      halike.random_eq⟩
    · simp only
      split
      · exact congrArg some houtline
      · exact h.head_eq
    · simp only
      split
      · exact Option.some_ne_none event
      · next hbegun => exact h.head_ne_none (Nat.pos_of_ne_zero hbegun)
  · simp only [hn, reduceCtorEq, false_and, false_or, Option.some.injEq, exists_eq_left', hfull,
      Nat.not_lt.mpr hfull, true_and] at hcases
    obtain ⟨interval, -, hmax⟩ := Scenario.Spec.exists_of_window? hn
    have hpos : 0 < plan.window := by omega
    obtain ⟨first, first', hfirst, hfirst', houtline⟩ := h.exists_head hpos
    obtain ⟨rfl, rfl⟩ := hagain first hfirst
    obtain ⟨rfl, rfl⟩ := hcases first' hfirst'
    exact ⟨houtline, rfl, hemitted, h.fresh_eq, rfl, rfl,
      fun hzero => absurd hzero (Nat.lt_irrefl 0), h.random_eq⟩

theorem nextEvent_eq_none_iff (h : plan.Alike plan') :
    plan.nextEvent = .ok none ↔ plan'.nextEvent = .ok none := by
  rw [Plan.nextEvent_eq_none_iff, Plan.nextEvent_eq_none_iff, h.remaining_eq]

/-- By `takeEvents` two plans that are `Alike` hand out as many events, with the same outlines one
by one. -/
theorem takeEvents {limit : Nat} {events events' : List Event} (h : plan.Alike plan')
    (htake : plan.takeEvents limit = .ok (events, later))
    (htake' : plan'.takeEvents limit = .ok (events', later')) :
    events.map Event.outline = events'.map Event.outline ∧ later.Alike later' := by
  induction limit generalizing plan plan' events events' with
  | zero =>
    cases htake
    cases htake'
    exact ⟨rfl, h⟩
  | succ limit ih =>
    -- As many events remain in both plans, so they run out together.
    obtain ⟨hnone, rfl, rfl⟩ | ⟨event, next, rest, hnext, hrest, rfl⟩ := takeEvents_succ_cases htake
    · obtain ⟨-, rfl, rfl⟩ | ⟨event', next', rest', hnext', -⟩ := takeEvents_succ_cases htake'
      · exact ⟨rfl, h⟩
      · rw [h.nextEvent_eq_none_iff.mp hnone] at hnext'
        cases hnext'
    · obtain ⟨hnone', -⟩ | ⟨event', next', rest', hnext', hrest', rfl⟩ :=
        takeEvents_succ_cases htake'
      · rw [h.nextEvent_eq_none_iff.mpr hnone'] at hnext
        cases hnext
      · obtain ⟨houtline, hnextAlike⟩ := h.nextEvent hnext hnext'
        obtain ⟨hmap, hlater⟩ := ih hnextAlike hrest hrest'
        refine ⟨?_, hlater⟩
        simp [houtline, hmap]

/-- Plans are `Alike` whatever `random` is, if it is the same in both. -/
theorem withRandom (h : plan.Alike plan') (random : Random) :
    Alike { plan with random } { plan' with random } :=
  ⟨h.spec_eq, h.emitted_eq, h.fresh_eq, h.window_eq, h.head_eq, h.head_ne_none, rfl⟩

/-- The steps that `next` makes of two plans that are `Alike` have the same `Step.outline`. The cut
of a write in two parts is drawn with the same `random` from a range that depends on its
`encodedLength` only. -/
theorem next {step step' : Step} (h : plan.Alike plan')
    (hnext : plan.next = .ok (some (step, later)))
    (hnext' : plan'.next = .ok (some (step', later'))) :
    step.outline = step'.outline ∧ later.Alike later' := by
  obtain ⟨frames, mode, taken, hstrategy, htake, -, hshape, rfl⟩ | ⟨hplain, event, hevent, rfl⟩ :=
    next_cases hnext
  · obtain ⟨frames', mode', taken', hstrategy', htake', -, hshape', rfl⟩ | ⟨hplain', -⟩ :=
      next_cases hnext'
    · rw [← h.spec_eq, hstrategy] at hstrategy'
      cases hstrategy'
      rw [h.quota_eq] at htake
      obtain ⟨hevents, hlater⟩ := h.takeEvents htake htake'
      -- Events that are alike have equally long frames, so the cut is drawn from one range.
      have hlengths : step.frameLengths = step'.frameLengths := by
        have hmap := congrArg (List.map Event.Outline.encodedLength) hevents
        simpa [Step.frameLengths, Function.comp_def] using hmap
      rw [Step.encodedLength_eq_of_frameLengths hlengths, hlater.random_eq] at hshape ⊢
      refine ⟨?_, hlater.withRandom _⟩
      rw [Step.outline, Step.outline, hevents, hshape, hshape']
    · rw [h.spec_eq] at hstrategy
      exact absurd hstrategy (hplain' frames mode)
  · obtain ⟨frames', mode', -, hstrategy', -⟩ | ⟨-, event', hevent', rfl⟩ := next_cases hnext'
    · rw [← h.spec_eq] at hstrategy'
      exact absurd hstrategy' (hplain frames' mode')
    · obtain ⟨houtline, hlater⟩ := h.nextEvent hevent hevent'
      refine ⟨?_, hlater⟩
      simp [Step.outline, houtline]

theorem next_eq_none_iff (h : plan.Alike plan') :
    plan.next = .ok none ↔ plan'.next = .ok none := by
  rw [Plan.next_eq_none_iff, Plan.next_eq_none_iff, h.remaining_eq]

/-- All `steps` of two plans that are `Alike` have the same outlines. -/
theorem steps {writes writes' : List Step} (h : plan.Alike plan') (hsteps : plan.steps = .ok writes)
    (hsteps' : plan'.steps = .ok writes') :
    writes.map Step.outline = writes'.map Step.outline := by
  -- The writes of the first plan are followed, and those of the second one keep up with them.
  induction writes generalizing plan plan' writes' with
  | nil =>
    obtain ⟨hnone, -⟩ | ⟨_, _, _, -, hcons, -⟩ := steps_cases hsteps
    · obtain ⟨-, rfl⟩ | ⟨_, _, _, hnext', -⟩ := steps_cases hsteps'
      · rfl
      · rw [h.next_eq_none_iff.mp hnone] at hnext'
        cases hnext'
    · cases hcons
  | cons step rest ih =>
    obtain ⟨-, hnil⟩ | ⟨_, later, _, hnext, hcons, hrest⟩ := steps_cases hsteps
    · cases hnil
    cases hcons
    obtain ⟨hnone', -⟩ | ⟨step', later', rest', hnext', rfl, hrest'⟩ := steps_cases hsteps'
    · rw [h.next_eq_none_iff.mpr hnone'] at hnext
      cases hnext
    · obtain ⟨houtline, hlater⟩ := h.next hnext hnext'
      simp [houtline, ih hlater hrest hrest']

end Alike

/-- The clock influences the contents of payloads and nothing else. The `steps` of one spec under
any two `timestamps` are as many, with the same `Step.outline` one by one, the shape with its cut
included, and with the same `frameLengths` and `encodedLength`. They can be built under every clock
if all sizes are within `Payload.maxPadding`. -/
theorem outlines_of_clocks (spec : Scenario.Spec) (timestamps timestamps' : Nat → Int) :
    ((∀ size ∈ spec.sizes.toList, size.toNat ≤ Payload.maxPadding) →
        ∃ writes writes', (start spec timestamps).steps = .ok writes ∧
          (start spec timestamps').steps = .ok writes') ∧
      ∀ writes writes', (start spec timestamps).steps = .ok writes →
        (start spec timestamps').steps = .ok writes' →
        writes.length = writes'.length ∧
          writes.map Step.outline = writes'.map Step.outline ∧
          writes.map Step.frameLengths = writes'.map Step.frameLengths ∧
          writes.map Step.encodedLength = writes'.map Step.encodedLength := by
  refine ⟨fun hsizes => ?_, fun writes writes' hwrites hwrites' => ?_⟩
  · obtain ⟨writes, hwrites⟩ := exists_steps hsizes timestamps
    obtain ⟨writes', hwrites'⟩ := exists_steps hsizes timestamps'
    exact ⟨writes, writes', hwrites, hwrites'⟩
  · have houtlines := (Alike.start spec timestamps timestamps').steps hwrites hwrites'
    have hlengths := Step.map_frameLengths_of_outlines houtlines
    refine ⟨?_, houtlines, hlengths, ?_⟩
    · simpa using congrArg List.length houtlines
    · have hsums := congrArg (List.map (List.foldr (· + ·) 0)) hlengths
      rw [List.map_map, List.map_map] at hsums
      exact hsums

/-- Seven events in fragments, under a clock that counts from zero and under one that stands at the
`lowest` time: the first `Payload.object` has different lengths, which the padding makes equal. -/
theorem outlines_of_clocks_at_lowest :
    ∃ (spec : Scenario.Spec) (lowest : Int) (writes writes' : List Step),
      spec = ⟨"fragmented", .fragmented 3 .split, .stream, 7, .single 96, .load, 42, .zero, 30000⟩ ∧
      lowest = -9223372036854775808 ∧
      (∀ size ∈ spec.sizes.toList, size.toNat ≤ Payload.maxPadding) ∧
      (start spec fun k => k).steps = .ok writes ∧
      (start spec fun _ => lowest).steps = .ok writes' ∧
      (Payload.object 30000 0 .critical 0).length ≠
        (Payload.object 30000 lowest .critical 0).length ∧
      writes.map Step.outline = writes'.map Step.outline ∧
      writes.map Step.encodedLength = writes'.map Step.encodedLength := by
  let spec : Scenario.Spec :=
    ⟨"fragmented", .fragmented 3 .split, .stream, 7, .single 96, .load, 42, .zero, 30000⟩
  have hroomy : spec.Roomy := Scenario.Spec.roomy_of_single rfl (by decide)
  obtain ⟨hbuilt, hall⟩ := outlines_of_clocks spec (fun k => k) fun _ => -9223372036854775808
  obtain ⟨writes, writes', hwrites, hwrites'⟩ := hbuilt hroomy.le_maxPadding
  obtain ⟨-, houtlines, -, hlengths⟩ := hall writes writes' hwrites hwrites'
  exact ⟨spec, _, writes, writes', rfl, rfl, hroomy.le_maxPadding, hwrites, hwrites',
    by decide, houtlines, hlengths⟩

end Plan

end Volley
