import Mathlib.Data.Nat.Count
import Volley.Proofs.Scenario.Steps

/-!
# Fresh events and events that are sent again

Which positions of a plan hold an event that is sent again depends on the strategy alone: with
duplicates, after every full window comes the first event of this window once more. All other events
are fresh, and the ids of the fresh events are counted from the base of the scenario, without a gap.
The invariant (`Plan.Numbered`) says this of the events that a plan has handed out, together with
what the plan keeps in mind of the window that is going on.

## Main definitions

* `Scenario.Spec.repeats`: the positions of the events that are sent again.
* `Scenario.Spec.freshBefore`: the number of fresh events before a position.
* `Plan.Numbered`: the events handed out are numbered as they should be.

## Main results

* `Plan.Numbered.nextEvent`: every event keeps the numbering.
* `Plan.numbered_of_steps`: the events of all writes are numbered as they should be.
* `Plan.Numbered.toNat_id`, `Plan.Numbered.eq_of_id_eq`: ids count the fresh events without a gap,
  and two events with one id are one event.
-/

namespace Volley

namespace Scenario.Spec

/-- The number of fresh events between two that are sent again, which is at least one, if the
strategy is `.duplicates`. -/
def window? (spec : Spec) : Option Nat :=
  match spec.strategy with
  | .duplicates interval => some (max interval.toNat 1)
  | _ => none

/-- Whether the event at `position` is one that is sent again: the last of every `n + 1` positions,
with a window of `n`. -/
def repeats (spec : Spec) (position : Nat) : Bool :=
  match spec.window? with
  | some n => position % (n + 1) == n
  | none => false

/-- The number of positions before `position` at which nothing `repeats`. -/
def freshBefore (spec : Spec) (position : Nat) : Nat :=
  Nat.count (fun earlier => spec.repeats earlier = false) position

theorem repeats_of_none {spec : Spec} (h : spec.window? = none) (position : Nat) :
    spec.repeats position = false := by
  rw [repeats, h]

theorem repeats_iff {spec : Spec} {n : Nat} (h : spec.window? = some n) (position : Nat) :
    spec.repeats position = true ↔ position % (n + 1) = n := by
  rw [repeats, h]
  exact beq_iff_eq

/-- Where an event `repeats`, the spec has a `window?`. -/
theorem exists_window?_of_repeats {spec : Spec} {position : Nat}
    (h : spec.repeats position = true) : ∃ n, spec.window? = some n := by
  cases hn : spec.window? with
  | none =>
    rw [repeats_of_none hn] at h
    cases h
  | some n => exact ⟨n, rfl⟩

/-- Only the strategy `.duplicates` has a `window?`. -/
theorem exists_of_window? {spec : Spec} {n : Nat} (h : spec.window? = some n) :
    ∃ interval, spec.strategy = .duplicates interval ∧ n = max interval.toNat 1 := by
  unfold window? at h
  split at h
  · next interval hstrategy =>
    cases h
    exact ⟨interval, hstrategy, rfl⟩
  · cases h

theorem freshBefore_succ (spec : Spec) (position : Nat) :
    spec.freshBefore (position + 1) =
      spec.freshBefore position + if spec.repeats position = false then 1 else 0 :=
  Nat.count_succ _ position

theorem freshBefore_succ_of_fresh {spec : Spec} {position : Nat}
    (h : spec.repeats position = false) :
    spec.freshBefore (position + 1) = spec.freshBefore position + 1 := by
  rw [freshBefore_succ, if_pos h]

theorem freshBefore_succ_of_repeats {spec : Spec} {position : Nat}
    (h : spec.repeats position = true) :
    spec.freshBefore (position + 1) = spec.freshBefore position := by
  rw [freshBefore_succ, h, if_neg Bool.true_eq_false.mp, Nat.add_zero]

/-- Two positions of fresh events have different values of `freshBefore`, in their order. -/
theorem freshBefore_lt {spec : Spec} {position later : Nat}
    (h : spec.repeats position = false) (hlt : position < later) :
    spec.freshBefore position < spec.freshBefore later :=
  Nat.count_strict_mono h hlt

theorem freshBefore_le (spec : Spec) (position : Nat) : spec.freshBefore position ≤ position :=
  Nat.count_le _

end Scenario.Spec

namespace Plan

/-- A `freshEvent` is the same whatever `emitted` is. -/
theorem freshEvent_counted (plan : Plan) (emitted : Nat) :
    freshEvent { plan with emitted } =
      plan.freshEvent.map fun (event, later) => (event, { later with emitted }) := by
  unfold freshEvent
  simp only
  cases Payload.body _ _ _ _ <;> rfl

/-- What `nextEvent` does to a plan: without a `window?` the event is fresh; with one it is fresh
and counted in `window`, or the window is full and its `head` goes out again. -/
theorem cases_of_nextEvent {plan later : Plan} {event : Event}
    (h : plan.nextEvent = .ok (some (event, later))) :
    (plan.spec.window? = none ∧ ∃ built, plan.freshEvent = .ok (event, built) ∧
      later = { built with emitted := plan.emitted + 1 }) ∨
    (∃ n, plan.spec.window? = some n ∧ plan.window < n ∧ ∃ built,
      plan.freshEvent = .ok (event, built) ∧
      later = { built with
        emitted := plan.emitted + 1
        window := plan.window + 1
        head := if plan.window = 0 then some event else plan.head }) ∨
    (∃ n, plan.spec.window? = some n ∧ n ≤ plan.window ∧
      ∀ first, plan.head = some first → event = first ∧
        later = { plan with emitted := plan.emitted + 1, window := 0, head := none }) := by
  -- The event is counted before it is built, which makes no difference to it.
  have hbuilt : ∀ {event : Event} {later : Plan},
      freshEvent { plan with emitted := plan.emitted + 1 } = .ok (event, later) →
      ∃ built, plan.freshEvent = .ok (event, built) ∧
        later = { built with emitted := plan.emitted + 1 } := by
    intro event later hfresh
    rw [freshEvent_counted] at hfresh
    cases hplain : plan.freshEvent with
    | error e =>
      rw [hplain] at hfresh
      cases hfresh
    | ok built =>
      rw [hplain] at hfresh
      cases hfresh
      exact ⟨built.2, rfl, rfl⟩
  unfold nextEvent at h
  split at h
  · cases h
  simp only at h
  split at h
  · next interval hstrategy =>
    have hwindow : plan.spec.window? = some (max interval.toNat 1) := by
      rw [Scenario.Spec.window?, hstrategy]
    right
    split at h
    · next hfull =>
      -- A full window has a head in every plan that is reached; without one nothing is said.
      right
      refine ⟨_, hwindow, hfull, fun first hfirst => ?_⟩
      rw [hfirst] at h
      cases h
      exact ⟨rfl, rfl⟩
    · next hroom =>
      left
      have hinWindow := ok_of_map_some h
      unfold freshInWindow at hinWindow
      split at hinWindow
      · cases hinWindow
      · next hfresh =>
        cases hinWindow
        obtain ⟨built, hplain, rfl⟩ := hbuilt hfresh
        exact ⟨_, hwindow, Nat.not_le.mp hroom, built, hplain, rfl⟩
  · next hstrategy =>
    left
    have hwindow : plan.spec.window? = none := by
      unfold Scenario.Spec.window?
      split
      · next interval hduplicates => exact absurd hduplicates (hstrategy interval)
      · rfl
    exact ⟨hwindow, hbuilt (ok_of_map_some h)⟩

/-- The events `handed` out by a plan are numbered: the fresh one at a position has the id `idAt` of
`freshBefore` there, and one that `repeats` is the event `n` positions before. The counters `fresh`
and `window` of the plan and its `head` agree with them. -/
structure Numbered (handed : List Event) (plan : Plan) : Prop where
  fresh : plan.fresh = plan.spec.freshBefore handed.length
  id_eq : ∀ {position event}, handed[position]? = some event →
    plan.spec.repeats position = false →
      event.id = plan.spec.idAt (plan.spec.freshBefore position)
  again : ∀ {position event n}, handed[position]? = some event → plan.spec.window? = some n →
    plan.spec.repeats position = true → handed[position - n]? = some event
  window : ∀ {n}, plan.spec.window? = some n → plan.window = handed.length % (n + 1)
  head : ∀ {n}, plan.spec.window? = some n → 0 < plan.window →
    plan.head = handed[handed.length - plan.window]?

/-- The plan at its `start` is `Numbered` with no event handed out. -/
theorem Numbered.start (spec : Scenario.Spec) (timestamps : Nat → Int) :
    (Plan.start spec timestamps).Numbered [] := by
  refine ⟨rfl, ?_, ?_, fun _ => rfl, ?_⟩
  · intro position event hevent
    cases hevent
  · intro position event n hevent
    cases hevent
  · intro n _ hpos
    cases hpos

/-- What is in a list is still there when something is added behind it. -/
theorem getElem?_concat {α : Type} {xs : List α} {x : α} {position : Nat}
    (h : xs[position]? = some x) (y : α) : (xs ++ [y])[position]? = some x := by
  rw [List.getElem?_append_left (List.getElem?_eq_some_iff.mp h).1]
  exact h

/-- What is in a list with something added was there before, or it is what was added. -/
theorem getElem?_concat_cases {α : Type} {xs : List α} {x y : α} {position : Nat}
    (h : (xs ++ [y])[position]? = some x) :
    xs[position]? = some x ∨ (position = xs.length ∧ x = y) := by
  rw [List.getElem?_append] at h
  split at h
  · exact Or.inl h
  · next hlt =>
    right
    obtain ⟨hsingle, heq⟩ := List.getElem?_eq_some_iff.mp h
    rw [List.length_singleton] at hsingle
    refine ⟨by omega, ?_⟩
    simpa using heq.symm

/-- One more event keeps `Numbered`, if it has the id of its place or is the one that began the
window, and the counters of the plan `later` say so. -/
theorem Numbered.snoc {handed : List Event} {plan later : Plan} {event : Event}
    (h : plan.Numbered handed) (hspec : later.spec = plan.spec)
    (hfresh : later.fresh = plan.spec.freshBefore (handed.length + 1))
    (hid : plan.spec.repeats handed.length = false →
      event.id = plan.spec.idAt (plan.spec.freshBefore handed.length))
    (hagain : ∀ {n}, plan.spec.window? = some n → plan.spec.repeats handed.length = true →
      handed[handed.length - n]? = some event)
    (hwindow : ∀ {n}, plan.spec.window? = some n → later.window = (handed.length + 1) % (n + 1))
    (hhead : ∀ {n}, plan.spec.window? = some n → 0 < later.window →
      later.head = (handed ++ [event])[handed.length + 1 - later.window]?) :
    later.Numbered (handed ++ [event]) := by
  have hlength : (handed ++ [event]).length = handed.length + 1 := List.length_append
  refine ⟨?_, ?_, ?_, ?_, ?_⟩
  · rw [hspec, hlength, hfresh]
  · intro position other hother hrepeats
    rw [hspec] at hrepeats ⊢
    rcases getElem?_concat_cases hother with hold | ⟨rfl, rfl⟩
    · exact h.id_eq hold hrepeats
    · exact hid hrepeats
  · intro position other n hother hn hrepeats
    rw [hspec] at hn hrepeats
    rcases getElem?_concat_cases hother with hold | ⟨rfl, rfl⟩
    · exact getElem?_concat (h.again hold hn hrepeats) event
    · exact getElem?_concat (hagain hn hrepeats) other
  · intro n hn
    rw [hspec] at hn
    rw [hlength, hwindow hn]
  · intro n hn hpos
    rw [hspec] at hn
    rw [hlength]
    exact hhead hn hpos

/-- Without a `window?` an event is fresh and gets the next id, which keeps `Numbered`. -/
theorem Numbered.snoc_plain {handed : List Event} {plan : Plan} {event : Event} (random : Random)
    (h : plan.Numbered handed) (hnone : plan.spec.window? = none)
    (hid : event.id = plan.spec.idAt plan.fresh) :
    Numbered (handed ++ [event])
      { plan with
        readings := plan.readings + 1
        emitted := plan.emitted + 1
        fresh := plan.fresh + 1
        random } := by
  have hfresh := Scenario.Spec.repeats_of_none hnone handed.length
  have hother : ∀ {n}, plan.spec.window? ≠ some n := by
    intro n hn
    rw [hnone] at hn
    cases hn
  refine h.snoc rfl ?_ (fun _ => ?_) (fun hn => absurd hn hother) (fun hn => absurd hn hother)
    (fun hn => absurd hn hother)
  · rw [Scenario.Spec.freshBefore_succ_of_fresh hfresh, h.fresh]
  · rw [hid, h.fresh]

/-- While `window` is below `n`, an event is fresh, gets the next id and is counted, which keeps
`Numbered`. -/
theorem Numbered.snoc_window {handed : List Event} {plan : Plan} {event : Event} {n : Nat}
    (random : Random) (h : plan.Numbered handed) (hn : plan.spec.window? = some n)
    (hroom : plan.window < n) (hid : event.id = plan.spec.idAt plan.fresh) :
    Numbered (handed ++ [event])
      { plan with
        readings := plan.readings + 1
        emitted := plan.emitted + 1
        fresh := plan.fresh + 1
        window := plan.window + 1
        head := if plan.window = 0 then some event else plan.head
        random } := by
  have hwindow := h.window hn
  rw [hwindow] at hroom
  -- This is not the position behind a window.
  have hfresh : plan.spec.repeats handed.length = false := by
    rw [← Bool.not_eq_true, Scenario.Spec.repeats_iff hn]
    omega
  have hmod : (handed.length + 1) % (n + 1) = handed.length % (n + 1) + 1 := by
    rw [Nat.add_mod, Nat.mod_eq_of_lt (by omega : 1 < n + 1)]
    exact Nat.mod_eq_of_lt (by omega)
  refine h.snoc rfl ?_ (fun _ => ?_) (fun _ hrepeats => ?_) (fun hn' => ?_) (fun hn' _ => ?_)
  · rw [Scenario.Spec.freshBefore_succ_of_fresh hfresh, h.fresh]
  · rw [hid, h.fresh]
  · rw [hfresh] at hrepeats
    cases hrepeats
  · rw [hn] at hn'
    cases hn'
    rw [hmod, hwindow]
  · show (if plan.window = 0 then some event else plan.head) =
      (handed ++ [event])[handed.length + 1 - (plan.window + 1)]?
    rw [Nat.add_sub_add_right]
    by_cases hzero : plan.window = 0
    · rw [if_pos hzero, hzero, Nat.sub_zero, List.getElem?_concat_length]
    · have hpos := Nat.pos_of_ne_zero hzero
      have hle : plan.window ≤ handed.length := by
        rw [hwindow]
        exact Nat.mod_le _ _
      rw [if_neg hzero, h.head hn hpos, List.getElem?_append_left (by omega)]

/-- When the window is full, sending the event `n` positions before again keeps `Numbered`. -/
theorem Numbered.snoc_again {handed : List Event} {plan : Plan} {event : Event} {n : Nat}
    (h : plan.Numbered handed) (hn : plan.spec.window? = some n) (hpos : 0 < n)
    (hmod : handed.length % (n + 1) = n) (hevent : handed[handed.length - n]? = some event) :
    Numbered (handed ++ [event])
      { plan with emitted := plan.emitted + 1, window := 0, head := none } := by
  have hrepeats := (Scenario.Spec.repeats_iff hn handed.length).mpr hmod
  refine h.snoc rfl ?_ (fun hfresh => ?_) (fun hn' _ => ?_) (fun hn' => ?_)
    (fun _ hzero => absurd hzero (Nat.lt_irrefl 0))
  · rw [Scenario.Spec.freshBefore_succ_of_repeats hrepeats, h.fresh]
  · rw [hrepeats] at hfresh
    cases hfresh
  · rw [hn] at hn'
    cases hn'
    exact hevent
  · rw [hn] at hn'
    cases hn'
    show 0 = (handed.length + 1) % (n + 1)
    rw [Nat.add_mod, hmod, Nat.mod_eq_of_lt (by omega : 1 < n + 1), Nat.mod_self]

/-- If `window` is full in a plan that is `Numbered`, `head` is the event `n` positions before. -/
theorem Numbered.exists_head {handed : List Event} {plan : Plan} {n : Nat}
    (h : plan.Numbered handed) (hn : plan.spec.window? = some n) (hfull : n ≤ plan.window) :
    0 < n ∧ handed.length % (n + 1) = n ∧
      ∃ first, plan.head = some first ∧ handed[handed.length - n]? = some first := by
  obtain ⟨interval, -, hmax⟩ := Scenario.Spec.exists_of_window? hn
  have hpos : 0 < n := by omega
  have hwindow := h.window hn
  have hlt : handed.length % (n + 1) < n + 1 := Nat.mod_lt _ (Nat.succ_pos n)
  have hmod : handed.length % (n + 1) = n := by omega
  have hle : n ≤ handed.length := by
    rw [← hmod]
    exact Nat.mod_le _ _
  have hat : handed[handed.length - n]? = some handed[handed.length - n] :=
    List.getElem?_eq_getElem (by omega)
  refine ⟨hpos, hmod, handed[handed.length - n], ?_, hat⟩
  rw [h.head hn (by omega), hwindow, hmod, hat]

/-- Every `nextEvent` keeps `Numbered`. -/
theorem Numbered.nextEvent {handed : List Event} {plan later : Plan} {event : Event}
    (h : plan.Numbered handed) (hnext : plan.nextEvent = .ok (some (event, later))) :
    later.Numbered (handed ++ [event]) := by
  rcases cases_of_nextEvent hnext with ⟨hnone, built, hfresh, rfl⟩ |
    ⟨n, hn, hroom, built, hfresh, rfl⟩ | ⟨n, hn, hfull, hagain⟩
  · obtain ⟨hid, random, rfl⟩ := eq_of_freshEvent hfresh
    exact h.snoc_plain random hnone hid
  · obtain ⟨hid, random, rfl⟩ := eq_of_freshEvent hfresh
    exact h.snoc_window random hn hroom hid
  · obtain ⟨hpos, hmod, first, hfirst, hat⟩ := h.exists_head hn hfull
    obtain ⟨rfl, rfl⟩ := hagain first hfirst
    exact h.snoc_again hn hpos hmod hat

/-- Whether a plan is `Numbered` does not depend on its `random`. -/
theorem Numbered.withRandom {handed : List Event} {plan : Plan} (h : plan.Numbered handed)
    (random : Random) : Numbered handed { plan with random } :=
  ⟨h.fresh, h.id_eq, h.again, h.window, h.head⟩

/-- The events of all `steps` of a plan are `Numbered`. -/
theorem numbered_of_steps {spec : Scenario.Spec} {timestamps : Nat → Int} {writes : List Step}
    (h : (Plan.start spec timestamps).steps = .ok writes) :
    ∃ later : Plan, later.spec = spec ∧ later.Numbered (writes.flatMap Step.events) := by
  let I : List Event → Plan → Prop := fun handed plan => plan.spec = spec ∧ plan.Numbered handed
  have hevent : ∀ {handed : List Event} {plan later : Plan} {event : Event}, I handed plan →
      plan.nextEvent = .ok (some (event, later)) → I (handed ++ [event]) later := by
    intro handed plan later event hI hnext
    exact ⟨(emitted_of_nextEvent hnext).1.trans hI.1, hI.2.nextEvent hnext⟩
  have hrandom : ∀ {handed : List Event} {plan : Plan} (random : Random), I handed plan →
      I handed { plan with random } := by
    intro handed plan random hI
    exact ⟨hI.1, hI.2.withRandom random⟩
  obtain ⟨later, -, hlater⟩ := exists_of_steps hevent hrandom h
    (show I [] (Plan.start spec timestamps) from ⟨rfl, Numbered.start spec timestamps⟩)
  exact ⟨later, hlater⟩

namespace Numbered

variable {handed : List Event} {plan : Plan}

/-- Every event of a plan that is `Numbered` was fresh at some `origin`, its own position without a
`window?`. -/
theorem exists_fresh (h : plan.Numbered handed) {position : Nat} {event : Event}
    (hevent : handed[position]? = some event) :
    ∃ origin, plan.spec.repeats origin = false ∧ handed[origin]? = some event ∧
      (plan.spec.window? = none → origin = position) := by
  cases hrepeats : plan.spec.repeats position with
  | false => exact ⟨position, hrepeats, hevent, fun _ => rfl⟩
  | true =>
    obtain ⟨n, hn⟩ := Scenario.Spec.exists_window?_of_repeats hrepeats
    refine ⟨position - n, ?_, h.again hevent hn hrepeats, fun hnone => ?_⟩
    · -- The first event of a window stands at a multiple of its length, so it was fresh.
      obtain ⟨interval, -, hmax⟩ := Scenario.Spec.exists_of_window? hn
      have hmod := (Scenario.Spec.repeats_iff hn position).mp hrepeats
      have hdiv := Nat.div_add_mod position (n + 1)
      have hmultiple : position - n = (n + 1) * (position / (n + 1)) := by omega
      have hdvd : (position - n) % (n + 1) = 0 := by
        rw [hmultiple]
        exact Nat.mul_mod_right _ _
      rw [← Bool.not_eq_true, Scenario.Spec.repeats_iff hn, hdvd]
      omega
    · rw [hn] at hnone
      cases hnone

/-- If `idBase` and the number of events come to at most `maxWord`, the id of a fresh event is
exactly `idBase` plus `freshBefore`. -/
theorem toNat_id (h : plan.Numbered handed)
    (hroom : plan.spec.idBase.toNat + handed.length ≤ maxWord) {position : Nat} {event : Event}
    (hevent : handed[position]? = some event) (hfresh : plan.spec.repeats position = false) :
    event.id.toNat = plan.spec.idBase.toNat + plan.spec.freshBefore position := by
  have hlt := (List.getElem?_eq_some_iff.mp hevent).1
  have hle := plan.spec.freshBefore_le position
  rw [h.id_eq hevent hfresh, Scenario.Spec.idAt, toNat_saturate]
  omega

/-- If `idBase` and the number of events come to at most `maxWord`, all ids are from `idBase` on and
below that sum. -/
theorem id_range (h : plan.Numbered handed)
    (hroom : plan.spec.idBase.toNat + handed.length ≤ maxWord) {event : Event}
    (hevent : event ∈ handed) :
    plan.spec.idBase.toNat ≤ event.id.toNat ∧
      event.id.toNat < plan.spec.idBase.toNat + handed.length := by
  obtain ⟨position, hposition⟩ := List.mem_iff_getElem?.mp hevent
  obtain ⟨origin, hfresh, horigin, -⟩ := h.exists_fresh hposition
  have hlt := (List.getElem?_eq_some_iff.mp horigin).1
  have hle := plan.spec.freshBefore_le origin
  rw [h.toNat_id hroom horigin hfresh]
  omega

/-- Two events of a plan that is `Numbered` with one id are equal, and if they are at different
positions, the spec has a `window?`. -/
theorem eq_of_id_eq (h : plan.Numbered handed)
    (hroom : plan.spec.idBase.toNat + handed.length ≤ maxWord) {position place : Nat}
    {event other : Event} (hevent : handed[position]? = some event)
    (hother : handed[place]? = some other) (hid : event.id = other.id) :
    event = other ∧ (position ≠ place → ∃ n, plan.spec.window? = some n) := by
  obtain ⟨origin, hfresh, horigin, hsame⟩ := h.exists_fresh hevent
  obtain ⟨source, hfresh', hsource, hsame'⟩ := h.exists_fresh hother
  have hnat := congrArg UInt64.toNat hid
  rw [h.toNat_id hroom horigin hfresh, h.toNat_id hroom hsource hfresh'] at hnat
  -- Two fresh events with the same number before them stand at one position.
  have hplace : origin = source := by
    rcases Nat.lt_trichotomy origin source with hlt | heq | hlt
    · have hcount := Scenario.Spec.freshBefore_lt hfresh hlt
      omega
    · exact heq
    · have hcount := Scenario.Spec.freshBefore_lt hfresh' hlt
      omega
  subst hplace
  refine ⟨Option.some.inj (horigin.symm.trans hsource), fun hne => ?_⟩
  cases hn : plan.spec.window? with
  | none => exact absurd ((hsame hn).symm.trans (hsame' hn)) hne
  | some n => exact ⟨n, rfl⟩

end Numbered

end Plan

end Volley
