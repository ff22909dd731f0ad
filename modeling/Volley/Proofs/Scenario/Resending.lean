import Volley.Proofs.Scenario.Batches
import Volley.Proofs.Scenario.Buildable
import Volley.Proofs.Scenario.Rotation

/-!
# Events that are sent again

In a burst with duplicates the window, its head, and the numbers of all events and of the fresh ones
move on at different rates. What they come to can be said for every position: after each full
window comes the event with which it began, and without these events the plan is that of a shorter
burst. The clock is read for the fresh events only.

## Main definitions

* `Scenario.Spec.freshOf`: the events at the positions at which nothing is sent again.
* `Plan.Rotated`: the fresh events that a plan has handed out are those of its rotation.

## Main results

* `Scenario.Spec.freshBefore_eq`: the number of fresh events before a position.
* `Plan.Rotated.nextEvent`: every event keeps the rotation.
* `Plan.duplicates_resend_heads`: the events of a burst with duplicates, position by position.
-/

namespace Volley

namespace Scenario.Spec

variable {spec : Spec}

theorem window?_of_duplicates {interval : UInt32} (h : spec.strategy = .duplicates interval)
    (hinterval : 1 ≤ interval) : spec.window? = some interval.toNat := by
  have hpos : 1 ≤ interval.toNat := hinterval
  simp only [window?, h, Nat.max_eq_left hpos]

/-- With a window of `n`, a `position` is one that `repeats` exactly if `n + 1` divides
`position + 1`. -/
theorem repeats_iff_dvd {n : Nat} (h : spec.window? = some n) (position : Nat) :
    spec.repeats position = true ↔ n + 1 ∣ position + 1 := by
  obtain ⟨interval, -, hmax⟩ := exists_of_window? h
  have hlt : position % (n + 1) < n + 1 := Nat.mod_lt _ (Nat.succ_pos n)
  rw [repeats_iff h, Nat.dvd_iff_mod_eq_zero, Nat.add_mod, Nat.mod_eq_of_lt (by omega : 1 < n + 1)]
  constructor
  · intro hlast
    rw [hlast, Nat.mod_self]
  · intro hzero
    by_contra hne
    rw [Nat.mod_eq_of_lt (by omega)] at hzero
    cases hzero

/-- With a window of `n`, one of `n + 1` positions is left out by `freshBefore`. -/
theorem freshBefore_eq {n : Nat} (h : spec.window? = some n) (position : Nat) :
    spec.freshBefore position = position - position / (n + 1) := by
  induction position with
  | zero => simp [freshBefore]
  | succ position ih =>
    -- The quotient grows exactly where an event is sent again.
    have hle := Nat.div_le_self position (n + 1)
    cases hrepeats : spec.repeats position with
    | false =>
      have hdvd : ¬n + 1 ∣ position + 1 := by
        rw [← repeats_iff_dvd h, hrepeats]
        decide
      rw [freshBefore_succ_of_fresh hrepeats, ih, Nat.succ_div_of_not_dvd hdvd]
      omega
    | true =>
      rw [freshBefore_succ_of_repeats hrepeats, ih,
        Nat.succ_div_of_dvd ((repeats_iff_dvd h position).mp hrepeats)]
      omega

/-- The events at the positions of a plan at which nothing `repeats`. -/
def freshOf (spec : Spec) (events : List Event) : List Event :=
  (events.zipIdx.filter fun entry => !spec.repeats entry.2).map Prod.fst

theorem freshOf_eq_filter {n : Nat} (h : spec.window? = some n) (events : List Event) :
    spec.freshOf events =
      (events.zipIdx.filter fun entry => entry.2 % (n + 1) ≠ n).map Prod.fst := by
  simp only [freshOf, repeats, h, ne_eq, decide_not]
  rfl

theorem freshOf_concat (events : List Event) (event : Event) :
    spec.freshOf (events ++ [event]) =
      spec.freshOf events ++ if spec.repeats events.length = false then [event] else [] := by
  cases h : spec.repeats events.length <;> simp [freshOf, List.zipIdx_append, h]

/-- Events of which each fresh one is `rotated` at its place have the `rotation` as their `freshOf`.
-/
theorem rotation_of_built {timestamps : Nat → Int} {events : List Event}
    (h : ∀ position event, events[position]? = some event → spec.repeats position = false →
      spec.rotated (spec.freshBefore position) (timestamps (spec.freshBefore position)) =
        .ok event) :
    spec.rotation timestamps 0 (spec.freshBefore events.length) = .ok (spec.freshOf events) := by
  -- The number of an event depends on those before it, so the list grows at its end.
  induction events using List.reverseRecOn with
  | nil => rfl
  | append_singleton events event ih =>
    have hbefore := ih fun position other hother =>
      h position other (Plan.getElem?_concat hother event)
    rw [freshOf_concat, List.length_append, List.length_singleton]
    cases hrepeats : spec.repeats events.length with
    | true => simpa [freshBefore_succ_of_repeats hrepeats] using hbefore
    | false =>
      have hevent := h events.length event List.getElem?_concat_length hrepeats
      rw [freshBefore_succ_of_fresh hrepeats, rotation_add, hbefore, Nat.zero_add, rotation_succ,
        hevent]
      rfl

end Scenario.Spec

namespace Plan

/-- The fresh events that a plan of `spec` has `handed` out are those of the `rotation`, and
`readings` is `fresh`: the clock has been read for each of them and for nothing else. -/
structure Rotated (spec : Scenario.Spec) (timestamps : Nat → Int) (handed : List Event)
    (plan : Plan) : Prop where
  spec_eq : plan.spec = spec
  timestamps_eq : plan.timestamps = timestamps
  readings_eq : plan.readings = plan.fresh
  numbered : plan.Numbered handed
  built : ∀ position event, handed[position]? = some event → spec.repeats position = false →
    spec.rotated (spec.freshBefore position) (timestamps (spec.freshBefore position)) = .ok event

namespace Rotated

variable {spec : Scenario.Spec} {timestamps : Nat → Int} {handed : List Event} {plan later : Plan}

theorem start (spec : Scenario.Spec) (timestamps : Nat → Int) :
    Rotated spec timestamps [] (Plan.start spec timestamps) := by
  refine ⟨rfl, rfl, rfl, Numbered.start spec timestamps, fun position event hevent => ?_⟩
  cases hevent

/-- One more event keeps `Rotated`, if it is the next one of the rotation or not fresh. -/
theorem snoc {event : Event} (h : Rotated spec timestamps handed plan)
    (hnext : plan.nextEvent = .ok (some (event, later)))
    (htimestamps : later.timestamps = plan.timestamps) (hreadings : later.readings = later.fresh)
    (hevent : spec.repeats handed.length = false →
      spec.rotated (spec.freshBefore handed.length) (timestamps (spec.freshBefore handed.length)) =
        .ok event) :
    Rotated spec timestamps (handed ++ [event]) later := by
  refine ⟨(emitted_of_nextEvent hnext).1.trans h.spec_eq, htimestamps.trans h.timestamps_eq,
    hreadings, h.numbered.nextEvent hnext, fun position other hother hfresh => ?_⟩
  rcases getElem?_concat_cases hother with hold | ⟨rfl, rfl⟩
  · exact h.built position other hold hfresh
  · exact hevent hfresh

/-- A `freshEvent` is `rotated` at the next place, and adds one to `readings`. -/
theorem of_freshEvent {event : Event} (h : Rotated spec timestamps handed plan)
    (hrotates : spec.Rotates) (hfresh : plan.freshEvent = .ok (event, later)) :
    spec.rotated (spec.freshBefore handed.length) (timestamps (spec.freshBefore handed.length)) =
        .ok event ∧
      later = { plan with readings := plan.readings + 1, fresh := plan.fresh + 1 } := by
  have hplace := h.numbered.fresh
  rw [h.spec_eq] at hplace
  rw [freshEvent_of_rotates (by rw [h.spec_eq]; exact hrotates), h.readings_eq, h.spec_eq,
    h.timestamps_eq, hplace] at hfresh
  cases hbuilt : spec.rotated (spec.freshBefore handed.length)
      (timestamps (spec.freshBefore handed.length)) with
  | error e =>
    rw [hbuilt] at hfresh
    cases hfresh
  | ok built =>
    rw [hbuilt] at hfresh
    cases hfresh
    rw [h.readings_eq, hplace, h.spec_eq, h.timestamps_eq]
    exact ⟨rfl, rfl⟩

/-- Every `nextEvent` keeps `Rotated`. -/
theorem nextEvent {event : Event} (h : Rotated spec timestamps handed plan)
    (hrotates : spec.Rotates) (hnext : plan.nextEvent = .ok (some (event, later))) :
    Rotated spec timestamps (handed ++ [event]) later := by
  rcases cases_of_nextEvent hnext with ⟨-, built, hfresh, rfl⟩ |
    ⟨n, -, -, built, hfresh, rfl⟩ | ⟨n, hn, hfull, hagain⟩
  · obtain ⟨hevent, rfl⟩ := h.of_freshEvent hrotates hfresh
    exact h.snoc hnext rfl (congrArg (· + 1) h.readings_eq) fun _ => hevent
  · obtain ⟨hevent, rfl⟩ := h.of_freshEvent hrotates hfresh
    exact h.snoc hnext rfl (congrArg (· + 1) h.readings_eq) fun _ => hevent
  · -- Nothing is built for the head of a full window, and the clock is not read.
    obtain ⟨-, hmod, first, hfirst, -⟩ := h.numbered.exists_head hn hfull
    obtain ⟨rfl, rfl⟩ := hagain first hfirst
    refine h.snoc hnext rfl h.readings_eq fun hfresh => ?_
    rw [h.spec_eq] at hn
    rw [(Scenario.Spec.repeats_iff hn handed.length).mpr hmod] at hfresh
    cases hfresh

/-- After all its `steps` a plan of a spec that `Rotates` is `Rotated`. -/
theorem of_steps (hrotates : spec.Rotates) {writes : List Step}
    (h : (Plan.start spec timestamps).steps = .ok writes) :
    ∃ later, Rotated spec timestamps (writes.flatMap Step.events) later := by
  have hrandom : ∀ {handed : List Event} {plan : Plan} (random : Random),
      Rotated spec timestamps handed plan →
        Rotated spec timestamps handed { plan with random } := by
    intro handed plan random h
    exact ⟨h.spec_eq, h.timestamps_eq, h.readings_eq, h.numbered.withRandom random, h.built⟩
  obtain ⟨later, -, hlater⟩ :=
    exists_of_steps (fun h hnext => h.nextEvent hrotates hnext) hrandom h (start spec timestamps)
  exact ⟨later, hlater⟩

/-- In a plan that is `Rotated`, `freshOf` the events handed out is the `rotation`. -/
theorem rotation_eq (h : Rotated spec timestamps handed plan) :
    spec.rotation timestamps 0 (spec.freshBefore handed.length) = .ok (spec.freshOf handed) :=
  Scenario.Spec.rotation_of_built h.built

/-- The event at a position where nothing `repeats` is number `freshBefore` of `freshOf`. -/
theorem getElem?_of_fresh (h : Rotated spec timestamps handed plan) {position : Nat}
    (hlt : position < handed.length) (hfresh : spec.repeats position = false) :
    handed[position]? = (spec.freshOf handed)[spec.freshBefore position]? := by
  obtain ⟨hlength, hall⟩ := Scenario.Spec.rotation_eq_ok_iff.mp h.rotation_eq
  have hplace : spec.freshBefore position < (spec.freshOf handed).length := by
    rw [hlength]
    exact Scenario.Spec.freshBefore_lt hfresh hlt
  have hevent := List.getElem?_eq_getElem hlt
  have hother := List.getElem?_eq_getElem hplace
  -- Both are what is built for this number.
  have hbuilt := h.built position _ hevent hfresh
  have hrotated := hall _ _ hother
  rw [Nat.zero_add, hbuilt] at hrotated
  rw [hevent, hother, Except.ok.inj hrotated]

/-- The event at a position that `repeats` is the one `n` positions before. -/
theorem getElem?_of_repeats (h : Rotated spec timestamps handed plan) {n position : Nat}
    (hn : spec.window? = some n) (hlt : position < handed.length)
    (hrepeats : spec.repeats position = true) : handed[position]? = handed[position - n]? := by
  have hevent := List.getElem?_eq_getElem hlt
  rw [← h.spec_eq] at hn hrepeats
  rw [h.numbered.again hevent hn hrepeats, hevent]

/-- Which event is at a `position`, by its remainder and quotient by `n + 1`. -/
theorem getElem?_eq (h : Rotated spec timestamps handed plan) {n position : Nat}
    (hn : spec.window? = some n) (hlt : position < handed.length) :
    handed[position]? =
      if position % (n + 1) = n then handed[position - n]?
      else (spec.freshOf handed)[position - position / (n + 1)]? := by
  have hrepeats := Scenario.Spec.repeats_iff hn position
  split
  · next hlast => exact h.getElem?_of_repeats hn hlt (hrepeats.mpr hlast)
  · next hlast =>
    rw [← Scenario.Spec.freshBefore_eq hn]
    refine h.getElem?_of_fresh hlt ?_
    rw [← Bool.not_eq_true, hrepeats]
    exact hlast

/-- An `Issued` plan of duplicates, after `n` writes, is `Rotated` with `n` events handed out. -/
theorem of_issued (hduplicates : ∃ interval, spec.strategy = .duplicates interval) {n : Nat}
    {plan : Plan} (h : Issued spec n plan) :
    ∃ timestamps handed, handed.length = n ∧ Rotated spec timestamps handed plan := by
  obtain ⟨interval, hstrategy⟩ := hduplicates
  induction h with
  | start timestamps => exact ⟨timestamps, [], rfl, start spec timestamps⟩
  | @next n plan later step hissued hnext ih =>
    obtain ⟨timestamps, handed, hlength, hrotated⟩ := ih
    -- Duplicates are not gathered, so the write is the next event.
    obtain ⟨_, _, _, hfragmented, -⟩ | ⟨-, event, hevent, -⟩ := next_cases hnext
    · rw [hrotated.spec_eq, hstrategy] at hfragmented
      cases hfragmented
    · refine ⟨timestamps, handed ++ [event], ?_, ?_⟩
      · rw [List.length_append, hlength]
        rfl
      · exact hrotated.nextEvent (Or.inr (Or.inl ⟨interval, hstrategy⟩)) hevent

end Rotated

/-- In a plan of `.duplicates` the event at a `position` whose remainder by `period` is `interval`
is the one `interval` positions before, and every other is number `position - position / period` of
`fresh`. The fresh events alone are the plan of a `burst` of `total` events under the same
`timestamps`, which are read `n - n / period` times for `n` writes, never for an event that is sent
again. -/
theorem duplicates_resend_heads {spec : Scenario.Spec} {interval : UInt32}
    (hstrategy : spec.strategy = .duplicates interval) (hinterval : 1 ≤ interval)
    (timestamps : Nat → Int) :
    let period := interval.toNat + 1
    let total := spec.count.toNat - spec.count.toNat / period
    let burst : Scenario.Spec := { spec with strategy := .burst, count := .ofNat total }
    ((∀ size ∈ spec.sizes.toList, size.toNat ≤ Payload.maxPadding) →
        ∃ events, (start spec timestamps).events = .ok events) ∧
      (∀ events, (start spec timestamps).events = .ok events →
        events.length = spec.count.toNat ∧
        ∃ fresh, (start burst timestamps).events = .ok fresh ∧ fresh.length = total ∧
          (events.zipIdx.filter fun entry => entry.2 % period ≠ interval.toNat).map Prod.fst =
            fresh ∧
          (∀ position < spec.count.toNat, events[position]? =
            if position % period = interval.toNat then events[position - interval.toNat]?
            else fresh[position - position / period]?) ∧
          ∀ k event, fresh[k]? = some event → spec.rotated k (timestamps k) = .ok event) ∧
      ∀ n plan, Issued spec n plan → plan.readings = n - n / period := by
  intro period total burst
  have hwindow := Scenario.Spec.window?_of_duplicates hstrategy hinterval
  have hrotates : spec.Rotates := Or.inr (Or.inl ⟨interval, hstrategy⟩)
  refine ⟨fun hsizes => ?_, fun events hevents => ?_, fun n plan hissued => ?_⟩
  · obtain ⟨writes, hwrites⟩ := exists_steps hsizes timestamps
    exact ⟨_, events_eq_ok_iff.mpr ⟨writes, hwrites, rfl⟩⟩
  · obtain ⟨writes, hwrites, rfl⟩ := events_eq_ok_iff.mp hevents
    obtain ⟨later, hrotated⟩ := Rotated.of_steps hrotates hwrites
    have hlength : (writes.flatMap Step.events).length = spec.count.toNat := by
      rw [length_events_of_steps hwrites, remaining_start]
    -- The rotation of as many events as there are fresh positions is the plan of the burst.
    have hbefore := Scenario.Spec.freshBefore_eq hwindow
    have hrotation := hrotated.rotation_eq
    rw [hlength, hbefore] at hrotation
    obtain ⟨hfresh, hbuilt⟩ := Scenario.Spec.rotation_eq_ok_iff.mp hrotation
    have hcount : burst.count.toNat = total :=
      UInt64.toNat_ofNat_of_lt' (Nat.lt_of_le_of_lt (Nat.sub_le _ _) spec.count.toNat_lt)
    refine ⟨hlength, spec.freshOf (writes.flatMap Step.events), ?_, hfresh, ?_, ?_, ?_⟩
    · rw [events_start (Or.inl rfl) rfl, hcount, Scenario.Spec.rotation_with spec]
      exact hrotation
    · rw [Scenario.Spec.freshOf_eq_filter hwindow]
    · intro position hlt
      exact hrotated.getElem?_eq hwindow (by rw [hlength]; exact hlt)
    · intro k event hevent
      have hplace := hbuilt k event hevent
      rwa [Nat.zero_add] at hplace
  · obtain ⟨timestamps, handed, rfl, hrotated⟩ := Rotated.of_issued ⟨interval, hstrategy⟩ hissued
    rw [hrotated.readings_eq, hrotated.numbered.fresh, hrotated.spec_eq,
      Scenario.Spec.freshBefore_eq hwindow]

/-- Nine events with an interval of three: the `events` number 3 and 7 are those number 0 and 4,
sent again. -/
theorem duplicates_resend_heads_of_three :
    ∃ (spec : Scenario.Spec) (events fresh : List Event),
      spec = ⟨"duplicates", .duplicates 3, .stream, 9, .single 64, .load, 42, .zero, 30000⟩ ∧
      spec.strategy = .duplicates 3 ∧ (1 : UInt32) ≤ 3 ∧
      (start spec fun _ => 0).events = .ok events ∧ events.length = 9 ∧ fresh.length = 7 ∧
      (start { spec with strategy := .burst, count := 7 } fun _ => 0).events = .ok fresh ∧
      events[3]? = events[0]? ∧ events[7]? = events[4]? ∧ events[8]? = fresh[6]? := by
  let spec : Scenario.Spec :=
    ⟨"duplicates", .duplicates 3, .stream, 9, .single 64, .load, 42, .zero, 30000⟩
  have hone : (1 : UInt32) ≤ 3 := by decide
  obtain ⟨hbuilt, hall, -⟩ := @duplicates_resend_heads spec 3 rfl hone fun _ => 0
  have hroomy : spec.Roomy := Scenario.Spec.roomy_of_single rfl (by decide)
  obtain ⟨events, hevents⟩ := hbuilt hroomy.le_maxPadding
  obtain ⟨hlength, fresh, hfresh, htotal, -, hposition, -⟩ := hall events hevents
  have hseven : spec.count.toNat - spec.count.toNat / (UInt32.toNat 3 + 1) = 7 := by decide
  rw [hseven] at htotal hfresh
  exact ⟨spec, events, fresh, rfl, rfl, hone, hevents, hlength, htotal, hfresh,
    hposition 3 (by decide), hposition 7 (by decide), hposition 8 (by decide)⟩

end Plan

end Volley
