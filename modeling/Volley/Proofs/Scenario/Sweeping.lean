import Mathlib.Data.List.Nodup
import Mathlib.Data.List.ProdSigma
import Volley.Proofs.Scenario.Buildable
import Volley.Proofs.Scenario.Rotation
import Volley.Scenario.Catalog

/-!
# Sweeps

A sweep goes through all pairs of a tier and a topic, the topics of the first tier first, stays with
each pair for a fixed number of events and starts over after the last pair. It is valid exactly if
it stops at the end of such a pass, and this is the same as visiting all pairs equally often: within
a pass the first pair is always ahead of the last one. What the catalogue plans as a sweep is made
of whole passes, however many events are asked for.

## Main definitions

* `TopicSet.sweep`: the pairs of a family in the order of a sweep.
* `Event.pair`: the pair that an event belongs to.

## Main results

* `TopicSet.count_pair`: how often a pair is visited, at any point of a sweep.
* `TopicSet.exists_count_iff`: all pairs are visited equally often exactly after whole passes.
* `Plan.pair_of_steps`: which pair the event at a position belongs to.
* `Plan.sweeps_whole_passes`: the order of a sweep, and what its validation means.
-/

namespace Volley

/-! ## Blocks -/

/-- If every `f x` has the length `n`, entry number `k` of a `flatMap` is number `k % n` of the
`f x` of entry `k / n`. -/
theorem getElem?_flatMap_of_length {α β : Type} {f : α → List β} {n : Nat} (hn : 0 < n)
    {xs : List α} (hf : ∀ x ∈ xs, (f x).length = n) (k : Nat) :
    (xs.flatMap f)[k]? = xs[k / n]?.bind fun x => (f x)[k % n]? := by
  induction xs generalizing k with
  | nil => simp
  | cons x xs ih =>
    have hx := hf x List.mem_cons_self
    rw [List.flatMap_cons, List.getElem?_append, hx]
    by_cases hk : k < n
    · simp [hk, Nat.div_eq_of_lt hk, Nat.mod_eq_of_lt hk]
    · have hle : n ≤ k := Nat.le_of_not_lt hk
      have hrest := ih (fun y hy => hf y (List.mem_cons_of_mem x hy)) (k - n)
      rw [if_neg hk, hrest, Nat.div_eq_sub_div hn hle, ← Nat.mod_eq_sub_mod hle]
      rfl

/-- How many of the first `n` numbers have, by a `period`, one of the `r` remainders from `a` on:
all `r` of them in every full period, and of the last one as many as it has reached. -/
theorem countP_range_remainders {period a r : Nat} (hblock : a + r ≤ period) (hr : 0 < r)
    (n : Nat) :
    (List.range n).countP (fun k => a ≤ k % period ∧ k % period < a + r) =
      n / period * r + min r (n % period - a) := by
  induction n with
  | zero => simp
  | succ n ih =>
    have hpos : 0 < period := by omega
    have hlt : n % period < period := Nat.mod_lt _ hpos
    have hstep : (List.range (n + 1)).countP (fun k => a ≤ k % period ∧ k % period < a + r) =
        n / period * r + min r (n % period - a) +
          if a ≤ n % period ∧ n % period < a + r then 1 else 0 := by
      rw [List.range_succ, List.countP_append, ih, List.countP_singleton]
      simp only [decide_eq_true_eq]
    -- Quotient and remainder of the next number follow from those of this one.
    have hsucc : n + 1 = period * (n / period) + (n % period + 1) := by
      have hsplit := Nat.div_add_mod n period
      omega
    have hdiv : (n + 1) / period = n / period + (n % period + 1) / period := by
      conv_lhs => rw [hsucc, Nat.mul_add_div hpos]
    have hmod : (n + 1) % period = (n % period + 1) % period := by
      conv_lhs => rw [hsucc, Nat.mul_add_mod]
    rw [hstep, hdiv, hmod]
    by_cases hend : n % period + 1 = period
    · rw [hend, Nat.div_self hpos, Nat.mod_self, Nat.succ_mul]
      split <;> omega
    · have hinside : n % period + 1 < period := by omega
      rw [Nat.div_eq_of_lt hinside, Nat.mod_eq_of_lt hinside, Nat.add_zero]
      split <;> omega

/-! ## Pairs -/

/-- The tier and the topic of an `Event`. -/
def Event.pair (event : Event) : Priority × String :=
  (event.priority, event.topic)

namespace TopicSet

/-- Every pair of a tier of `Priority.all` and a topic of the family, tier by tier. -/
def sweep (set : TopicSet) : List (Priority × String) :=
  Priority.all.flatMap fun priority => set.topics.map fun topic => (priority, topic)

theorem nodup_topics (set : TopicSet) : set.topics.Nodup := by
  cases set <;> decide

theorem nodup_sweep (set : TopicSet) : set.sweep.Nodup :=
  List.Nodup.product (by decide : Priority.all.Nodup) set.nodup_topics

theorem length_topics_pos (set : TopicSet) : 0 < set.topics.length :=
  List.length_pos_iff.mpr set.topics_ne_nil

theorem pairs_eq (set : TopicSet) : set.pairs = 5 * set.topics.length := by
  rw [pairs, Nat.max_eq_left set.length_topics_pos]
  rfl

theorem two_le_pairs (set : TopicSet) : 2 ≤ set.pairs := by
  have hpos := set.length_topics_pos
  rw [pairs_eq]
  omega

@[simp]
theorem length_sweep (set : TopicSet) : set.sweep.length = set.pairs := by
  rw [pairs_eq]
  exact List.length_product Priority.all set.topics

/-- Pair number `k` of the `sweep` has tier `k / set.topics.length`, and topic number
`k % set.topics.length`. -/
theorem getElem?_sweep (set : TopicSet) {k : Nat} (hk : k < set.pairs) :
    set.sweep[k]? = some (Priority.rotating (k / set.topics.length),
      set.topics.getD (k % set.topics.length) "") := by
  have hpos := set.length_topics_pos
  have hmod := Nat.mod_lt k hpos
  have htier : k / set.topics.length < 5 := by
    rw [pairs_eq] at hk
    exact (Nat.div_lt_iff_lt_mul hpos).mpr hk
  have hall : ∀ tier < 5, Priority.all[tier]? = some (Priority.rotating tier) := by decide
  rw [sweep, getElem?_flatMap_of_length hpos (fun _ _ => List.length_map _), hall _ htier]
  simp [List.getD_eq_getElem?_getD, hmod]

section visits

variable {set : TopicSet} {r : Nat}

/-- In a pass every pair stands `r` times in a row, and the next pass is like it. -/
theorem getElem?_pass (hr : 0 < r) (position : Nat) :
    (set.sweep.flatMap (List.replicate r))[position % (set.pairs * r)]? =
      set.sweep[position / r % set.pairs]? := by
  rw [getElem?_flatMap_of_length hr (fun _ _ => List.length_replicate), Nat.mod_mul_left_div_self]
  cases set.sweep[position / r % set.pairs]? with
  | none => rfl
  | some pair => simp [Nat.mod_lt _ hr]

/-- The positions of pair number `k` are a block of `r` in every pass of `set.pairs * r`. -/
theorem getElem?_sweep_eq_some_iff {k : Nat} {pair : Priority × String}
    (hk : set.sweep[k]? = some pair) (hr : 0 < r) (position : Nat) :
    set.sweep[position / r % set.pairs]? = some pair ↔
      k * r ≤ position % (set.pairs * r) ∧ position % (set.pairs * r) < k * r + r := by
  have hlt : position / r % set.pairs < set.sweep.length := by
    have htwo := set.two_le_pairs
    rw [length_sweep]
    exact Nat.mod_lt _ (by omega)
  -- No pair stands at two places of the list.
  have hplace : set.sweep[position / r % set.pairs]? = some pair ↔
      position / r % set.pairs = k := by
    constructor
    · intro h
      exact (List.getElem?_inj hlt set.nodup_sweep).mp (h.trans hk.symm)
    · rintro rfl
      exact hk
  rw [hplace, ← Nat.mod_mul_left_div_self, Nat.div_eq_iff hr]
  omega

/-- How often a pair has been visited by events that go through the pairs, `r` at a time: `r` times
in every full pass, and in the last one as often as this pass has come to it. -/
theorem count_pair {events : List Event} (hr : 0 < r)
    (hevents : ∀ position event, events[position]? = some event →
      set.sweep[position / r % set.pairs]? = some event.pair)
    {k : Nat} {pair : Priority × String} (hk : set.sweep[k]? = some pair) :
    (events.map Event.pair).count pair = events.length / (set.pairs * r) * r +
      min r (events.length % (set.pairs * r) - k * r) := by
  have hrange : events.map (fun event => some event.pair) =
      (List.range events.length).map fun position => set.sweep[position / r % set.pairs]? := by
    refine List.ext_getElem (by simp) fun position hposition _ => ?_
    rw [List.length_map] at hposition
    simp [hevents position _ (List.getElem?_eq_getElem hposition)]
  have hblock : k * r + r ≤ set.pairs * r := by
    rw [← Nat.succ_mul, ← length_sweep]
    exact Nat.mul_le_mul_right r (List.getElem?_eq_some_iff.mp hk).1
  calc (events.map Event.pair).count pair
      = (events.map fun event => some event.pair).count (some pair) := by
        rw [← List.count_map_of_injective _ some (Option.some_injective _), List.map_map]
        rfl
    _ = (List.range events.length).countP fun position =>
          k * r ≤ position % (set.pairs * r) ∧ position % (set.pairs * r) < k * r + r := by
        rw [hrange, List.count, List.countP_map]
        refine List.countP_congr fun position _ => ?_
        simpa using getElem?_sweep_eq_some_iff hk hr position
    _ = _ := countP_range_remainders hblock hr _

/-- All pairs of the `sweep` are visited equally often exactly if the number of events is a multiple
of `set.pairs * r`. -/
theorem exists_count_iff {events : List Event} (hr : 0 < r)
    (hevents : ∀ position event, events[position]? = some event →
      set.sweep[position / r % set.pairs]? = some event.pair) :
    (∃ visits, ∀ pair ∈ set.sweep, (events.map Event.pair).count pair = visits) ↔
      events.length % (set.pairs * r) = 0 := by
  constructor
  · rintro ⟨visits, hvisits⟩
    -- In a pass that is not over, the first pair is ahead of the last.
    have htwo := set.two_le_pairs
    have hlength := set.length_sweep
    have hfirst : set.sweep[0]? = some set.sweep[0] := List.getElem?_eq_getElem (by omega)
    have hlast : set.sweep[set.pairs - 1]? = some set.sweep[set.pairs - 1] :=
      List.getElem?_eq_getElem (by omega)
    have hahead := hvisits _ (List.mem_of_getElem? hfirst)
    have hbehind := hvisits _ (List.mem_of_getElem? hlast)
    rw [count_pair hr hevents hfirst, Nat.zero_mul, Nat.sub_zero] at hahead
    rw [count_pair hr hevents hlast] at hbehind
    have hlt : events.length % (set.pairs * r) < set.pairs * r :=
      Nat.mod_lt _ (Nat.mul_pos (by omega) hr)
    have hpass : set.pairs * r = (set.pairs - 1) * r + r := by
      rw [← Nat.succ_mul, Nat.succ_eq_add_one, Nat.sub_add_cancel (by omega)]
    have hbefore : r ≤ (set.pairs - 1) * r := Nat.le_mul_of_pos_left r (by omega)
    omega
  · intro hwhole
    refine ⟨events.length / (set.pairs * r) * r, fun pair hpair => ?_⟩
    obtain ⟨k, hk⟩ := List.mem_iff_getElem?.mp hpair
    rw [count_pair hr hevents hk, hwhole]
    simp

end visits

end TopicSet

/-! ## Plans -/

namespace Scenario

namespace Spec

variable {spec : Spec} {repeats : UInt32}

/-- The `choices` of a `.sweep` for an event are the pair of its place, `index / repeats`. -/
theorem choices_of_sweep (h : spec.strategy = .sweep repeats) (hrepeats : 1 ≤ repeats)
    (index : Nat) (random : Random) :
    spec.topics.sweep[index / repeats.toNat % spec.topics.pairs]? =
      some ((spec.choices index random).1.1, (spec.choices index random).1.2.1) := by
  have hone : 1 ≤ repeats.toNat := hrepeats
  have htwo := spec.topics.two_le_pairs
  rw [TopicSet.getElem?_sweep _ (Nat.mod_lt _ (by omega))]
  simp only [choices, h, pairAt, topicAt, Nat.max_eq_left hone,
    Nat.max_eq_left spec.topics.length_topics_pos]

/-- A `.sweep` passes `validate` exactly if its `count` is a multiple of `pairs * repeats`. -/
theorem validate_of_sweep (h : spec.strategy = .sweep repeats) (hrepeats : 1 ≤ repeats) :
    spec.validate = .ok () ↔ spec.count.toNat % (spec.topics.pairs * repeats.toNat) = 0 := by
  have hne : repeats ≠ 0 := by
    rintro rfl
    exact absurd hrepeats (by decide)
  by_cases hwhole : spec.count.toNat % (spec.topics.pairs * repeats.toNat) = 0
  · simp [validate, h, hne, pass, hwhole]
  · simp [validate, h, hne, pass, hwhole]

end Spec

/-- The `count` of the catalogue's `sweep` is that of as many passes as it takes for
`params.events`, but at most `0xFFFFFFFF`; even so many are far below `maxWord`. -/
theorem Catalog.toNat_count_sweep (name : String) (params : Params) :
    (sweep name params).count.toNat = TopicSet.all.pairs *
      min ((params.events.toNat + TopicSet.all.pairs - 1) / TopicSet.all.pairs) 0xFFFFFFFF := by
  let passes := (params.events.toNat + TopicSet.all.pairs - 1) / TopicSet.all.pairs
  show (saturate (TopicSet.all.pairs * min passes (min (max passes 1) 0xFFFFFFFF))).toNat =
    TopicSet.all.pairs * min passes 0xFFFFFFFF
  have hpairs : TopicSet.all.pairs = 105 := rfl
  rw [toNat_saturate, hpairs, maxWord]
  omega

/-- The catalogue's `sweep` passes `validate`, whatever `params.events` is. -/
theorem Catalog.exists_sweep (name : String) (params : Params) :
    ∃ repeats : UInt32, 1 ≤ repeats ∧ (sweep name params).strategy = .sweep repeats ∧
      (sweep name params).validate = .ok () := by
  let passes := (params.events.toNat + TopicSet.all.pairs - 1) / TopicSet.all.pairs
  let repeats := min (max passes 1) 0xFFFFFFFF
  have hword : (UInt32.ofNat repeats).toNat = repeats :=
    UInt32.toNat_ofNat_of_lt' (by simp only [UInt32.size]; omega)
  have hone : 1 ≤ UInt32.ofNat repeats := by
    rw [UInt32.le_iff_toNat_le, hword]
    show 1 ≤ repeats
    omega
  have hstrategy : (sweep name params).strategy = .sweep (.ofNat repeats) := rfl
  refine ⟨.ofNat repeats, hone, hstrategy, ?_⟩
  rw [Spec.validate_of_sweep hstrategy hone, toNat_count_sweep, hword]
  show TopicSet.all.pairs * min passes 0xFFFFFFFF % (TopicSet.all.pairs * repeats) = 0
  rcases Nat.eq_zero_or_pos passes with hnone | hsome
  · simp [hnone]
  · have hall : min passes 0xFFFFFFFF = repeats := by omega
    rw [hall, Nat.mod_self]

end Scenario

namespace Plan

/-- The event at a `position` of a `.sweep` has the pair number `position / repeats` of `sweep`,
counted round. -/
theorem pair_of_steps {spec : Scenario.Spec} {repeats : UInt32}
    (hstrategy : spec.strategy = .sweep repeats) (hrepeats : 1 ≤ repeats)
    {timestamps : Nat → Int} {writes : List Step}
    (h : (start spec timestamps).steps = .ok writes) :
    ∀ position event, (writes.flatMap Step.events)[position]? = some event →
      spec.topics.sweep[position / repeats.toNat % spec.topics.pairs]? = some event.pair := by
  let I : List Event → Plan → Prop := fun handed plan =>
    plan.spec = spec ∧ plan.fresh = handed.length ∧
      ∀ position event, handed[position]? = some event →
        spec.topics.sweep[position / repeats.toNat % spec.topics.pairs]? = some event.pair
  have hevent : ∀ {handed : List Event} {plan later : Plan} {event : Event}, I handed plan →
      plan.nextEvent = .ok (some (event, later)) → I (handed ++ [event]) later := by
    rintro handed plan later event ⟨hspec, hfresh, hpairs⟩ hnext
    have hwindow : plan.spec.window? = none := by
      rw [Scenario.Spec.window?, hspec, hstrategy]
    -- Without windows every event is a fresh one.
    obtain ⟨-, built, hbuilt, rfl⟩ | ⟨n, hn, -⟩ | ⟨n, hn, -⟩ := cases_of_nextEvent hnext
    · obtain ⟨-, random, rfl⟩ := eq_of_freshEvent hbuilt
      obtain ⟨size, hchosen, -⟩ := parts_of_freshEvent hbuilt
      refine ⟨hspec, by simp [hfresh], fun position other hother => ?_⟩
      rcases getElem?_concat_cases hother with hold | ⟨rfl, rfl⟩
      · exact hpairs position other hold
      · rw [Scenario.Spec.choices_of_sweep hstrategy hrepeats _ plan.random, ← hspec, ← hfresh,
          hchosen]
        rfl
    · rw [hwindow] at hn
      cases hn
    · rw [hwindow] at hn
      cases hn
  obtain ⟨later, -, -, -, hpairs⟩ := exists_of_steps hevent (fun _ hI => hI) h
    (show I [] (start spec timestamps) from ⟨rfl, rfl, fun _ _ hnone => by cases hnone⟩)
  exact hpairs

/-- The `events` of a `.sweep` go through `spec.topics.sweep`, in which no pair is there twice, stay
with each pair for `repeats` events, and start over after the last. The spec passes `validate`
exactly if all pairs are visited equally often. The catalogue's sweep always does, whatever the
`params`. -/
theorem sweeps_whole_passes {spec : Scenario.Spec} {repeats : UInt32}
    (hstrategy : spec.strategy = .sweep repeats) (hrepeats : 1 ≤ repeats)
    (timestamps : Nat → Int) :
    spec.topics.sweep.Nodup ∧ spec.topics.sweep.length = spec.topics.pairs ∧
      ((∀ size ∈ spec.sizes.toList, size.toNat ≤ Payload.maxPadding) →
        ∃ events, (start spec timestamps).events = .ok events) ∧
      (∀ events, (start spec timestamps).events = .ok events →
        events.length = spec.count.toNat ∧
        (∀ position < spec.count.toNat, events[position]?.map Event.pair =
          (spec.topics.sweep.flatMap (List.replicate repeats.toNat))[
            position % (spec.topics.pairs * repeats.toNat)]?) ∧
        (spec.validate = .ok () ↔
          ∃ visits, ∀ pair ∈ spec.topics.sweep, (events.map Event.pair).count pair = visits)) ∧
      ∀ params : Scenario.Params, ∃ (swept : Scenario.Spec) (passes : UInt32),
        Scenario.build? "sweep" params = some swept ∧ swept.strategy = .sweep passes ∧
          1 ≤ passes ∧ swept.validate = .ok () := by
  have hone : 0 < repeats.toNat := hrepeats
  refine ⟨spec.topics.nodup_sweep, spec.topics.length_sweep, fun hsizes => ?_,
    fun events hevents => ?_, fun params => ?_⟩
  · obtain ⟨writes, hwrites⟩ := exists_steps hsizes timestamps
    exact ⟨_, events_eq_ok_iff.mpr ⟨writes, hwrites, rfl⟩⟩
  · obtain ⟨writes, hwrites, rfl⟩ := events_eq_ok_iff.mp hevents
    have hpairs := pair_of_steps hstrategy hrepeats hwrites
    have hlength : (writes.flatMap Step.events).length = spec.count.toNat := by
      rw [length_events_of_steps hwrites, remaining_start]
    refine ⟨hlength, fun position hposition => ?_, ?_⟩
    · have hevent := List.getElem?_eq_getElem (hlength ▸ hposition)
      rw [TopicSet.getElem?_pass hone, hpairs position _ hevent, hevent]
      rfl
    · rw [TopicSet.exists_count_iff hone hpairs, hlength]
      exact Scenario.Spec.validate_of_sweep hstrategy hrepeats
  · obtain ⟨passes, hpasses, hsweep, hvalid⟩ := Scenario.Catalog.exists_sweep "sweep" params
    exact ⟨_, passes, rfl, hsweep, hpasses, hvalid⟩

/-- Sixty `events` of a family with twenty-five pairs, two for each pair: the second pass begins
after fifty events and is not finished. -/
theorem sweeps_whole_passes_of_sixty :
    ∃ (spec : Scenario.Spec) (events : List Event),
      spec = ⟨"sweep", .sweep 2, .stream, 60, .single 64, .batch, 42, .zero, 30000⟩ ∧
      spec.strategy = .sweep 2 ∧ (1 : UInt32) ≤ 2 ∧
      (start spec fun _ => 0).events = .ok events ∧ events.length = 60 ∧
      events[50]?.map Event.pair = some (.batch, "analytics/metrics") ∧
      events[51]?.map Event.pair = some (.batch, "analytics/metrics") ∧
      events[52]?.map Event.pair = some (.batch, "analytics/aggregation") ∧
      ¬ ∃ visits, ∀ pair ∈ spec.topics.sweep, (events.map Event.pair).count pair = visits := by
  let spec : Scenario.Spec :=
    ⟨"sweep", .sweep 2, .stream, 60, .single 64, .batch, 42, .zero, 30000⟩
  have hone : (1 : UInt32) ≤ 2 := by decide
  obtain ⟨-, -, hbuilt, hall, -⟩ := @sweeps_whole_passes spec 2 rfl hone fun _ => 0
  have hroomy : spec.Roomy := Scenario.Spec.roomy_of_single rfl (by decide)
  obtain ⟨events, hevents⟩ := hbuilt hroomy.le_maxPadding
  obtain ⟨hlength, hposition, hvalid⟩ := hall events hevents
  refine ⟨spec, events, rfl, rfl, hone, hevents, hlength, ?_, ?_, ?_, fun hvisits => ?_⟩
  · exact (hposition 50 (by decide)).trans (by decide)
  · exact (hposition 51 (by decide)).trans (by decide)
  · exact (hposition 52 (by decide)).trans (by decide)
  · exact absurd (hvalid.mpr hvisits) (by decide)

end Plan

end Volley
