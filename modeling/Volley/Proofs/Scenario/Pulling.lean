import Mathlib.Data.List.ReduceOption
import Volley.Proofs.Scenario.Resending

/-!
# Pulling a plan

Whoever runs a plan pulls one write after the other and relies on what the plan says of the rest. A
pull is answered by a write as long as events remain, and by nothing from then on; the events handed
out and those that remain are always as many as the scenario has. This holds of every scenario,
also of one that breaks the rules of `Scenario.Spec.validate`: repeats, intervals and frames of zero
count as one.

## Main definitions

* `Plan.answers`: the answers to some number of pulls.
* `Plan.handedOut`: the events in them.

## Main results

* `Plan.of_answers`: what every single event keeps is kept by any number of pulls.
* `Plan.answers_of_remaining_eq_zero`: a plan that is used up stays so.
* `Plan.Numbered.ids_eq`: the ids of the fresh events, in order.
* `Plan.pulls_lose_nothing`: what any number of pulls hands out.
-/

namespace Volley

namespace Scenario.Spec

variable {spec : Spec}

/-- The ids of `freshOf` are those of `idAt`, counted from zero. -/
theorem ids_of_freshOf {events : List Event}
    (h : ∀ position event, events[position]? = some event → spec.repeats position = false →
      event.id = spec.idAt (spec.freshBefore position)) :
    (spec.freshOf events).map Event.id =
      (List.range (spec.freshBefore events.length)).map spec.idAt := by
  -- The number of an event depends on those before it, so the list grows at its end.
  induction events using List.reverseRecOn with
  | nil => simp [freshOf, freshBefore]
  | append_singleton events event ih =>
    have hbefore := ih fun position other hother =>
      h position other (Plan.getElem?_concat hother event)
    rw [freshOf_concat, List.length_append, List.length_singleton, List.map_append, hbefore]
    cases hrepeats : spec.repeats events.length with
    | true => simp [freshBefore_succ_of_repeats hrepeats]
    | false =>
      have hid := h events.length event List.getElem?_concat_length hrepeats
      simp [freshBefore_succ_of_fresh hrepeats, List.range_succ, hid]

theorem mem_freshOf {events : List Event} {position : Nat} {event : Event}
    (hevent : events[position]? = some event) (hfresh : spec.repeats position = false) :
    event ∈ spec.freshOf events := by
  rw [freshOf, List.mem_map]
  refine ⟨(event, position), List.mem_filter.mpr ⟨?_, ?_⟩, rfl⟩
  · exact List.mk_mem_zipIdx_iff_getElem?.mpr hevent
  · simp [hfresh]

/-- Without a `window?` all events are in `freshOf`. -/
theorem freshOf_eq_self (h : spec.window? = none) (events : List Event) :
    spec.freshOf events = events := by
  simp [freshOf, repeats_of_none h]

end Scenario.Spec

namespace Plan

/-- The answers to the next `n` pulls, and the plan after them. A pull that finds nothing leaves the
plan as it is. -/
def answers : (n : Nat) → Plan → Except Payload.TooLarge (List (Option Step) × Plan)
  | 0, plan => .ok ([], plan)
  | n + 1, plan =>
    match plan.next with
    | .error e => .error e
    | .ok none => (answers n plan).map fun (rest, last) => (none :: rest, last)
    | .ok (some (step, later)) =>
      (answers n later).map fun (rest, last) => (some step :: rest, last)

/-- The events of the steps among the `answers`. -/
def handedOut (answers : List (Option Step)) : List Event :=
  answers.reduceOption.flatMap Step.events

@[simp]
theorem handedOut_nil : handedOut [] = [] :=
  rfl

@[simp]
theorem handedOut_none (answers : List (Option Step)) :
    handedOut (none :: answers) = handedOut answers := by
  simp [handedOut]

@[simp]
theorem handedOut_some (step : Step) (answers : List (Option Step)) :
    handedOut (some step :: answers) = step.events ++ handedOut answers := by
  simp [handedOut]

/-- The first of `n + 1` pulls finds `none` or a step, and the other `answers` go on from there. -/
theorem answers_succ_cases {n : Nat} {plan last : Plan} {replies : List (Option Step)}
    (h : plan.answers (n + 1) = .ok (replies, last)) :
    (∃ rest, plan.next = .ok none ∧ replies = none :: rest ∧ plan.answers n = .ok (rest, last)) ∨
    (∃ step later rest, plan.next = .ok (some (step, later)) ∧ replies = some step :: rest ∧
      later.answers n = .ok (rest, last)) := by
  unfold answers at h
  split at h
  · cases h
  · next hnext =>
    cases hrest : plan.answers n with
    | error e =>
      rw [hrest] at h
      cases h
    | ok found =>
      rw [hrest] at h
      cases h
      exact Or.inl ⟨found.1, hnext, rfl, rfl⟩
  · next step later hnext =>
    cases hrest : later.answers n with
    | error e =>
      rw [hrest] at h
      cases h
    | ok found =>
      rw [hrest] at h
      cases h
      exact Or.inr ⟨step, later, found.1, hnext, rfl, hrest⟩

/-- After `n` pulls the `next` of the plan that is left is the answer to one more. -/
theorem answers_concat {n : Nat} {plan last later : Plan} {replies : List (Option Step)}
    {step : Step} (h : plan.answers n = .ok (replies, last))
    (hnext : last.next = .ok (some (step, later))) :
    plan.answers (n + 1) = .ok (replies ++ [some step], later) := by
  induction n generalizing plan replies with
  | zero =>
    cases h
    simp only [answers, hnext]
    rfl
  | succ n ih =>
    obtain ⟨rest, hnone, rfl, hrest⟩ | ⟨first, after, rest, hfirst, rfl, hrest⟩ :=
      answers_succ_cases h
    · rw [answers, hnone]
      simp only [ih hrest]
      rfl
    · rw [answers, hfirst]
      simp only [ih hrest]
      rfl

/-- If all `answers` are steps, they are the first `steps` of the plan. -/
theorem prefix_of_answers {plan last : Plan} {steps writes : List Step}
    (h : plan.answers steps.length = .ok (steps.map some, last))
    (hsteps : plan.steps = .ok writes) : steps <+: writes := by
  induction steps generalizing plan writes with
  | nil => exact List.nil_prefix
  | cons step steps ih =>
    obtain ⟨rest, -, hnone, -⟩ | ⟨first, later, rest, hnext, hsome, hrest⟩ := answers_succ_cases h
    · cases hnone
    · cases hsome
      rcases steps_cases hsteps with ⟨hnone, -⟩ | ⟨other, after, others, hother, rfl, hothers⟩
      · rw [hnext] at hnone
        cases hnone
      · cases hnext.symm.trans hother
        exact List.cons_prefix_cons.mpr ⟨rfl, ih hrest hothers⟩

/-- Pulling leaves `spec` as it is. -/
theorem spec_of_answers {n : Nat} {plan last : Plan} {replies : List (Option Step)}
    (h : plan.answers n = .ok (replies, last)) : last.spec = plan.spec := by
  induction n generalizing plan replies with
  | zero =>
    cases h
    rfl
  | succ n ih =>
    obtain ⟨rest, -, rfl, hrest⟩ | ⟨step, later, rest, hnext, rfl, hrest⟩ := answers_succ_cases h
    · exact ih hrest
    · exact (ih hrest).trans (length_of_next hnext).2

/-- A plan that is `Providing` answers any number of pulls. -/
theorem Providing.exists_answers {P : Event → Prop} {plan : Plan} (h : plan.Providing P) (n : Nat) :
    ∃ replies last, plan.answers n = .ok (replies, last) := by
  induction n generalizing plan with
  | zero => exact ⟨[], plan, rfl⟩
  | succ n ih =>
    rcases h.next_cases with hnone | ⟨step, later, hnext, -, hlater⟩
    · obtain ⟨rest, last, hrest⟩ := ih h
      exact ⟨none :: rest, last, by simp only [answers, hnone, hrest]; rfl⟩
    · obtain ⟨rest, last, hrest⟩ := ih hlater
      exact ⟨some step :: rest, last, by simp only [answers, hnext, hrest]; rfl⟩

/-- If nothing is `remaining`, the `answers` are all `none`, and the plan stays as it is. -/
theorem answers_of_remaining_eq_zero {plan : Plan} (h : plan.remaining = 0) (n : Nat) :
    plan.answers n = .ok (List.replicate n none, plan) := by
  induction n with
  | zero => rfl
  | succ n ih =>
    rw [answers, next_eq_none_iff.mpr h, ih]
    rfl

section answers

variable {n : Nat} {plan last : Plan} {replies : List (Option Step)}

theorem length_answers (h : plan.answers n = .ok (replies, last)) : replies.length = n := by
  induction n generalizing plan replies with
  | zero =>
    cases h
    rfl
  | succ n ih =>
    obtain ⟨rest, -, rfl, hrest⟩ | ⟨step, later, rest, -, rfl, hrest⟩ := answers_succ_cases h
    · rw [List.length_cons, ih hrest]
    · rw [List.length_cons, ih hrest]

/-- Every step among the `answers` has events. -/
theorem events_ne_nil_of_answers (h : plan.answers n = .ok (replies, last)) {step : Step}
    (hstep : some step ∈ replies) : step.events ≠ [] := by
  induction n generalizing plan replies with
  | zero =>
    cases h
    cases hstep
  | succ n ih =>
    obtain ⟨rest, -, rfl, hrest⟩ | ⟨first, later, rest, hnext, rfl, hrest⟩ := answers_succ_cases h
    · rcases List.mem_cons.mp hstep with heq | hmem
      · cases heq
      · exact ih hrest hmem
    · rcases List.mem_cons.mp hstep with heq | hmem
      · cases heq
        exact events_ne_nil_of_next hnext
      · exact ih hrest hmem

/-- As long as something is `remaining`, every pull takes something off it. -/
theorem remaining_of_answers (h : plan.answers n = .ok (replies, last)) :
    last.remaining ≤ plan.remaining - n := by
  induction n generalizing plan replies with
  | zero =>
    cases h
    exact Nat.le_refl _
  | succ n ih =>
    obtain ⟨rest, hnone, -, hrest⟩ | ⟨step, later, rest, hnext, -, hrest⟩ := answers_succ_cases h
    · have hzero := next_eq_none_iff.mp hnone
      have hle := ih hrest
      omega
    · have hlt := remaining_of_next hnext
      have hle := ih hrest
      omega

/-- An invariant `I` of the events handed out and the plan, which every `nextEvent` keeps whatever
`random` is, holds after any `answers`. -/
theorem of_answers {I : List Event → Plan → Prop}
    (hevent : ∀ {handed : List Event} {plan later : Plan} {event : Event}, I handed plan →
      plan.nextEvent = .ok (some (event, later)) → I (handed ++ [event]) later)
    (hrandom : ∀ {handed : List Event} {plan : Plan} (random : Random), I handed plan →
      I handed { plan with random })
    {handed : List Event} (hstart : I handed plan) (h : plan.answers n = .ok (replies, last)) :
    I (handed ++ handedOut replies) last := by
  induction n generalizing plan replies handed with
  | zero =>
    cases h
    simpa using hstart
  | succ n ih =>
    obtain ⟨rest, -, rfl, hrest⟩ | ⟨step, later, rest, hnext, rfl, hrest⟩ := answers_succ_cases h
    · simpa using ih hstart hrest
    · have hlater := of_next hevent hrandom hstart hnext
      simpa using ih hlater hrest

end answers

/-- The ids of the fresh events of a plan that is `Numbered` are `idBase + k` one after the other,
cut off at `maxWord`. -/
theorem Numbered.ids_eq {handed : List Event} {plan : Plan} (h : plan.Numbered handed) :
    (plan.spec.freshOf handed).map (fun event => event.id.toNat) =
      (List.range plan.fresh).map fun k => min (plan.spec.idBase.toNat + k) maxWord := by
  have hids := Scenario.Spec.ids_of_freshOf fun position event => @h.id_eq position event
  have htoNat := congrArg (List.map UInt64.toNat) hids
  rw [List.map_map, List.map_map, ← h.fresh] at htoNat
  refine htoNat.trans (List.map_congr_left fun k _ => ?_)
  exact toNat_saturate _

/-- Every event of a plan that is `Numbered` is in `freshOf`: it was handed out first as a fresh
one. -/
theorem Numbered.mem_freshOf {handed : List Event} {plan : Plan} (h : plan.Numbered handed)
    {event : Event} (hevent : event ∈ handed) : event ∈ plan.spec.freshOf handed := by
  obtain ⟨position, hposition⟩ := List.mem_iff_getElem?.mp hevent
  obtain ⟨origin, hfresh, horigin, -⟩ := h.exists_fresh hposition
  exact Scenario.Spec.mem_freshOf horigin hfresh

/-- Any `n` pulls from the plan of any spec, valid or not, with sizes within `Payload.maxPadding`:
all `answers` exist, and every step has events. The events `handedOut` and those `remaining` are
together the `count`; `next` is `none` exactly if nothing is `remaining`, and then for ever; `count`
pulls are enough. The ids in `freshOf` are `idBase + k` cut off at `maxWord`, every event is one of
those in `freshOf`, and without `.duplicates` all of them are fresh. -/
theorem pulls_lose_nothing {spec : Scenario.Spec}
    (hsizes : ∀ size ∈ spec.sizes.toList, size.toNat ≤ Payload.maxPadding)
    (timestamps : Nat → Int) (n : Nat) :
    ∃ replies plan, (start spec timestamps).answers n = .ok (replies, plan) ∧
      replies.length = n ∧ (∀ step, some step ∈ replies → step.events ≠ []) ∧
      (handedOut replies).length ≤ spec.count.toNat ∧
      plan.remaining = spec.count.toNat - (handedOut replies).length ∧
      (plan.next = .ok none ↔ plan.remaining = 0) ∧
      (plan.remaining = 0 → ∀ m, plan.answers m = .ok (List.replicate m none, plan)) ∧
      (spec.count.toNat ≤ n → (handedOut replies).length = spec.count.toNat) ∧
      plan.fresh = spec.freshBefore (handedOut replies).length ∧
      (spec.freshOf (handedOut replies)).map (fun event => event.id.toNat) =
        (List.range plan.fresh).map (fun k => min (spec.idBase.toNat + k) maxWord) ∧
      (∀ event ∈ handedOut replies, event ∈ spec.freshOf (handedOut replies)) ∧
      ((∀ interval, spec.strategy ≠ .duplicates interval) →
        spec.freshOf (handedOut replies) = handedOut replies) := by
  have hproviding := providing_start hsizes timestamps
  obtain ⟨replies, plan, hanswers⟩ := hproviding.exists_answers n
  -- The plan counts what it hands out, and numbers what is fresh.
  let I : List Event → Plan → Prop := fun handed plan => plan.spec = spec ∧
    plan.emitted = handed.length ∧ handed.length ≤ spec.count.toNat ∧ plan.Numbered handed
  have hevent : ∀ {handed : List Event} {plan later : Plan} {event : Event}, I handed plan →
      plan.nextEvent = .ok (some (event, later)) → I (handed ++ [event]) later := by
    rintro handed plan later event ⟨rfl, hemitted, -, hnumbered⟩ hnext
    obtain ⟨hspec, hcounted, hlt⟩ := emitted_of_nextEvent hnext
    have hlength : (handed ++ [event]).length = handed.length + 1 := List.length_append
    exact ⟨hspec, by omega, by omega, hnumbered.nextEvent hnext⟩
  have hrandom : ∀ {handed : List Event} {plan : Plan} (random : Random), I handed plan →
      I handed { plan with random } := by
    rintro handed plan random ⟨hspec, hemitted, hle, hnumbered⟩
    exact ⟨hspec, hemitted, hle, hnumbered.withRandom random⟩
  obtain ⟨rfl, hemitted, hle, hnumbered⟩ := of_answers hevent hrandom
    (show I [] (start spec timestamps) from ⟨rfl, rfl, Nat.zero_le _, Numbered.start _ _⟩) hanswers
  rw [List.nil_append] at hemitted hle hnumbered
  have hremaining : plan.remaining = plan.spec.count.toNat - (handedOut replies).length := by
    rw [remaining, hemitted]
  refine ⟨replies, plan, hanswers, length_answers hanswers,
    fun step => events_ne_nil_of_answers hanswers, hle, hremaining, next_eq_none_iff,
    answers_of_remaining_eq_zero, fun henough => ?_, hnumbered.fresh, hnumbered.ids_eq,
    fun event => hnumbered.mem_freshOf, fun hstrategy => ?_⟩
  · have hused := remaining_of_answers hanswers
    rw [remaining_start] at hused
    omega
  · refine Scenario.Spec.freshOf_eq_self ?_ _
    cases hwindow : plan.spec.window? with
    | none => rfl
    | some k =>
      obtain ⟨interval, hduplicates, -⟩ := Scenario.Spec.exists_of_window? hwindow
      exact absurd hduplicates (hstrategy interval)

/-- Seven pulls for five events of a spec that does not pass `validate`, with ids near `maxWord`:
every other event is the one before it, sent again. -/
theorem pulls_lose_nothing_at_top :
    ∃ (spec : Scenario.Spec) (replies : List (Option Step)) (plan : Plan),
      spec = ⟨"duplicates", .duplicates 0, .stream, 5, .single 64, .load, 42, .zero,
        0xFFFFFFFFFFFFFFFE⟩ ∧
      spec.validate = .error (.zeroPeriod "duplicates") ∧
      (∀ size ∈ spec.sizes.toList, size.toNat ≤ Payload.maxPadding) ∧
      (start spec fun _ => 0).answers 7 = .ok (replies, plan) ∧
      (handedOut replies).length = 5 ∧ plan.remaining = 0 ∧ plan.next = .ok none ∧
      (spec.freshOf (handedOut replies)).map (fun event => event.id.toNat) =
        [maxWord - 1, maxWord, maxWord] := by
  let spec : Scenario.Spec := ⟨"duplicates", .duplicates 0, .stream, 5, .single 64, .load, 42,
    .zero, 0xFFFFFFFFFFFFFFFE⟩
  have hroomy : spec.Roomy := Scenario.Spec.roomy_of_single rfl (by decide)
  obtain ⟨replies, plan, hanswers, -, -, -, hremaining, hnone, -, hall, hfresh, hids, -⟩ :=
    pulls_lose_nothing hroomy.le_maxPadding (fun _ => 0) 7
  have hlength : (handedOut replies).length = 5 := hall (by decide)
  have hzero : plan.remaining = 0 := by
    rw [hremaining, hlength]
    rfl
  have hthree : plan.fresh = 3 := by
    rw [hfresh, hlength]
    decide
  refine ⟨spec, replies, plan, rfl, by decide, hroomy.le_maxPadding, hanswers, hlength, hzero,
    hnone.mpr hzero, ?_⟩
  rw [hids, hthree]
  decide

end Plan

end Volley
