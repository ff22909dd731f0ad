import Volley.Proofs.Scenario.Pulling

/-!
# The counters of a plan

A plan counts what it hands out, and it does so in words. What happens behind the last word depends
on the build: one with overflow checks stops there, one without starts over. This module follows
both through every pull. The events that are handed out are at most as many as the scenario has, and
the fresh ones and those of a window are among them, so these counters never leave a word. The
number of frames in a write is bounded by nothing, though: a scenario may ask for as many as a word
can count, and the one that a plan adds to it, to find out whether a last event would be left over,
is one too many.

## Main definitions

* `Arithmetic`: what a build does behind the last word.
* `Plan.answersBy`: the answers to some number of pulls in such a build.
* `Scenario.Spec.WidestWrites`: a scenario that asks for as many frames as a word can count.

## Main results

* `Plan.nextEventBy_eq`: the counters of events stay in range.
* `Plan.quotaBy_eq`: the number of frames stays in range unless it is the largest.
* `Plan.nextBy_checked`: with the largest number of frames every pull goes beyond the range.
* `Plan.nextBy_wrapping`: a build that starts over then hands out the same.
* `Plan.increments_in_range`: what this means for any number of pulls.
-/

namespace Volley

/-! ## Builds -/

/-- What a build does with one more than `maxWord`: it stops, or it starts over at zero. -/
inductive Arithmetic where
  | checked
  | wrapping
  deriving DecidableEq, Repr

/-- Why a build stops while it pulls a plan. -/
inductive Panic where
  /-- An addition goes beyond the range of its type. -/
  | overflow
  /-- A payload is too large for the memory. -/
  | tooLarge (cause : Payload.TooLarge)

/-- One more than `n`; for `maxWord` this is `.overflow` or zero. -/
def Arithmetic.succ : Arithmetic → Nat → Except Panic Nat
  | checked, n => if n < maxWord then .ok (n + 1) else .error .overflow
  | wrapping, n => .ok ((n + 1) % (maxWord + 1))

/-- Below `maxWord` the two kinds of `Arithmetic` agree. -/
theorem Arithmetic.succ_of_lt {n : Nat} (h : n < maxWord) (arithmetic : Arithmetic) :
    arithmetic.succ n = .ok (n + 1) := by
  cases arithmetic with
  | checked => rw [succ, if_pos h]
  | wrapping => rw [succ, Nat.mod_eq_of_lt (Nat.succ_lt_succ h)]

namespace Plan

section Builds

variable (arithmetic : Arithmetic)

/-- Builds the next fresh event as `freshEvent` does, after counting it in `fresh`. -/
def freshEventBy (plan : Plan) : Except Panic (Event × Plan) :=
  match arithmetic.succ plan.fresh, plan.freshEvent with
  | .error panic, _ => .error panic
  | .ok _, .error e => .error (.tooLarge e)
  | .ok fresh, .ok (event, later) => .ok (event, { later with fresh })

/-- Builds the next fresh event and counts it in `window`, as `freshInWindow` does. -/
def freshInWindowBy (plan : Plan) : Except Panic (Event × Plan) :=
  match plan.freshEventBy arithmetic with
  | .error panic => .error panic
  | .ok (event, later) =>
    match arithmetic.succ plan.window with
    | .error panic => .error panic
    | .ok window =>
      .ok (event, { later with
        window
        head := if plan.window = 0 then some event else plan.head })

/-- Hands out one event as `nextEvent` does, after counting it in `emitted`. -/
def nextEventBy (plan : Plan) : Except Panic (Option (Event × Plan)) :=
  if plan.emitted ≥ plan.spec.count.toNat then .ok none
  else
    match arithmetic.succ plan.emitted with
    | .error panic => .error panic
    | .ok emitted =>
      let plan := { plan with emitted }
      match plan.spec.strategy with
      | .duplicates interval =>
        if plan.window ≥ max interval.toNat 1 then
          match plan.head with
          | some event => .ok (some (event, { plan with window := 0, head := none }))
          | none => ({ plan with window := 0 }.freshInWindowBy arithmetic).map some
        else (plan.freshInWindowBy arithmetic).map some
      | _ => (plan.freshEventBy arithmetic).map some

/-- Hands out up to `limit` events as `takeEvents` does. -/
def takeEventsBy : (limit : Nat) → Plan → Except Panic (List Event × Plan)
  | 0, plan => .ok ([], plan)
  | limit + 1, plan =>
    match plan.nextEventBy arithmetic with
    | .error panic => .error panic
    | .ok none => .ok ([], plan)
    | .ok (some (event, plan)) =>
      match takeEventsBy limit plan with
      | .error panic => .error panic
      | .ok (events, plan) => .ok (event :: events, plan)

/-- The number of events for one write, as in `quota`: what is `remaining` is compared with one more
than the frames, and if these are equal, one more is taken. -/
def quotaBy (plan : Plan) (frames : UInt64) : Except Panic Nat :=
  let full := max frames.toNat 1
  match arithmetic.succ full with
  | .error panic => .error panic
  | .ok longer => if plan.remaining = longer then arithmetic.succ full else .ok full

/-- Hands out the events of the next write, as `next` does. -/
def nextBy (plan : Plan) : Except Panic (Option (Step × Plan)) :=
  match plan.spec.strategy with
  | .fragmented frames mode =>
    match plan.quotaBy arithmetic frames with
    | .error panic => .error panic
    | .ok quota =>
      match plan.takeEventsBy arithmetic quota with
      | .error panic => .error panic
      | .ok ([], _) => .ok none
      | .ok (event :: events, plan) =>
        let total := (Step.mk (event :: events) .sticky).encodedLength
        let (shape, random) := shapeOf mode total plan.random
        .ok (some (⟨event :: events, shape⟩, { plan with random }))
  | _ =>
    match plan.nextEventBy arithmetic with
    | .error panic => .error panic
    | .ok none => .ok none
    | .ok (some (event, plan)) => .ok (some (⟨[event], .perFrame⟩, plan))

/-- The answers to the next `n` pulls as in `answers`, and the plan after them. -/
def answersBy : (n : Nat) → Plan → Except Panic (List (Option Step) × Plan)
  | 0, plan => .ok ([], plan)
  | n + 1, plan =>
    match plan.nextBy arithmetic with
    | .error panic => .error panic
    | .ok none => (answersBy n plan).map fun (rest, last) => (none :: rest, last)
    | .ok (some (step, later)) =>
      (answersBy n later).map fun (rest, last) => (some step :: rest, last)

end Builds

/-! ## Counters of events -/

section Events

variable {plan later : Plan} {event : Event}

theorem fresh_of_freshEvent (h : plan.freshEvent = .ok (event, later)) :
    later.fresh = plan.fresh + 1 := by
  obtain ⟨-, _, rfl⟩ := eq_of_freshEvent h
  rfl

theorem fresh_of_freshInWindow (h : plan.freshInWindow = .ok (event, later)) :
    later.fresh = plan.fresh + 1 := by
  unfold freshInWindow at h
  split at h
  · cases h
  · next built hfresh =>
    cases h
    have hbuilt : built.fresh = plan.fresh + 1 := fresh_of_freshEvent hfresh
    exact hbuilt

/-- One `nextEvent` adds at most one to `fresh`. -/
theorem fresh_of_nextEvent (h : plan.nextEvent = .ok (some (event, later))) :
    later.fresh ≤ plan.fresh + 1 := by
  unfold nextEvent at h
  split at h
  · cases h
  simp only at h
  split at h
  · split at h
    · split at h
      · cases h
        exact Nat.le_succ plan.fresh
      · exact (fresh_of_freshInWindow (ok_of_map_some h)).le
    · exact (fresh_of_freshInWindow (ok_of_map_some h)).le
  · exact (fresh_of_freshEvent (ok_of_map_some h)).le

/-- A plan counts at most as many events in `fresh` as in `emitted`. -/
def Counted (plan : Plan) : Prop :=
  plan.fresh ≤ plan.emitted

theorem Counted.start (spec : Scenario.Spec) (timestamps : Nat → Int) :
    (start spec timestamps).Counted :=
  Nat.le_refl 0

theorem Counted.nextEvent (h : plan.Counted)
    (hnext : plan.nextEvent = .ok (some (event, later))) : later.Counted := by
  obtain ⟨-, hemitted, -⟩ := emitted_of_nextEvent hnext
  have hfresh := fresh_of_nextEvent hnext
  unfold Counted at h ⊢
  omega

theorem Counted.next {step : Step} (h : plan.Counted)
    (hnext : plan.next = .ok (some (step, later))) : later.Counted :=
  -- The events themselves do not matter here, so they are counted from none.
  @of_next (fun _ plan => plan.Counted) Counted.nextEvent (fun _ hcounted => hcounted) plan later
    step [] h hnext

end Events

variable {plan : Plan}

private theorem map_mapError {ε ε' α β : Type} (x : Except ε α) (f : ε → ε') (g : α → β) :
    (x.mapError f).map g = (x.map g).mapError f := by
  cases x <;> rfl

/-- If `fresh` is below `maxWord`, `freshEventBy` is `freshEvent` in both kinds of `Arithmetic`. -/
theorem freshEventBy_eq (arithmetic : Arithmetic) (h : plan.fresh < maxWord) :
    plan.freshEventBy arithmetic = plan.freshEvent.mapError .tooLarge := by
  rw [freshEventBy, Arithmetic.succ_of_lt h]
  cases hfresh : plan.freshEvent with
  | error e => rfl
  | ok built =>
    obtain ⟨event, later⟩ := built
    dsimp only [Except.mapError]
    rw [← fresh_of_freshEvent hfresh]

/-- If `fresh` and `window` are below `maxWord`, `freshInWindowBy` is `freshInWindow`. -/
theorem freshInWindowBy_eq (arithmetic : Arithmetic) (h : plan.fresh < maxWord)
    (hwindow : plan.window < maxWord) :
    plan.freshInWindowBy arithmetic = plan.freshInWindow.mapError .tooLarge := by
  rw [freshInWindowBy, freshInWindow, freshEventBy_eq arithmetic h,
    Arithmetic.succ_of_lt hwindow]
  cases plan.freshEvent <;> rfl

/-- In a plan that is `Counted`, `nextEventBy` is `nextEvent`: an event is only handed out while
`emitted` is below the `count`, and it only goes into a `window` that is not full. -/
theorem nextEventBy_eq (arithmetic : Arithmetic) (h : plan.Counted) :
    plan.nextEventBy arithmetic = plan.nextEvent.mapError .tooLarge := by
  unfold nextEventBy nextEvent
  by_cases hend : plan.emitted ≥ plan.spec.count.toNat
  · rw [if_pos hend, if_pos hend]
    rfl
  -- The number of events is a word itself, and it has not been reached.
  have hcount := toNat_le_maxWord plan.spec.count
  have hemitted : plan.emitted < maxWord := by omega
  let counted : Plan := { plan with emitted := plan.emitted + 1 }
  have hfresh : counted.fresh < maxWord := Nat.lt_of_le_of_lt h hemitted
  have hplain : (counted.freshEventBy arithmetic).map some =
      (counted.freshEvent.map some).mapError .tooLarge := by
    rw [freshEventBy_eq arithmetic hfresh, map_mapError]
  have hinside (window : Nat) (head : Option Event) (hwindow : window < maxWord) :
      (freshInWindowBy arithmetic { counted with window, head }).map some =
        ((freshInWindow { counted with window, head }).map some).mapError .tooLarge := by
    rw [freshInWindowBy_eq arithmetic (by exact hfresh) (by exact hwindow), map_mapError]
  rw [if_neg hend, if_neg hend, Arithmetic.succ_of_lt hemitted]
  dsimp only
  cases plan.spec.strategy with
  | duplicates interval =>
    by_cases hfull : plan.window ≥ max interval.toNat 1
    · simp only [if_pos hfull]
      cases plan.head with
      | some event => rfl
      | none => exact hinside 0 none (by decide)
    · -- The interval has 32 bits only, so a window is full long before its counter is.
      simp only [if_neg hfull]
      have hinterval := interval.toNat_lt
      have hwindow : plan.window < maxWord := by
        unfold maxWord
        omega
      exact hinside plan.window plan.head hwindow
  | sweep _ | burst | fragmented _ _ | overflow _ _ | chaos | tiered => exact hplain

/-- In a plan that is `Counted`, `takeEventsBy` is `takeEvents`, whatever the `limit`. -/
theorem takeEventsBy_eq (arithmetic : Arithmetic) (limit : Nat) (h : plan.Counted) :
    plan.takeEventsBy arithmetic limit = (plan.takeEvents limit).mapError .tooLarge := by
  induction limit generalizing plan with
  | zero => rfl
  | succ limit ih =>
    rw [takeEventsBy, takeEvents, nextEventBy_eq arithmetic h]
    rcases hnext : plan.nextEvent with e | _ | ⟨event, later⟩
    · rfl
    · rfl
    · dsimp only [Except.mapError]
      rw [ih (h.nextEvent hnext)]
      cases later.takeEvents limit <;> rfl

end Plan

/-! ## The number of frames -/

/-- The strategy is `.fragmented` with `0xFFFFFFFFFFFFFFFF` frames, as many as a word can count. -/
def Scenario.Spec.WidestWrites (spec : Spec) : Prop :=
  ∃ mode, spec.strategy = .fragmented 0xFFFFFFFFFFFFFFFF mode

namespace Plan

variable {plan : Plan}

/-- If the `frames` are below `maxWord`, `quotaBy` is `quota`. -/
theorem quotaBy_eq (arithmetic : Arithmetic) {frames : UInt64} (h : frames.toNat < maxWord) :
    plan.quotaBy arithmetic frames = .ok (plan.quota frames) := by
  have hfull : max frames.toNat 1 < maxWord := Nat.max_lt.mpr ⟨h, by decide⟩
  simp only [quotaBy, quota, Arithmetic.succ_of_lt hfull]
  split <;> rfl

/-- With `.wrapping`, `quotaBy` takes the same events as `quota`, whatever the number of `frames`
is: one more than the largest is zero, and that remains of a plan only if it is used up. -/
theorem exists_quotaBy_wrapping (plan : Plan) (frames : UInt64) :
    ∃ quota, plan.quotaBy .wrapping frames = .ok quota ∧
      plan.takeEvents quota = plan.takeEvents (plan.quota frames) := by
  rcases Nat.lt_or_ge frames.toNat maxWord with hlt | hge
  · exact ⟨_, quotaBy_eq .wrapping hlt, rfl⟩
  · have hframes : frames.toNat = maxWord := Nat.le_antisymm (toNat_le_maxWord frames) hge
    have hfull : max frames.toNat 1 = maxWord := by rw [hframes]; decide
    have hremaining : plan.remaining ≤ maxWord :=
      (Nat.sub_le _ _).trans (toNat_le_maxWord plan.spec.count)
    have hquota : plan.quota frames = maxWord := by
      simp only [quota, hfull]
      exact if_neg (by omega)
    -- What remains is compared with zero instead of a number that it cannot be.
    have hsucc : Arithmetic.wrapping.succ maxWord = .ok 0 := rfl
    by_cases hzero : plan.remaining = 0
    · refine ⟨0, ?_, ?_⟩
      · simp only [quotaBy, hfull, hsucc]
        exact if_pos hzero
      · rw [takeEvents_of_remaining_eq_zero hzero, takeEvents_of_remaining_eq_zero hzero]
    · refine ⟨maxWord, ?_, by rw [hquota]⟩
      simp only [quotaBy, hfull, hsucc]
      exact if_neg hzero

/-- In a plan that is `Counted`, `nextBy` is `next` if `quotaBy` takes the events that `quota` does.
-/
theorem nextBy_of_quotaBy {arithmetic : Arithmetic} (h : plan.Counted)
    (hquota : ∀ frames mode, plan.spec.strategy = .fragmented frames mode →
      ∃ quota, plan.quotaBy arithmetic frames = .ok quota ∧
        plan.takeEvents quota = plan.takeEvents (plan.quota frames)) :
    plan.nextBy arithmetic = plan.next.mapError .tooLarge := by
  have hplain := nextEventBy_eq arithmetic h
  unfold nextBy next
  cases hstrategy : plan.spec.strategy with
  | fragmented frames mode =>
    obtain ⟨quota, hequal, htake⟩ := hquota frames mode hstrategy
    simp only [hequal, takeEventsBy_eq arithmetic quota h, htake]
    rcases plan.takeEvents (plan.quota frames) with e | ⟨_ | ⟨event, events⟩, taken⟩ <;> rfl
  | sweep _ | burst | duplicates _ | overflow _ _ | chaos | tiered =>
    rw [hplain]
    rcases plan.nextEvent with e | _ | ⟨event, later⟩ <;> rfl

/-- Unless the spec asks for `WidestWrites`, `nextBy` is `next` in both kinds of `Arithmetic`. -/
theorem nextBy_eq (arithmetic : Arithmetic) (h : plan.Counted) (hwidth : ¬plan.spec.WidestWrites) :
    plan.nextBy arithmetic = plan.next.mapError .tooLarge := by
  refine nextBy_of_quotaBy h fun frames mode hstrategy => ?_
  have hframes : frames.toNat < maxWord := by
    refine Nat.lt_of_le_of_ne (toNat_le_maxWord frames) fun heq => hwidth ⟨mode, ?_⟩
    have hlargest : frames = 0xFFFFFFFFFFFFFFFF := UInt64.toNat_inj.mp heq
    rw [hstrategy, hlargest]
  exact ⟨_, quotaBy_eq arithmetic hframes, rfl⟩

/-- With `.wrapping`, `nextBy` is `next` for every spec. -/
theorem nextBy_wrapping (h : plan.Counted) :
    plan.nextBy .wrapping = plan.next.mapError .tooLarge :=
  nextBy_of_quotaBy h fun frames _ _ => plan.exists_quotaBy_wrapping frames

/-- With `.checked` and `WidestWrites`, `nextBy` is an `.overflow`, even when nothing remains. -/
theorem nextBy_checked (hwidth : plan.spec.WidestWrites) :
    plan.nextBy .checked = .error .overflow := by
  obtain ⟨mode, hstrategy⟩ := hwidth
  have hquota : plan.quotaBy .checked 0xFFFFFFFFFFFFFFFF = .error .overflow := rfl
  simp only [nextBy, hstrategy, hquota]

/-! ## Pulls -/

/-- If `nextBy` is `next` for all plans of the spec that are `Counted`, then `answersBy` is
`answers`. -/
theorem answersBy_of_nextBy {arithmetic : Arithmetic} {spec : Scenario.Spec}
    (hnext : ∀ plan : Plan, plan.spec = spec → plan.Counted →
      plan.nextBy arithmetic = plan.next.mapError .tooLarge)
    (hspec : plan.spec = spec) (h : plan.Counted) (n : Nat) :
    plan.answersBy arithmetic n = (plan.answers n).mapError .tooLarge := by
  induction n generalizing plan with
  | zero => rfl
  | succ n ih =>
    rw [answersBy, answers, hnext plan hspec h]
    rcases hpull : plan.next with e | _ | ⟨step, later⟩
    · rfl
    · show (plan.answersBy arithmetic n).map _ = ((plan.answers n).map _).mapError _
      rw [ih hspec h, map_mapError]
    · have hlater : later.spec = spec := (length_of_next hpull).2.trans hspec
      show (later.answersBy arithmetic n).map _ = ((later.answers n).map _).mapError _
      rw [ih hlater (h.next hpull), map_mapError]

/-- Unless the spec asks for `WidestWrites`, `answersBy` is `answers` for any number of pulls in
both kinds of `Arithmetic`: with `.checked` there is no `.overflow`, with `.wrapping` nothing starts
over. So every pull is answered if all sizes are within `Payload.maxPadding`. With `WidestWrites`,
the first pull is an `.overflow` with `.checked`, and with `.wrapping` the answers are the same. -/
theorem increments_in_range (spec : Scenario.Spec) (timestamps : Nat → Int) :
    (¬spec.WidestWrites → ∀ arithmetic n,
      (start spec timestamps).answersBy arithmetic n =
        ((start spec timestamps).answers n).mapError .tooLarge ∧
      ((∀ size ∈ spec.sizes.toList, size.toNat ≤ Payload.maxPadding) →
        ∃ replies plan, (start spec timestamps).answersBy arithmetic n = .ok (replies, plan))) ∧
    (spec.WidestWrites → ∀ n,
      (start spec timestamps).answersBy .checked (n + 1) = .error .overflow ∧
      (start spec timestamps).answersBy .wrapping n =
        ((start spec timestamps).answers n).mapError .tooLarge) := by
  have hcounted := Counted.start spec timestamps
  constructor
  · intro hwidth arithmetic n
    have hsame : (start spec timestamps).answersBy arithmetic n =
        ((start spec timestamps).answers n).mapError .tooLarge := by
      refine answersBy_of_nextBy (fun plan hspec hplan => ?_) rfl hcounted n
      exact nextBy_eq arithmetic hplan (hspec ▸ hwidth)
    refine ⟨hsame, fun hsizes => ?_⟩
    obtain ⟨replies, plan, hanswers⟩ := (providing_start hsizes timestamps).exists_answers n
    exact ⟨replies, plan, by rw [hsame, hanswers]; rfl⟩
  · intro hwidth n
    refine ⟨?_, answersBy_of_nextBy (fun _ _ => nextBy_wrapping) rfl hcounted n⟩
    have hfirst : (start spec timestamps).nextBy .checked = .error .overflow :=
      nextBy_checked hwidth
    rw [answersBy, hfirst]

/-- Writes of `0xFFFFFFFFFFFFFFFE` frames, one less than those of `WidestWrites`. -/
def wide : Scenario.Spec :=
  ⟨"wide", .fragmented 0xFFFFFFFFFFFFFFFE .sticky, .stream, 5, .single 8, .load, 42, .zero,
    0xFFFFFFFFFFFFFFFE⟩

/-- The spec `wide` still leaves room for the comparison with one more. -/
theorem increments_in_range_wide :
    wide.validate = .ok () ∧ ¬wide.WidestWrites ∧
      ∃ replies plan, (start wide fun _ => 0).answersBy .checked 3 = .ok (replies, plan) := by
  have hwidth : ¬wide.WidestWrites := by
    rintro ⟨mode, hstrategy⟩
    cases hstrategy
  have hroomy : wide.Roomy := Scenario.Spec.roomy_of_single rfl (by decide)
  obtain ⟨hrange, -⟩ := increments_in_range wide fun _ => 0
  exact ⟨by decide, hwidth, (hrange hwidth .checked 3).2 hroomy.le_maxPadding⟩

/-- A spec that passes `validate`, and whose first pull is an `.overflow` with `.checked`: it asks
for as many frames in a write as a word can count. -/
theorem increment_overflows_of_valid :
    ∃ spec : Scenario.Spec,
      spec = ⟨"spec", .fragmented 0xFFFFFFFFFFFFFFFF .sticky, .stream, 5, .single 8, .load, 0,
        .zero, 0⟩ ∧
      spec.validate = .ok () ∧
      (start spec fun _ => 0).answersBy .checked 1 = .error .overflow := by
  refine ⟨_, rfl, by decide, ?_⟩
  rw [answersBy, nextBy_checked ⟨.sticky, rfl⟩]

end Plan

end Volley
