import Volley.Proofs.Run.Course
import Volley.Proofs.Run.Logged
import Volley.Proofs.Scenario.Buildable
import Volley.Sink.Recorder

/-!
# The accounts of a run

Whatever its sink answers, and whenever the stop signal is raised, a run keeps its books in order:
at every place where it waits, the events that it counts as attempted are those that were sent,
those that failed, and those of the write that is under way. The invariant behind this
(`Run.Accounted`) has the writes of the plan in three parts: those that the sink has answered, one
that it may be taking, and those that the plan still yields. The counters are the numbers of events
in these parts; when the session is lost, the last part is counted as well.

## Main definitions

* `Run.Landing`: a write with the answer to it.
* `Run.Tally`: what the counters say of answered writes, of one under way and of writes written off.
* `Run.Accounted`: the invariant, place by place.
* `Run.Account`: what is known of a run that has returned.

## Main results

* `Run.Accounted.advance`: a run that goes on to the next place keeps the invariant.
* `Run.accounting`: the books balance at every place, and the outcome agrees with them.
-/

namespace Volley

namespace Run

/-! ## Counting events -/

/-- The number of events in several `writes`. -/
def eventCount (writes : List Step) : Nat :=
  (writes.flatMap Step.events).length

@[simp]
theorem eventCount_append (writes others : List Step) :
    eventCount (writes ++ others) = eventCount writes + eventCount others := by
  simp only [eventCount, List.flatMap_append, List.length_append]

@[simp]
theorem eventCount_singleton (step : Step) : eventCount [step] = step.events.length := by
  simp only [eventCount, List.flatMap_singleton]

/-- A write with the `reply` of its sink, and whether the sink said after it, by `isOpen`, that a
later write could still succeed. -/
structure Landing where
  flight : Flight
  reply : Reply
  isOpen : Bool

namespace Landing

def step (landing : Landing) : Step :=
  landing.flight.step

/-- The `Call` of the sink that led to a landing. -/
def call (landing : Landing) : Call :=
  landing.flight.call landing.reply landing.isOpen

end Landing

/-- The writes that their sink has taken: those with a `reply` that `isOk`. -/
def taken (landings : List Landing) : List Step :=
  (landings.filter fun landing => landing.reply.isOk).map Landing.step

/-- The writes that their sink has refused: those with any other `reply`. -/
def refused (landings : List Landing) : List Step :=
  (landings.filter fun landing => !landing.reply.isOk).map Landing.step

/-- An answered write is `taken` or `refused`. -/
theorem eventCount_landings (landings : List Landing) :
    eventCount (landings.map Landing.step) =
      eventCount (taken landings) + eventCount (refused landings) := by
  induction landings with
  | nil => rfl
  | cons landing rest ih =>
    -- One write more on the left is one more on exactly one side of the sum.
    have hcons : ∀ step steps,
        eventCount (step :: steps) = step.events.length + eventCount steps := by
      intro step steps
      rw [← List.singleton_append, eventCount_append, eventCount_singleton]
    rw [List.map_cons, hcons, ih]
    unfold taken refused
    cases hreply : landing.reply.isOk with
    | true =>
      simp only [List.filter_cons, hreply, Bool.not_true, Bool.false_eq_true, if_true, if_false,
        List.map_cons, hcons]
      omega
    | false =>
      simp only [List.filter_cons, hreply, Bool.not_false, Bool.false_eq_true, if_true, if_false,
        List.map_cons, hcons]
      omega

/-! ## Counters -/

/-- The counters after the answers to `landings`, with the writes `flying` under way and the writes
`lost` written off. -/
structure Tally (landings : List Landing) (flying lost : List Step) (progress : Progress) :
    Prop where
  attempted : progress.attempted =
    UInt64.ofNat (eventCount (landings.map Landing.step ++ flying ++ lost))
  sent : progress.sent = UInt64.ofNat (eventCount (taken landings))
  errors : progress.errors = UInt64.ofNat (eventCount (refused landings ++ lost))

namespace Tally

variable {landings : List Landing} {flying lost : List Step} {progress : Progress}

/-- At the start of `Progress.zero` nothing is counted. -/
theorem start (now : Nat) : Tally [] [] [] (Progress.zero.start now) :=
  ⟨rfl, rfl, rfl⟩

/-- A write that begins counts as `attempted`. -/
theorem fly (h : Tally landings [] [] progress) (flight : Flight) :
    Tally landings [flight.step] [] (progress.addAttempted flight.events) := by
  refine ⟨?_, h.sent, h.errors⟩
  simp only [Progress.addAttempted, h.attempted, Flight.events, List.append_nil, eventCount_append,
    eventCount_singleton, UInt64.ofNat_add]

/-- A write that is taken counts as `sent`. -/
theorem land_ok {flight : Flight} (h : Tally landings [flight.step] [] progress) (isOpen : Bool) :
    Tally (landings ++ [⟨flight, .ok (), isOpen⟩]) [] [] (progress.addSent flight.events) := by
  have htaken :
      taken (landings ++ [⟨flight, .ok (), isOpen⟩]) = taken landings ++ [flight.step] := by
    simp [taken, Landing.step, Except.isOk, Except.toBool]
  have hrefused : refused (landings ++ [⟨flight, .ok (), isOpen⟩]) = refused landings := by
    simp [refused, Except.isOk, Except.toBool]
  refine ⟨?_, ?_, ?_⟩
  · simpa [Landing.step, Progress.addSent] using h.attempted
  · simp only [Progress.addSent, h.sent, htaken, Flight.events, eventCount_append,
      eventCount_singleton, UInt64.ofNat_add]
  · rw [hrefused]
    exact h.errors

/-- A write that is refused counts in `errors`. -/
theorem land_error {flight : Flight} (h : Tally landings [flight.step] [] progress)
    (e : TransportError) (isOpen : Bool) :
    Tally (landings ++ [⟨flight, .error e, isOpen⟩]) [] [] (progress.addErrors flight.events) := by
  have htaken : taken (landings ++ [⟨flight, .error e, isOpen⟩]) = taken landings := by
    simp [taken, Except.isOk, Except.toBool]
  have hrefused : refused (landings ++ [⟨flight, .error e, isOpen⟩]) =
      refused landings ++ [flight.step] := by
    simp [refused, Landing.step, Except.isOk, Except.toBool]
  refine ⟨?_, ?_, ?_⟩
  · simpa [Landing.step, Progress.addErrors] using h.attempted
  · rw [htaken]
    exact h.sent
  · simp only [Progress.addErrors, h.errors, hrefused, Flight.events, List.append_nil,
      eventCount_append, eventCount_singleton, UInt64.ofNat_add]

/-- Writes that are written off count as `attempted` and in `errors`. -/
theorem lose (h : Tally landings [] [] progress) (rest : List Step) :
    Tally landings [] rest ((progress.addAttempted (UInt64.ofNat (eventCount rest))).addErrors
      (UInt64.ofNat (eventCount rest))) := by
  refine ⟨?_, h.sent, ?_⟩
  · simp only [Progress.addAttempted, Progress.addErrors, h.attempted, List.append_nil,
      eventCount_append, UInt64.ofNat_add]
  · simp only [Progress.addAttempted, Progress.addErrors, h.errors, List.append_nil,
      eventCount_append, UInt64.ofNat_add]

/-- If the counters of a `Tally` have not started over, every event `attempted` was sent, has failed
or is under way. -/
theorem balance (h : Tally landings flying lost progress)
    (hlt : eventCount (landings.map Landing.step ++ flying ++ lost) < 0x10000000000000000) :
    progress.attempted.toNat = eventCount (landings.map Landing.step ++ flying ++ lost) ∧
      progress.sent.toNat = eventCount (taken landings) ∧
      progress.attempted.toNat =
        progress.sent.toNat + progress.errors.toNat + eventCount flying := by
  have hsplit := eventCount_landings landings
  have hattempted : progress.attempted.toNat =
      eventCount (landings.map Landing.step ++ flying ++ lost) := by
    rw [h.attempted, UInt64.toNat_ofNat']
    exact Nat.mod_eq_of_lt hlt
  simp only [eventCount_append] at hlt hattempted ⊢
  have hsent : progress.sent.toNat = eventCount (taken landings) := by
    rw [h.sent, UInt64.toNat_ofNat']
    exact Nat.mod_eq_of_lt (by omega)
  have herrors : progress.errors.toNat = eventCount (refused landings) + eventCount lost := by
    rw [h.errors, UInt64.toNat_ofNat', eventCount_append]
    exact Nat.mod_eq_of_lt (by omega)
  refine ⟨hattempted, hsent, ?_⟩
  omega

end Tally

/-! ## The invariant -/

variable {σ : Type}

/-- The `writes` of a plan in order: those that have been answered, in `landings`, those that are
`flying`, and the `rest` that the plan still yields. -/
structure Trail (writes : List Step) (landings : List Landing) (flying rest : List Step)
    (plan : Plan) : Prop where
  order : writes = landings.map Landing.step ++ flying ++ rest
  encoded : ∀ landing ∈ landings,
    Event.encodeAll landing.flight.step.events = .ok landing.flight.bytes
  yields : plan.Yields rest

/-- A write that is answered is no longer `flying` but the last of `landings`. -/
theorem Trail.land {writes rest : List Step} {landings : List Landing} {flight : Flight}
    {plan : Plan} (h : Trail writes landings [flight.step] rest plan)
    (hencoded : Event.encodeAll flight.step.events = .ok flight.bytes) (reply : Reply)
    (isOpen : Bool) : Trail writes (landings ++ [⟨flight, reply, isOpen⟩]) [] rest plan := by
  refine ⟨?_, ?_, h.yields⟩
  · rw [h.order, List.map_append, List.append_nil]
    rfl
  · intro landing hmem
    rcases List.mem_append.mp hmem with hmem | hmem
    · exact h.encoded landing hmem
    · rw [List.mem_singleton.mp hmem]
      exact hencoded

/-- Why a run may end as it does, with the writes `lost` written off. -/
inductive Justified (landings : List Landing) (rest : List Step) (clock : Clock) :
    Ending → (lost : List Step) → Prop where
  | completed (finished : rest = []) : Justified landings rest clock .completed []
  | stopped (raised : clock.stopped = true) (unfinished : rest ≠ []) :
    Justified landings rest clock .stopped []
  | transportFailed {earlier : List Landing} {flight : Flight} {e : TransportError}
    (closed : landings = earlier ++ [⟨flight, .error e, false⟩]) :
    Justified landings rest clock .transportFailed rest

/-- What is `Justified` as an ending stays so when the signal is raised. -/
theorem Justified.raise {landings : List Landing} {rest lost : List Step} {clock : Clock}
    {ending : Ending} (h : Justified landings rest clock ending lost) :
    Justified landings rest clock.raise ending lost := by
  cases h with
  | completed finished => exact .completed finished
  | stopped raised unfinished => exact .stopped clock.stopped_raise unfinished
  | transportFailed closed => exact .transportFailed closed

/-- No more events are `lost` than there are in the `rest`. -/
theorem Justified.eventCount_le {landings : List Landing} {rest lost : List Step} {clock : Clock}
    {ending : Ending} (h : Justified landings rest clock ending lost) :
    eventCount lost ≤ eventCount rest := by
  cases h with
  | completed => exact Nat.zero_le _
  | stopped => exact Nat.zero_le _
  | transportFailed => exact Nat.le_refl _

/-- The books of a run are in order at the place where it waits: the writes form a `Trail`, the
counters are its `Tally`, the sink was asked for the `landings`, and an ending is `Justified`. -/
inductive Accounted (writes : List Step) : Course (Logged σ) → Prop where
  | writing {landings : List Landing} {rest : List Step} {flight : Flight} {clock : Clock}
      {run : Run (Logged σ)} (trail : Trail writes landings [flight.step] rest run.plan)
      (encoded : Event.encodeAll flight.step.events = .ok flight.bytes)
      (tally : Tally landings [flight.step] [] run.progress)
      (calls : run.sink.calls = landings.map Landing.call) :
      Accounted writes ⟨.writing flight, clock, run⟩
  | pausing {landings : List Landing} {rest : List Step} {clock : Clock} {run : Run (Logged σ)}
      (trail : Trail writes landings [] rest run.plan) (tally : Tally landings [] [] run.progress)
      (calls : run.sink.calls = landings.map Landing.call) :
      Accounted writes ⟨.pausing, clock, run⟩
  | closing {landings : List Landing} {rest lost : List Step} {ending : Ending} {clock : Clock}
      {run : Run (Logged σ)} (trail : Trail writes landings [] rest run.plan)
      (tally : Tally landings [] lost run.progress)
      (calls : run.sink.calls = landings.map Landing.call)
      (justified : Justified landings rest clock ending lost) :
      Accounted writes ⟨.closing (.ok ending), clock, run⟩
  | returned {landings : List Landing} {rest lost : List Step} {ending : Ending} {clock : Clock}
      {run : Run (Logged σ)} (trail : Trail writes landings [] rest run.plan)
      (tally : Tally landings [] lost run.progress)
      (calls : run.sink.calls = landings.map Landing.call ++ [.close])
      (justified : Justified landings rest clock ending lost) :
      Accounted writes ⟨.returned (.ok ending), clock, run⟩

/-- What is `remaining` of a plan is the events that it still `Yields`. -/
theorem remaining_eq_eventCount {plan : Plan} {rest : List Step} (h : plan.Yields rest) :
    plan.remaining = eventCount rest :=
  h.length_events.symm

/-- A plan that `Yields` no writes has nothing `remaining`, and the other way round. -/
theorem remaining_eq_zero_iff {plan : Plan} {rest : List Step} (h : plan.Yields rest) :
    plan.remaining = 0 ↔ rest = [] := by
  constructor
  · intro hzero
    obtain ⟨-, hnil⟩ | ⟨_, _, _, _, hnext, -⟩ := h.cases
    · exact hnil
    · rw [Plan.next_eq_none_iff.mpr hzero] at hnext
      cases hnext
  · rintro rfl
    exact remaining_eq_eventCount h

/-- The `endingOf` a run that stops asking for writes is `Justified`: it has no more of them, or is
stopped. -/
theorem justified_endingOf {landings : List Landing} {rest : List Step} {clock : Clock}
    {run : Run (Logged σ)} (h : run.plan.Yields rest) (hover : rest = [] ∨ clock.stopped = true) :
    Justified landings rest clock run.endingOf [] := by
  have hzero := remaining_eq_zero_iff h
  unfold endingOf
  split
  · next hpos =>
    have hne : rest ≠ [] := fun hnil => absurd (hzero.mpr hnil) (by omega)
    exact .stopped (hover.resolve_left hne) hne
  · next hnot => exact .completed (hzero.mp (by omega))

namespace Accounted

variable {writes : List Step}

/-- A run without a write under way is `Accounted` for after `Course.depart`. -/
theorem depart {landings : List Landing} {rest : List Step} {run : Run (Logged σ)}
    (trail : Trail writes landings [] rest run.plan) (tally : Tally landings [] [] run.progress)
    (calls : run.sink.calls = landings.map Landing.call) (clock : Clock) :
    Accounted writes (Course.depart clock run) := by
  unfold Course.depart
  cases hstopped : clock.stopped with
  | true =>
    rw [turn_of_stopped hstopped]
    exact .closing trail tally calls (justified_endingOf trail.yields (Or.inr hstopped))
  | false =>
    cases rest with
    | nil =>
      rw [turn_of_yields_nil trail.yields]
      exact .closing trail tally calls (justified_endingOf trail.yields (Or.inl rfl))
    | cons step rest =>
      -- The next write is under way, and no longer part of what the plan yields.
      obtain ⟨plan, bytes, -, hrest, hbytes, hturn⟩ := turn_of_yields_cons trail.yields hstopped
      rw [hturn]
      have horder : writes = landings.map Landing.step ++ [step] ++ rest := by
        rw [trail.order, List.append_nil, List.append_assoc]
        rfl
      exact .writing ⟨horder, trail.encoded, hrest⟩ hbytes (tally.fly ⟨step, bytes⟩) calls

/-- A run that is `Accounted` for stays so when the signal is raised. -/
theorem raise {course : Course (Logged σ)} (h : Accounted writes course) :
    Accounted writes { course with clock := course.clock.raise } := by
  cases h with
  | writing trail encoded tally calls => exact .writing trail encoded tally calls
  | pausing trail tally calls => exact .pausing trail tally calls
  | closing trail tally calls justified => exact .closing trail tally calls justified.raise
  | returned trail tally calls justified => exact .returned trail tally calls justified.raise

variable [Sink σ]

/-- A run whose sink has answered is `Accounted` for after `Course.land`. -/
theorem land {landings : List Landing} {rest : List Step} {flight : Flight} {run : Run (Logged σ)}
    (trail : Trail writes landings [flight.step] rest run.plan)
    (encoded : Event.encodeAll flight.step.events = .ok flight.bytes)
    (tally : Tally landings [flight.step] [] run.progress) {reply : Reply} {clock : Clock}
    {sink : Logged σ}
    (calls : sink.calls =
      (landings ++ [Landing.mk flight reply (Sink.isOpen clock sink)]).map Landing.call) :
    Accounted writes (Course.land flight reply clock { run with sink }) := by
  -- Whatever the answer is, the write now belongs to the answered ones.
  have hlanded := fun isOpen => trail.land encoded reply isOpen
  cases reply with
  | ok _ => exact .pausing (hlanded _) (tally.land_ok _) calls
  | error e =>
    have htally := tally.land_error e (Sink.isOpen clock sink)
    unfold Course.land settle
    simp only
    cases hstopped : clock.stopped with
    | true =>
      exact .closing (hlanded _) htally calls (justified_endingOf trail.yields (Or.inr hstopped))
    | false =>
      cases hopen : Sink.isOpen clock sink with
      | true =>
        rw [hopen] at calls htally
        exact .pausing (hlanded _) htally calls
      | false =>
        -- The session is lost: everything that the plan still yields is written off.
        rw [hopen] at calls htally
        have hlost := htally.lose rest
        rw [← remaining_eq_eventCount trail.yields] at hlost
        exact .closing (hlanded _) hlost calls (.transportFailed rfl)

/-- A run that is `Accounted` for stays so when it goes on to the next place. -/
theorem advance {course : Course (Logged σ)} (h : Accounted writes course) :
    Accounted writes course.advance := by
  cases h with
  | @writing landings rest flight clock run trail encoded tally calls =>
    simp only [Course.advance, submit_eq, flight.offer_logged]
    refine land trail encoded tally ?_
    rw [List.map_append, calls]
    rfl
  | pausing trail tally calls => exact depart trail tally calls _
  | closing trail tally calls justified =>
    -- The log gets its last entry.
    refine .returned trail tally ?_ justified
    rw [← calls]
    rfl
  | returned trail tally calls justified => exact .returned trail tally calls justified

/-- A run that is `Accounted` for stays so in all that its course `Reaches`. -/
theorem of_reaches {first later : Course (Logged σ)} (h : Accounted writes first)
    (hreaches : first.Reaches later) : Accounted writes later := by
  induction hreaches with
  | refl => exact h
  | tail _ hmove ih =>
    cases hmove with
    | advance => exact ih.advance
    | raise => exact ih.raise

end Accounted

/-! ## The accounts -/

/-- The counters of a `Trail` do not start over, because it has no more events than `count`. -/
theorem Trail.balance {writes rest flying lost : List Step} {landings : List Landing} {plan : Plan}
    {progress : Progress} {count : UInt64} (h : Trail writes landings flying rest plan)
    (htally : Tally landings flying lost progress) (hlost : eventCount lost ≤ eventCount rest)
    (hcount : eventCount writes = count.toNat) :
    progress.attempted.toNat = eventCount (landings.map Landing.step ++ flying ++ lost) ∧
      progress.attempted ≤ count ∧ progress.sent.toNat = eventCount (taken landings) ∧
      progress.attempted.toNat =
        progress.sent.toNat + progress.errors.toNat + eventCount flying := by
  have hle : eventCount (landings.map Landing.step ++ flying ++ lost) ≤ count.toNat := by
    rw [← hcount, h.order, eventCount_append, eventCount_append _ rest]
    exact Nat.add_le_add_left hlost _
  obtain ⟨hattempted, hsent, hbalance⟩ := htally.balance (Nat.lt_of_le_of_lt hle count.toNat_lt)
  refine ⟨hattempted, ?_, hsent, hbalance⟩
  rw [UInt64.le_iff_toNat_le, hattempted]
  exact hle

/-- The number of events in the write that is under way, in the stage `writing`. -/
def Stage.inFlight : Stage → Nat
  | .writing flight => flight.step.events.length
  | .pausing => 0
  | .closing _ => 0
  | .returned _ => 0

/-- Wherever a run waits, what it has `attempted` is what it has `sent`, its `errors` and what is
`inFlight`. -/
theorem Accounted.balance {writes : List Step} {course : Course (Logged σ)} {count : UInt64}
    (h : Accounted writes course) (hcount : eventCount writes = count.toNat) :
    course.run.progress.attempted ≤ count ∧
      course.run.progress.attempted.toNat =
        course.run.progress.sent.toNat + course.run.progress.errors.toNat +
          course.stage.inFlight := by
  cases h with
  | writing trail encoded tally calls =>
    obtain ⟨-, hle, -, hbalance⟩ := trail.balance tally (Nat.zero_le _) hcount
    rw [eventCount_singleton] at hbalance
    exact ⟨hle, hbalance⟩
  | pausing trail tally calls =>
    obtain ⟨-, hle, -, hbalance⟩ := trail.balance tally (Nat.zero_le _) hcount
    exact ⟨hle, hbalance⟩
  | closing trail tally calls justified =>
    obtain ⟨-, hle, -, hbalance⟩ := trail.balance tally justified.eventCount_le hcount
    exact ⟨hle, hbalance⟩
  | returned trail tally calls justified =>
    obtain ⟨-, hle, -, hbalance⟩ := trail.balance tally justified.eventCount_le hcount
    exact ⟨hle, hbalance⟩

/-- The account of a run that has returned with `ending`, over the `landings` that it got from its
sink. -/
structure Account (writes : List Step) (count : UInt64) (landings : List Landing) (ending : Ending)
    (clock : Clock) (run : Run (Logged σ)) : Prop where
  /-- The answered writes are the first of the plan. -/
  order : landings.map Landing.step <+: writes
  /-- Each of them was made with the frames of its events. -/
  encoded : ∀ landing ∈ landings,
    Event.encodeAll landing.flight.step.events = .ok landing.flight.bytes
  /-- The sink was asked for these writes and nothing else, and then it was closed, once. -/
  calls : run.sink.calls = landings.map Landing.call ++ [.close]
  balance : run.progress.sent.toNat + run.progress.errors.toNat = run.progress.attempted.toNat
  /-- The events counted as sent are those of the writes that the sink took. -/
  sent : run.progress.sent.toNat = eventCount (taken landings)
  /-- Unless the session was lost, no other events are counted as attempted. -/
  asked : ending ≠ .transportFailed →
    run.progress.attempted.toNat = eventCount (landings.map Landing.step)
  finished : ending = .completed ∨ ending = .transportFailed → run.progress.attempted = count
  /-- The last write failed, and after it the sink was not open. -/
  lost : ending = .transportFailed →
    ∃ earlier flight e, landings = earlier ++ [⟨flight, .error e, false⟩]
  stopped : ending = .stopped → clock.stopped = true ∧ run.progress.attempted < count

/-- A run that is `Accounted` for and has returned has an `Account` that agrees with its ending. -/
theorem Accounted.account {writes : List Step} {result : Except Failure Ending} {clock : Clock}
    {run : Run (Logged σ)} {count : UInt64} (h : Accounted writes ⟨.returned result, clock, run⟩)
    (hcount : eventCount writes = count.toNat) :
    ∃ ending landings, result = .ok ending ∧ Account writes count landings ending clock run := by
  cases h with
  | @returned landings rest lost ending _ _ trail tally calls justified =>
    obtain ⟨hattempted, -, hsent, hbalance⟩ := trail.balance tally justified.eventCount_le hcount
    have horder : writes = landings.map Landing.step ++ rest := by
      rw [trail.order, List.append_nil]
    have hwrites : count.toNat = eventCount (landings.map Landing.step) + eventCount rest := by
      rw [← hcount, horder, eventCount_append]
    rw [List.append_nil, eventCount_append] at hattempted
    refine ⟨ending, landings, rfl, ⟨rest, horder.symm⟩, trail.encoded, calls, hbalance.symm, hsent,
      ?_, ?_, ?_, ?_⟩
    · intro hending
      rw [hattempted]
      cases justified with
      | completed => rfl
      | stopped => rfl
      | transportFailed => exact absurd rfl hending
    · intro hending
      rw [← UInt64.toNat_inj, hattempted, hwrites]
      cases justified with
      | completed finished => rw [finished]
      | stopped => rcases hending with hending | hending <;> cases hending
      | transportFailed => rfl
    · rintro rfl
      cases justified with
      | transportFailed closed => exact ⟨_, _, _, closed⟩
    · rintro rfl
      cases justified with
      | stopped raised unfinished =>
        -- What the plan still yields has at least one event, which was not attempted.
        have hpos : 0 < eventCount rest := by
          rw [← remaining_eq_eventCount trail.yields]
          exact Nat.pos_of_ne_zero fun hzero =>
            unfinished ((remaining_eq_zero_iff trail.yields).mp hzero)
        refine ⟨raised, ?_⟩
        rw [UInt64.lt_iff_toNat_lt, hattempted, hwrites]
        exact Nat.add_lt_add_left hpos _

/-- For every scenario whose plan `Yields` its writes, every sink and every moment at which the stop
signal may be raised: wherever the run waits, it has `attempted` at most `spec.count` events, and
these are the ones that were `sent`, those in `errors` and those `inFlight`. From wherever it waits
it can return, and when it has returned, its `Account` agrees with its ending. With the log of its
sink and without, `Run.scenario` ends in one of these ways. -/
theorem accounting [Sink σ] (spec : Scenario.Spec) (timestamps : Nat → Int) (sink : σ)
    (clock : Clock) {writes : List Step} (hyields : (Plan.start spec timestamps).Yields writes) :
    (∀ course, (Course.launch spec timestamps (Logged.new sink) clock).Reaches course →
      course.run.progress.attempted ≤ spec.count ∧
      course.run.progress.attempted.toNat =
        course.run.progress.sent.toNat + course.run.progress.errors.toNat +
          course.stage.inFlight ∧
      (∃ result later final, course.Reaches ⟨.returned result, later, final⟩) ∧
      (∀ result, course.stage = .returned result → ∃ ending landings, result = .ok ending ∧
        Account writes spec.count landings ending course.clock course.run)) ∧
    ∃ ending later final landings,
      scenario spec timestamps (Logged.new sink) clock = (.ok ending, later, final) ∧
      scenario spec timestamps sink clock = (.ok ending, later, final.unlogged) ∧
      (Course.launch spec timestamps (Logged.new sink) clock).Reaches
        ⟨.returned (.ok ending), later, final⟩ ∧
      Account writes spec.count landings ending later final := by
  have hcount : eventCount writes = spec.count.toNat := by
    rw [← remaining_eq_eventCount hyields, Plan.remaining_start]
  -- At the start nothing is counted and the plan yields all its writes.
  have hlaunch : Accounted writes (Course.launch spec timestamps (Logged.new sink) clock) :=
    Accounted.depart ⟨rfl, List.forall_mem_nil _, hyields⟩ (Tally.start clock.now) rfl clock
  refine ⟨fun course hreaches => ?_, ?_⟩
  · have haccounted := hlaunch.of_reaches hreaches
    obtain ⟨hle, hbalance⟩ := haccounted.balance hcount
    refine ⟨hle, hbalance, course.exists_returned, ?_⟩
    rintro result hstage
    obtain ⟨stage, clock, run⟩ := course
    obtain rfl : stage = .returned result := hstage
    exact haccounted.account hcount
  · have hreaches :=
      Course.reaches_toEnd clock (start spec timestamps (Logged.new sink) .zero clock)
    have hsame := toEnd_unlogged clock (start spec timestamps (Logged.new sink) .zero clock)
    rcases hrun : (start spec timestamps (Logged.new sink) .zero clock).toEnd clock with
      ⟨result, later, final⟩
    rw [hrun] at hreaches hsame
    obtain ⟨ending, landings, rfl, haccount⟩ := (hlaunch.of_reaches hreaches).account hcount
    exact ⟨ending, later, final, landings, hrun, hsame, hreaches, haccount⟩

/-- Four events of 100 bytes on a `Recorder` that breaks at the third write, in a run that is to be
stopped after two seconds. -/
theorem accounting_breaking_stream :
    ∃ (spec : Scenario.Spec) (writes : List Step) (ending : Ending) (later : Clock)
      (final : Run (Logged Recorder)) (landings : List Landing),
      spec = ⟨"burst", .burst, .stream, 4, .single 100, .load, 7, .ofMillis 10, 0⟩ ∧
      (Plan.start spec fun _ => 0).Yields writes ∧
      scenario spec (fun _ => 0) (Logged.new (Recorder.new .stream (some 2))) ⟨0, some 2000⟩ =
        (.ok ending, later, final) ∧
      Account writes 4 landings ending later final := by
  let spec : Scenario.Spec := ⟨"burst", .burst, .stream, 4, .single 100, .load, 7, .ofMillis 10, 0⟩
  have hroomy : spec.Roomy := Scenario.Spec.roomy_of_single rfl (by decide)
  obtain ⟨writes, hyields⟩ := Plan.exists_yields hroomy fun _ => 0
  obtain ⟨-, ending, later, final, landings, hrun, -, -, haccount⟩ :=
    accounting spec (fun _ => 0) (Recorder.new .stream (some 2)) ⟨0, some 2000⟩ hyields
  exact ⟨spec, writes, ending, later, final, landings, rfl, hyields, hrun, haccount⟩

end Run

end Volley
