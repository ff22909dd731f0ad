import Volley.Proofs.Run.Recording
import Volley.Proofs.Scenario.Batches

/-!
# Runs with sessions whose conduct is known

The answer to a write may depend on much that the sender does not know. If it depends on the job and
on the number of the write alone, and the same is true of the question whether the session is open
after a failure, then the counters that a run ends with follow from the job as well. They can be
played through without any session: only the numbers of the events in each write are needed, and
these do not depend on the time (`Plan.length_of_next`).

The session need not answer like this to any bytes at any time. It is enough that it does so to the
writes of its job, one after the other, as long as the stop signal has not been raised when the
answer comes.

## Main definitions

* `Conduct`: which writes a session takes, and which failures it survives.
* `Conduct.play`: what a run comes to with a session of this conduct.
* `Sink.Obeys`: a sink whose conduct is this from some write on.
* `Score.Completes`: counters that lack only what is still to come.

## Main results

* `Conduct.play_of_next`: what a run comes to from one write to the next.
* `Run.settle_of_answers`: what a run does with an answer.
* `Recorder.obeys`: a recorder that plays a stream keeps to its conduct.
-/

namespace Volley

/-- How a session behaves, as far as the job alone decides it. -/
structure Conduct where
  /-- Whether it can be opened. -/
  connects : Bool
  /-- Whether it takes the write of this number, the first being number 0. -/
  takes : Nat → Bool
  /-- Whether it is still open after the write of this number has failed. -/
  lasts : Nat → Bool

/-- What a run adds to `sent` and `errors` of its worker, and whether it has `lost` its session. -/
structure Score where
  sent : UInt64
  errors : UInt64
  lost : Bool

namespace Score

/-- The score of a run that has nothing before it. -/
def none : Score := ⟨0, 0, false⟩

/-- The score of a run that begins with a write of `events` that is taken. -/
def addSent (events : UInt64) (score : Score) : Score :=
  { score with sent := events + score.sent }

/-- The score of a run that begins with a write of `events` that fails. -/
def addErrors (events : UInt64) (score : Score) : Score :=
  { score with errors := events + score.errors }

/-- With the score of the `rest` that is still to come, the counters of a worker are those of
`total`. -/
structure Completes (rest : Score) (progress : Progress) (total : Score) : Prop where
  sent : progress.sent + rest.sent = total.sent
  errors : progress.errors + rest.errors = total.errors
  lost : rest.lost = total.lost

namespace Completes

variable {rest total : Score} {progress : Progress} {events : UInt64}

/-- A worker that has counted nothing has `total` before it. -/
theorem self (total : Score) (hsent : progress.sent = 0) (herrors : progress.errors = 0) :
    total.Completes progress total := by
  refine ⟨?_, ?_, rfl⟩
  · rw [hsent, UInt64.zero_add]
  · rw [herrors, UInt64.zero_add]

/-- A write that is taken goes from the score of the `rest` to the counters. -/
theorem addSent (h : (rest.addSent events).Completes progress total) :
    rest.Completes (progress.addSent events) total := by
  refine ⟨?_, h.errors, h.lost⟩
  rw [← h.sent]
  exact UInt64.add_assoc progress.sent events rest.sent

/-- So does a write that fails. -/
theorem addErrors (h : (rest.addErrors events).Completes progress total) :
    rest.Completes (progress.addErrors events) total := by
  refine ⟨h.sent, ?_, h.lost⟩
  rw [← h.errors]
  exact UInt64.add_assoc progress.errors events rest.errors

/-- Of the counters, `Completes` looks at `sent` and `errors` only. -/
theorem congr {other : Progress} (h : rest.Completes progress total)
    (hsent : other.sent = progress.sent) (herrors : other.errors = progress.errors) :
    rest.Completes other total :=
  ⟨hsent ▸ h.sent, herrors ▸ h.errors, h.lost⟩

/-- With nothing to come, the counters are those of `total`. -/
theorem eq_total {lost : Bool} (h : (Score.mk 0 0 lost).Completes progress total) :
    total = ⟨progress.sent, progress.errors, lost⟩ := by
  obtain ⟨sent, errors, ending⟩ := total
  obtain ⟨hsent, herrors, hlost⟩ := h
  simp only [UInt64.add_zero] at hsent herrors hlost
  rw [hsent, herrors, hlost]

end Completes

end Score

namespace Conduct

/-- What a run comes to from write number `n` on, with so many events remaining. -/
def play (conduct : Conduct) (spec : Scenario.Spec) (n remaining : Nat) : Score :=
  if hpos : 0 < remaining then
    let events := spec.batch remaining
    have : remaining - events < remaining := Nat.sub_lt hpos (spec.batch_pos hpos)
    if conduct.takes n then (play conduct spec (n + 1) (remaining - events)).addSent (.ofNat events)
    else if conduct.lasts n then
      (play conduct spec (n + 1) (remaining - events)).addErrors (.ofNat events)
    -- What remains is written off.
    else (Score.mk 0 (.ofNat (remaining - events)) true).addErrors (.ofNat events)
  else .none
termination_by remaining
decreasing_by all_goals assumption

/-- To `play` nothing scores nothing. -/
theorem play_zero (conduct : Conduct) (spec : Scenario.Spec) (n : Nat) :
    conduct.play spec n 0 = .none := by
  rw [play, dif_neg (Nat.lt_irrefl 0)]

/-- To `play` from one write on is to score this write and to `play` from the next one on. -/
theorem play_of_next (conduct : Conduct) {spec : Scenario.Spec} (n : Nat) {plan later : Plan}
    {step : Step} (hspec : plan.spec = spec) (h : plan.next = .ok (some (step, later))) :
    conduct.play spec n plan.remaining =
      if conduct.takes n then
        (conduct.play spec (n + 1) later.remaining).addSent (.ofNat step.events.length)
      else if conduct.lasts n then
        (conduct.play spec (n + 1) later.remaining).addErrors (.ofNat step.events.length)
      else (Score.mk 0 (.ofNat later.remaining) true).addErrors (.ofNat step.events.length) := by
  have hlength := (Plan.length_of_next h).1
  have hsum := Plan.remaining_add_length_of_next h
  have hpos : 0 < plan.remaining := Nat.zero_lt_of_lt (Plan.remaining_of_next h)
  have hrest : plan.remaining - step.events.length = later.remaining := by omega
  rw [hspec] at hlength
  rw [play, dif_pos hpos]
  simp only [← hlength, hrest]

end Conduct

/-- A write of a scenario with its number `n`, its bytes, and the plan that is left after it. -/
structure Run.Flight.IsWrite (flight : Run.Flight) (spec : Scenario.Spec) (n : Nat) (later : Plan) :
    Prop where
  issued : ∃ plan, Plan.Issued spec n plan ∧ plan.next = .ok (some (flight.step, later))
  bytes : Event.encodeAll flight.step.events = .ok flight.bytes

variable {σ : Type} [Sink σ]

/-- The answer to write number `n`, and what it leaves behind, are as the conduct says. -/
structure Conduct.Answers (conduct : Conduct) (n : Nat) (reply : Reply) (left : σ) : Prop where
  isOk : reply.isOk = conduct.takes n
  isOpen : reply.isOk = false → ∀ clock : Clock, clock.stopped = false →
    Sink.isOpen clock left = conduct.lasts n

/-- From write number `n` on, the sink answers the writes of a scenario as the conduct says, up to
the failure that closes it, unless the stop signal is raised before the answer comes. -/
def Sink.Obeys (conduct : Conduct) (spec : Scenario.Spec) (n : Nat) (sink : σ) : Prop :=
  ∃ State : Nat → σ → Prop, State n sink ∧
    ∀ {k : Nat} {sink : σ}, State k sink → ∀ {flight : Run.Flight} {later : Plan},
      flight.IsWrite spec k later → ∀ {clock done : Clock} {reply : Reply} {left : σ},
        flight.offer clock sink = (reply, done, left) →
        (Clock.mk done.now clock.stopAt).stopped = false →
          conduct.Answers k reply left ∧
            (conduct.takes k = true ∨ conduct.lasts k = true → State (k + 1) left)

/-- A sink that `Obeys` gives the right answer, and `Obeys` after it unless it is closed by it. -/
theorem Sink.Obeys.offer {conduct : Conduct} {spec : Scenario.Spec} {n : Nat} {sink left : σ}
    {flight : Run.Flight} {later : Plan} {clock done : Clock} {reply : Reply}
    (h : Sink.Obeys conduct spec n sink) (hwrite : flight.IsWrite spec n later)
    (hoffer : flight.offer clock sink = (reply, done, left))
    (hclock : (Clock.mk done.now clock.stopAt).stopped = false) :
    conduct.Answers n reply left ∧
      (conduct.takes n = true ∨ conduct.lasts n = true →
        Sink.Obeys conduct spec (n + 1) left) := by
  obtain ⟨State, hstate, hkeeps⟩ := h
  obtain ⟨hanswers, hnext⟩ := hkeeps hstate hwrite hoffer hclock
  exact ⟨hanswers, fun hgoes => ⟨State, hnext hgoes, hkeeps⟩⟩

/-- What `Run.settle` does with an answer that is as the conduct says. -/
theorem Run.settle_of_answers {conduct : Conduct} {n : Nat} (flight : Flight) {reply : Reply}
    {clock : Clock} (run : Run σ) (h : conduct.Answers n reply run.sink)
    (hclock : clock.stopped = false) :
    run.settle flight reply clock =
      if conduct.takes n then
        (.goOn, { run with progress := run.progress.addSent flight.events })
      else
        let failed := { run with progress := run.progress.addErrors flight.events }
        if conduct.lasts n then (.goOn, failed) else (.lost, failed.writeOff) := by
  rw [← h.isOk]
  cases reply with
  | ok => rfl
  | error e =>
    have hopen : Sink.isOpen clock run.sink = conduct.lasts n := h.isOpen rfl clock hclock
    simp only [settle, hclock, hopen, Except.isOk, Except.toBool, Bool.false_eq_true, if_false]

/-! ## Recorders -/

/-- The conduct of a recorder that plays a stream: it takes every write but the one of number
`failAfter`. -/
def Recorder.conduct (failAfter : Option Nat) : Conduct :=
  ⟨true, fun n => failAfter ≠ some n, fun _ => false⟩

/-- A recorder `Obeys` its conduct, if no write is cut in two. -/
theorem Recorder.obeys (failAfter : Option Nat) {spec : Scenario.Spec}
    (hstrategy : ∀ frames mode, spec.strategy ≠ .fragmented frames mode) :
    Sink.Obeys (conduct failAfter) spec 0 (new .stream failAfter) := by
  refine ⟨fun n recorder => recorder.Playing ∧ recorder.failAfter = failAfter ∧
    recorder.attempts = n, ⟨⟨rfl, rfl⟩, rfl, rfl⟩, ?_⟩
  rintro n recorder ⟨hplaying, hfail, hattempts⟩ flight later ⟨⟨plan, hissued, hnext⟩, -⟩ clock done
    reply left hoffer -
  -- Without fragments every write is a single frame, so writes and attempts are counted alike.
  have hshape : flight.step.shape = .perFrame := by
    obtain ⟨frames, mode, _, hfragmented, -⟩ | ⟨-, event, -, hstep⟩ := Plan.next_cases hnext
    · rw [hissued.spec_eq] at hfragmented
      exact absurd hfragmented (hstrategy frames mode)
    · rw [hstep]
  rw [Run.Flight.offer_of_ne_split (by simp [hshape])] at hoffer
  replace hoffer : recorder.send flight.bytes clock = (reply, done, left) := hoffer
  by_cases hbreaks : failAfter = some n
  · obtain ⟨broken, hsend, hclosed, -⟩ :=
      send_of_eq hplaying (hfail.trans (hattempts ▸ hbreaks)) flight.bytes clock
    rw [hsend] at hoffer
    cases hoffer
    have htakes : (conduct failAfter).takes n = false := by simp [conduct, hbreaks]
    refine ⟨⟨htakes.symm, fun _ _ _ => hclosed⟩, ?_⟩
    rintro (htaken | hlasts)
    · rw [htakes] at htaken
      cases htaken
    · cases hlasts
  · have hne : recorder.failAfter ≠ some recorder.attempts := by
      rw [hfail, hattempts]
      exact hbreaks
    obtain ⟨next, hsend, hnext, hfail', hattempts', -⟩ :=
      send_of_ne hplaying hne flight.bytes clock
    rw [hsend] at hoffer
    cases hoffer
    have htakes : (conduct failAfter).takes n = true := by simp [conduct, hbreaks]
    refine ⟨⟨htakes.symm, nofun⟩, fun _ => ⟨hnext, hfail'.trans hfail, ?_⟩⟩
    rw [hattempts', hattempts]

end Volley
