import Volley.Proofs.Pool.History
import Volley.Proofs.Run.Conduct
import Volley.Proofs.Tally

/-!
# Workers that stay on their track

With a session whose conduct follows from its job, a worker comes to an account that follows from
its job as well, unless the stop signal is raised or it dies. Wherever it is on its way, what it
still has to count is settled.

## Main definitions

* `Conduct.result`, `Conduct.totals`: the account of a job, and the totals of many.
* `Worker.OnTrack`: a worker that will come to the account of its job.

## Main results

* `Conduct.Ends.timeless_eq`: a worker that ends as it should has the account of its job.
* `Worker.Goes.onTrack`: whatever a worker does, it stays on its track.
-/

namespace Volley

variable {σ : Type} [Sink σ]

/-! ## Accounts -/

namespace Conduct

/-- What the run of a job comes to, by `Conduct.play` from its first write to its last event. -/
def total (conduct : Conduct) (job : Job) : Score :=
  conduct.play job.spec 0 job.spec.count.toNat

/-- The account of a job, with `elapsed` at zero. -/
def result (conduct : Conduct) (job : Job) : WorkerResult :=
  if conduct.connects then
    let total := conduct.total job
    { workerId := job.workerId
      scenario := job.spec.name
      attempted := job.spec.count
      sent := total.sent
      errors := total.errors
      elapsed := .zero
      outcome := if total.lost then .transportFailed else .completed }
  else
    { workerId := job.workerId
      scenario := job.spec.name
      attempted := job.spec.count
      sent := 0
      errors := job.spec.count
      elapsed := .zero
      outcome := .connectFailed }

/-- The accounts of `Conduct.result`, merged for all `jobs`. -/
def totals (conduct : Job → Conduct) (jobs : List Job) : Tally :=
  (jobs.map fun job => (conduct job).result job).foldl Tally.merge .zero

/-- The counters and the outcome with which a worker leaves are those of `Conduct.total`. -/
inductive Ends (conduct : Conduct) (job : Job) (progress : Progress) : Outcome → Prop where
  | refused (hconnects : conduct.connects = false) : Ends conduct job progress .connectFailed
  | completed (hconnects : conduct.connects = true)
      (htotal : conduct.total job = ⟨progress.sent, progress.errors, false⟩) :
      Ends conduct job progress .completed
  | lost (hconnects : conduct.connects = true)
      (htotal : conduct.total job = ⟨progress.sent, progress.errors, true⟩) :
      Ends conduct job progress .transportFailed

omit [Sink σ] in
/-- A worker that `Ends` as the conduct says has the account of `Conduct.result`, but for the time.
-/
theorem Ends.timeless_eq {conduct : Conduct} {worker : Worker σ} {outcome : Outcome} {now : Nat}
    (h : conduct.Ends worker.job worker.progress outcome)
    (hsettles : (worker.result now outcome).Settles worker.job) :
    (worker.result now outcome).timeless = conduct.result worker.job := by
  have hevents := hsettles.events
  show WorkerResult.mk worker.job.workerId worker.job.spec.name worker.progress.attempted
    worker.progress.sent worker.progress.errors .zero outcome = _
  cases h with
  | refused hconnects =>
    have hattempted : worker.progress.attempted = worker.job.spec.count := hevents.1
    have herrors : worker.progress.errors = worker.job.spec.count := hevents.2.1
    have hsent : worker.progress.sent = 0 := hevents.2.2
    simp only [result, hconnects, hattempted, herrors, hsent, Bool.false_eq_true, if_false]
  | completed hconnects htotal =>
    have hattempted : worker.progress.attempted = worker.job.spec.count := hevents.1
    simp only [result, hconnects, hattempted, htotal, Bool.false_eq_true, if_true, if_false]
  | lost hconnects htotal =>
    have hattempted : worker.progress.attempted = worker.job.spec.count := hevents.1
    simp only [result, hconnects, hattempted, htotal, if_true]

end Conduct

/-! ## Workers -/

/-- The attempt to open a session for a job succeeds as `Conduct.connects` says, and the session
that it yields obeys the `conduct` from its first write on. -/
structure Surroundings.Follows (surroundings : Surroundings σ) (job : Job) (conduct : Conduct) :
    Prop where
  connects : (surroundings.dial job).result.isOk = conduct.connects
  obeys : ∀ session, (surroundings.dial job).result = .ok session →
    Sink.Obeys conduct job.spec 0 session

/-- A run of a job that has come to write number `n`: its session is as the conduct says from there
on, and its counters lack only what is still to come. -/
structure Run.Abides (conduct : Conduct) (job : Job) (n : Nat) (run : Run σ) : Prop where
  connects : conduct.connects = true
  issued : Plan.Issued job.spec n run.plan
  obeys : Sink.Obeys conduct job.spec n run.sink
  score : (conduct.play job.spec n run.plan.remaining).Completes run.progress (conduct.total job)

/-- With what its stage has still to do, a worker comes to the account of `Conduct.result`. -/
def Worker.OnTrack (conduct : Job → Conduct) (worker : Worker σ) : Prop :=
  match worker.stage with
  | .queued => worker.progress.sent = 0 ∧ worker.progress.errors = 0
  | .connecting _ => worker.progress.sent = 0 ∧ worker.progress.errors = 0
  | .sending flight run _ => ∃ n plan,
      plan.next = .ok (some (flight.step, run.plan)) ∧
        Event.encodeAll flight.step.events = .ok flight.bytes ∧
        (Run.mk plan run.sink worker.progress).Abides (conduct worker.job) worker.job n
  | .pausing run _ => ∃ n,
      (Run.mk run.plan run.sink worker.progress).Abides (conduct worker.job) worker.job n
  | .closing result _ _ => (conduct worker.job).connects = true ∧
      ∀ ending, result = .ok ending → ending = .completed ∧
        Score.none.Completes worker.progress ((conduct worker.job).total worker.job)
  | .gone _ => worker.progress.claimed = true
  | .dead _ => False

/-- After a move a worker is on its track, or it leaves and `Ends` as the conduct says. -/
def Move.OnTrack (conduct : Job → Conduct) : Move σ → Prop
  | .waits next => next.OnTrack conduct
  | .leaves next outcome => (∃ session, next.stage = .gone session) ∧
      (conduct next.job).Ends next.job next.progress outcome
  | .aborts _ _ => True
  | .dies next => ∃ session, next.stage = .dead session

namespace Run

omit [Sink σ] in
/-- A run that is not stopped has nothing remaining when its `turn` is `over`. -/
theorem remaining_of_over {clock : Clock} {run : Run σ} (h : run.turn clock = .over)
    (hclock : clock.stopped = false) : run.plan.remaining = 0 := by
  rw [turn, hclock, if_neg Bool.false_ne_true] at h
  split at h
  · cases h
  · next hnone => exact Plan.next_eq_none_iff.mp hnone
  · split at h <;> cases h

omit [Sink σ] in
theorem endingOf_of_remaining_eq_zero {run : Run σ} (h : run.plan.remaining = 0) :
    run.endingOf = .completed := by
  rw [endingOf, h, if_neg (Nat.lt_irrefl 0)]

end Run

namespace Worker

/-- Whether a worker has broken off in the middle of its work: its stage is `Stage.dead`. -/
def isDead (worker : Worker σ) : Bool :=
  match worker.stage with
  | .dead _ => true
  | _ => false

omit [Sink σ] in
/-- A worker that `isDead` is over. -/
theorem isOver_of_isDead {worker : Worker σ} (h : worker.isDead = true) :
    worker.isOver = true := by
  unfold isDead at h
  split at h
  · next hstage => rw [isOver, hstage]
  · cases h

variable {conduct : Job → Conduct} {worker : Worker σ} {clock : Clock} {run : Run σ} {n : Nat}

/-- A worker whose run `Abides` by the conduct stays on its track in `Worker.proceed`. -/
theorem onTrack_proceed (h : run.Abides (conduct worker.job) worker.job n)
    (hclock : clock.stopped = false) : (worker.proceed clock run).OnTrack conduct := by
  unfold proceed
  split
  · next flight flying hturn =>
    obtain ⟨plan, hnext, hbytes, rfl⟩ := Run.exists_of_turn hturn
    exact ⟨n, run.plan, hnext, hbytes, h.connects, h.issued, h.obeys, h.score.congr rfl rfl⟩
  · next hover =>
    have hzero := Run.remaining_of_over hover hclock
    have hscore := h.score
    rw [hzero, Conduct.play_zero] at hscore
    refine ⟨h.connects, ?_⟩
    intro ending hending
    cases hending
    exact ⟨Run.endingOf_of_remaining_eq_zero hzero, hscore⟩
  · refine ⟨h.connects, ?_⟩
    intro ending hending
    cases hending
  · exact ⟨_, rfl⟩

/-- So it does when it makes its pause first, if it has one. -/
theorem onTrack_goOn (h : run.Abides (conduct worker.job) worker.job n)
    (hclock : clock.stopped = false) {move : Move σ}
    (hmove : (if run.plan.spec.pace = .zero then some (worker.proceed clock run)
      else some (.waits { worker with
        progress := run.progress
        stage := .pausing run clock.now })) = some move) : move.OnTrack conduct := by
  split at hmove
  · cases hmove
    exact onTrack_proceed h hclock
  · cases hmove
    exact ⟨n, h⟩

/-- A worker whose write has been answered stays on its track. -/
theorem onTrack_land {surroundings : Surroundings σ} {move : Move σ} {flight : Run.Flight}
    {since : Nat} (h : worker.OnTrack conduct) (hstage : worker.stage = .sending flight run since)
    (hwake : worker.wake surroundings clock = some move) (hclock : clock.stopped = false)
    (hdue : (run.submit flight ⟨since, clock.stopAt⟩).2.1.now ≤ clock.now) :
    move.OnTrack conduct := by
  unfold OnTrack at h
  simp only [hstage] at h
  obtain ⟨n, plan, hnext, hbytes, hconnects, hissued, hobeys, hscore⟩ := h
  -- The answer has come in time, so it is what the conduct says.
  rcases hoffer : flight.offer ⟨since, clock.stopAt⟩ run.sink with ⟨reply, done, left⟩
  have hdone : (Clock.mk done.now clock.stopAt).stopped = false := by
    rw [Run.submit_eq, hoffer] at hdue
    refine Clock.stopped_of_le ?_ hdue hclock
    rfl
  obtain ⟨hanswers, hobeys'⟩ := hobeys.offer ⟨⟨plan, hissued, hnext⟩, hbytes⟩ hoffer hdone
  have hissued' : Plan.Issued worker.job.spec (n + 1) run.plan := .next hissued hnext
  rw [Conduct.play_of_next _ n hissued.spec_eq hnext] at hscore
  have hsettle := Run.settle_of_answers flight ⟨run.plan, left, worker.progress⟩ hanswers hclock
  rw [wake, hstage] at hwake
  simp only [Run.submit_eq, hoffer] at hwake
  cases htakes : (conduct worker.job).takes n with
  | true =>
    rw [htakes, if_pos rfl] at hscore hsettle
    rw [hsettle] at hwake
    have hsent : (Run.mk run.plan left (worker.progress.addSent flight.events)).Abides
        (conduct worker.job) worker.job (n + 1) :=
      ⟨hconnects, hissued', hobeys' (.inl htakes), hscore.addSent⟩
    exact onTrack_goOn hsent hclock hwake
  | false =>
    rw [htakes, if_neg Bool.false_ne_true] at hscore hsettle
    cases hlasts : (conduct worker.job).lasts n with
    | true =>
      rw [hlasts, if_pos rfl] at hscore
      simp only [hlasts, if_true] at hsettle
      rw [hsettle] at hwake
      have hfailed : (Run.mk run.plan left (worker.progress.addErrors flight.events)).Abides
          (conduct worker.job) worker.job (n + 1) :=
        ⟨hconnects, hissued', hobeys' (.inr hlasts), hscore.addErrors⟩
      exact onTrack_goOn hfailed hclock hwake
    | false =>
      rw [hlasts, if_neg Bool.false_ne_true] at hscore
      simp only [hlasts, Bool.false_eq_true, if_false] at hsettle
      rw [hsettle] at hwake
      cases hwake
      refine ⟨⟨_, rfl⟩, .lost hconnects ?_⟩
      -- What the write-off counts is what the score has left after the write.
      have hoff := hscore.addErrors
      have hrest : Score.mk 0 (.ofNat run.plan.remaining) true =
          (Score.mk 0 0 true).addErrors (.ofNat run.plan.remaining) := by
        rw [Score.addErrors, UInt64.add_zero]
      rw [hrest] at hoff
      exact hoff.addErrors.eq_total

/-- A worker on its track stays there in its turn, if its session `Follows` the conduct, the signal
is not raised and the worker `IsDue`. -/
theorem Goes.onTrack {surroundings : Surroundings σ} {move : Move σ}
    (hgoes : worker.Goes surroundings clock move) (h : worker.OnTrack conduct)
    (hfollows : surroundings.Follows worker.job (conduct worker.job))
    (hclock : clock.stopped = false) (hdue : worker.IsDue surroundings clock) :
    move.OnTrack conduct := by
  cases hgoes with
  | enters hstage _ =>
    unfold OnTrack at h
    rw [hstage] at h
    exact h
  | turnsBack _ hstopped =>
    rw [hclock] at hstopped
    cases hstopped
  | moves hwake =>
    cases hstage : worker.stage with
    | connecting since =>
      unfold OnTrack at h
      rw [hstage] at h
      rw [wake, hstage] at hwake
      have hconnects := hfollows.connects
      cases hdial : (surroundings.dial worker.job).result with
      | error cause =>
        rw [hdial] at hwake hconnects
        cases hwake
        exact ⟨⟨_, rfl⟩, .refused hconnects.symm⟩
      | ok session =>
        rw [hdial] at hwake hconnects
        cases hwake
        refine onTrack_proceed (n := 0) ⟨hconnects.symm, .start surroundings.timestamps,
          hfollows.obeys session hdial, ?_⟩ hclock
        rw [Run.start, Plan.remaining_start]
        exact .self _ h.1 h.2
    | sending flight run since =>
      refine onTrack_land h hstage hwake hclock (hdue _ ?_)
      rw [due?, hstage]
    | pausing run since =>
      unfold OnTrack at h
      simp only [hstage] at h
      obtain ⟨n, habides⟩ := h
      rw [wake, hstage] at hwake
      cases hwake
      exact onTrack_proceed habides hclock
    | closing result run since =>
      unfold OnTrack at h
      simp only [hstage] at h
      obtain ⟨hconnects, hending⟩ := h
      rw [wake, hstage] at hwake
      cases hwake
      cases result with
      | error cause => trivial
      | ok ending =>
        obtain ⟨rfl, hscore⟩ := hending ending rfl
        exact ⟨⟨_, rfl⟩, .completed hconnects hscore.eq_total⟩
    -- In these stages a worker does not wake by itself.
    | queued | gone _ | dead _ =>
      rw [wake, hstage] at hwake
      cases hwake

end Worker

end Volley
