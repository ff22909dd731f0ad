import Volley.Pool.Worker
import Volley.Proofs.Run.Turns

/-!
# The books of a worker

Of the events that a worker is to send, some remain, some are in a write that has not returned, and
all others were sent or have failed. This module follows the counters of a worker through every
stage, from the queue to the moment at which it leaves, and says what the account of a worker is
worth at each of these moments, whoever asks for it.

## Main definitions

* `Progress.Balanced`: what the counters say of the events that remain and of those under way.
* `Worker.Books`: the counters of a worker are in balance with what its stage has still to do.
* `WorkerResult.Settles`: an account of a job that leaves no event out.

## Main results

* `Worker.keeps_of_wake`: whatever a worker does between two waits keeps its books, and if it
  leaves, its account settles its job.
* `Worker.Books.settles_of_abandoned`: at any moment, the account of a worker that is given up
  settles its job.
-/

namespace Volley

/-! ## Counters -/

/-- Of `count` planned events `remaining` are still to come and `flying` are in a write that has not
returned. All others were sent or have failed. -/
structure Progress.Balanced (progress : Progress) (count : UInt64) (flying remaining : Nat) :
    Prop where
  planned : progress.attempted.toNat + remaining = count.toNat
  answered : progress.sent.toNat + progress.errors.toNat + flying = progress.attempted.toNat

namespace Progress.Balanced

variable {progress : Progress} {count : UInt64} {flying remaining : Nat}

/-- Adding to a word is exact as long as it stays below its end. -/
private theorem toNat_add_ofNat {word : UInt64} {n : Nat}
    (h : word.toNat + n < 0x10000000000000000) :
    (word + UInt64.ofNat n).toNat = word.toNat + n := by
  rw [UInt64.toNat_add, UInt64.toNat_ofNat']
  omega

/-- Before a worker starts, all of its `count` events remain. -/
theorem zero (count : UInt64) : Progress.zero.Balanced count 0 count.toNat :=
  ⟨Nat.zero_add _, rfl⟩

/-- A write that begins takes its `events` from those that remain, and has them under way. -/
theorem addAttempted {events : Nat} (h : progress.Balanced count 0 (events + remaining)) :
    (progress.addAttempted (.ofNat events)).Balanced count events remaining := by
  have hplanned := h.planned
  have hanswered := h.answered
  -- The counter stays below the count of the scenario, which is itself a word.
  have hlt := count.toNat_lt
  have hattempted : (progress.addAttempted (.ofNat events)).attempted.toNat =
      progress.attempted.toNat + events := toNat_add_ofNat (by omega)
  refine ⟨?_, ?_⟩
  · omega
  · rw [hattempted]
    simp only [Progress.addAttempted]
    omega

/-- A write that is taken adds the events that were `flying` to those `sent`. -/
theorem addSent (h : progress.Balanced count flying remaining) :
    (progress.addSent (.ofNat flying)).Balanced count 0 remaining := by
  have hplanned := h.planned
  have hanswered := h.answered
  have hlt := count.toNat_lt
  have hsent : (progress.addSent (.ofNat flying)).sent.toNat = progress.sent.toNat + flying :=
    toNat_add_ofNat (by omega)
  refine ⟨h.planned, ?_⟩
  rw [hsent]
  simp only [Progress.addSent]
  omega

/-- A write that is refused adds the events that were `flying` to the `errors`. -/
theorem addErrors (h : progress.Balanced count flying remaining) :
    (progress.addErrors (.ofNat flying)).Balanced count 0 remaining := by
  have hplanned := h.planned
  have hanswered := h.answered
  have hlt := count.toNat_lt
  have herrors : (progress.addErrors (.ofNat flying)).errors.toNat =
      progress.errors.toNat + flying := toNat_add_ofNat (by omega)
  refine ⟨h.planned, ?_⟩
  rw [herrors]
  simp only [Progress.addErrors]
  omega

/-- What is written off is added to `attempted` and to `errors`, and nothing remains. -/
theorem writeOff (h : progress.Balanced count 0 remaining) :
    ((progress.addAttempted (.ofNat remaining)).addErrors (.ofNat remaining)).Balanced count 0 0 :=
  h.addAttempted.addErrors

end Progress.Balanced

/-! ## Accounts -/

namespace WorkerResult

/-- What an account says of the `count` events of its job. -/
def Conserves (result : WorkerResult) (count : UInt64) : Prop :=
  match result.outcome with
  | .completed | .transportFailed =>
    result.attempted = count ∧ count.toNat = result.sent.toNat + result.errors.toNat
  | .connectFailed => result.attempted = count ∧ result.errors = count ∧ result.sent = 0
  | .abandoned =>
    result.sent.toNat + result.errors.toNat ≤ result.attempted.toNat ∧
      result.attempted.toNat ≤ count.toNat

/-- An account of a job that `Conserves` its events, under its own `workerId` and `scenario`. -/
structure Settles (result : WorkerResult) (job : Job) : Prop where
  workerId : result.workerId = job.workerId
  scenario : result.scenario = job.spec.name
  events : result.Conserves job.spec.count

/-- An account that `Settles` a job has no more `attempted` events than the job has, and no more
`sent` or in `errors` than it has attempted. -/
theorem Settles.attempted_le {result : WorkerResult} {job : Job} (h : result.Settles job) :
    result.attempted.toNat ≤ job.spec.count.toNat ∧
      result.sent.toNat + result.errors.toNat ≤ result.attempted.toNat := by
  have hevents := h.events
  unfold Conserves at hevents
  split at hevents
  · obtain ⟨hattempted, hsum⟩ := hevents
    rw [hattempted]
    omega
  · obtain ⟨hattempted, hsum⟩ := hevents
    rw [hattempted]
    omega
  · obtain ⟨hattempted, herrors, hsent⟩ := hevents
    rw [hattempted, herrors, hsent, UInt64.toNat_zero]
    omega
  · exact hevents.symm

end WorkerResult

/-! ## Workers -/

namespace Stage

variable {σ : Type}

/-- The number of events in a write that has not returned, in the stage `Stage.sending`. -/
def flying : Stage σ → Nat
  | .sending flight _ _ => flight.step.events.length
  | _ => 0

/-- How many of `count` events may remain in a stage. -/
def Leaves (count remaining : Nat) : Stage σ → Prop
  | .queued => remaining = count
  | .connecting _ => remaining = count
  | .sending _ run _ => remaining = run.plan.remaining
  | .pausing run _ => remaining = run.plan.remaining
  | .closing result _ _ => ∀ ending, result = .ok ending → ending ≠ .stopped → remaining = 0
  | .gone _ => True
  | .dead _ => True

end Stage

namespace Worker

variable {σ : Type}

/-- The counters of a worker are `Balanced` with what its stage `Leaves` to be done. -/
def Books (worker : Worker σ) : Prop :=
  ∃ remaining, worker.progress.Balanced worker.job.spec.count worker.stage.flying remaining ∧
    worker.stage.Leaves worker.job.spec.count.toNat remaining

/-- The `Books` of a worker in the queue are empty. -/
theorem books_new (job : Job) : (new job : Worker σ).Books :=
  ⟨_, .zero job.spec.count, rfl⟩

/-- The mark of a worker that has been `claimed` makes no difference to its `Books`. -/
theorem Books.claim {worker : Worker σ} (h : worker.Books) :
    Books { worker with progress := worker.progress.claim.2 } := by
  obtain ⟨remaining, hbalanced, hleaves⟩ := h
  exact ⟨remaining, ⟨hbalanced.planned, hbalanced.answered⟩, hleaves⟩

/-- The account of a worker that is given up as `Outcome.abandoned` settles its job, whatever
remains. -/
theorem settles_of_balanced {worker : Worker σ} {flying remaining : Nat}
    (h : worker.progress.Balanced worker.job.spec.count flying remaining) (now : Nat) :
    (worker.result now .abandoned).Settles worker.job := by
  have hplanned := h.planned
  have hanswered := h.answered
  refine ⟨rfl, rfl, ?_⟩
  show worker.progress.sent.toNat + worker.progress.errors.toNat ≤
      worker.progress.attempted.toNat ∧
    worker.progress.attempted.toNat ≤ worker.job.spec.count.toNat
  omega

/-- At any moment, a worker with its `Books` can be given up: its account `Settles` its job. -/
theorem Books.settles_of_abandoned {worker : Worker σ} (h : worker.Books) (now : Nat) :
    (worker.result now .abandoned).Settles worker.job := by
  obtain ⟨remaining, hbalanced, -⟩ := h
  exact settles_of_balanced hbalanced now

/-- The account of a worker whose run came to an `ending` settles its job, if nothing remains of a
run that was not `stopped`. -/
theorem settles_of_ending {worker : Worker σ} {remaining : Nat} {ending : Ending}
    (h : worker.progress.Balanced worker.job.spec.count 0 remaining)
    (hfull : ending ≠ .stopped → remaining = 0) (now : Nat) :
    (worker.result now ending.outcome).Settles worker.job := by
  have hplanned := h.planned
  have hanswered := h.answered
  have hcomplete (hne : ending ≠ .stopped) :
      worker.progress.attempted = worker.job.spec.count ∧ worker.job.spec.count.toNat =
        worker.progress.sent.toNat + worker.progress.errors.toNat := by
    have hzero := hfull hne
    refine ⟨UInt64.toNat_inj.mp ?_, ?_⟩
    · omega
    · omega
  cases ending with
  | completed => exact ⟨rfl, rfl, hcomplete (by decide)⟩
  | transportFailed => exact ⟨rfl, rfl, hcomplete (by decide)⟩
  -- A run that was stopped has the account of a worker that is given up.
  | stopped => exact settles_of_balanced h now

/-- A worker that cannot open its session has counted all its events as `attempted` and as `errors`.
-/
theorem settles_of_connectFailed {worker : Worker σ}
    (h : worker.progress.Balanced worker.job.spec.count 0 0) (hsent : worker.progress.sent = 0)
    (now : Nat) : (worker.result now .connectFailed).Settles worker.job := by
  have hplanned := h.planned
  have hanswered := h.answered
  rw [hsent, UInt64.toNat_zero] at hanswered
  have hattempted : worker.progress.attempted = worker.job.spec.count :=
    UInt64.toNat_inj.mp (by omega)
  have herrors : worker.progress.errors = worker.job.spec.count :=
    UInt64.toNat_inj.mp (by omega)
  exact ⟨rfl, rfl, hattempted, herrors, hsent⟩

end Worker

/-! ## Runs -/

namespace Run

variable {σ : Type}

/-- The write of a `turn` takes its events from those that remain of the plan. -/
theorem balanced_of_turn {clock : Clock} {run flying : Run σ} {flight : Flight} {count : UInt64}
    (hturn : run.turn clock = .write flight flying)
    (h : run.progress.Balanced count 0 run.plan.remaining) :
    flying.progress.Balanced count flight.step.events.length flying.plan.remaining ∧
      flying.progress.claimed = run.progress.claimed := by
  obtain ⟨plan, hnext, -, rfl⟩ := exists_of_turn hturn
  have hlength := Plan.remaining_add_length_of_next hnext
  rw [← hlength, Nat.add_comm] at h
  exact ⟨h.addAttempted, rfl⟩

/-- A run of which `endingOf` does not say `stopped` has nothing before it. -/
theorem remaining_of_endingOf {run : Run σ} (h : run.endingOf ≠ .stopped) :
    run.plan.remaining = 0 := by
  unfold endingOf at h
  split at h
  · exact absurd rfl h
  · omega

/-- How many of the `remaining` events of a plan are left to be done after a write. -/
def Settled.leaves (remaining : Nat) : Settled → Nat
  | .goOn => remaining
  | .over => remaining
  | .lost => 0

variable [Sink σ]

/-- To `settle` a write leaves nothing `flying`. If the session is `lost`, nothing remains either.
-/
theorem balanced_of_settle {flight : Flight} {reply : Reply} {clock : Clock} {run next : Run σ}
    {settled : Settled} {count : UInt64}
    (hsettle : run.settle flight reply clock = (settled, next))
    (h : run.progress.Balanced count flight.step.events.length run.plan.remaining) :
    next.progress.Balanced count 0 (settled.leaves next.plan.remaining) ∧
      next.progress.claimed = run.progress.claimed := by
  unfold settle at hsettle
  split at hsettle
  · cases hsettle
    exact ⟨h.addSent, rfl⟩
  · simp only at hsettle
    split at hsettle
    · cases hsettle
      exact ⟨h.addErrors, rfl⟩
    · split at hsettle
      · cases hsettle
        exact ⟨h.addErrors, rfl⟩
      · cases hsettle
        exact ⟨h.addErrors.writeOff, rfl⟩

end Run

/-! ## Moves -/

/-- The worker after a move. -/
def Move.worker {σ : Type} : Move σ → Worker σ
  | .waits worker => worker
  | .leaves worker _ => worker
  | .aborts worker _ => worker
  | .dies worker => worker

/-- The outcome of a worker that `leaves` with a result. -/
def Move.outcome? {σ : Type} : Move σ → Option Outcome
  | .waits _ => none
  | .leaves _ outcome => some outcome
  | .aborts _ _ => none
  | .dies _ => none

/-- A move of a worker that keeps its `Books`, and after which its account `Settles` its job if it
has one. -/
structure Move.Keeps {σ : Type} (worker : Worker σ) (move : Move σ) : Prop where
  job : move.worker.job = worker.job
  claimed : move.worker.progress.claimed = worker.progress.claimed
  books : move.worker.Books
  settles : ∀ outcome, move.outcome? = some outcome →
    ∀ now, (move.worker.result now outcome).Settles move.worker.job

/-- A move without an `outcome?` makes no account that would have to settle anything. -/
theorem Move.Keeps.of_none {σ : Type} {worker : Worker σ} {move : Move σ}
    (hjob : move.worker.job = worker.job)
    (hclaimed : move.worker.progress.claimed = worker.progress.claimed)
    (hbooks : move.worker.Books) (hnone : move.outcome? = none) : move.Keeps worker := by
  refine ⟨hjob, hclaimed, hbooks, ?_⟩
  intro outcome hsome
  rw [hnone] at hsome
  cases hsome

namespace Worker

variable {σ : Type}

/-- A worker that is about to leave, by `Worker.conclude`, has its `Books` in order while its
session is being closed. -/
theorem keeps_conclude {clock : Clock} {worker : Worker σ} {run : Run σ}
    {result : Except EncodingError Ending} {remaining : Nat}
    (h : run.progress.Balanced worker.job.spec.count 0 remaining)
    (hclaimed : run.progress.claimed = worker.progress.claimed)
    (hfull : ∀ ending, result = .ok ending → ending ≠ .stopped → remaining = 0) :
    (worker.conclude clock run result).Keeps worker :=
  .of_none rfl hclaimed ⟨remaining, h, hfull⟩ rfl

/-- The end that `endingOf` names is one with nothing remaining, or `stopped`. -/
theorem keeps_over {worker : Worker σ} {run : Run σ} (clock : Clock)
    (h : run.progress.Balanced worker.job.spec.count 0 run.plan.remaining)
    (hclaimed : run.progress.claimed = worker.progress.claimed) :
    (worker.conclude clock run (.ok run.endingOf)).Keeps worker := by
  refine keeps_conclude h hclaimed ?_
  intro ending hending hne
  cases hending
  exact Run.remaining_of_endingOf hne

/-- A worker that goes on, by `Worker.proceed`, makes a write, or is about to leave, or dies. -/
theorem keeps_proceed {worker : Worker σ} {run : Run σ} (clock : Clock)
    (h : run.progress.Balanced worker.job.spec.count 0 run.plan.remaining)
    (hclaimed : run.progress.claimed = worker.progress.claimed) :
    (worker.proceed clock run).Keeps worker := by
  unfold proceed
  split
  · next flight flying hturn =>
    obtain ⟨hbalanced, hsame⟩ := Run.balanced_of_turn hturn h
    exact .of_none rfl (hsame.trans hclaimed) ⟨_, hbalanced, rfl⟩ rfl
  · exact keeps_over clock h hclaimed
  · -- An event that cannot be encoded ends the run without any ending.
    refine keeps_conclude h hclaimed ?_
    intro ending hending
    cases hending
  · -- Nothing has been counted yet of the write whose payload cannot be built.
    exact .of_none rfl hclaimed ⟨_, h, trivial⟩ rfl

variable [Sink σ]

/-- A worker that leaves, by `Worker.leave`, has an account that `Settles` its job. -/
theorem keeps_leave {worker last : Worker σ} {run : Run σ} {remaining : Nat}
    {result : Except EncodingError Ending} (hjob : last.job = worker.job)
    (h : last.progress.Balanced last.job.spec.count 0 remaining)
    (hclaimed : last.progress.claimed = worker.progress.claimed)
    (hfull : ∀ ending, result = .ok ending → ending ≠ .stopped → remaining = 0) :
    (last.leave run result).Keeps worker := by
  have hgone : Books { last with stage := .gone (some run.close.sink) } := ⟨remaining, h, trivial⟩
  unfold leave
  cases result with
  | ok ending =>
    refine ⟨hjob, hclaimed, hgone, ?_⟩
    intro outcome hsome now
    cases hsome
    exact settles_of_ending h (hfull ending rfl) now
  | error cause => exact .of_none hjob hclaimed hgone rfl

/-- A worker that was `connecting` starts its run, or writes everything off. -/
theorem keeps_connect {surroundings : Surroundings σ} {clock : Clock} {worker : Worker σ}
    {move : Move σ} {since : Nat} (hstage : worker.stage = .connecting since)
    (hwake : worker.wake surroundings clock = some move) (h : worker.Books) :
    move.Keeps worker := by
  obtain ⟨remaining, hbalanced, hleaves⟩ := h
  rw [hstage] at hbalanced hleaves
  cases hleaves
  rw [wake, hstage] at hwake
  simp only at hwake
  split at hwake
  · cases hwake
    have hoff := hbalanced.writeOff
    rw [UInt64.ofNat_toNat] at hoff
    refine ⟨rfl, rfl, ⟨0, hoff, trivial⟩, ?_⟩
    intro outcome hsome now
    cases hsome
    refine settles_of_connectFailed hoff ?_ now
    -- Everything remained, so nothing has been attempted, and all the less sent.
    have hplanned := hbalanced.planned
    have hanswered := hbalanced.answered
    have hsent : worker.progress.sent.toNat = 0 := by omega
    exact UInt64.toNat_inj.mp hsent
  · next session hdial =>
    cases hwake
    refine keeps_proceed clock ?_ rfl
    rw [Run.start, Plan.remaining_start]
    exact ⟨hbalanced.planned, hbalanced.answered⟩

/-- A worker that was `sending` goes on with its run, pauses, leaves, or is about to leave. -/
theorem keeps_land {surroundings : Surroundings σ} {clock : Clock} {worker : Worker σ}
    {move : Move σ} {flight : Run.Flight} {run : Run σ} {since : Nat}
    (hstage : worker.stage = .sending flight run since)
    (hwake : worker.wake surroundings clock = some move) (h : worker.Books) :
    move.Keeps worker := by
  obtain ⟨remaining, hbalanced, hleaves⟩ := h
  rw [hstage] at hbalanced hleaves
  cases hleaves
  rw [wake, hstage] at hwake
  simp only [Run.submit_eq] at hwake
  split at hwake
  · next settled hsettle =>
    obtain ⟨hnext, hclaimed⟩ := Run.balanced_of_settle hsettle hbalanced
    cases hwake
    exact keeps_over clock hnext hclaimed
  · next settled hsettle =>
    obtain ⟨hnext, hclaimed⟩ := Run.balanced_of_settle hsettle hbalanced
    cases hwake
    exact keeps_leave rfl hnext hclaimed fun _ _ _ => rfl
  · next settled hsettle =>
    obtain ⟨hnext, hclaimed⟩ := Run.balanced_of_settle hsettle hbalanced
    -- Without a pace there is no wait between this write and the next.
    split at hwake
    · cases hwake
      exact keeps_proceed clock hnext hclaimed
    · cases hwake
      exact .of_none rfl hclaimed ⟨_, hnext, rfl⟩ rfl

/-- Every move of a worker between two waits `Keeps` its books: in each stage, and whatever the
answer that it has waited for. -/
theorem keeps_of_wake {surroundings : Surroundings σ} {clock : Clock} {worker : Worker σ}
    {move : Move σ} (hwake : worker.wake surroundings clock = some move) (h : worker.Books) :
    move.Keeps worker := by
  cases hstage : worker.stage with
  | connecting since => exact keeps_connect hstage hwake h
  | sending flight run since => exact keeps_land hstage hwake h
  | pausing run since =>
    obtain ⟨remaining, hbalanced, hleaves⟩ := h
    rw [hstage] at hbalanced hleaves
    rw [wake, hstage] at hwake
    cases hleaves
    cases hwake
    exact keeps_proceed clock hbalanced rfl
  | closing result run since =>
    obtain ⟨remaining, hbalanced, hleaves⟩ := h
    rw [hstage] at hbalanced hleaves
    rw [wake, hstage] at hwake
    cases hwake
    exact keeps_leave rfl hbalanced rfl hleaves
  -- In these stages a worker does not wake by itself.
  | queued | gone _ | dead _ =>
    rw [wake, hstage] at hwake
    cases hwake

end Worker

end Volley
