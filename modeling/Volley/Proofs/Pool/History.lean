import Volley.Proofs.Pool.Ledger

/-!
# Histories of a pool

What comes of a launch can be told action by action: time passes, the stop signal is raised, a
worker wakes, the run returns. A history is a list of such actions, and a run is the launch with a
history (`Course.exists_after`).

An action that wakes a worker lets it make one move, or changes nothing (`wake_eq_or_advances`), and
a move changes nothing but the entry of the worker and, if it leaves, the tally. So a statement
about reports holds of all reports of a history if it holds of every report when it is made.

## Main definitions

* `Worker.Goes`: the move that a worker makes when it is its turn.
* `Pool.Advances`: a pool in which one worker has made its move.
* `Pool.Reports`: the reports of a pool are in order, and a statement holds of each of them.
* `Pool.Action`, `Pool.Course.after`: what can happen to a run, and a run with its history.
* `Pool.Course.Along`, `Pool.Course.Ever`: a statement about every action of a history, or about
  some.

## Main results

* `Pool.wake_eq_or_advances`: what can come of waking a worker.
* `Pool.Reports.advances`, `Pool.Reports.sweep`: a statement about reports is kept.
* `Pool.Course.exists_after`: everything that can come of a run comes of a history.
-/

namespace Volley

variable {σ : Type}

/-- The worker as its pool keeps it after a move: one that `leaves` is marked as `claimed`. -/
def Move.filed : Move σ → Worker σ
  | .leaves worker _ => { worker with progress := worker.progress.claim.2 }
  | .waits worker => worker
  | .aborts worker _ => worker
  | .dies worker => worker

/-- The account that a move adds to the tally, if the worker `leaves` and has not been `claimed`. -/
def Move.report? (now : Nat) : Move σ → Option WorkerResult
  | .leaves worker outcome =>
    if worker.progress.claimed then none else some (worker.result now outcome)
  | .waits _ => none
  | .aborts _ _ => none
  | .dies _ => none

theorem Move.job_filed (move : Move σ) : move.filed.job = move.worker.job := by
  cases move <;> rfl

theorem Move.stage_filed (move : Move σ) : move.filed.stage = move.worker.stage := by
  cases move <;> rfl

namespace Move.Keeps

variable {worker : Worker σ} {move : Move σ}

/-- The mark that `filed` sets makes no difference to the `Books` of a worker. -/
theorem books_filed (h : move.Keeps worker) : move.filed.Books := by
  cases move with
  | leaves next outcome => exact h.books.claim
  | waits next => exact h.books
  | aborts next cause => exact h.books
  | dies next => exact h.books

/-- Without a `report?` the worker is `claimed`, or not, as before. -/
theorem claimed_of_report?_eq_none {now : Nat} (h : move.Keeps worker)
    (hnone : move.report? now = none) :
    move.filed.progress.claimed = worker.progress.claimed := by
  cases move with
  | leaves next outcome =>
    -- There is no report of a worker that has been reported before.
    have hclaimed : next.progress.claimed = true := by
      by_contra hfree
      rw [report?, if_neg hfree] at hnone
      cases hnone
    rw [← h.claimed]
    exact hclaimed.symm
  | waits next => exact h.claimed
  | aborts next cause => exact h.claimed
  | dies next => exact h.claimed

/-- A `report?` is made of a worker that was not `claimed`, marks it, and `Settles` its job. -/
theorem of_report? {now : Nat} {result : WorkerResult} (h : move.Keeps worker)
    (hsome : move.report? now = some result) :
    worker.progress.claimed = false ∧ move.filed.progress.claimed = true ∧
      result.Settles move.filed.job := by
  cases move with
  | leaves next outcome =>
    rw [report?] at hsome
    split at hsome
    · cases hsome
    · next hfree =>
      cases hsome
      exact ⟨h.claimed ▸ Bool.eq_false_iff.mpr hfree, rfl, h.settles outcome rfl now⟩
  | waits next => cases hsome
  | aborts next cause => cases hsome
  | dies next => cases hsome

end Move.Keeps

/-- A worker whose wait is over: the moment of its `due?`, if there is one, has come. -/
def Worker.IsDue [Sink σ] (surroundings : Surroundings σ) (clock : Clock) (worker : Worker σ) :
    Prop :=
  ∀ moment, worker.due? surroundings clock.stopAt = some moment → moment ≤ clock.now

/-- The move that a worker makes when it is its turn. One that is `queued` gets its place, or finds
that `Clock.stopped` came first; any other makes the move of its `wake`. -/
inductive Worker.Goes [Sink σ] (surroundings : Surroundings σ) (clock : Clock)
    (worker : Worker σ) : Move σ → Prop where
  | enters (hstage : worker.stage = .queued) (hclock : clock.stopped = false) :
      Goes surroundings clock worker
        (.waits { worker with
          progress := worker.progress.start clock.now
          stage := .connecting clock.now })
  | turnsBack (hstage : worker.stage = .queued) (hclock : clock.stopped = true) :
      Goes surroundings clock worker (.leaves { worker with stage := .gone none } .abandoned)
  | moves {move : Move σ} (hwake : worker.wake surroundings clock = some move) :
      Goes surroundings clock worker move

/-- Every move that a worker can make `Keeps` its `Books`. -/
theorem Worker.Goes.keeps [Sink σ] {surroundings : Surroundings σ} {clock : Clock}
    {worker : Worker σ} {move : Move σ} (h : worker.Goes surroundings clock move)
    (hbooks : worker.Books) : move.Keeps worker := by
  cases h with
  | enters hstage hclock =>
    obtain ⟨remaining, hbalanced, hleaves⟩ := hbooks
    rw [hstage] at hbalanced hleaves
    exact .of_none rfl rfl ⟨remaining, ⟨hbalanced.planned, hbalanced.answered⟩, hleaves⟩ rfl
  | turnsBack hstage hclock =>
    obtain ⟨remaining, hbalanced, -⟩ := hbooks
    rw [hstage] at hbalanced
    refine ⟨rfl, rfl, ⟨remaining, hbalanced, trivial⟩, ?_⟩
    intro outcome hsome now
    cases hsome
    exact settles_of_balanced hbalanced now
  | moves hwake => exact keeps_of_wake hwake hbooks

namespace Pool

/-! ## One move -/

/-- The worker at place `i` has made a move, and nothing else has changed in what a run reports. -/
structure Filed (i : Nat) (pool later : Pool σ) (worker : Worker σ) (move : Move σ) : Prop where
  at_place : pool.workers[i]? = some worker
  workers : later.workers = pool.workers.set i move.filed
  tally : later.tally = (move.report? pool.clock.now).elim pool.tally pool.tally.merge

/-- A `report` of a worker is `Filed` as the move of one that leaves. -/
theorem filed_report {pool : Pool σ} {i : Nat} {worker : Worker σ} (next : Worker σ)
    (outcome : Outcome) (hat : pool.workers[i]? = some worker) :
    Filed i pool (pool.report i next outcome) worker (.leaves next outcome) := by
  unfold report Progress.claim
  cases hclaimed : next.progress.claimed with
  | false =>
    refine ⟨hat, rfl, ?_⟩
    rw [Move.report?, if_neg (by simp [hclaimed])]
    rfl
  | true =>
    -- Whoever has been reported before is kept as it is.
    have hsame : next.progress.claim.2 = next.progress := by
      rw [Progress.claim, ← hclaimed]
    refine ⟨hat, ?_, ?_⟩
    · rw [Move.filed, hsame]
      rfl
    · rw [Move.report?, if_pos hclaimed]
      rfl

/-- The worker at place `i` has had its turn. If it aborts, the run has a fault. -/
structure Advances [Sink σ] (surroundings : Surroundings σ) (i : Nat) (pool later : Pool σ)
    (worker : Worker σ) (move : Move σ) : Prop extends Filed i pool later worker move where
  goes : worker.Goes surroundings pool.clock move
  fault : ∀ next cause, move = .aborts next cause → later.fault.isSome = true

/-- There is nothing for the worker at place `i` to do: it is not there, nothing more is to be
expected of it, or it is in the queue and there is no place for it. -/
def Idle (i : Nat) (pool : Pool σ) : Prop :=
  ∀ worker, pool.workers[i]? = some worker →
    worker.isOver = true ∨ worker.stage = .queued ∧ pool.permits = 0

section Turns

variable [Sink σ]

/-- A worker without a move is `queued`, or `isOver`. -/
theorem isOver_of_wake_eq_none {surroundings : Surroundings σ} {clock : Clock} {worker : Worker σ}
    (hwake : worker.wake surroundings clock = none) (hstage : worker.stage ≠ .queued) :
    worker.isOver = true := by
  cases hwaits : worker.stage with
  | queued => exact absurd hwaits hstage
  | gone _ | dead _ => rw [Worker.isOver, hwaits]
  | connecting since =>
    rw [Worker.wake, hwaits] at hwake
    simp only at hwake
    split at hwake <;> cases hwake
  | sending flight run since =>
    rw [Worker.wake, hwaits] at hwake
    simp only at hwake
    split at hwake
    · cases hwake
    · cases hwake
    · split at hwake <;> cases hwake
  | pausing _ _ | closing _ _ _ =>
    rw [Worker.wake, hwaits] at hwake
    cases hwake

/-- A worker that is let `enter` has its turn, unless there are no `permits`. -/
theorem enter_eq_or_advances (surroundings : Surroundings σ) {i : Nat} {pool : Pool σ}
    {worker : Worker σ} (hat : pool.workers[i]? = some worker) (hstage : worker.stage = .queued) :
    (pool.enter i worker = pool ∧ pool.permits = 0) ∨
      ∃ move, Advances surroundings i pool (pool.enter i worker) worker move := by
  unfold enter
  split
  · next hfull => exact .inl ⟨rfl, hfull⟩
  · split
    · next hstopped =>
      refine .inr ⟨_, filed_report _ .abandoned hat, .turnsBack hstage hstopped, ?_⟩
      intro next cause haborts
      cases haborts
    · next hrunning =>
      have hclock : pool.clock.stopped = false := Bool.eq_false_iff.mpr hrunning
      refine .inr ⟨.waits _, ⟨hat, rfl, rfl⟩, .enters hstage hclock, ?_⟩
      intro next cause haborts
      cases haborts

/-- A worker whose move is applied has had its turn. -/
theorem advances_apply {surroundings : Surroundings σ} {i : Nat} {pool : Pool σ}
    {worker : Worker σ} {move : Move σ} (hat : pool.workers[i]? = some worker)
    (hwake : worker.wake surroundings pool.clock = some move) :
    Advances surroundings i pool (pool.apply i move) worker move := by
  refine ⟨?_, .moves hwake, ?_⟩
  · cases move with
    | waits next => exact ⟨hat, rfl, rfl⟩
    | leaves next outcome =>
      -- The place that it frees is not part of what is reported.
      obtain ⟨-, hworkers, htally⟩ := filed_report next outcome hat
      exact ⟨hat, hworkers, htally⟩
    | aborts next cause => exact ⟨hat, rfl, rfl⟩
    | dies next => exact ⟨hat, rfl, rfl⟩
  · rintro next cause rfl
    rfl

/-- A `wake` is the turn of a worker, unless the pool is `Idle` at this place. -/
theorem wake_eq_or_advances (surroundings : Surroundings σ) (i : Nat) (pool : Pool σ) :
    (pool.wake surroundings i = pool ∧ pool.Idle i) ∨
      ∃ worker move, Advances surroundings i pool (pool.wake surroundings i) worker move := by
  unfold wake
  split
  · next hnone =>
    refine .inl ⟨rfl, ?_⟩
    intro worker hat
    rw [hnone] at hat
    cases hat
  · next worker hat =>
    split
    · next hstage =>
      -- A worker in the queue wakes in vain if no place is free.
      rcases enter_eq_or_advances surroundings hat hstage with ⟨hsame, hfull⟩ |
        ⟨move, hadvances⟩
      · refine .inl ⟨hsame, ?_⟩
        intro other hother
        rw [hat] at hother
        cases hother
        exact .inr ⟨hstage, hfull⟩
      · exact .inr ⟨worker, move, hadvances⟩
    · next hstage =>
      split
      · next move hwake => exact .inr ⟨worker, move, advances_apply hat hwake⟩
      · next hwake =>
        refine .inl ⟨rfl, ?_⟩
        intro other hother
        rw [hat] at hother
        cases hother
        exact .inl (isOver_of_wake_eq_none hwake hstage)

end Turns

/-! ## Statements about reports -/

variable {good : Nat → WorkerResult → Prop} {jobs : List Job} {first : Tally}
  {pool later : Pool σ}

/-- The reports of a pool are those of a `Ledger`, and `good` holds of each and the place of its
worker. -/
def Reports (good : Nat → WorkerResult → Prop) (jobs : List Job) (first : Tally)
    (pool : Pool σ) : Prop :=
  ∃ order account, Ledger jobs first pool order account ∧ ∀ i ∈ order, good i (account i)

namespace Reports

theorem kept (h : Reports good jobs first pool) : Kept jobs first pool := by
  obtain ⟨order, account, hledger, -⟩ := h
  exact ⟨order, account, hledger⟩

/-- At the start there are no reports of which `good` would have to hold. -/
theorem start (policy : Policy) (good : Nat → WorkerResult → Prop) (jobs : List Job)
    (first : Tally) : Reports good jobs first (Pool.start policy first jobs : Pool σ) := by
  obtain ⟨order, account, hledger⟩ := kept_start policy first jobs (σ := σ)
  refine ⟨order, account, hledger, ?_⟩
  intro i hi
  -- Whoever has been reported is marked, and nobody is.
  obtain ⟨job, hjob, -⟩ := hledger.settles i hi
  have hat : (Pool.start policy first jobs : Pool σ).workers[i]? = some (.new job) := by
    rw [Pool.start, List.getElem?_map, hjob]
    rfl
  have hclaimed := (hledger.entries i _ hat).claimed.mpr hi
  cases hclaimed

/-- The `workers` and the `tally` of a pool are all that its `Reports` look at. -/
theorem congr (h : Reports good jobs first pool) (hworkers : later.workers = pool.workers)
    (htally : later.tally = pool.tally) : Reports good jobs first later := by
  obtain ⟨order, account, hledger, hgood⟩ := h
  refine ⟨order, account, ⟨?_, ?_, hledger.nodup, hledger.settles, ?_⟩, hgood⟩
  · rw [hworkers]
    exact hledger.length_eq
  · rw [hworkers]
    exact hledger.entries
  · exact htally.trans hledger.tally

/-- The `Reports` of a pool are `other` than good, too, if that follows from `good` for every worker
that is `claimed`. -/
theorem mono {other : Nat → WorkerResult → Prop} (h : Reports good jobs first pool)
    (himp : ∀ i (worker : Worker σ) result, pool.workers[i]? = some worker →
      worker.progress.claimed = true → good i result → other i result) :
    Reports other jobs first pool := by
  obtain ⟨order, account, hledger, hgood⟩ := h
  refine ⟨order, account, hledger, ?_⟩
  intro i hi
  obtain ⟨job, hjob, -⟩ := hledger.settles i hi
  obtain ⟨hlt, -⟩ := List.getElem?_eq_some_iff.mp hjob
  have hat := List.getElem?_eq_getElem (hledger.length_eq.symm ▸ hlt)
  exact himp i _ (account i) hat ((hledger.entries i _ hat).claimed.mpr hi) (hgood i hi)

/-- A move that is `Filed` adds its `report?` to the others, if `good` holds of it. -/
theorem filed {i : Nat} {worker : Worker σ} {move : Move σ} (h : Reports good jobs first pool)
    (hfiled : Filed i pool later worker move) (hkeeps : move.Keeps worker)
    (hgood : ∀ result, move.report? pool.clock.now = some result → good i result) :
    Reports good jobs first later := by
  obtain ⟨order, account, hledger, hall⟩ := h
  obtain ⟨hat, hworkers, htally⟩ := hfiled
  have hjob : move.filed.job = worker.job := move.job_filed.trans hkeeps.job
  cases hreport : move.report? pool.clock.now with
  | none =>
    rw [hreport] at htally
    have hclaimed := hkeeps.claimed_of_report?_eq_none hreport
    exact ⟨order, account,
      hledger.entry hworkers htally hat hjob hclaimed hkeeps.books_filed, hall⟩
  | some result =>
    rw [hreport] at htally
    obtain ⟨hfree, hclaimed, hsettles⟩ := hkeeps.of_report? hreport
    refine ⟨order ++ [i], Function.update account i result,
      hledger.report hworkers htally hat hjob hfree hclaimed hkeeps.books_filed hsettles, ?_⟩
    -- The worker has not been reported before, so the older accounts are those of others.
    have hnew : i ∉ order := by
      intro hin
      have hreported := (hledger.entries i worker hat).claimed.mpr hin
      rw [hfree] at hreported
      cases hreported
    intro j hj
    rcases List.mem_append.mp hj with hbefore | hlast
    · rw [Function.update_of_ne (ne_of_mem_of_not_mem hbefore hnew)]
      exact hall j hbefore
    · rw [List.mem_singleton.mp hlast, Function.update_self]
      exact hgood result hreport

/-- Whoever wakes, `good` holds of all reports if it holds of the `report?` that may be made. -/
theorem advances [Sink σ] {surroundings : Surroundings σ} {i : Nat} {worker : Worker σ}
    {move : Move σ} (h : Reports good jobs first pool)
    (hadvances : Advances surroundings i pool later worker move)
    (hgood : ∀ result, move.report? pool.clock.now = some result → result.Settles worker.job →
      good i result) : Reports good jobs first later := by
  have hbooks := h.kept.books worker (List.mem_of_getElem? hadvances.at_place)
  have hkeeps := hadvances.goes.keeps hbooks
  refine h.filed hadvances.toFiled hkeeps ?_
  intro result hreport
  have hsettles := (hkeeps.of_report? hreport).2.2
  rw [move.job_filed, hkeeps.job] at hsettles
  exact hgood result hreport hsettles

/-- After the `sweep`, `good` holds of all reports if it holds of those of the workers given up. -/
theorem sweep (h : Reports good jobs first pool)
    (hgood : ∀ i (worker : Worker σ), pool.workers[i]? = some worker →
      worker.progress.claimed = false → good i (worker.result pool.clock.now .abandoned)) :
    Reports good jobs first pool.sweep := by
  -- The workers whose turn has not come are those that were there at first.
  have hsweep := sweep_induction
    (fun k swept => Reports good jobs first swept ∧ swept.clock = pool.clock ∧
      ∀ j, k ≤ j → swept.workers[j]? = pool.workers[j]?)
    pool ⟨h, rfl, fun _ _ => rfl⟩ ?_ ?_
  · exact hsweep.1
  · rintro k swept worker ⟨hreports, hclock, hrest⟩ hat
    have hbooks := hreports.kept.books worker (List.mem_of_getElem? hat)
    have hkeeps : (Move.leaves worker .abandoned).Keeps worker := by
      refine ⟨rfl, rfl, hbooks, ?_⟩
      intro outcome hsome now
      cases hsome
      exact hbooks.settles_of_abandoned now
    have hfiled := filed_report worker .abandoned hat
    refine ⟨hreports.filed hfiled hkeeps ?_, ?_, ?_⟩
    · intro result hreport
      have hfree := (hkeeps.of_report? hreport).1
      rw [Move.report?, if_neg (by simp [hfree]), hclock] at hreport
      cases hreport
      exact hgood k worker ((hrest k (Nat.le_refl k)).symm.trans hat) hfree
    · rw [clock_report, hclock]
    · intro j hj
      rw [hfiled.workers, List.getElem?_set_ne (by omega)]
      exact hrest j (by omega)
  · rintro k swept ⟨hreports, hclock, hrest⟩ -
    exact ⟨hreports, hclock, fun j hj => hrest j (by omega)⟩

/-- Once `AllReported`, there is one account of every job that `Settles` it and is `good`, and the
tally is `first` with these accounts merged in some `order`. -/
theorem exists_accounts (h : Reports good jobs first pool) (hall : pool.AllReported) :
    ∃ (account : Nat → WorkerResult) (order : List Nat), order.Perm (List.range jobs.length) ∧
      (∀ i job, jobs[i]? = some job → (account i).Settles job ∧ good i (account i)) ∧
      pool.tally = (order.map account).foldl Tally.merge first := by
  obtain ⟨order, account, hledger, hgood⟩ := h
  have hperm := hledger.order_perm hall
  refine ⟨account, order, hperm, ?_, hledger.tally⟩
  intro i job hjob
  have hi : i ∈ order :=
    hperm.mem_iff.mpr (List.mem_range.mpr (List.getElem?_eq_some_iff.mp hjob).1)
  obtain ⟨other, hother, hsettles⟩ := hledger.settles i hi
  rw [hjob] at hother
  cases hother
  exact ⟨hsettles, hgood i hi⟩

end Reports

/-! ## Actions -/

/-- What can happen to a run, as a value that a history can be made of. -/
inductive Action (σ : Type) where
  /-- Time passes, up to a moment if that has not come yet. -/
  | pass (moment : Nat)
  /-- The stop signal is raised. -/
  | raise
  /-- A worker wakes. -/
  | wake (surroundings : Surroundings σ) (i : Nat)
  /-- The run returns, if it can. -/
  | finish

namespace Course

variable [Sink σ]

/-- A run after one more action. One that cannot happen changes nothing. -/
def perform (course : Course σ) : Action σ → Course σ
  | .pass moment =>
    let clock := { course.pool.clock with now := max course.pool.clock.now moment }
    { course with pool := { course.pool with clock } }
  | .raise => { course with pool := { course.pool with clock := course.pool.clock.raise } }
  | .wake surroundings i => { course with pool := course.pool.wake surroundings i }
  | .finish =>
    match course.returned with
    | some _ => course
    | none =>
      if course.pool.isOver || course.pool.clock.stopped then
        ⟨course.pool.sweep, some course.pool.sweep.totals⟩
      else course

/-- A run after a history: its `actions`, one after the other. -/
def after (actions : List (Action σ)) (course : Course σ) : Course σ :=
  actions.foldl perform course

@[simp]
theorem after_nil (course : Course σ) : course.after [] = course := rfl

@[simp]
theorem after_cons (action : Action σ) (actions : List (Action σ)) (course : Course σ) :
    course.after (action :: actions) = (course.perform action).after actions := rfl

theorem after_append (actions more : List (Action σ)) (course : Course σ) :
    course.after (actions ++ more) = (course.after actions).after more := by
  simp only [after, List.foldl_append]

/-- A statement `P` holds of every action of a history, and of the run as the action finds it. -/
def Along (P : Course σ → Action σ → Prop) : List (Action σ) → Course σ → Prop
  | [], _ => True
  | action :: actions, course => P course action ∧ Along P actions (course.perform action)

/-- A statement `P` holds of some action of a history, and of the run as the action finds it. -/
def Ever (P : Course σ → Action σ → Prop) : List (Action σ) → Course σ → Prop
  | [], _ => False
  | action :: actions, course => P course action ∨ Ever P actions (course.perform action)

theorem along_append {P : Course σ → Action σ → Prop} {actions more : List (Action σ)}
    {course : Course σ} :
    Along P (actions ++ more) course ↔
      Along P actions course ∧ Along P more (course.after actions) := by
  induction actions generalizing course with
  | nil => simp only [List.nil_append, Along, true_and, after_nil]
  | cons action actions ih => simp only [List.cons_append, Along, ih, after_cons, and_assoc]

/-- What holds `Along` a history holds of each action in it, in some state of the run. -/
theorem exists_of_along {P : Course σ → Action σ → Prop} {actions : List (Action σ)}
    {course : Course σ} (h : Along P actions course) {action : Action σ} (hmem : action ∈ actions) :
    ∃ later, P later action := by
  induction actions generalizing course with
  | nil => cases hmem
  | cons first actions ih =>
    cases hmem with
    | head => exact ⟨course, h.1⟩
    | tail _ hmem => exact ih h.2 hmem

/-- To `perform` an action is one of the `Moves` of the run, or nothing happens. -/
theorem perform_eq_or_moves (course : Course σ) (action : Action σ) :
    course.perform action = course ∨ Moves course (course.perform action) := by
  obtain ⟨pool, returned⟩ := course
  cases action with
  | pass moment => exact .inr (.pass pool returned (Nat.le_max_left _ moment))
  | raise => exact .inr (.raise pool returned)
  | wake surroundings i => exact .inr (.wake pool returned surroundings i)
  | finish =>
    cases returned with
    | some result => exact .inl rfl
    | none =>
      simp only [perform]
      split
      · next hend =>
        rw [Bool.or_eq_true] at hend
        exact .inr (.finish pool hend)
      · exact .inl rfl

theorem reaches_perform (course : Course σ) (action : Action σ) :
    course.Reaches (course.perform action) := by
  rcases course.perform_eq_or_moves action with hsame | hmoves
  · rw [hsame]
    exact .refl course
  · exact .of_moves hmoves

/-- What a history comes to is something that the run `Reaches`. -/
theorem reaches_after (actions : List (Action σ)) (course : Course σ) :
    course.Reaches (course.after actions) := by
  induction actions generalizing course with
  | nil => exact .refl course
  | cons action actions ih =>
    rw [after_cons]
    exact (course.reaches_perform action).trans (ih (course.perform action))

/-- If `P` implies `Q` in all that the run `Reaches`, it does so `Along` every history. -/
theorem along_mono {P Q : Course σ → Action σ → Prop} {actions : List (Action σ)}
    {course : Course σ}
    (himp : ∀ later, course.Reaches later → ∀ action, P later action → Q later action)
    (h : Along P actions course) : Along Q actions course := by
  induction actions generalizing course with
  | nil => trivial
  | cons action actions ih =>
    obtain ⟨hfirst, hrest⟩ := h
    refine ⟨himp course (.refl course) action hfirst, ih ?_ hrest⟩
    intro later hreaches
    exact himp later ((course.reaches_perform action).trans hreaches)

/-- Each of the `Moves` of a run is what some action comes to. -/
theorem exists_perform {course next : Course σ} (h : Moves course next) :
    ∃ action, course.perform action = next := by
  cases h with
  | @pass pool returned moment hle =>
    refine ⟨.pass moment, ?_⟩
    simp only [perform, Nat.max_eq_right hle]
  | raise pool returned => exact ⟨.raise, rfl⟩
  | wake pool returned surroundings i => exact ⟨.wake surroundings i, rfl⟩
  | finish pool hend =>
    refine ⟨.finish, ?_⟩
    simp only [perform, Bool.or_eq_true, if_pos hend]

/-- Everything that a run `Reaches` is what some history comes to. -/
theorem exists_after {course later : Course σ} (h : course.Reaches later) :
    ∃ actions, course.after actions = later := by
  induction h with
  | refl => exact ⟨[], rfl⟩
  | tail _ hmoves ih =>
    obtain ⟨actions, rfl⟩ := ih
    obtain ⟨action, rfl⟩ := exists_perform hmoves
    exact ⟨actions ++ [action], after_append actions [action] course⟩

/-- If the clock is not `stopped` after an action, it was not before. -/
theorem stopped_of_perform {course : Course σ} {action : Action σ}
    (h : (course.perform action).pool.clock.stopped = false) :
    course.pool.clock.stopped = false := by
  obtain ⟨pool, returned⟩ := course
  cases action with
  | pass moment =>
    refine Clock.stopped_of_le ?_ ?_ h
    · rfl
    · exact Nat.le_max_left _ moment
  | raise =>
    -- The signal is up when it has just been raised.
    have hraised : pool.clock.raise.stopped = false := h
    rw [Clock.stopped_raise] at hraised
    cases hraised
  | wake surroundings i =>
    have hlater : (pool.wake surroundings i).clock.stopped = false := h
    rw [clock_wake] at hlater
    exact hlater
  | finish =>
    cases returned with
    | some result => exact h
    | none =>
      simp only [perform] at h
      split at h
      · exact pool.clock_sweep ▸ h
      · exact h

/-- A run returns once: `returned` stays as it is. -/
theorem returned_after {course : Course σ} {result : Except Failure Tally}
    (h : course.returned = some result) (actions : List (Action σ)) :
    (course.after actions).returned = some result := by
  induction actions generalizing course with
  | nil => exact h
  | cons action actions ih =>
    refine ih ?_
    obtain ⟨pool, returned⟩ := course
    cases h
    cases action <;> rfl

end Course

end Pool

end Volley
