import Mathlib.Data.List.Nodup
import Volley.Proofs.Pool.Conservation
import Volley.Proofs.Pool.History

/-!
# Reports in two steps

A report has two steps: somebody claims the right to report a worker, and merges its account into
the tally. Between them anything else can happen. In particular a pool that has stopped waiting asks
for the right to report each of its workers, one after the other, and then returns the tally as it
is. A worker that has claimed its report and not yet merged it is passed over by the pool, and the
totals that the run returns are without it.

Here the steps of the workers and of the pool come in every order. What a worker does apart from its
report is left open altogether. `Course` is the special case in which nobody comes between the two
steps of a report, or between the steps of the sweep.

## Main definitions

* `Handover`: a pool with the reports that have been claimed and those that have been merged.
* `Handover.perform`, `Handover.after`: the steps of workers and pool in any order.
* `Handover.Sound`: every claim is in one hand, or has led to one merge.

## Main results

* `Handover.sound_perform`: whatever happens, no claim is lost and none is used twice.
* `Handover.returned_totals`: what the returned totals are worth.
* `Handover.exists_after_of_course`: every history of a run is a history of these steps.
-/

namespace Volley

variable {σ : Type}

namespace Pool

/-- Nothing has changed that reports are about: the workers have the same `job`, are `claimed` or
not as before, and the `tally` is the same. -/
def Apart (pool next : Pool σ) : Prop :=
  next.workers.map Worker.job = pool.workers.map Worker.job ∧
    next.workers.map (·.progress.claimed) = pool.workers.map (·.progress.claimed) ∧
    next.tally = pool.tally

instance (pool next : Pool σ) : Decidable (Apart pool next) :=
  inferInstanceAs (Decidable (_ ∧ _ ∧ _))

/-- Asks for the right to report the worker at a place: whether it is given, and the pool after
that. It is the first half of `Pool.report`. -/
def claim (pool : Pool σ) (i : Nat) : Bool × Pool σ :=
  match pool.workers[i]? with
  | none => (false, pool)
  | some worker =>
    let (given, progress) := worker.progress.claim
    (given, pool.put i { worker with progress })

/-- The number of times that the right to report the worker at a place has been given: one if it is
`claimed`, else none. -/
def claims (pool : Pool σ) (i : Nat) : Nat :=
  ((pool.workers[i]?).map (·.progress.claimed)).elim 0 Bool.toNat

end Pool

/-- How far a pool has come with its sweep. -/
inductive Sweep where
  /-- It waits for its workers. -/
  | waiting
  /-- It is going to ask for the right to report the worker at a place. -/
  | claiming (i : Nat)
  /-- It has been given the right to report the worker at a place, and is going to do so. -/
  | merging (i : Nat)
  /-- The run has returned. -/
  | returned (result : Except Pool.Failure Tally)
  deriving DecidableEq

namespace Sweep

/-- The claims on the worker at a place that the sweep has in its hand, while it is `merging` it. -/
def holds : Sweep → Nat → Nat
  | .merging i, j => if i = j then 1 else 0
  | .waiting, _ => 0
  | .claiming _, _ => 0
  | .returned _, _ => 0

/-- Whether the sweep has asked for the worker at a place and is done with it. -/
def Passed : Sweep → Nat → Prop
  | .waiting, _ => False
  | .claiming i, j => j < i
  | .merging i, j => j < i
  | .returned _, _ => True

/-- The sweep of a course, by what the course has `returned`. -/
def ofReturned : Option (Except Pool.Failure Tally) → Sweep
  | none => .waiting
  | some result => .returned result

end Sweep

/-- A pool with the reports that are under way, `held` by workers or by the `sweep`, and a `log` of
those that have been made. -/
structure Handover (σ : Type) where
  pool : Pool σ
  sweep : Sweep
  /-- The outcomes of the workers that have claimed their report and not merged it. -/
  held : Nat → Option Outcome
  /-- The accounts that have been merged and the places of their workers, in order. -/
  log : List (Nat × WorkerResult)

namespace Handover

/-- What can happen next. -/
inductive Step (σ : Type) where
  /-- Something that has nothing to do with reports. -/
  | work (next : Pool σ)
  /-- A worker that is done asks for the right to report itself. -/
  | claim (i : Nat) (outcome : Outcome)
  /-- A worker that has been given it merges its account. -/
  | merge (i : Nat)
  /-- The pool stops waiting, if it may. -/
  | giveUp
  /-- The sweep asks for the next worker, merges its account, or is at its end. -/
  | sweep

/-- A run with nobody reported and an empty `log`. -/
def start (policy : Pool.Policy) (first : Tally) (jobs : List Job) : Handover σ :=
  ⟨.start policy first jobs, .waiting, fun _ => none, []⟩

/-- Merges the account of the worker at a place, and puts it on the `log`. It is the second half of
`Pool.report`. -/
def record (state : Handover σ) (i : Nat) (outcome : Outcome) : Handover σ :=
  match state.pool.workers[i]? with
  | none => state
  | some worker =>
    let result := worker.result state.pool.clock.now outcome
    { state with
      pool := { state.pool with tally := state.pool.tally.merge result }
      log := state.log ++ [(i, result)] }

@[simp]
theorem sweep_record (state : Handover σ) (i : Nat) (outcome : Outcome) :
    (state.record i outcome).sweep = state.sweep := by
  unfold record
  split <;> rfl

@[simp]
theorem held_record (state : Handover σ) (i : Nat) (outcome : Outcome) :
    (state.record i outcome).held = state.held := by
  unfold record
  split <;> rfl

/-- Whether all workers are done, and none of them has a report that is `held`. -/
def isOver (state : Handover σ) : Bool :=
  state.pool.isOver && (List.range state.pool.workers.length).all fun i => (state.held i).isNone

/-- The next step of the sweep: it claims, merges or passes over a worker, or returns `Pool.totals`.
-/
def advance (state : Handover σ) : Handover σ :=
  match state.sweep with
  | .waiting => state
  | .claiming i =>
    if i < state.pool.workers.length then
      match state.pool.claim i with
      | (true, pool) => { state with pool, sweep := .merging i }
      | (false, pool) => { state with pool, sweep := .claiming (i + 1) }
    else { state with sweep := .returned state.pool.totals }
  | .merging i => { state.record i .abandoned with sweep := .claiming (i + 1) }
  | .returned _ => state

/-- The state after one more `Step`. One that cannot happen changes nothing. -/
def perform (state : Handover σ) : Step σ → Handover σ
  | .work next => if state.pool.Apart next then { state with pool := next } else state
  | .claim i outcome =>
    match state.pool.claim i with
    | (true, pool) => { state with pool, held := Function.update state.held i (some outcome) }
    | (false, pool) => { state with pool }
  | .merge i =>
    match state.held i with
    | none => state
    | some outcome =>
      { state.record i outcome with held := Function.update state.held i none }
  | .giveUp =>
    match state.sweep with
    | .waiting =>
      if state.isOver || state.pool.clock.stopped then { state with sweep := .claiming 0 }
      else state
    | _ => state
  | .sweep => state.advance

/-- The state after one `Step` after the other. -/
def after (steps : List (Step σ)) (state : Handover σ) : Handover σ :=
  steps.foldl perform state

@[simp]
theorem after_nil (state : Handover σ) : state.after [] = state := rfl

@[simp]
theorem after_cons (step : Step σ) (steps : List (Step σ)) (state : Handover σ) :
    state.after (step :: steps) = (state.perform step).after steps := rfl

theorem after_append (steps more : List (Step σ)) (state : Handover σ) :
    state.after (steps ++ more) = (state.after steps).after more := by
  simp only [after, List.foldl_append]

/-- The places of the workers that are on the `log`, in order. -/
def merged (state : Handover σ) : List Nat :=
  state.log.map Prod.fst

end Handover

/-! ## Claims -/

namespace Pool

variable {pool next : Pool σ} {i : Nat}

/-- If `f` is the same of the old entry of a list and of the new, it is the same along both lists.
-/
theorem map_set_of_eq {α β : Type} (f : α → β) {entries : List α} {entry other : α}
    (hat : entries[i]? = some entry) (hsame : f other = f entry) :
    (entries.set i other).map f = entries.map f := by
  obtain ⟨hlt, rfl⟩ := List.getElem?_eq_some_iff.mp hat
  rw [List.map_set, hsame, ← List.map_set, List.set_getElem_self]

/-- The right to report the worker at place `i` has been given for the first time. -/
structure FirstClaim (i : Nat) (pool next : Pool σ) : Prop where
  free : pool.claims i = 0
  taken : next.claims i = 1
  others : ∀ j, j ≠ i → next.claims j = pool.claims j
  jobs : next.workers.map Worker.job = pool.workers.map Worker.job
  tally : next.tally = pool.tally

theorem claims_of_getElem? {worker : Worker σ} (hat : pool.workers[i]? = some worker) :
    pool.claims i = worker.progress.claimed.toNat := by
  rw [claims, hat]
  rfl

/-- Only workers that are there have `claims` on them. -/
theorem exists_of_claims_ne_zero (h : pool.claims i ≠ 0) :
    ∃ worker, pool.workers[i]? = some worker := by
  cases hat : pool.workers[i]? with
  | none =>
    rw [claims, hat] at h
    exact absurd rfl h
  | some worker => exact ⟨worker, rfl⟩

theorem claims_le_one (pool : Pool σ) (i : Nat) : pool.claims i ≤ 1 := by
  cases hat : pool.workers[i]? with
  | none =>
    rw [claims, hat]
    exact Nat.zero_le 1
  | some worker =>
    rw [claims_of_getElem? hat]
    exact Bool.toNat_le _

theorem Apart.claims_eq (h : pool.Apart next) (i : Nat) : next.claims i = pool.claims i := by
  have hflag := congrArg (·[i]?) h.2.1
  simp only [List.getElem?_map] at hflag
  rw [claims, claims, hflag]

/-- The right to report a worker that is `claimed` is not given again. -/
theorem claim_of_claimed {worker : Worker σ} (hat : pool.workers[i]? = some worker)
    (hclaimed : worker.progress.claimed = true) : pool.claim i = (false, pool) := by
  obtain ⟨hlt, rfl⟩ := List.getElem?_eq_some_iff.mp hat
  have hclaim : pool.workers[i].progress.claim = (false, pool.workers[i].progress) := by
    refine Prod.ext ?_ ?_
    · rw [Progress.claim, hclaimed]
      rfl
    · rw [Progress.claim, ← hclaimed]
  simp only [claim, hat, hclaim]
  exact congrArg (fun workers => (false, { pool with workers })) (List.set_getElem_self hlt)

/-- The first to `claim` a worker is given the right to report it. -/
theorem claim_of_free {worker : Worker σ} (hat : pool.workers[i]? = some worker)
    (hfree : worker.progress.claimed = false) :
    pool.claim i = (true, pool.put i { worker with progress := worker.progress.claim.2 }) := by
  simp only [claim, hat, Progress.claim, hfree, Bool.not_false]

/-- To `claim` is the `FirstClaim` of a worker, or it changes nothing. -/
theorem claim_cases (pool : Pool σ) (i : Nat) :
    (∃ next, pool.claim i = (true, next) ∧ FirstClaim i pool next) ∨
      pool.claim i = (false, pool) ∧ (i < pool.workers.length → pool.claims i = 1) := by
  cases hat : pool.workers[i]? with
  | none =>
    refine .inr ⟨by rw [claim, hat], ?_⟩
    intro hlt
    rw [List.getElem?_eq_getElem hlt] at hat
    cases hat
  | some worker =>
    obtain ⟨hlt, -⟩ := List.getElem?_eq_some_iff.mp hat
    cases hclaimed : worker.progress.claimed with
    | true =>
      refine .inr ⟨claim_of_claimed hat hclaimed, ?_⟩
      intro _
      rw [claims_of_getElem? hat, hclaimed]
      rfl
    | false =>
      let claimed : Worker σ := { worker with progress := worker.progress.claim.2 }
      refine .inl ⟨pool.put i claimed, claim_of_free hat hclaimed, ?_, ?_, ?_, ?_, rfl⟩
      · rw [claims_of_getElem? hat, hclaimed]
        rfl
      · have hput : (pool.put i claimed).workers[i]? = some claimed :=
          List.getElem?_set_self hlt
        rw [claims_of_getElem? hput]
        rfl
      · intro j hne
        have hput : (pool.put i claimed).workers[j]? = pool.workers[j]? :=
          List.getElem?_set_ne hne.symm
        rw [claims, claims, hput]
      · exact map_set_of_eq Worker.job hat rfl

end Pool

namespace Handover

/-! ## No claim is lost -/

variable {jobs : List Job} {first : Tally} {state : Handover σ} {i : Nat}

/-- A state with its reports in order: whenever the right to report a worker has been given, by
`claims`, it is `held` by the worker, or the sweep `holds` it, or it has led to one entry of the
`log`. -/
structure Sound (jobs : List Job) (first : Tally) (state : Handover σ) : Prop where
  jobs_eq : state.pool.workers.map Worker.job = jobs
  claims : ∀ i, state.merged.count i + (state.held i).isSome.toNat + state.sweep.holds i =
    state.pool.claims i
  named : ∀ entry ∈ state.log, ∃ job, jobs[entry.1]? = some job ∧
    entry.2.workerId = job.workerId ∧ entry.2.scenario = job.spec.name
  tally : state.pool.tally = (state.log.map Prod.snd).foldl Tally.merge first
  passed : ∀ i, i < jobs.length → state.sweep.Passed i → state.pool.claims i = 1

theorem sound_start (policy : Pool.Policy) (first : Tally) (jobs : List Job) :
    Sound jobs first (start policy first jobs : Handover σ) := by
  refine ⟨?_, ?_, nofun, rfl, fun _ _ => False.elim⟩
  · show (jobs.map Worker.new).map Worker.job = jobs
    rw [List.map_map]
    exact List.map_id' jobs
  · intro i
    show 0 = Pool.claims (Pool.start policy first jobs) i
    rw [Pool.claims, Pool.start, List.getElem?_map]
    cases jobs[i]? <;> rfl

namespace Sound

theorem length_eq (h : Sound jobs first state) : state.pool.workers.length = jobs.length := by
  rw [← h.jobs_eq, List.length_map]

/-- The worker at a place has the job at that place. -/
theorem job_eq {worker : Worker σ} (h : Sound jobs first state)
    (hat : state.pool.workers[i]? = some worker) : jobs[i]? = some worker.job := by
  rw [← h.jobs_eq, List.getElem?_map, hat]
  rfl

/-- A step that leaves the pool `Apart` from reports changes nothing in them. -/
theorem work {next : Pool σ} (h : Sound jobs first state) (hapart : state.pool.Apart next) :
    Sound jobs first { state with pool := next } := by
  refine ⟨hapart.1.trans h.jobs_eq, ?_, h.named, hapart.2.2.trans h.tally, ?_⟩
  · intro i
    exact (h.claims i).trans (hapart.claims_eq i).symm
  · intro i hlt hpassed
    exact (hapart.claims_eq i).trans (h.passed i hlt hpassed)

/-- A worker that is given the right to report itself has it `held`. -/
theorem claim {next : Pool σ} (h : Sound jobs first state) (outcome : Outcome)
    (hclaims : Pool.FirstClaim i state.pool next) :
    Sound jobs first
      { state with pool := next, held := Function.update state.held i (some outcome) } := by
  refine ⟨hclaims.jobs.trans h.jobs_eq, ?_, h.named, hclaims.tally.trans h.tally, ?_⟩
  · intro j
    have hbefore := h.claims j
    rcases eq_or_ne j i with rfl | hne
    · -- Nobody had a claim on the worker, so nobody had one in hand, and nothing was merged.
      rw [hclaims.free] at hbefore
      simp only [Function.update_self, Option.isSome_some, Bool.toNat_true, hclaims.taken]
      show state.merged.count j + 1 + state.sweep.holds j = 1
      omega
    · simp only [Function.update_of_ne hne, hclaims.others j hne]
      exact hbefore
  · intro j hlt hpassed
    have hclaimed := h.passed j hlt hpassed
    rcases eq_or_ne j i with rfl | hne
    · exact hclaims.taken
    · exact (hclaims.others j hne).trans hclaimed

/-- To `record` an account uses up one claim that somebody has in hand. -/
theorem record {sweep : Sweep} {held : Nat → Option Outcome} (h : Sound jobs first state)
    (outcome : Outcome) (hclaimed : state.pool.claims i ≠ 0)
    (hhands : ∀ j, (held j).isSome.toNat + sweep.holds j + [i].count j =
      (state.held j).isSome.toNat + state.sweep.holds j)
    (hpassed : ∀ j, sweep.Passed j → state.sweep.Passed j ∨ j = i) :
    Sound jobs first { state.record i outcome with sweep, held } := by
  obtain ⟨worker, hat⟩ := Pool.exists_of_claims_ne_zero hclaimed
  have hone : state.pool.claims i = 1 := by
    have hle := state.pool.claims_le_one i
    omega
  simp only [Handover.record, hat]
  refine ⟨h.jobs_eq, ?_, ?_, ?_, ?_⟩
  · intro j
    have hbefore := h.claims j
    have hhand := hhands j
    simp only [merged, List.map_append, List.map_cons, List.map_nil, List.count_append] at hhand ⊢
    show _ = state.pool.claims j
    rw [← hbefore, merged]
    omega
  · intro entry hentry
    rcases List.mem_append.mp hentry with hold | hnew
    · exact h.named entry hold
    · obtain rfl := List.mem_singleton.mp hnew
      exact ⟨worker.job, h.job_eq hat, rfl, rfl⟩
  · simp only [List.map_append, List.map_cons, List.map_nil, List.foldl_append, List.foldl_cons,
      List.foldl_nil, h.tally]
  · intro j hlt hnow
    rcases hpassed j hnow with hbefore | rfl
    · exact h.passed j hlt hbefore
    · exact hone

/-- A worker that has its account merged has nothing `held` any more. -/
theorem merge {outcome : Outcome} (h : Sound jobs first state)
    (hheld : state.held i = some outcome) :
    Sound jobs first
      { state.record i outcome with held := Function.update state.held i none } := by
  have hclaims := h.claims i
  rw [hheld, Option.isSome_some, Bool.toNat_true] at hclaims
  refine h.record outcome (by omega) ?_ ?_
  · intro j
    rw [sweep_record]
    rcases eq_or_ne j i with rfl | hne
    · rw [Function.update_self, hheld, List.count_singleton_self]
      simp only [Option.isSome_none, Option.isSome_some, Bool.toNat_false, Bool.toNat_true]
      omega
    · rw [Function.update_of_ne hne, List.count_singleton]
      simp only [beq_iff_eq, hne.symm, if_false, Nat.add_zero]
  · intro j hpassed
    rw [sweep_record] at hpassed
    exact .inl hpassed

/-! ### The sweep -/

/-- While the sweep is `claiming`, it has no claim in its hand. -/
theorem claims_of_claiming (h : Sound jobs first state) (hsweep : state.sweep = .claiming i)
    (j : Nat) : state.merged.count j + (state.held j).isSome.toNat = state.pool.claims j := by
  have hclaims := h.claims j
  rw [hsweep] at hclaims
  exact hclaims

/-- Those for whom the sweep has asked have been claimed, by the sweep or before. -/
theorem claims_of_lt {j : Nat} (h : Sound jobs first state) (hsweep : state.sweep = .claiming i)
    (hplace : j < jobs.length) (hlt : j < i) : state.pool.claims j = 1 := by
  refine h.passed j hplace ?_
  rw [hsweep]
  exact hlt

/-- A sweep that is given the right to report a worker is `merging` it. -/
theorem sweepClaims {next : Pool σ} (h : Sound jobs first state)
    (hsweep : state.sweep = .claiming i) (hclaims : Pool.FirstClaim i state.pool next) :
    Sound jobs first { state with pool := next, sweep := .merging i } := by
  refine ⟨hclaims.jobs.trans h.jobs_eq, ?_, h.named, hclaims.tally.trans h.tally, ?_⟩
  · intro j
    have hbefore := h.claims_of_claiming hsweep j
    show state.merged.count j + (state.held j).isSome.toNat + (if i = j then 1 else 0) =
      next.claims j
    rcases eq_or_ne i j with rfl | hne
    · rw [hclaims.free] at hbefore
      rw [if_pos rfl, hclaims.taken]
      omega
    · rw [if_neg hne, hclaims.others j hne.symm]
      exact hbefore
  · intro j hplace hlt
    exact (hclaims.others j (Nat.ne_of_lt hlt)).trans (h.claims_of_lt hsweep hplace hlt)

/-- A sweep passes over a worker that has been claimed, whether its report is still `held` or
`merged`. -/
theorem sweepPasses (h : Sound jobs first state) (hsweep : state.sweep = .claiming i)
    (hclaimed : state.pool.claims i = 1) :
    Sound jobs first { state with sweep := .claiming (i + 1) } := by
  refine ⟨h.jobs_eq, h.claims_of_claiming hsweep, h.named, h.tally, ?_⟩
  -- That it has been claimed is all that is known of the worker: its account may still be missing.
  intro j hplace hlt
  rcases Nat.lt_succ_iff_lt_or_eq.mp hlt with hbefore | rfl
  · exact h.claims_of_lt hsweep hplace hbefore
  · exact hclaimed

/-- A sweep that has merged an account as `abandoned` goes on to the next worker. -/
theorem sweepMerges (h : Sound jobs first state) (hsweep : state.sweep = .merging i) :
    Sound jobs first { state.record i .abandoned with sweep := .claiming (i + 1) } := by
  have hclaims := h.claims i
  rw [hsweep] at hclaims
  have hone : Sweep.holds (.merging i) i = 1 := if_pos rfl
  refine h.record .abandoned (by omega) ?_ ?_
  · intro j
    simp only [held_record, hsweep, Sweep.holds, List.count_singleton, beq_iff_eq, Nat.add_zero]
  · intro j hlt
    rw [hsweep]
    exact Nat.lt_succ_iff_lt_or_eq.mp hlt

/-- At the end of a sweep every worker has been claimed, whatever it has `returned`. -/
theorem sweepReturns (h : Sound jobs first state) (hsweep : state.sweep = .claiming i)
    (hend : jobs.length ≤ i) (result : Except Pool.Failure Tally) :
    Sound jobs first { state with sweep := .returned result } := by
  refine ⟨h.jobs_eq, h.claims_of_claiming hsweep, h.named, h.tally, ?_⟩
  intro j hplace _
  exact h.claims_of_lt hsweep hplace (Nat.lt_of_lt_of_le hplace hend)

theorem advance (h : Sound jobs first state) : Sound jobs first state.advance := by
  unfold Handover.advance
  split
  · exact h
  · next i hsweep =>
    split
    · next hlt =>
      rcases state.pool.claim_cases i with ⟨next, hclaim, hclaims⟩ | ⟨hclaim, hclaimed⟩
      · rw [hclaim]
        exact h.sweepClaims hsweep hclaims
      · rw [hclaim]
        exact h.sweepPasses hsweep (hclaimed hlt)
    · next hend =>
      exact h.sweepReturns hsweep (h.length_eq ▸ Nat.le_of_not_lt hend) _
  · next i hsweep => exact h.sweepMerges hsweep
  · exact h

end Sound

/-- A state stays `Sound` in every `Step`: every claim is in one hand, or has led to one merge. -/
theorem sound_perform (h : Sound jobs first state) (step : Step σ) :
    Sound jobs first (state.perform step) := by
  cases step with
  | work next =>
    simp only [perform]
    split
    · next hapart => exact h.work hapart
    · exact h
  | claim i outcome =>
    simp only [perform]
    rcases state.pool.claim_cases i with ⟨next, hclaim, hclaims⟩ | ⟨hclaim, -⟩
    · rw [hclaim]
      exact h.claim outcome hclaims
    · rw [hclaim]
      exact h
  | merge i =>
    simp only [perform]
    split
    · exact h
    · next outcome hheld => exact h.merge hheld
  | giveUp =>
    simp only [perform]
    split
    · next hwaiting =>
      split
      · -- The sweep begins with nothing in its hand, and has not asked for anybody.
        refine ⟨h.jobs_eq, ?_, h.named, h.tally, fun j _ hless => absurd hless (Nat.not_lt_zero j)⟩
        intro j
        have hbefore := h.claims j
        rw [hwaiting] at hbefore
        exact hbefore
      · exact h
    · exact h
  | sweep => exact h.advance

theorem sound_after (h : Sound jobs first state) (steps : List (Step σ)) :
    Sound jobs first (state.after steps) := by
  induction steps generalizing state with
  | nil => exact h
  | cons step steps ih => exact ih (sound_perform h step)

/-- Nobody is `merged` twice. -/
theorem Sound.nodup (h : Sound jobs first state) : state.merged.Nodup := by
  refine List.nodup_iff_count_le_one.mpr fun i => ?_
  have hclaims := h.claims i
  have hle := state.pool.claims_le_one i
  omega

/-! ## What a run returns -/

/-- A step after which the sweep has `returned` is one of the sweep at its end, with `Pool.totals`
for the result, unless the sweep had `returned` before. -/
theorem returned_of_perform {step : Step σ} {result : Except Pool.Failure Tally}
    (h : (state.perform step).sweep = .returned result) :
    state.sweep = .returned result ∨
      step = .sweep ∧ result = state.pool.totals ∧
        ∃ i, state.sweep = .claiming i ∧ state.pool.workers.length ≤ i := by
  cases step with
  | work next =>
    simp only [perform] at h
    split at h <;> exact .inl h
  | claim i outcome =>
    simp only [perform] at h
    split at h <;> exact .inl h
  | merge i =>
    simp only [perform] at h
    split at h
    · exact .inl h
    · exact .inl ((state.sweep_record _ _).symm.trans h)
  | giveUp =>
    simp only [perform] at h
    split at h
    · split at h
      · cases h
      · exact .inl h
    · exact .inl h
  | sweep =>
    simp only [perform, advance] at h
    split at h
    · exact .inl h
    · next i hsweep =>
      split at h
      · split at h <;> cases h
      · next hend =>
        cases h
        exact .inr ⟨rfl, rfl, i, hsweep, Nat.le_of_not_lt hend⟩
    · cases h
    · exact .inl h

/-- A run that has `returned` did so when its sweep had asked for all workers. -/
theorem exists_end {steps : List (Step σ)} {result : Except Pool.Failure Tally}
    (hwaiting : state.sweep = .waiting) (h : (state.after steps).sweep = .returned result) :
    ∃ front rest i, steps = front ++ .sweep :: rest ∧ result = (state.after front).pool.totals ∧
      (state.after front).sweep = .claiming i ∧
      (state.after front).pool.workers.length ≤ i := by
  -- The run returned with the last step, or it had returned before that.
  induction steps using List.reverseRecOn with
  | nil =>
    rw [after_nil, hwaiting] at h
    cases h
  | append_singleton steps step ih =>
    rw [after_append, after_cons, after_nil] at h
    rcases returned_of_perform h with hbefore | ⟨rfl, hresult, i, hsweep, hle⟩
    · obtain ⟨front, rest, i, rfl, hend⟩ := ih hbefore
      exact ⟨front, rest ++ [step], i, by rw [List.append_assoc, List.cons_append], hend⟩
    · exact ⟨steps, [], i, rfl, hresult, hsweep, hle⟩

/-- When the sweep is at its end, those that are not `merged` are those whose report is still
`held`. -/
theorem Sound.mem_merged_iff (h : Sound jobs first state) (hsweep : state.sweep = .claiming i)
    (hend : state.pool.workers.length ≤ i) (j : Nat) :
    j ∈ state.merged ↔ j < jobs.length ∧ state.held j = none := by
  have hclaims := h.claims_of_claiming hsweep j
  rw [← List.count_pos_iff]
  constructor
  · intro hmerged
    have hclaimed : state.pool.claims j ≠ 0 := by omega
    obtain ⟨worker, hat⟩ := Pool.exists_of_claims_ne_zero hclaimed
    obtain ⟨hlt, -⟩ := List.getElem?_eq_some_iff.mp hat
    have hone := state.pool.claims_le_one j
    refine ⟨h.length_eq ▸ hlt, ?_⟩
    cases hheld : state.held j with
    | none => rfl
    | some outcome =>
      rw [hheld, Option.isSome_some, Bool.toNat_true] at hclaims
      omega
  · rintro ⟨hlt, hnone⟩
    have hplace : j < i := Nat.lt_of_lt_of_le (h.length_eq.symm ▸ hlt) hend
    have hone := h.claims_of_lt hsweep hlt hplace
    rw [hnone, Option.isSome_none, Bool.toNat_false, hone] at hclaims
    omega

/-- What the returned totals are worth, in every order of `steps`. No worker is `merged` twice, and
the `tally` is that of the accounts on the `log`, each of which is the account of a job. If totals
are returned, they are the tally of `swept`, the state at the end of the sweep. They are without the
workers whose report was `held` there, between the two steps of `claim` and `record`, and without no
others. So they are the totals of every job once exactly if nothing was `held`. -/
theorem returned_totals (policy : Pool.Policy) (first : Tally) (jobs : List Job)
    (steps : List (Step σ)) :
    let start : Handover σ := start policy first jobs
    let last := start.after steps
    last.merged.Nodup ∧
      (∀ entry ∈ last.log, ∃ job, jobs[entry.1]? = some job ∧
        entry.2.workerId = job.workerId ∧ entry.2.scenario = job.spec.name) ∧
      last.pool.tally = (last.log.map Prod.snd).foldl Tally.merge first ∧
      ∀ stats, last.sweep = .returned (.ok stats) →
        ∃ front rest, steps = front ++ .sweep :: rest ∧
          let swept := start.after front
          stats = { (swept.log.map Prod.snd).foldl Tally.merge first with
            elapsed := .ofMillis swept.pool.clock.now } ∧
          (∀ i, i ∈ swept.merged ↔ i < jobs.length ∧ swept.held i = none) ∧
          (swept.merged.Perm (List.range jobs.length) ↔
            ∀ i, i < jobs.length → swept.held i = none) := by
  intro start last
  have hsound (steps : List (Step σ)) : Sound jobs first (start.after steps) :=
    sound_after (sound_start policy first jobs) steps
  refine ⟨(hsound steps).nodup, (hsound steps).named, (hsound steps).tally, ?_⟩
  intro stats hreturned
  obtain ⟨front, rest, i, rfl, htotals, hsweep, hend⟩ := exists_end rfl hreturned
  have hmerged := (hsound front).mem_merged_iff hsweep hend
  refine ⟨front, rest, rfl, ?_, hmerged, ?_⟩
  · rw [Pool.totals] at htotals
    split at htotals
    · cases htotals
    · cases htotals
      rw [(hsound front).tally]
  · rw [List.perm_ext_iff_of_nodup (hsound front).nodup List.nodup_range]
    constructor
    · intro hall i hlt
      exact ((hmerged i).mp ((hall i).mpr (List.mem_range.mpr hlt))).2
    · intro hnobody i
      rw [hmerged, List.mem_range]
      exact ⟨fun hboth => hboth.1, fun hlt => ⟨hlt, hnobody i hlt⟩⟩

/-- One worker with one event. -/
def lateJobs : List Job :=
  [⟨0, ⟨"burst", .burst, .stream, 1, .single 100, .load, 7, .zero, 0⟩,
    ⟨"receiver:7000", "receiver:7001", .ofMillis 50, .ofMillis 50, .zero⟩⟩]

/-- The worker has sent its event when the time comes at which the pool stops waiting. It claims its
report just before `Step.giveUp`, and merges it just after the sweep. -/
def lateSteps : List (Step Recorder) :=
  let surroundings : Surroundings Recorder := ⟨fun _ => ⟨0, .ok (.new .stream none)⟩, fun _ => 0⟩
  let working : Pool.Course Recorder := (Pool.Course.launch ⟨1, 100, 50⟩ .zero lateJobs).after
    [.wake surroundings 0, .wake surroundings 0, .wake surroundings 0, .pass 150]
  [.work working.pool, .claim 0 .completed, .giveUp, .sweep, .sweep, .merge 0]

/-- For `lateJobs` and `lateSteps`, the run returns totals without the only worker that there is. -/
theorem late_worker_missing :
    let last := (start ⟨1, 100, 50⟩ .zero lateJobs).after lateSteps
    Pool.firstInvalid? lateJobs = none ∧
      last.sweep = .returned (.ok ⟨0, 0, 0, 0, .ofMillis 150, .zero, []⟩) ∧
      last.pool.tally = ⟨1, 1, 1, 0, .ofMillis 150, ⟨1, 0, 0, 0⟩, [("burst", ⟨1, 1, 1, 0⟩)]⟩ ∧
      last.log = [(0, ⟨0, "burst", 1, 1, 0, .ofMillis 150, .completed⟩)] := by
  decide +kernel

end Handover

/-! ## Reports in one step -/

namespace Pool

variable {pool later : Pool σ} {i : Nat}

/-- An entry of a worker that keeps its `job`, and is `claimed` or not as before, leaves the pool
`Apart` from reports. -/
theorem apart_of_set {worker : Worker σ} (next : Worker σ)
    (hat : pool.workers[i]? = some worker) (hworkers : later.workers = pool.workers.set i next)
    (htally : later.tally = pool.tally) (hjob : next.job = worker.job)
    (hflag : next.progress.claimed = worker.progress.claimed) : pool.Apart later := by
  refine ⟨?_, ?_, htally⟩
  · rw [hworkers]
    exact map_set_of_eq Worker.job hat hjob
  · rw [hworkers]
    exact map_set_of_eq (fun worker => worker.progress.claimed) hat hflag

end Pool

namespace Handover

/-- A `Pool.Course` as a state in which no report is `held`. -/
def ofCourse (course : Pool.Course σ) (log : List (Nat × WorkerResult)) : Handover σ :=
  ⟨course.pool, .ofReturned course.returned, fun _ => none, log⟩

variable {course : Pool.Course σ} {log : List (Nat × WorkerResult)} {i : Nat}

/-- What leaves the pool `Apart` from reports is one step, `Step.work`. -/
theorem after_apart {next : Pool σ} (hapart : course.pool.Apart next) :
    (ofCourse course log).after [.work next] = ofCourse { course with pool := next } log :=
  if_pos hapart

/-- If nobody comes between the two steps of a report, they come to what `Pool.report` does at once.
-/
theorem after_report (log : List (Nat × WorkerResult)) {worker : Worker σ} (next : Worker σ)
    (outcome : Outcome) (hat : course.pool.workers[i]? = some worker)
    (hjob : next.job = worker.job) (hflag : next.progress.claimed = worker.progress.claimed) :
    ∃ steps log', (ofCourse course log).after steps =
      ofCourse { course with pool := course.pool.report i next outcome } log' := by
  have hapart : course.pool.Apart (course.pool.put i next) :=
    Pool.apart_of_set next hat rfl rfl hjob hflag
  obtain ⟨hlt, -⟩ := List.getElem?_eq_some_iff.mp hat
  have hput : (course.pool.put i next).workers[i]? = some next := List.getElem?_set_self hlt
  suffices hsteps : ∃ log', (ofCourse { course with pool := course.pool.put i next } log).after
      [.claim i outcome, .merge i] =
        ofCourse { course with pool := course.pool.report i next outcome } log' by
    obtain ⟨log', hsteps⟩ := hsteps
    refine ⟨[.work (course.pool.put i next)] ++ [.claim i outcome, .merge i], log', ?_⟩
    rw [after_append, after_apart hapart, hsteps]
  simp only [after_cons, after_nil, perform, ofCourse]
  cases hclaimed : next.progress.claimed with
  | true =>
    -- Somebody has reported the worker before.
    rw [Pool.claim_of_claimed hput hclaimed]
    refine ⟨log, ?_⟩
    simp only [Pool.report, Progress.claim, hclaimed, Bool.not_true]
  | false =>
    rw [Pool.claim_of_free hput hclaimed]
    let claimed : Worker σ := { next with progress := next.progress.claim.2 }
    have hagain : ((course.pool.put i next).put i claimed).workers[i]? = some claimed := by
      rw [Pool.put, List.getElem?_set_self]
      rwa [Pool.put, List.length_set]
    have hempty : Function.update (Function.update (fun _ => none) i (some outcome)) i none =
        fun _ => (none : Option Outcome) := by
      rw [Function.update_idem]
      exact Function.update_eq_self i _
    refine ⟨log ++ [(i, claimed.result course.pool.clock.now outcome)], ?_⟩
    simp only [Function.update_self, record, hempty]
    rw [hagain]
    simp only [Pool.report, Progress.claim, hclaimed, Bool.not_false, Pool.put, List.set_set]
    rfl

/-- A sweep into which nobody comes makes the reports of `Pool.sweep`, and returns its
`Pool.totals`. -/
theorem after_sweep (pool : Pool σ) (log : List (Nat × WorkerResult)) :
    ∃ n log', after (List.replicate n .sweep) ⟨pool, .claiming 0, fun _ => none, log⟩ =
      ofCourse ⟨pool.sweep, some pool.sweep.totals⟩ log' := by
  -- Each report is one step or two, so the number of steps is part of what is carried along.
  have hwalk := Pool.sweep_induction
    (fun k swept => swept.workers.length = pool.workers.length ∧
      ∃ n log', after (List.replicate n .sweep) ⟨pool, .claiming 0, fun _ => none, log⟩ =
        ⟨swept, .claiming (min k pool.workers.length), fun _ => none, log'⟩)
    pool ⟨rfl, 0, log, by rw [Nat.zero_min]; rfl⟩ ?_ ?_
  · obtain ⟨hlength, n, log', hafter⟩ := hwalk
    refine ⟨n + 1, log', ?_⟩
    rw [List.replicate_succ', after_append, hafter]
    simp only [after_cons, after_nil, perform, advance, Nat.min_self, hlength, Nat.lt_irrefl,
      if_false]
    rfl
  · rintro k swept worker ⟨hlength, n, log', hafter⟩ hat
    obtain ⟨hlt, -⟩ := List.getElem?_eq_some_iff.mp hat
    have hfiled := Pool.filed_report worker .abandoned hat
    have hmin : min k pool.workers.length = k := by omega
    have hnext : min (k + 1) pool.workers.length = k + 1 := by omega
    rw [hmin] at hafter
    rw [hnext]
    refine ⟨by rw [hfiled.workers, List.length_set, hlength], ?_⟩
    cases hclaimed : worker.progress.claimed with
    | true =>
      refine ⟨n + 1, log', ?_⟩
      rw [List.replicate_succ', after_append, hafter,
        Pool.report_of_claimed .abandoned hat hclaimed]
      simp only [after_cons, after_nil, perform, advance, if_pos hlt,
        Pool.claim_of_claimed hat hclaimed]
    | false =>
      let claimed : Worker σ := { worker with progress := worker.progress.claim.2 }
      have hput : (swept.put k claimed).workers[k]? = some claimed := List.getElem?_set_self hlt
      refine ⟨n + 2, log' ++ [(k, claimed.result swept.clock.now .abandoned)], ?_⟩
      rw [List.replicate_succ', List.replicate_succ', List.append_assoc, after_append, hafter]
      simp only [List.cons_append, List.nil_append, after_cons, after_nil, perform, advance,
        if_pos hlt, Pool.claim_of_free hat hclaimed, record]
      rw [hput]
      simp only [Pool.report, Progress.claim, hclaimed, Bool.not_false]
      rfl
  · rintro k swept ⟨hlength, n, log', hafter⟩ hnone
    have hle := List.getElem?_eq_none_iff.mp hnone
    have hmin : min (k + 1) pool.workers.length = min k pool.workers.length := by
      omega
    rw [hmin]
    exact ⟨hlength, n, log', hafter⟩

variable [Sink σ]

/-- A `Pool.wake` has two steps for the report that it may make, and one for everything else. -/
theorem exists_after_wake (surroundings : Surroundings σ) (i : Nat)
    (hbooks : ∀ worker ∈ course.pool.workers, worker.Books) :
    ∃ steps log', (ofCourse course log).after steps =
      ofCourse (course.perform (.wake surroundings i)) log' := by
  simp only [Pool.Course.perform]
  rcases course.pool.wake_cases surroundings i with
    hsame | ⟨worker, hat, hstage, henter⟩ | ⟨worker, move, hat, hwake, hmove⟩
  · rw [hsame]
    exact ⟨[], log, rfl⟩
  · rw [henter, Pool.enter]
    split
    · exact ⟨[], log, rfl⟩
    split
    · exact after_report log { worker with stage := .gone none } .abandoned hat rfl rfl
    · let entered : Worker σ :=
        { worker with
          progress := worker.progress.start course.pool.clock.now
          stage := .connecting course.pool.clock.now }
      refine ⟨_, log, after_apart ?_⟩
      exact Pool.apart_of_set entered hat rfl rfl rfl rfl
  · have hkeeps := Worker.keeps_of_wake hwake (hbooks worker (List.mem_of_getElem? hat))
    rw [hmove]
    cases move with
    | leaves next outcome =>
      obtain ⟨steps, log', hafter⟩ :=
        after_report log next outcome hat hkeeps.job hkeeps.claimed
      -- The worker frees its place when it has been reported.
      refine ⟨steps ++ [.work (course.pool.report i next outcome).release], log', ?_⟩
      rw [after_append, hafter]
      exact after_apart ⟨rfl, rfl, rfl⟩
    | waits next | aborts next cause | dies next =>
      refine ⟨_, log, after_apart ?_⟩
      exact Pool.apart_of_set next hat rfl rfl hkeeps.job hkeeps.claimed

/-- Every `Pool.Action` of a run is made of these steps. -/
theorem exists_after_perform (log : List (Nat × WorkerResult)) (action : Pool.Action σ)
    (hbooks : ∀ worker ∈ course.pool.workers, worker.Books) :
    ∃ steps log', (ofCourse course log).after steps = ofCourse (course.perform action) log' := by
  cases action with
  | pass moment => exact ⟨_, log, after_apart ⟨rfl, rfl, rfl⟩⟩
  | raise => exact ⟨_, log, after_apart ⟨rfl, rfl, rfl⟩⟩
  | wake surroundings i => exact exists_after_wake surroundings i hbooks
  | finish =>
    obtain ⟨pool, returned⟩ := course
    cases returned with
    | some result => exact ⟨[], log, rfl⟩
    | none =>
      simp only [Pool.Course.perform]
      split
      · next hend =>
        obtain ⟨n, log', hafter⟩ := after_sweep pool log
        refine ⟨.giveUp :: List.replicate n .sweep, log', ?_⟩
        -- Nobody has anything in hand, so the sweep begins exactly if the run may end.
        have hover : isOver (ofCourse ⟨pool, none⟩ log) = pool.isOver := by
          have hnobody : ((List.range pool.workers.length).all fun _ => true) = true :=
            List.all_eq_true.mpr fun _ _ => rfl
          exact (congrArg (pool.isOver && ·) hnobody).trans (Bool.and_true _)
        have hgiveUp : (ofCourse ⟨pool, none⟩ log).perform .giveUp =
            ⟨pool, .claiming 0, fun _ => none, log⟩ := by
          simp only [perform, hover]
          exact if_pos hend
        rw [after_cons, hgiveUp, hafter]
      · exact ⟨[], log, rfl⟩

/-- Every history of a `Pool.Course` is a history of these steps: one in which nobody comes between
the two steps of a report, or between the steps of the sweep. -/
theorem exists_after_of_course (policy : Pool.Policy) (first : Tally) {jobs : List Job}
    (hvalid : Pool.firstInvalid? jobs = none) (actions : List (Pool.Action σ)) :
    ∃ steps log, (start policy first jobs).after steps =
      ofCourse ((Pool.Course.launch policy first jobs).after actions) log := by
  induction actions using List.reverseRecOn with
  | nil =>
    refine ⟨[], [], ?_⟩
    rw [Pool.Course.launch, hvalid]
    rfl
  | append_singleton actions action ih =>
    obtain ⟨steps, log, hafter⟩ := ih
    have hreaches := Pool.Course.reaches_after actions (Pool.Course.launch policy first jobs)
    have hbooks := (Pool.Course.kept_of_reaches policy first jobs hreaches).elim
      Pool.Kept.books Pool.Kept.books
    obtain ⟨more, log', hmore⟩ := exists_after_perform log action hbooks
    refine ⟨steps ++ more, log', ?_⟩
    rw [after_append, hafter, hmore, Pool.Course.after_append]
    rfl

end Handover

end Volley
