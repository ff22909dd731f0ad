import Volley.Proofs.Pool.Schedule
import Volley.Proofs.Tally
import Volley.Sink.Recorder

/-!
# Exactly-once merging

When a run returns totals, an account of every job has been merged exactly once, and no event is
missing from the sums: neither those of workers that found nobody, nor those of workers that died or
were given up. What the workers do that the pool has given up changes the tally no more.

## Main definitions

* `Pool.Settlement`: totals that are the sums over one account of every job.
* `Pool.Course.Sound`: a run that has its reports in order, before and after it returns.

## Main results

* `Pool.Course.merged_exactly_once`: the totals of a run that returns, in every order of steps.
* `Pool.run_exists_settlement`: the totals of `Pool.run`.
-/

namespace Volley.Pool

variable {σ : Type} {jobs : List Job} {first : Tally} {pool : Pool σ}

/-! ## Totals -/

/-- Accounts that settle their jobs have no more `attempted` events, all together, than the jobs
have. -/
theorem sum_attempted_le {results : List WorkerResult} {jobs : List Job}
    (h : List.Forall₂ WorkerResult.Settles results jobs) :
    (results.map (·.attempted.toNat)).sum ≤ (jobs.map (·.spec.count.toNat)).sum := by
  induction h with
  | nil => exact Nat.le_refl _
  | cons hsettles _ ih =>
    simp only [List.map_cons, List.sum_cons]
    exact Nat.add_le_add hsettles.attempted_le.1 ih

/-- None of them has more events `sent` and in `errors` than `attempted`. -/
theorem sent_add_errors_le {results : List WorkerResult} {jobs : List Job}
    (h : List.Forall₂ WorkerResult.Settles results jobs) :
    ∀ result ∈ results, result.sent.toNat + result.errors.toNat ≤ result.attempted.toNat := by
  induction h with
  | nil => exact List.forall_mem_nil _
  | cons hsettles _ ih => exact List.forall_mem_cons.mpr ⟨hsettles.attempted_le.2, ih⟩

/-- Totals of a run that has merged an account of every job, and each once. `results` has the
accounts in the order of the jobs, `merged` in the order in which they were merged. -/
structure Settlement (jobs : List Job) (tally stats : Tally)
    (results merged : List WorkerResult) : Prop where
  settles : List.Forall₂ WorkerResult.Settles results jobs
  once : merged.Perm results
  tally_eq : tally = merged.foldl Tally.merge .zero
  /-- The totals are those of the tally, with the time that the run took. -/
  stats_eq : stats = { tally with elapsed := stats.elapsed }
  workers : stats.workers = .ofNat jobs.length
  total : stats.outcomes.total = .ofNat jobs.length
  outcomes : ∀ outcome, stats.outcomes.of outcome =
    .ofNat (results.countP fun result => result.outcome = outcome)
  overall : stats.overall.Exact results
  scenarios : ∀ name,
    (stats.ofScenario name).Exact (results.filter fun result => result.scenario = name)

/-- The totals of a pool that is `Kept` and `AllReported` are a `Settlement` of its jobs, if these
have few enough events for a word to hold their number. -/
theorem Kept.exists_settlement {stats : Tally} (h : Kept jobs .zero pool) (hall : pool.AllReported)
    (hcounts : (jobs.map (·.spec.count.toNat)).sum < 0x10000000000000000)
    (hstats : stats = { pool.tally with elapsed := stats.elapsed }) :
    ∃ results merged, Settlement jobs pool.tally stats results merged := by
  obtain ⟨results, merged, hsettles, hperm, htally⟩ := h.exists_results hall
  -- The results that were merged are those of all jobs in another order, and sums do not see it.
  have hsums : pool.tally.Sums results := by
    rw [htally]
    exact (Tally.sums_foldl merged).perm hperm
  have hlength : results.length = jobs.length := hsettles.length_eq
  have hlt := Nat.lt_of_le_of_lt (sum_attempted_le hsettles) hcounts
  have hle := sent_add_errors_le hsettles
  refine ⟨results, merged, hsettles, hperm, htally, hstats, ?_, ?_, ?_, ?_, ?_⟩
  · rw [hstats, ← hlength]
    exact hsums.overall.workers
  · rw [hstats, ← hlength]
    exact hsums.total
  · intro outcome
    rw [hstats]
    exact hsums.outcomes outcome
  · rw [hstats]
    exact hsums.overall.exact hle hlt
  · intro name
    rw [hstats]
    refine (hsums.scenarios name).exact ?_ (Nat.lt_of_le_of_lt ?_ hlt)
    · intro result hresult
      exact hle result (List.mem_of_mem_filter hresult)
    · exact (List.filter_sublist.map _).sum_le_sum fun _ _ => Nat.zero_le _

/-! ## The whole run -/

namespace Course

variable {course next : Course σ}

/-- A run that is `Kept`. If it has returned totals, they are those of the tally, with another
`elapsed`, and the pool is `AllReported`. If it has failed, there was a cause. -/
inductive Sound (jobs : List Job) (first : Tally) : Course σ → Prop where
  | running {pool : Pool σ} (hkept : Kept jobs first pool) : Sound jobs first ⟨pool, none⟩
  | failed {pool : Pool σ} {cause : Failure}
      (hcause : (firstInvalid? jobs).isSome = true ∨ pool.fault.isSome = true) :
      Sound jobs first ⟨pool, some (.error cause)⟩
  | returned {pool : Pool σ} {stats : Tally} (hkept : Kept jobs first pool)
      (hall : pool.AllReported) (hstats : stats = { pool.tally with elapsed := stats.elapsed }) :
      Sound jobs first ⟨pool, some (.ok stats)⟩

/-- A run is `Sound` when it is launched. -/
theorem sound_launch (policy : Policy) (first : Tally) (jobs : List Job) :
    Sound jobs first (launch policy first jobs : Course σ) := by
  cases hvalid : firstInvalid? jobs with
  | some broken =>
    rw [launch, hvalid]
    exact .failed (.inl (hvalid ▸ rfl))
  | none =>
    rw [launch, hvalid]
    exact .running (kept_start policy first jobs)

/-- The totals that a run that is `Sound` has `returned` are a `Settlement` of its jobs. -/
theorem Sound.exists_settlement {stats : Tally} (h : Sound jobs .zero course)
    (hcounts : (jobs.map (·.spec.count.toNat)).sum < 0x10000000000000000)
    (hstats : course.returned = some (.ok stats)) :
    ∃ results merged, Settlement jobs course.pool.tally stats results merged := by
  cases h with
  | running hkept => cases hstats
  | failed hcause => cases hstats
  | returned hkept hall hsame =>
    cases hstats
    exact hkept.exists_settlement hall hcounts hsame

/-- A run fails only if there is a `firstInvalid?` job, or a `fault`. -/
theorem Sound.exists_cause {cause : Failure} (h : Sound jobs first course)
    (hfailed : course.returned = some (.error cause)) :
    (firstInvalid? jobs).isSome = true ∨ course.pool.fault.isSome = true := by
  cases h with
  | running hkept => cases hfailed
  | failed hcause => exact hcause
  | returned hkept hall hsame => cases hfailed

variable [Sink σ]

/-- Each of the `Moves` of a run `Touches` one worker at most, unless the run returns. -/
theorem Moves.cases (h : Moves course next)
    (hbooks : ∀ worker ∈ course.pool.workers, worker.Books) :
    (next.returned = course.returned ∧ ∃ i, Touches i course.pool next.pool) ∨
      course.returned = none ∧ next = ⟨course.pool.sweep, some course.pool.sweep.totals⟩ := by
  cases h with
  | pass pool returned hle => exact .inl ⟨rfl, 0, .nothing rfl rfl⟩
  | raise pool returned => exact .inl ⟨rfl, 0, .nothing rfl rfl⟩
  | wake pool returned surroundings i => exact .inl ⟨rfl, i, touches_wake surroundings i hbooks⟩
  | finish pool hend => exact .inr ⟨rfl, rfl⟩

/-- A run that is `Sound` is `Sound` after one of its `Moves`. -/
theorem Sound.moves (h : Sound jobs first course) (hmoves : Moves course next) :
    Sound jobs first next := by
  cases h with
  | @running pool hkept =>
    rcases hmoves.cases hkept.books with ⟨hreturned, i, htouches⟩ | ⟨-, rfl⟩
    · obtain ⟨pool, returned⟩ := next
      cases hreturned
      exact .running (hkept.touches htouches)
    · -- The run returns: its totals are read off the tally right after the sweep.
      obtain ⟨hswept, hall⟩ := hkept.sweep
      cases hfault : pool.sweep.fault with
      | some fault =>
        rw [totals, hfault]
        exact .failed (.inr (hfault ▸ rfl))
      | none =>
        rw [totals, hfault]
        exact .returned hswept hall rfl
  | failed hcause =>
    cases hmoves with
    | pass _ _ _ => exact .failed hcause
    | raise _ _ => exact .failed hcause
    | wake _ _ surroundings i => exact .failed (hcause.imp_right fault_wake)
  | returned hkept hall hstats =>
    rcases hmoves.cases hkept.books with ⟨hreturned, i, htouches⟩ | ⟨hnone, -⟩
    · -- A worker that was given up goes on, and finds itself reported.
      obtain ⟨pool, returned⟩ := next
      cases hreturned
      obtain ⟨hstill, htally⟩ := hall.touches htouches
      refine .returned (hkept.touches htouches) hstill ?_
      rw [htally]
      exact hstats
    · cases hnone

/-- Once a run has `returned` totals, no move changes the `tally`. -/
theorem Sound.tally_of_moves {stats : Tally} (h : Sound jobs first course)
    (hstats : course.returned = some (.ok stats)) (hmoves : Moves course next) :
    next.pool.tally = course.pool.tally ∧ next.returned = course.returned := by
  cases h with
  | running hkept => cases hstats
  | failed hcause => cases hstats
  | returned hkept hall hsame =>
    rcases hmoves.cases hkept.books with ⟨hreturned, i, htouches⟩ | ⟨hnone, -⟩
    · exact ⟨(hall.touches htouches).2, hreturned⟩
    · cases hnone

/-- A run that is `Sound` is `Sound` in all that it `Reaches`. -/
theorem Sound.reaches (h : Sound jobs first course) (hreaches : course.Reaches next) :
    Sound jobs first next := by
  induction hreaches with
  | refl => exact h
  | tail _ hmoves ih => exact ih.moves hmoves

/-- Whatever its workers do after a run has `returned` totals, the `tally` stays as it was. -/
theorem Sound.tally_of_reaches {stats : Tally} (h : Sound jobs first course)
    (hstats : course.returned = some (.ok stats)) (hreaches : course.Reaches next) :
    next.pool.tally = course.pool.tally ∧ next.returned = course.returned := by
  induction hreaches with
  | refl => exact ⟨rfl, rfl⟩
  | tail hreaches hmoves ih =>
    obtain ⟨htally, hreturned⟩ := ih
    obtain ⟨htally', hreturned'⟩ :=
      (h.reaches hreaches).tally_of_moves (hreturned.trans hstats) hmoves
    exact ⟨htally'.trans htally, hreturned'.trans hreturned⟩

/-- A run is `Kept` all along, whether it returns totals or not. If a scenario breaks a rule, there
are no workers. -/
theorem kept_of_reaches (policy : Policy) (first : Tally) (jobs : List Job) {later : Course σ}
    (hreaches : (launch policy first jobs).Reaches later) :
    Kept jobs first later.pool ∨ Kept [] first later.pool := by
  have hlaunch : ∃ launched, (launched = jobs ∨ launched = []) ∧
      Kept launched first (launch policy first jobs : Course σ).pool := by
    unfold launch
    split
    · exact ⟨[], .inr rfl, kept_start policy first []⟩
    · exact ⟨jobs, .inl rfl, kept_start policy first jobs⟩
  obtain ⟨launched, hjobs, hkept⟩ := hlaunch
  have hlater : Kept launched first later.pool := by
    induction hreaches with
    | refl => exact hkept
    | tail _ hmoves ih =>
      rcases hmoves.cases ih.books with ⟨-, i, htouches⟩ | ⟨-, rfl⟩
      · exact ih.touches htouches
      · exact ih.sweep.1
  rcases hjobs with rfl | rfl
  · exact .inl hlater
  · exact .inr hlater

/-- In whatever order workers wake, sessions fail and time passes, a run that is launched with the
tally `Tally.zero` can be brought to the point where it has `returned`, and it returns an error only
if there is a `firstInvalid?` job or a `fault`. If it has returned `stats`, they are a `Settlement`
of the jobs: an account of every job has been `merged` exactly once, and every counter is the sum
over these accounts. Nothing that the workers do later changes the `tally`. -/
theorem merged_exactly_once (policy : Policy) {jobs : List Job}
    (hcounts : (jobs.map (·.spec.count.toNat)).sum < 0x10000000000000000) {later : Course σ}
    (hreaches : (launch policy .zero jobs).Reaches later) :
    (∃ last : Course σ, later.Reaches last ∧ last.returned.isSome = true) ∧
      (∀ cause, later.returned = some (.error cause) →
        (firstInvalid? jobs).isSome = true ∨ later.pool.fault.isSome = true) ∧
      ∀ stats, later.returned = some (.ok stats) →
        (∃ results merged, Settlement jobs later.pool.tally stats results merged) ∧
          ∀ next : Course σ, later.Reaches next →
            next.pool.tally = later.pool.tally ∧ next.returned = later.returned := by
  have hsound := (sound_launch policy .zero jobs).reaches hreaches
  refine ⟨later.exists_returned, ?_, ?_⟩
  · intro cause hfailed
    exact hsound.exists_cause hfailed
  · intro stats hstats
    refine ⟨hsound.exists_settlement hcounts hstats, ?_⟩
    intro next hnext
    exact hsound.tally_of_reaches hstats hnext

/-- Three workers of three events each. -/
def sampleJobs : List Job :=
  [0, 1, 2].map fun workerId =>
    ⟨workerId, ⟨"burst", .burst, .stream, 3, .single 100, .load, 7, .zero, 0⟩,
      ⟨"receiver:7000", "receiver:7001", .ofMillis 50, .ofMillis 50, .zero⟩⟩

/-- The stream of worker 0 breaks at its second write, worker 1 is refused, and the session of
worker 2 takes a second to open. -/
def sampleSurroundings : Surroundings Recorder where
  dial job :=
    if job.workerId = 0 then ⟨0, .ok (.new .stream (some 1))⟩
    else if job.workerId = 1 then ⟨0, .error (.connect job.target.stream .connectionRefused)⟩
    else ⟨1000, .ok (.new .stream none)⟩
  timestamps _ := 0

/-- Two places for three workers, and a deadline long before the session of worker 2 is open. When
it is, the `tally` stays what it is. -/
theorem merged_exactly_once_detached :
    ∃ (pool : Pool Recorder) (account : Account) (stats : Tally),
      run ⟨2, 100, 50⟩ sampleSurroundings .zero sampleJobs = (.ok stats, account, pool) ∧
      stats = ⟨3, 6, 1, 5, .ofMillis 150, ⟨0, 1, 1, 1⟩, [("burst", ⟨3, 6, 1, 5⟩)]⟩ ∧
      (∃ results merged, Settlement sampleJobs pool.tally stats results merged) ∧
      (pool.wake sampleSurroundings 2).tally = pool.tally := by
  have hstats : (run ⟨2, 100, 50⟩ sampleSurroundings .zero sampleJobs).1 =
      .ok ⟨3, 6, 1, 5, .ofMillis 150, ⟨0, 1, 1, 1⟩, [("burst", ⟨3, 6, 1, 5⟩)]⟩ := by
    decide +kernel
  have hcounts : (sampleJobs.map (·.spec.count.toNat)).sum < 0x10000000000000000 := by
    decide +kernel
  have hreaches := reaches_run ⟨2, 100, 50⟩ sampleSurroundings .zero sampleJobs
  rcases hrun : run ⟨2, 100, 50⟩ sampleSurroundings .zero sampleJobs with ⟨result, account, pool⟩
  rw [hrun] at hstats hreaches
  obtain rfl := hstats
  obtain ⟨-, -, htotals⟩ := merged_exactly_once _ hcounts hreaches
  obtain ⟨hsettlement, hlater⟩ := htotals _ rfl
  have hwake := hlater _ (.of_moves (.wake pool _ sampleSurroundings 2))
  exact ⟨pool, account, _, rfl, rfl, hsettlement, hwake.1⟩

end Course

/-- The account after `Pool.run` has the `tally` of the pool that the run leaves. -/
theorem tally_run [Sink σ] (policy : Policy) (surroundings : Surroundings σ) (account : Account)
    (jobs : List Job) :
    (run policy surroundings account jobs).2.1.tally =
      (run policy surroundings account jobs).2.2.tally := by
  unfold run
  split <;> rfl

/-- What `merged_exactly_once` says of every order of steps, for the order of `Pool.run`. -/
theorem run_exists_settlement [Sink σ] {policy : Policy} {surroundings : Surroundings σ}
    {peak : Nat} {jobs : List Job} {stats : Tally}
    (hcounts : (jobs.map (·.spec.count.toNat)).sum < 0x10000000000000000)
    (hstats : (run policy surroundings ⟨.zero, peak⟩ jobs).1 = .ok stats) :
    ∃ results merged, Settlement jobs (run policy surroundings ⟨.zero, peak⟩ jobs).2.1.tally stats
      results merged := by
  have hsound := (Course.sound_launch policy .zero jobs).reaches
    (Course.reaches_run policy surroundings ⟨.zero, peak⟩ jobs)
  rw [tally_run]
  exact hsound.exists_settlement hcounts (congrArg some hstats)

end Volley.Pool
