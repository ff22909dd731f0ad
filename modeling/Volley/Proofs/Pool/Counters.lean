import Mathlib.Algebra.Order.BigOperators.Group.List
import Volley.Proofs.Pool.Additions
import Volley.Proofs.Pool.Conservation
import Volley.Proofs.Pool.History
import Volley.Proofs.Settings.EventIds
import Volley.Proofs.Tally.Partition

/-!
# Counters of an accepted run

All counters of a run are words, and nothing looks at them when something is added. That they never
go beyond the end of a word follows from what is checked before the run: the ranges of event ids of
all workers fit into a word, and each is at least as long as the plan of its worker. So all events
that are planned together are no more than a word can count, and neither a worker nor the tally
counts an event twice.

## Main definitions

* `Tally.Room`: there is room in a tally for a result.
* `Pool.Course.Fits`: whatever is added to a counter in an action stays below the end of a word.

## Main results

* `Tally.counters_merge`: what a merge adds to.
* `Pool.Ledger.room`: there is room in the tally for everyone who has not been reported.
* `Settings.Spaced.sum_count_le`: the planned events of an accepted run are at most a word.
* `Pool.Course.counters_fit`: no counter of an accepted run starts over.
-/

namespace Volley

/-! ## Room in a tally -/

/-- There is room in the totals for a `result`: no addition goes beyond `maxWord`. -/
structure ScenarioTotals.Room (totals : ScenarioTotals) (result : WorkerResult) : Prop where
  workers : totals.workers.toNat + 1 ≤ maxWord
  attempted : totals.attempted.toNat + result.attempted.toNat ≤ maxWord
  sent : totals.sent.toNat + result.sent.toNat ≤ maxWord
  errors : totals.errors.toNat + result.errors.toNat ≤ maxWord

/-- There is room in a tally for a `result`: in `overall`, in the number of workers with this
`outcome`, and in the totals of its `scenario`. -/
structure Tally.Room (tally : Tally) (result : WorkerResult) : Prop where
  overall : tally.overall.Room result
  outcome : (tally.outcomes.of result.outcome).toNat + 1 ≤ maxWord
  scenario : (tally.ofScenario result.scenario).Room result

/-- To `merge` a result adds to the counters in which `Tally.Room` looks for room, and to no others.
-/
theorem Tally.counters_merge {tally : Tally}
    (h : (tally.perScenario.map Prod.fst).Pairwise (· < ·)) (result : WorkerResult) :
    (tally.merge result).overall = tally.overall.add result ∧
      (∀ outcome, (tally.merge result).outcomes.of outcome =
        if result.outcome = outcome then tally.outcomes.of outcome + 1
        else tally.outcomes.of outcome) ∧
      ∀ name, (tally.merge result).ofScenario name =
        if result.scenario = name then (tally.ofScenario name).add result
        else tally.ofScenario name :=
  ⟨rfl, OutcomeCounts.of_record tally.outcomes result.outcome, ofScenario_merge h result⟩

/-- Totals that are `Exact` count the workers as well, if there are no more than `maxWord` results.
-/
theorem ScenarioTotals.Exact.counts {totals : ScenarioTotals} {results : List WorkerResult}
    (h : totals.Exact results) (hlength : results.length ≤ maxWord) : totals.Counts results := by
  refine ⟨?_, h.attempted, h.sent, h.errors⟩
  rw [h.workers, toNat_ofNat_of_le hlength]

/-- Results that fit into a tally together: there are no more than `maxWord` of them, and no more
events `attempted` in all of them. -/
structure Tally.Bounded (results : List WorkerResult) : Prop where
  length : results.length ≤ maxWord
  attempted : (results.map (·.attempted.toNat)).sum ≤ maxWord
  answered : ∀ result ∈ results,
    result.sent.toNat + result.errors.toNat ≤ result.attempted.toNat

/-- Results that are `Bounded` are `Countable`. -/
theorem Tally.Bounded.countable {results : List WorkerResult} (h : Bounded results) :
    Countable results := by
  have hanswered := ScenarioTotals.sum_sent_add_errors_le h.answered
  have hattempted := h.attempted
  exact ⟨h.length, hattempted, by omega, by omega⟩

/-- There is room in the totals for the last of some `Countable` results. -/
theorem Tally.Countable.room {totals : ScenarioTotals} {results : List WorkerResult}
    {result : WorkerResult} (h : Countable (results ++ [result]))
    (hsums : totals.Sums results) : totals.Room result := by
  have hcounts := (h.sublist (List.sublist_append_left results [result])).counts hsums
  obtain ⟨hlength, hattempted, hsent, herrors⟩ := h
  simp only [List.map_append, List.map_cons, List.map_nil, List.sum_append, List.sum_singleton,
    List.length_append, List.length_singleton] at hlength hattempted hsent herrors
  refine ⟨?_, ?_, ?_, ?_⟩
  · rw [hcounts.workers]
    exact hlength
  · rw [hcounts.attempted]
    exact hattempted
  · rw [hcounts.sent]
    exact hsent
  · rw [hcounts.errors]
    exact herrors

/-- There is room in a tally of `results` for one more, if they are `Countable` together. -/
theorem Tally.Sums.room {tally : Tally} {results : List WorkerResult} {result : WorkerResult}
    (h : tally.Sums results) (hcountable : Countable (results ++ [result])) :
    tally.Room result := by
  have hlength := hcountable.length
  rw [List.length_append, List.length_singleton] at hlength
  refine ⟨hcountable.room h.overall, ?_, ?_⟩
  · have hle : (results.countP fun other => other.outcome = result.outcome) ≤ results.length :=
      List.countP_le_length
    rw [h.outcomes, toNat_ofNat_of_le (by omega)]
    omega
  · refine Tally.Countable.room (hcountable.sublist ?_) (h.scenarios result.scenario)
    exact List.filter_sublist.append (List.Sublist.refl _)

/-- The totals of a `Settlement` count all its results. -/
theorem Pool.Settlement.counts {jobs : List Job} {tally stats : Tally}
    {results merged : List WorkerResult} (h : Pool.Settlement jobs tally stats results merged)
    (hlength : jobs.length ≤ maxWord) : stats.Counts results := by
  have hresults : results.length ≤ maxWord := h.settles.length_eq ▸ hlength
  refine ⟨h.overall.counts hresults, ?_, ?_⟩
  · intro outcome
    have hle : (results.countP fun result => result.outcome = outcome) ≤ results.length :=
      List.countP_le_length
    rw [h.outcomes outcome, toNat_ofNat_of_le (Nat.le_trans hle hresults)]
  · intro name
    exact (h.scenarios name).counts (Nat.le_trans List.filter_sublist.length_le hresults)

/-! ## Room for everybody -/

/-- The jobs at distinct `places` have no more events than all jobs. -/
theorem sum_count_le_of_nodup {jobs : List Job} {places : List Nat} (hnodup : places.Nodup)
    (hplaces : ∀ i ∈ places, i < jobs.length) :
    (places.map fun i => (jobs[i]?).elim 0 (·.spec.count.toNat)).sum ≤
      (jobs.map (·.spec.count.toNat)).sum := by
  have hall : (List.range jobs.length).map (fun i => (jobs[i]?).elim 0 (·.spec.count.toNat)) =
      jobs.map (·.spec.count.toNat) := by
    refine List.ext_getElem (by simp only [List.length_map, List.length_range]) ?_
    intro i hrange hjob
    rw [List.length_map] at hjob
    simp only [List.getElem_map, List.getElem_range, List.getElem?_eq_getElem hjob,
      Option.elim_some]
  -- Places without repetition are some of all places, in another order.
  obtain ⟨some, hperm, hsublist⟩ :=
    List.subperm_of_subset hnodup fun i hi => List.mem_range.mpr (hplaces i hi)
  rw [← hall, ← (hperm.map _).sum_eq]
  exact (hsublist.map _).sum_le_sum fun _ _ => Nat.zero_le _

namespace Pool

variable {σ : Type} {jobs : List Job} {pool : Pool σ}

/-- The accounts of a `Ledger` are `Bounded`, if the jobs have no more than `maxWord` events. -/
theorem Ledger.bounded {first : Tally} {order : List Nat} {account : Nat → WorkerResult}
    (h : Ledger jobs first pool order account) (hlength : jobs.length ≤ maxWord)
    (hcounts : (jobs.map (·.spec.count.toNat)).sum ≤ maxWord) :
    Tally.Bounded (order.map account) := by
  have hplaces : ∀ i ∈ order, i < jobs.length := by
    intro i hi
    obtain ⟨job, hjob, -⟩ := h.settles i hi
    exact (List.getElem?_eq_some_iff.mp hjob).1
  refine ⟨?_, ?_, ?_⟩
  · -- Nobody is in the order twice, so there are no more results than jobs.
    have hsubperm : order.Subperm (List.range jobs.length) :=
      List.subperm_of_subset h.nodup fun i hi => List.mem_range.mpr (hplaces i hi)
    have hle := hsubperm.length_le
    rw [List.length_range] at hle
    rw [List.length_map]
    exact Nat.le_trans hle hlength
  · refine Nat.le_trans ?_ (Nat.le_trans (sum_count_le_of_nodup h.nodup hplaces) hcounts)
    rw [List.map_map]
    refine List.sum_le_sum ?_
    intro i hi
    obtain ⟨job, hjob, hsettles⟩ := h.settles i hi
    rw [hjob]
    exact hsettles.attempted_le.1
  · intro result hresult
    obtain ⟨i, hi, rfl⟩ := List.mem_map.mp hresult
    obtain ⟨job, -, hsettles⟩ := h.settles i hi
    exact hsettles.attempted_le.2

/-- There is room in the tally of a `Ledger` for everyone who is not `claimed`. -/
theorem Ledger.room {order : List Nat} {account : Nat → WorkerResult} {i : Nat}
    {worker : Worker σ} {result : WorkerResult} (h : Ledger jobs .zero pool order account)
    (hlength : jobs.length ≤ maxWord)
    (hcounts : (jobs.map (·.spec.count.toNat)).sum ≤ maxWord)
    (hat : pool.workers[i]? = some worker) (hfree : worker.progress.claimed = false)
    (hsettles : result.Settles worker.job) : pool.tally.Room result := by
  have hentry := h.entries i worker hat
  -- What would be in the ledger if the worker were reported fits, and is the tally and the result.
  let later : Pool σ :=
    { pool.put i { worker with progress := worker.progress.claim.2 } with
      tally := pool.tally.merge result }
  have hlater : Ledger jobs .zero later (order ++ [i]) (Function.update account i result) :=
    h.report rfl rfl hat rfl hfree rfl hentry.books.claim hsettles
  have hcountable := (hlater.bounded hlength hcounts).countable
  have hnew : i ∉ order := by
    intro hin
    have hclaimed := hentry.claimed.mpr hin
    rw [hfree] at hclaimed
    cases hclaimed
  have hsame : order.map (Function.update account i result) = order.map account := by
    refine List.map_congr_left fun j hj => ?_
    exact Function.update_of_ne (ne_of_mem_of_not_mem hj hnew) result account
  rw [List.map_append, hsame, List.map_singleton, Function.update_self] at hcountable
  rw [h.tally]
  exact (Tally.sums_foldl (order.map account)).room hcountable

/-- There is room for whatever a worker adds in its turn: for its `additions`, and in the tally for
its `report?`. -/
def TurnFits [Sink σ] (surroundings : Surroundings σ) (i : Nat) (pool : Pool σ) : Prop :=
  ∀ worker, pool.workers[i]? = some worker →
    worker.progress.Fits (worker.additions surroundings pool.clock) ∧
      ∀ move result, worker.Goes surroundings pool.clock move →
        move.report? pool.clock.now = some result → pool.tally.Room result

/-- A pool that has asked for the first `k` of its workers. -/
def sweptTo (pool : Pool σ) (k : Nat) : Pool σ :=
  (List.range k).foldl (fun pool i =>
    match pool.workers[i]? with
    | some worker => pool.report i worker .abandoned
    | none => pool) pool

/-- There is room for whatever is added in a `sweep`, each time that a worker is reported. -/
def SweepFits (pool : Pool σ) : Prop :=
  ∀ k worker, (pool.sweptTo k).workers[k]? = some worker → worker.progress.claimed = false →
    (pool.sweptTo k).tally.Room (worker.result (pool.sweptTo k).clock.now .abandoned)

/-- A `sweep` asks for all of its workers. -/
theorem sweep_eq_sweptTo (pool : Pool σ) : pool.sweep = pool.sweptTo pool.workers.length := rfl

/-- The next step of a `sweep` reports the next worker. -/
theorem sweptTo_succ (pool : Pool σ) (k : Nat) :
    pool.sweptTo (k + 1) = match (pool.sweptTo k).workers[k]? with
      | some worker => (pool.sweptTo k).report k worker .abandoned
      | none => pool.sweptTo k := by
  rw [sweptTo, List.range_succ, List.foldl_append, List.foldl_cons, List.foldl_nil]
  rfl

/-- A pool that is `Kept` stays so all along a `sweep`. -/
theorem Kept.sweptTo {first : Tally} (h : Kept jobs first pool) (k : Nat) :
    Kept jobs first (pool.sweptTo k) := by
  induction k with
  | zero => exact h
  | succ k ih =>
    rw [sweptTo_succ]
    split
    · next worker hat =>
      have hbooks := ih.books worker (List.mem_of_getElem? hat)
      exact ih.touches (touches_report hat rfl rfl hbooks hbooks.settles_of_abandoned)
    · exact ih

section Fits

variable (hlength : jobs.length ≤ maxWord)
  (hcounts : (jobs.map (·.spec.count.toNat)).sum ≤ maxWord)

include hlength hcounts

/-- In a pool that is `Kept`, `TurnFits` holds of whoever wakes. -/
theorem Kept.turnFits [Sink σ] (h : Kept jobs .zero pool) (surroundings : Surroundings σ)
    (i : Nat) : pool.TurnFits surroundings i := by
  intro worker hat
  have hbooks := h.books worker (List.mem_of_getElem? hat)
  refine ⟨Worker.fits_additions surroundings pool.clock hbooks, ?_⟩
  intro move result hgoes hreport
  have hkeeps := hgoes.keeps hbooks
  obtain ⟨hfree, -, hsettles⟩ := hkeeps.of_report? hreport
  rw [move.job_filed, hkeeps.job] at hsettles
  obtain ⟨order, account, hledger⟩ := h
  exact hledger.room hlength hcounts hat hfree hsettles

/-- In a pool that is `Kept`, `SweepFits` holds. -/
theorem Kept.sweepFits (h : Kept jobs .zero pool) : pool.SweepFits := by
  intro k worker hat hfree
  have hkept := h.sweptTo k
  have hbooks := hkept.books worker (List.mem_of_getElem? hat)
  obtain ⟨order, account, hledger⟩ := hkept
  exact hledger.room hlength hcounts hat hfree (hbooks.settles_of_abandoned _)

end Fits

end Pool

/-! ## Accepted runs -/

namespace Settings.Spaced

variable {settings : Settings}

/-- The planned events of all `jobs` of settings that are `Spaced` are no more than `maxWord`. -/
theorem sum_count_le (h : settings.Spaced) (stream datagram : Address) :
    ((settings.jobs stream datagram).map (·.spec.count.toNat)).sum ≤ maxWord := by
  have hbound : ∀ count ∈ (settings.jobs stream datagram).map (·.spec.count.toNat),
      count ≤ settings.idStride.toNat := by
    intro count hcount
    obtain ⟨job, hjob, rfl⟩ := List.mem_map.mp hcount
    obtain ⟨worker, hat⟩ := List.mem_iff_getElem?.mp hjob
    obtain ⟨-, -, hspec⟩ := getElem?_jobs hat
    rw [hspec]
    exact UInt64.le_iff_toNat_le.mp (h.covers worker)
  have hlength : ((settings.jobs stream datagram).map (·.spec.count.toNat)).length =
      settings.workers.toNat := by
    rw [List.length_map, jobs, List.length_map, List.length_range]
  calc ((settings.jobs stream datagram).map (·.spec.count.toNat)).sum
      ≤ settings.workers.toNat * settings.idStride.toNat := by
        rw [← hlength]
        exact List.sum_le_card_nsmul _ _ hbound
    _ = settings.idStride.toNat * settings.workers.toNat := Nat.mul_comm _ _
    _ ≤ maxWord := h.fits

end Settings.Spaced

/-- There are no more `jobs` than `maxWord`. -/
theorem Settings.length_jobs_le (settings : Settings) (stream datagram : Address) :
    (settings.jobs stream datagram).length ≤ maxWord := by
  have hlt := settings.workers.toNat_lt
  rw [jobs, List.length_map, List.length_range]
  unfold maxWord
  omega

namespace Pool.Course

variable {σ : Type} [Sink σ]

/-- There is room for whatever is added to a counter in an action. -/
def Fits (course : Course σ) : Action σ → Prop
  | .pass _ => True
  | .raise => True
  | .wake surroundings i => course.pool.TurnFits surroundings i
  | .finish => course.pool.SweepFits

/-- A statement `P` holds `Along` every history if it holds of every action in all that the run
`Reaches`. -/
theorem along_of_forall {P : Course σ → Action σ → Prop} {course : Course σ}
    (h : ∀ later, course.Reaches later → ∀ action, P later action) (actions : List (Action σ)) :
    Along P actions course := by
  induction actions generalizing course with
  | nil => trivial
  | cons action actions ih =>
    refine ⟨h course (.refl course) action, ih ?_⟩
    intro later hreaches
    exact h later ((course.reaches_perform action).trans hreaches)

/-- In a run that is `Kept`, every action `Fits`. -/
theorem fits_of_kept {jobs : List Job} {course : Course σ} (h : Kept jobs .zero course.pool)
    (hlength : jobs.length ≤ maxWord) (hcounts : (jobs.map (·.spec.count.toNat)).sum ≤ maxWord)
    (action : Action σ) : course.Fits action := by
  cases action with
  | pass moment => trivial
  | raise => trivial
  | wake surroundings i => exact h.turnFits hlength hcounts surroundings i
  | finish => exact h.sweepFits hlength hcounts

/-- In every run of the `jobs` of a `config` that `Settings.ofConfig` accepts, whatever fails, dies
or is late, every action `Fits`: no addition goes beyond `maxWord`, neither to the counters of a
worker, with what it writes off, nor to those of the tally. So the `stats` that are returned are the
true sums over `results`, an account of every job. -/
theorem counters_fit {config : Config} {fallbackSeed : UInt64} {settings : Settings}
    (haccepted : Settings.ofConfig config fallbackSeed = .ok settings)
    (stream datagram : Address) (policy : Policy) (actions : List (Action σ)) :
    let jobs := settings.jobs stream datagram
    let start : Course σ := launch policy .zero jobs
    Along Fits actions start ∧
      ∀ stats, (start.after actions).returned = some (.ok stats) →
        ∃ results, List.Forall₂ WorkerResult.Settles results jobs ∧ stats.Counts results := by
  intro jobs start
  have hlength := settings.length_jobs_le stream datagram
  have hcounts := (Settings.spaced_of_ofConfig haccepted).sum_count_le stream datagram
  refine ⟨along_of_forall ?_ actions, ?_⟩
  · intro later hreaches action
    rcases kept_of_reaches policy .zero jobs hreaches with hkept | hnobody
    · exact fits_of_kept hkept hlength hcounts action
    · exact fits_of_kept hnobody (Nat.zero_le _) (Nat.zero_le _) action
  · intro stats hstats
    have hsound := (sound_launch policy .zero jobs).reaches (reaches_after actions start)
    obtain ⟨results, merged, hsettlement⟩ :=
      hsound.exists_settlement (Nat.lt_succ_of_le hcounts) hstats
    exact ⟨results, hsettlement.settles, hsettlement.counts hlength⟩

/-- Three workers whose planned events are together exactly `maxWord`. -/
def fullConfig : Config where
  workers := 3
  scenario := "burst"
  payloadSizes := "64"
  eventsPerWorker := 6148914691236517205
  idStride := 1

/-- Nobody opens a session, so all events are written off. -/
def fullHistory : List (Action Recorder) :=
  let surroundings : Surroundings Recorder :=
    ⟨fun job => ⟨0, .error (.connect job.target.stream .connectionRefused)⟩, fun _ => 0⟩
  [0, 0, 1, 1, 2, 2].map (Action.wake surroundings) ++ [.finish]

/-- In a run of `fullConfig` where all events are written off, the counters are filled to their
ends. -/
theorem counters_fit_full :
    ∃ (settings : Settings) (stats : Tally),
      Settings.ofConfig fullConfig 7 = .ok settings ∧
      (let start : Course Recorder := launch ⟨3, 100, 50⟩ .zero (settings.jobs "" "")
       Along Fits fullHistory start ∧ (start.after fullHistory).returned = some (.ok stats)) ∧
      stats.attempted.toNat = maxWord ∧ stats.errors.toNat = maxWord ∧
      ∃ results, List.Forall₂ WorkerResult.Settles results (settings.jobs "" "") ∧
        stats.Counts results := by
  obtain ⟨settings, haccepted, hstats⟩ : ∃ settings : Settings,
      Settings.ofConfig fullConfig 7 = .ok settings ∧
        ((launch ⟨3, 100, 50⟩ .zero (settings.jobs "" "") : Course Recorder).after
          fullHistory).returned = some (.ok
            ⟨3, 18446744073709551615, 0, 18446744073709551615, .zero, ⟨0, 0, 3, 0⟩,
              [("burst", ⟨3, 18446744073709551615, 0, 18446744073709551615⟩)]⟩) :=
    ⟨_, rfl, by decide +kernel⟩
  obtain ⟨hfits, htotals⟩ := counters_fit haccepted "" "" ⟨3, 100, 50⟩ fullHistory
  exact ⟨settings, _, haccepted, ⟨hfits, hstats⟩, by decide, by decide, htotals _ hstats⟩

end Pool.Course

end Volley
