import Mathlib.Data.List.Forall2
import Mathlib.Logic.Function.Basic
import Volley.Proofs.Pool.Books
import Volley.Proofs.Pool.Course

/-!
# The reports of a pool

Two parties can report a worker: the worker itself when it leaves, and the pool when it gives up
waiting. Whatever the order of their steps, the first to come adds the account of the worker to the
tally, and the other adds nothing. This module keeps the reports of a pool in a ledger, line by line
in the order in which they were merged, and follows it through the steps of the workers and through
the sweep.

## Main definitions

* `Pool.Touches`: what the step of one worker can change in what a run reports.
* `Pool.Ledger`, `Pool.Kept`: the reports so far, and that there is such a list of them.
* `Pool.AllReported`: nobody is left to be reported.

## Main results

* `Pool.touches_wake`: a worker that wakes touches nothing but its own entry, and the tally only if
  it is the first to be reported.
* `Pool.Kept.touches`: each step keeps the ledger.
* `Pool.Kept.sweep`: after the sweep everybody has been reported.
* `Pool.Kept.exists_results`: then there is one account of every job.
-/

namespace Volley.Pool

variable {σ : Type}

/-- A worker in the list after `set` is the new one, or stood in its place before. -/
theorem cases_of_set {workers : List (Worker σ)} {i j : Nat} {next worker : Worker σ}
    (h : (workers.set i next)[j]? = some worker) :
    i = j ∧ worker = next ∨ i ≠ j ∧ workers[j]? = some worker := by
  rw [List.getElem?_set] at h
  split at h
  · next heq =>
    split at h
    · exact .inl ⟨heq, (Option.some.inj h).symm⟩
    · cases h
  · next hne => exact .inr ⟨hne, h⟩

/-! ## What one worker touches -/

/-- What the step of the worker at place `i` can change in what a run reports. -/
inductive Touches (i : Nat) (pool later : Pool σ) : Prop where
  | nothing (hworkers : later.workers = pool.workers) (htally : later.tally = pool.tally)
  /-- It goes on, and has or has not been reported as before. -/
  | entry {worker next : Worker σ} (hworkers : later.workers = pool.workers.set i next)
      (htally : later.tally = pool.tally) (hat : pool.workers[i]? = some worker)
      (hjob : next.job = worker.job) (hclaimed : next.progress.claimed = worker.progress.claimed)
      (hbooks : next.Books)
  /-- It is reported, which nobody has done before. -/
  | report {worker next : Worker σ} {result : WorkerResult}
      (hworkers : later.workers = pool.workers.set i next)
      (htally : later.tally = pool.tally.merge result) (hat : pool.workers[i]? = some worker)
      (hjob : next.job = worker.job) (hfree : worker.progress.claimed = false)
      (hclaimed : next.progress.claimed = true) (hbooks : next.Books)
      (hsettles : result.Settles next.job)

/-- The `workers` and the `tally` are all that `Touches` looks at. -/
theorem Touches.congr {i : Nat} {pool later other : Pool σ} (h : Touches i pool later)
    (hworkers : other.workers = later.workers) (htally : other.tally = later.tally) :
    Touches i pool other := by
  cases h with
  | nothing hw ht => exact .nothing (hworkers.trans hw) (htally.trans ht)
  | entry hw ht hat hjob hclaimed hbooks =>
    exact .entry (hworkers.trans hw) (htally.trans ht) hat hjob hclaimed hbooks
  | report hw ht hat hjob hfree hclaimed hbooks hsettles =>
    exact .report (hworkers.trans hw) (htally.trans ht) hat hjob hfree hclaimed hbooks hsettles

/-- A `report` adds to the `tally` unless the worker was `claimed` before. -/
theorem touches_report {pool : Pool σ} {i : Nat} {worker next : Worker σ} {outcome : Outcome}
    (hat : pool.workers[i]? = some worker) (hjob : next.job = worker.job)
    (hclaimed : next.progress.claimed = worker.progress.claimed) (hbooks : next.Books)
    (hsettles : ∀ now, (next.result now outcome).Settles next.job) :
    Touches i pool (pool.report i next outcome) := by
  unfold report Progress.claim
  cases hfree : next.progress.claimed with
  | false =>
    exact .report rfl rfl hat hjob (hclaimed ▸ hfree) rfl hbooks.claim (hsettles pool.clock.now)
  | true => exact .entry rfl rfl hat hjob hclaimed hbooks

/-- After its `report` a worker is `claimed`. -/
theorem claimed_report {pool : Pool σ} {i : Nat} {worker later : Worker σ} {outcome : Outcome}
    (hat : (pool.report i worker outcome).workers[i]? = some later) :
    later.progress.claimed = true := by
  unfold report Progress.claim at hat
  cases hclaimed : worker.progress.claimed with
  | false =>
    rw [hclaimed] at hat
    rcases cases_of_set hat with ⟨-, rfl⟩ | ⟨hne, -⟩
    · rfl
    · exact absurd rfl hne
  | true =>
    rw [hclaimed] at hat
    rcases cases_of_set hat with ⟨-, rfl⟩ | ⟨hne, -⟩
    · exact hclaimed
    · exact absurd rfl hne

/-- A worker that is let `enter` touches nothing but its own entry. -/
theorem touches_enter {pool : Pool σ} {i : Nat} {worker : Worker σ}
    (hat : pool.workers[i]? = some worker) (hbooks : worker.Books)
    (hstage : worker.stage = .queued) : Touches i pool (pool.enter i worker) := by
  unfold enter
  split
  · exact .nothing rfl rfl
  · obtain ⟨remaining, hbalanced, hleaves⟩ := hbooks
    rw [hstage] at hbalanced hleaves
    split
    · -- The signal came first, and nothing has been counted.
      have hgone : ({ worker with stage := .gone none } : Worker σ).Books :=
        ⟨remaining, hbalanced, trivial⟩
      exact touches_report hat rfl rfl hgone hgone.settles_of_abandoned
    · refine .entry rfl rfl hat rfl rfl ?_
      exact ⟨remaining, ⟨hbalanced.planned, hbalanced.answered⟩, hleaves⟩

/-- A move that `Keeps` the books of its worker touches its entry, and the `tally` if it is
reported. -/
theorem touches_apply {pool : Pool σ} {i : Nat} {worker : Worker σ} {move : Move σ}
    (hat : pool.workers[i]? = some worker) (h : move.Keeps worker) :
    Touches i pool (pool.apply i move) := by
  cases move with
  | waits next => exact .entry rfl rfl hat h.job h.claimed h.books
  | leaves next outcome =>
    -- The place that it frees is not part of what is reported.
    have hreport := touches_report hat h.job h.claimed h.books (h.settles outcome rfl)
    exact hreport.congr rfl rfl
  | aborts next cause => exact .entry rfl rfl hat h.job h.claimed h.books
  | dies next => exact .entry rfl rfl hat h.job h.claimed h.books

/-- A `wake` touches the entry of its worker, and the `tally` if nobody has reported that worker. -/
theorem touches_wake [Sink σ] (surroundings : Surroundings σ) (i : Nat) {pool : Pool σ}
    (hbooks : ∀ worker ∈ pool.workers, worker.Books) :
    Touches i pool (pool.wake surroundings i) := by
  rcases pool.wake_cases surroundings i with
    hsame | ⟨worker, hat, hstage, henter⟩ | ⟨worker, move, hat, hwake, hmove⟩
  · rw [hsame]
    exact .nothing rfl rfl
  · rw [henter]
    exact touches_enter hat (hbooks worker (List.mem_of_getElem? hat)) hstage
  · rw [hmove]
    have hkeeps := Worker.keeps_of_wake hwake (hbooks worker (List.mem_of_getElem? hat))
    exact touches_apply hat hkeeps

/-- The workers at all other places stay as they are. -/
theorem Touches.getElem?_of_ne {i j : Nat} {pool later : Pool σ} (h : Touches i pool later)
    (hne : i ≠ j) : later.workers[j]? = pool.workers[j]? := by
  cases h with
  | nothing hworkers => rw [hworkers]
  | entry hworkers => rw [hworkers, List.getElem?_set_ne hne]
  | report hworkers => rw [hworkers, List.getElem?_set_ne hne]

theorem Touches.length_eq {i : Nat} {pool later : Pool σ} (h : Touches i pool later) :
    later.workers.length = pool.workers.length := by
  cases h with
  | nothing hworkers => rw [hworkers]
  | entry hworkers => rw [hworkers, List.length_set]
  | report hworkers => rw [hworkers, List.length_set]

/-- Every worker of a pool is `claimed`. -/
def AllReported (pool : Pool σ) : Prop :=
  ∀ worker ∈ pool.workers, worker.progress.claimed = true

/-- Once `AllReported`, nothing is added to the `tally` any more. -/
theorem AllReported.touches {i : Nat} {pool later : Pool σ} (hall : pool.AllReported)
    (h : Touches i pool later) : later.AllReported ∧ later.tally = pool.tally := by
  cases h with
  | nothing hworkers htally =>
    refine ⟨?_, htally⟩
    intro worker hworker
    rw [hworkers] at hworker
    exact hall worker hworker
  | @entry worker next hworkers htally hat hjob hclaimed hbooks =>
    refine ⟨?_, htally⟩
    intro other hother
    rw [hworkers] at hother
    rcases List.mem_or_eq_of_mem_set hother with hbefore | heq
    · exact hall other hbefore
    · rw [heq, hclaimed]
      exact hall worker (List.mem_of_getElem? hat)
  | @report worker next result hworkers htally hat hjob hfree =>
    -- There is nobody left who could be reported.
    have hclaimed := hall worker (List.mem_of_getElem? hat)
    rw [hfree] at hclaimed
    cases hclaimed

/-- A `report` of a worker that is `claimed` changes nothing. -/
theorem report_of_claimed {i : Nat} {pool : Pool σ} {worker : Worker σ} (outcome : Outcome)
    (hat : pool.workers[i]? = some worker) (hclaimed : worker.progress.claimed = true) :
    pool.report i worker outcome = pool := by
  obtain ⟨hlt, rfl⟩ := List.getElem?_eq_some_iff.mp hat
  rw [report, Progress.claim, hclaimed]
  simp only [Bool.not_true, put, List.set_getElem_self]

/-- Once `AllReported`, the `sweep` finds nothing to do. -/
theorem AllReported.sweep_eq {pool : Pool σ} (hall : pool.AllReported) : pool.sweep = pool := by
  refine sweep_induction (fun _ swept => swept = pool) pool rfl ?_ ?_
  · rintro i swept worker rfl hat
    exact report_of_claimed _ hat (hall worker (List.mem_of_getElem? hat))
  · rintro i swept rfl -
    rfl

/-! ## The ledger -/

/-- The entry of the worker at place `i`: it works on its job, keeps its books, and has been
reported if its place is in `order`. -/
structure Entry (jobs : List Job) (order : List Nat) (i : Nat) (worker : Worker σ) : Prop where
  job : jobs[i]? = some worker.job
  books : worker.Books
  claimed : worker.progress.claimed = true ↔ i ∈ order

/-- The reports of a pool so far. `order` has the places of the workers that have been reported, in
the order in which their accounts were merged into `first`. -/
structure Ledger (jobs : List Job) (first : Tally) (pool : Pool σ) (order : List Nat)
    (account : Nat → WorkerResult) : Prop where
  length_eq : pool.workers.length = jobs.length
  entries : ∀ i (worker : Worker σ), pool.workers[i]? = some worker → Entry jobs order i worker
  nodup : order.Nodup
  settles : ∀ i ∈ order, ∃ job, jobs[i]? = some job ∧ (account i).Settles job
  tally : pool.tally = (order.map account).foldl Tally.merge first

/-- The reports of a pool are those of some `Ledger`. -/
def Kept (jobs : List Job) (first : Tally) (pool : Pool σ) : Prop :=
  ∃ order account, Ledger jobs first pool order account

variable {jobs : List Job} {first : Tally} {pool later : Pool σ}

/-- At the start the `Ledger` is empty. -/
theorem kept_start (policy : Policy) (first : Tally) (jobs : List Job) :
    Kept jobs first (start policy first jobs : Pool σ) := by
  -- Nobody has an account yet, so any will do.
  refine ⟨[], fun _ => ⟨0, "", 0, 0, 0, .zero, .abandoned⟩, ?_, ?_, .nil, nofun, rfl⟩
  · exact List.length_map ..
  · intro i worker hat
    obtain ⟨job, hjob, rfl⟩ := Option.map_eq_some_iff.mp (List.getElem?_map .. ▸ hat)
    exact ⟨hjob, Worker.books_new job, nofun, nofun⟩

/-- In a pool that is `Kept` every worker has its `Books` in order. -/
theorem Kept.books (h : Kept jobs first pool) : ∀ worker ∈ pool.workers, worker.Books := by
  obtain ⟨order, account, hledger⟩ := h
  intro worker hworker
  obtain ⟨i, hat⟩ := List.mem_iff_getElem?.mp hworker
  exact (hledger.entries i worker hat).books

/-- A worker that goes on, `claimed` or not as before, leaves the `Ledger` as it is. -/
theorem Ledger.entry {order : List Nat} {account : Nat → WorkerResult} {i : Nat}
    {worker next : Worker σ} (h : Ledger jobs first pool order account)
    (hworkers : later.workers = pool.workers.set i next) (htally : later.tally = pool.tally)
    (hat : pool.workers[i]? = some worker) (hjob : next.job = worker.job)
    (hclaimed : next.progress.claimed = worker.progress.claimed) (hbooks : next.Books) :
    Ledger jobs first later order account := by
  have hentry := h.entries i worker hat
  refine ⟨?_, ?_, h.nodup, h.settles, htally.trans h.tally⟩
  · rw [hworkers, List.length_set]
    exact h.length_eq
  · intro j other hother
    rw [hworkers] at hother
    rcases cases_of_set hother with ⟨rfl, rfl⟩ | ⟨-, hbefore⟩
    · exact ⟨hjob ▸ hentry.job, hbooks, hclaimed ▸ hentry.claimed⟩
    · exact h.entries j other hbefore

/-- A worker that is reported gets the next line of the `Ledger`: its place at the end of `order`,
and its `result` as the account of that place. -/
theorem Ledger.report {order : List Nat} {account : Nat → WorkerResult} {i : Nat}
    {worker next : Worker σ} {result : WorkerResult} (h : Ledger jobs first pool order account)
    (hworkers : later.workers = pool.workers.set i next)
    (htally : later.tally = pool.tally.merge result) (hat : pool.workers[i]? = some worker)
    (hjob : next.job = worker.job) (hfree : worker.progress.claimed = false)
    (hclaimed : next.progress.claimed = true) (hbooks : next.Books)
    (hsettles : result.Settles next.job) :
    Ledger jobs first later (order ++ [i]) (Function.update account i result) := by
  have hentry := h.entries i worker hat
  have hnew : i ∉ order := by
    intro hin
    have hreported := hentry.claimed.mpr hin
    rw [hfree] at hreported
    cases hreported
  -- The accounts that were merged before are those of other workers.
  have hsame : ∀ j ∈ order, Function.update account i result j = account j := by
    intro j hj
    have hne : j ≠ i := ne_of_mem_of_not_mem hj hnew
    exact Function.update_of_ne hne result account
  refine ⟨?_, ?_, ?_, ?_, ?_⟩
  · rw [hworkers, List.length_set]
    exact h.length_eq
  · intro j other hother
    rw [hworkers] at hother
    rcases cases_of_set hother with ⟨rfl, rfl⟩ | ⟨hne, hbefore⟩
    · refine ⟨hjob ▸ hentry.job, hbooks, ?_⟩
      exact ⟨fun _ => List.mem_append_right _ (List.mem_singleton_self i), fun _ => hclaimed⟩
    · obtain ⟨hotherJob, hotherBooks, hotherClaimed⟩ := h.entries j other hbefore
      refine ⟨hotherJob, hotherBooks, ?_⟩
      rw [hotherClaimed, List.mem_append, List.mem_singleton]
      exact ⟨.inl, fun hin => hin.resolve_right (Ne.symm hne)⟩
  · refine List.nodup_append.mpr ⟨h.nodup, List.pairwise_singleton _ i, ?_⟩
    intro j hj k hk
    rw [List.mem_singleton.mp hk]
    exact ne_of_mem_of_not_mem hj hnew
  · intro j hj
    rcases List.mem_append.mp hj with hbefore | hlast
    · rw [hsame j hbefore]
      exact h.settles j hbefore
    · rw [List.mem_singleton.mp hlast, Function.update_self]
      exact ⟨worker.job, hentry.job, hjob ▸ hsettles⟩
  · rw [htally, h.tally, List.map_append, List.map_congr_left hsame, List.map_singleton,
      Function.update_self, List.foldl_append, List.foldl_cons, List.foldl_nil]

/-- What a step `Touches` stays `Kept`. -/
theorem Kept.touches {i : Nat} (h : Kept jobs first pool) (htouches : Touches i pool later) :
    Kept jobs first later := by
  obtain ⟨order, account, hledger⟩ := h
  cases htouches with
  | nothing hworkers htally =>
    refine ⟨order, account, ?_, ?_, hledger.nodup, hledger.settles, htally.trans hledger.tally⟩
    · rw [hworkers]
      exact hledger.length_eq
    · rw [hworkers]
      exact hledger.entries
  | entry hworkers htally hat hjob hclaimed hbooks =>
    exact ⟨_, _, hledger.entry hworkers htally hat hjob hclaimed hbooks⟩
  | report hworkers htally hat hjob hfree hclaimed hbooks hsettles =>
    exact ⟨_, _, hledger.report hworkers htally hat hjob hfree hclaimed hbooks hsettles⟩

/-- After the `sweep` the pool is `Kept` and `AllReported`. -/
theorem Kept.sweep (h : Kept jobs first pool) :
    Kept jobs first pool.sweep ∧ pool.sweep.AllReported := by
  -- After `k` steps the workers at the first `k` places have been reported.
  have hsweep := sweep_induction
    (fun k swept => Kept jobs first swept ∧ swept.workers.length = pool.workers.length ∧
      ∀ j < k, ∀ worker : Worker σ, swept.workers[j]? = some worker →
        worker.progress.claimed = true)
    pool ⟨h, rfl, by omega⟩ ?_ ?_
  · obtain ⟨hkept, hlength, hclaimed⟩ := hsweep
    refine ⟨hkept, ?_⟩
    intro worker hworker
    obtain ⟨i, hat⟩ := List.mem_iff_getElem?.mp hworker
    obtain ⟨hlt, -⟩ := List.getElem?_eq_some_iff.mp hat
    exact hclaimed i (hlength ▸ hlt) worker hat
  · rintro i swept worker ⟨hkept, hlength, hclaimed⟩ hat
    have hbooks := hkept.books worker (List.mem_of_getElem? hat)
    have htouches : Touches i swept (swept.report i worker .abandoned) :=
      touches_report hat rfl rfl hbooks hbooks.settles_of_abandoned
    refine ⟨hkept.touches htouches, htouches.length_eq.trans hlength, ?_⟩
    intro j hj other hother
    by_cases heq : i = j
    · exact claimed_report (heq ▸ hother)
    · rw [htouches.getElem?_of_ne heq] at hother
      exact hclaimed j (by omega) other hother
  · rintro i swept ⟨hkept, hlength, hclaimed⟩ hnone
    refine ⟨hkept, hlength, ?_⟩
    intro j hj other hother
    by_cases heq : i = j
    · rw [← heq, hnone] at hother
      cases hother
    · exact hclaimed j (by omega) other hother

/-- Once `AllReported`, the `order` of the reports has every place, and none twice. -/
theorem Ledger.order_perm {order : List Nat} {account : Nat → WorkerResult}
    (h : Ledger jobs first pool order account) (hall : pool.AllReported) :
    order.Perm (List.range jobs.length) := by
  refine (List.perm_ext_iff_of_nodup h.nodup List.nodup_range).mpr ?_
  intro i
  rw [List.mem_range]
  refine ⟨?_, ?_⟩
  · intro hin
    obtain ⟨job, hjob, -⟩ := h.settles i hin
    exact (List.getElem?_eq_some_iff.mp hjob).1
  · intro hlt
    obtain ⟨worker, hat⟩ : ∃ worker, pool.workers[i]? = some worker :=
      ⟨_, List.getElem?_eq_getElem (h.length_eq ▸ hlt)⟩
    exact (h.entries i worker hat).claimed.mp (hall worker (List.mem_of_getElem? hat))

/-- Once `AllReported`, there is one account of every job that `Settles` it, and the `tally` is
`first` with these accounts merged in the order in which they came. -/
theorem Kept.exists_results (h : Kept jobs first pool) (hall : pool.AllReported) :
    ∃ results merged : List WorkerResult, List.Forall₂ WorkerResult.Settles results jobs ∧
      merged.Perm results ∧ pool.tally = merged.foldl Tally.merge first := by
  obtain ⟨order, account, hledger⟩ := h
  have hperm := hledger.order_perm hall
  refine ⟨(List.range jobs.length).map account, order.map account, ?_, hperm.map account,
    hledger.tally⟩
  refine List.forall₂_iff_get.mpr ⟨by rw [List.length_map, List.length_range], ?_⟩
  intro i hresult hjob
  obtain ⟨job, hget, hsettles⟩ :=
    hledger.settles i (hperm.mem_iff.mpr (List.mem_range.mpr hjob))
  obtain ⟨hlt, rfl⟩ := List.getElem?_eq_some_iff.mp hget
  simp only [List.get_eq_getElem, List.getElem_map, List.getElem_range]
  exact hsettles

end Volley.Pool
