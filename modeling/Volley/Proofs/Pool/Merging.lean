import Volley.Proofs.Pool.History

/-!
# The accounts of a history

An account is merged when its worker leaves, or when the run returns and gives its worker up. The
ledger of a run says that every job has one account; here it is seen to be the account that was
merged in the history of the run, and no other was.

## Main definitions

* `Pool.Course.Merges`: in an action the account of a worker is merged.
* `Pool.Course.Recorded`: the ledger of a run has the accounts that have been merged so far.

## Main results

* `Pool.Course.Merges.free`: whoever has been reported has no other account merged.
* `Pool.Course.Merges.unique`: in one action one account of a worker is merged.
* `Pool.Course.Recorded.after`: the ledger of a run has the accounts of its history.
-/

namespace Volley

variable {σ : Type}

/-- After a move that is `filed`, a worker is `claimed` if the move has an `outcome?`, or it was
before. -/
theorem Move.Keeps.claimed_filed {worker : Worker σ} {move : Move σ} (h : move.Keeps worker) :
    move.filed.progress.claimed = (move.outcome?.isSome || worker.progress.claimed) := by
  cases move with
  | leaves next outcome => rfl
  | waits next => exact h.claimed
  | aborts next cause => exact h.claimed
  | dies next => exact h.claimed

variable [Sink σ]

/-- A worker `Goes` in one way only: what it does in its turn is settled by what it finds. -/
theorem Worker.Goes.unique {surroundings : Surroundings σ} {clock : Clock} {worker : Worker σ}
    {move other : Move σ} (h : worker.Goes surroundings clock move)
    (h' : worker.Goes surroundings clock other) : move = other := by
  -- A worker in the queue does not wake by itself.
  have hqueued {found : Move σ} (hstage : worker.stage = .queued)
      (hwake : worker.wake surroundings clock = some found) : False := by
    rw [wake, hstage] at hwake
    cases hwake
  cases h with
  | enters hstage hclock =>
    cases h' with
    | enters _ _ => rfl
    | turnsBack _ hstopped =>
      rw [hclock] at hstopped
      cases hstopped
    | moves hwake => exact (hqueued hstage hwake).elim
  | turnsBack hstage hstopped =>
    cases h' with
    | enters _ hclock =>
      rw [hclock] at hstopped
      cases hstopped
    | turnsBack _ _ => rfl
    | moves hwake => exact (hqueued hstage hwake).elim
  | moves hwake =>
    cases h' with
    | enters hstage _ => exact (hqueued hstage hwake).elim
    | turnsBack hstage _ => exact (hqueued hstage hwake).elim
    | moves hwake' => exact Option.some.inj (hwake.symm.trans hwake')

namespace Pool.Course

/-- In an action the account of the worker at place `i` is merged: it leaves in its turn and has not
been reported before, or it is given up by the run, which returns. -/
inductive Merges (i : Nat) (result : WorkerResult) (course : Course σ) : Action σ → Prop where
  | leaves {surroundings : Surroundings σ} {worker : Worker σ} {move : Move σ}
      (hadvances : Advances surroundings i course.pool (course.pool.wake surroundings i) worker
        move)
      (hreport : move.report? course.pool.clock.now = some result) :
      Merges i result course (.wake surroundings i)
  | givenUp {worker : Worker σ} (hreturned : course.returned = none)
      (hend : course.pool.isOver = true ∨ course.pool.clock.stopped = true)
      (hat : course.pool.workers[i]? = some worker) (hfree : worker.progress.claimed = false)
      (hresult : result = worker.result course.pool.clock.now .abandoned) :
      Merges i result course .finish

variable {jobs : List Job} {first : Tally} {course : Course σ} {action : Action σ} {i : Nat}
  {result : WorkerResult}

namespace Merges

/-- Only a worker that is not `claimed` has an account to be merged. -/
theorem free (h : Merges i result course action) (hkept : Kept jobs first course.pool) :
    ∃ worker, course.pool.workers[i]? = some worker ∧ worker.progress.claimed = false := by
  cases h with
  | @leaves surroundings worker move hadvances hreport =>
    have hat := hadvances.at_place
    have hkeeps := hadvances.goes.keeps (hkept.books worker (List.mem_of_getElem? hat))
    exact ⟨worker, hat, (hkeeps.of_report? hreport).1⟩
  | @givenUp worker _ _ hat hfree _ => exact ⟨worker, hat, hfree⟩

/-- Nothing is merged of a worker that is `claimed`. -/
theorem claimed_eq_false (h : Merges i result course action) (hkept : Kept jobs first course.pool)
    {worker : Worker σ} (hat : course.pool.workers[i]? = some worker) :
    worker.progress.claimed = false := by
  obtain ⟨found, hfound, hfree⟩ := h.free hkept
  rw [hat] at hfound
  cases hfound
  exact hfree

/-- An action merges one `result` of a worker at most. -/
theorem unique {other : WorkerResult} (h : Merges i result course action)
    (h' : Merges i other course action) : other = result := by
  cases h with
  | leaves hadvances hreport =>
    cases h' with
    | leaves hadvances' hreport' =>
      have hsame := hadvances.at_place.symm.trans hadvances'.at_place
      cases hsame
      rw [← hadvances.goes.unique hadvances'.goes, hreport] at hreport'
      exact (Option.some.inj hreport').symm
  | givenUp _ _ hat _ hresult =>
    cases h' with
    | givenUp _ _ hat' _ hresult' =>
      have hsame := hat.symm.trans hat'
      cases hsame
      exact hresult'.trans hresult.symm

/-- A worker whose account an action merges is `claimed` after it. -/
theorem marks (h : Merges i result course action) (hkept : Kept jobs first course.pool) :
    ∃ worker, (course.perform action).pool.workers[i]? = some worker ∧
      worker.progress.claimed = true := by
  obtain ⟨pool, returned⟩ := course
  cases h with
  | @leaves surroundings worker move hadvances hreport =>
    have hat := hadvances.at_place
    have hkeeps := hadvances.goes.keeps (hkept.books worker (List.mem_of_getElem? hat))
    refine ⟨move.filed, ?_, (hkeeps.of_report? hreport).2.1⟩
    rw [perform, hadvances.workers, List.getElem?_set_self (List.getElem?_eq_some_iff.mp hat).1]
  | givenUp hreturned hend hat _ _ =>
    cases hreturned
    simp only [perform, Bool.or_eq_true, if_pos hend]
    obtain ⟨⟨order, account, hledger⟩, hall⟩ := hkept.sweep
    obtain ⟨_, _, hbefore⟩ := hkept
    have hlt : i < pool.sweep.workers.length := by
      rw [hledger.length_eq, ← hbefore.length_eq]
      exact (List.getElem?_eq_some_iff.mp hat).1
    have hlater := List.getElem?_eq_getElem hlt
    exact ⟨_, hlater, hall _ (List.mem_of_getElem? hlater)⟩

end Merges

/-- A worker that is not `claimed` after an action was not before it. -/
theorem free_of_perform (hkept : Kept jobs first course.pool) {later : Worker σ}
    (hat : (course.perform action).pool.workers[i]? = some later)
    (hfree : later.progress.claimed = false) :
    ∃ worker, course.pool.workers[i]? = some worker ∧ worker.progress.claimed = false := by
  obtain ⟨pool, returned⟩ := course
  cases action with
  | pass moment => exact ⟨later, hat, hfree⟩
  | raise => exact ⟨later, hat, hfree⟩
  | wake surroundings j =>
    simp only [perform] at hat
    rcases pool.wake_eq_or_advances surroundings j with ⟨hsame, -⟩ | ⟨worker, move, hadvances⟩
    · exact ⟨later, hsame ▸ hat, hfree⟩
    · have hbefore := hadvances.at_place
      rw [hadvances.workers] at hat
      rcases cases_of_set hat with ⟨rfl, rfl⟩ | ⟨-, hother⟩
      · have hkeeps := hadvances.goes.keeps (hkept.books worker (List.mem_of_getElem? hbefore))
        -- The move itself claims its worker if it leaves with a result, and nobody else.
        rw [hkeeps.claimed_filed, Bool.or_eq_false_iff] at hfree
        exact ⟨worker, hbefore, hfree.2⟩
      · exact ⟨later, hother, hfree⟩
  | finish =>
    cases returned with
    | some _ => exact ⟨later, hat, hfree⟩
    | none =>
      simp only [perform] at hat
      split at hat
      · -- The sweep leaves nobody free.
        have hclaimed := hkept.sweep.2 later (List.mem_of_getElem? hat)
        rw [hfree] at hclaimed
        cases hclaimed
      · exact ⟨later, hat, hfree⟩

/-- The ledger of a run has the accounts that have been `merged` so far, and nothing has been
`merged` of workers that are not `claimed`. -/
structure Recorded (jobs : List Job) (first : Tally) (merged : Nat → WorkerResult → Prop)
    (course : Course σ) : Prop where
  reports : Reports (fun i result => ∀ other, merged i other ↔ other = result) jobs first
    course.pool
  free : ∀ i worker, course.pool.workers[i]? = some worker → worker.progress.claimed = false →
    ∀ result, ¬ merged i result

namespace Recorded

variable {merged : Nat → WorkerResult → Prop}

omit [Sink σ] in
/-- A worker whose account has been `merged` is `claimed`. -/
theorem claimed (h : Recorded jobs first merged course) (hmerged : merged i result)
    {worker : Worker σ} (hat : course.pool.workers[i]? = some worker) :
    worker.progress.claimed = true := by
  by_contra hfree
  exact h.free i worker hat (Bool.eq_false_iff.mpr hfree) result hmerged

omit [Sink σ] in
/-- At the start nothing has been `merged`. -/
theorem start (policy : Policy) (first : Tally) (jobs : List Job) :
    Recorded jobs first (fun _ _ => False) ⟨(Pool.start policy first jobs : Pool σ), none⟩ :=
  ⟨.start policy _ jobs first, fun _ _ _ _ _ hmerged => hmerged⟩

/-- An action that merges something leaves the accounts alone that have been `merged` before. -/
theorem reports_or (h : Recorded jobs first merged course) (action : Action σ) :
    Reports (fun i result => ∀ other, merged i other ∨ Merges i other course action ↔
      other = result) jobs first course.pool := by
  refine h.reports.mono ?_
  intro i worker result hat hclaimed hsame other
  rw [← hsame other]
  refine or_iff_left fun hmerges => ?_
  have hfree := hmerges.claimed_eq_false h.reports.kept hat
  rw [hclaimed] at hfree
  cases hfree

/-- The `result` that an action merges is the only account of its worker. -/
theorem iff_of_merges (h : Recorded jobs first merged course)
    (hmerges : Merges i result course action) (other : WorkerResult) :
    merged i other ∨ Merges i other course action ↔ other = result := by
  refine ⟨?_, fun hsame => .inr (hsame ▸ hmerges)⟩
  obtain ⟨worker, hat, hfree⟩ := hmerges.free h.reports.kept
  rintro (hmerged | hother)
  · exact (h.free i worker hat hfree other hmerged).elim
  · exact hmerges.unique hother

/-- After an action the ledger has what the action `Merges` beside what had been `merged` before. -/
theorem perform (h : Recorded jobs first merged course) (action : Action σ) :
    Recorded jobs first (fun i result => merged i result ∨ Merges i result course action)
      (course.perform action) := by
  have hkept := h.reports.kept
  refine ⟨?_, ?_⟩
  · have hreports := h.reports_or action
    obtain ⟨pool, returned⟩ := course
    cases action with
    | pass moment => exact hreports.congr rfl rfl
    | raise => exact hreports.congr rfl rfl
    | wake surroundings i =>
      rcases pool.wake_eq_or_advances surroundings i with ⟨hsame, -⟩ | ⟨worker, move, hadvances⟩
      · simp only [Course.perform, hsame]
        exact hreports
      · -- A worker that leaves brings its result with it, which nothing has merged before.
        refine hreports.advances hadvances ?_
        intro result hreport _
        exact h.iff_of_merges (.leaves hadvances hreport)
    | finish =>
      cases returned with
      | some _ => exact hreports
      | none =>
        simp only [Course.perform, Bool.or_eq_true]
        split
        · next hend =>
          -- The sweep brings a result of every worker that is not claimed yet.
          refine hreports.sweep ?_
          intro i worker hat hfree
          exact h.iff_of_merges (.givenUp rfl hend hat hfree rfl)
        · exact hreports
  · intro i later hat hfree result hmerged
    obtain ⟨worker, hbefore, hfreeBefore⟩ := free_of_perform hkept hat hfree
    -- A worker that is free after the action was free before it, and the action has not claimed it.
    rcases hmerged with hmerged | hmerges
    · exact h.free i worker hbefore hfreeBefore result hmerged
    · obtain ⟨marked, hmarked, hclaimed⟩ := hmerges.marks hkept
      rw [hat] at hmarked
      cases hmarked
      rw [hfree] at hclaimed
      cases hclaimed

omit [Sink σ] in
theorem congr {merged' : Nat → WorkerResult → Prop} (h : Recorded jobs first merged course)
    (hiff : ∀ i result, merged i result ↔ merged' i result) :
    Recorded jobs first merged' course := by
  have hsame : merged = merged' := funext₂ fun i result => propext (hiff i result)
  exact hsame ▸ h

/-- After a history the ledger has all that its actions have merged. -/
theorem after (h : Recorded jobs first merged course) (actions : List (Action σ)) :
    Recorded jobs first (fun i result => merged i result ∨ Ever (Merges i result) actions course)
      (course.after actions) := by
  induction actions generalizing course merged with
  | nil => exact h.congr fun i result => (iff_of_eq (or_false (merged i result))).symm
  | cons action actions ih => exact (ih (h.perform action)).congr fun i result => or_assoc

end Recorded

end Pool.Course

end Volley
