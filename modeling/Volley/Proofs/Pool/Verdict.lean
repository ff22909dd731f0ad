import Volley.Proofs.Pool.Conservation
import Volley.Proofs.Pool.Losses
import Volley.Proofs.Pool.Merging
import Volley.Proofs.Pool.Places

/-!
# The verdict on a run

The accounts that a run merges tell which workers have lost their sessions. Between a loss and the
report of it there is no step at all, and whoever has been reported has left, or has been given up
by a run that has been stopped. So the judgement can be followed along a history, action by action.

## Main definitions

* `Pool.Course.Loses`: a worker loses its session in an action.
* `Pool.Course.Standing`: whoever has been reported has left, or has been given up.
* `Pool.Course.Judged`: the accounts that have been merged tell who has lost a session.
* `Pool.Course.Verdict`: the totals of a run tell it.

## Main results

* `Pool.Course.Standing.perform`: an action changes nothing in how the workers stand.
* `Pool.Course.Judged.perform`, `Pool.Course.Judged.after`: the accounts stay right.
* `Pool.Course.exists_verdict`: a run that returns totals has come to a verdict.
* `Pool.Course.Verdict.connectionsHeld_iff`: the totals say whether nobody has lost its session.
-/

namespace Volley

variable {ω : Type} [Writer ω]

namespace Pool.Course

/-- The worker at place `i` loses its session in an action. -/
def Loses (i : Nat) (course : Course (SessionOver ω)) (action : Action (SessionOver ω)) : Prop :=
  ∃ surroundings worker, action = .wake surroundings i ∧ course.pool.workers[i]? = some worker ∧
    worker.Loses surroundings course.pool.clock course.returned.isNone

variable {jobs : List Job} {first : Tally} {course : Course (SessionOver ω)}
  {action : Action (SessionOver ω)} {surroundings : Surroundings (SessionOver ω)} {i : Nat}
  {worker : Worker (SessionOver ω)} {move : Move (SessionOver ω)}

/-- To wake a worker is to lose its session exactly if the worker is about to. -/
theorem loses_wake_iff (hat : course.pool.workers[i]? = some worker) :
    Loses i course (.wake surroundings i) ↔
      worker.Loses surroundings course.pool.clock course.returned.isNone := by
  refine ⟨?_, fun hloses => ⟨surroundings, worker, rfl, hat, hloses⟩⟩
  rintro ⟨other, found, heq, hfound, hloses⟩
  cases heq
  rw [hat] at hfound
  cases hfound
  exact hloses

/-- An action that loses a session is the turn of its worker. -/
theorem Loses.exists_advances (h : Loses i course action) :
    ∃ surroundings worker move, action = .wake surroundings i ∧
      worker.Loses surroundings course.pool.clock course.returned.isNone ∧
      Advances surroundings i course.pool (course.perform action).pool worker move := by
  obtain ⟨surroundings, worker, rfl, hat, hloses⟩ := h
  rcases course.pool.wake_eq_or_advances surroundings i with ⟨-, hidle⟩ | ⟨other, move, hadvances⟩
  · rcases hidle worker hat with hover | ⟨hqueued, -⟩
    · rw [hloses.isOver_eq_false.1] at hover
      cases hover
    · exact absurd hqueued hloses.stage_ne_queued
  · have hsame := hat.symm.trans hadvances.at_place
    cases hsame
    exact ⟨surroundings, worker, move, rfl, hloses, hadvances⟩

/-! ## What becomes of the workers -/

/-- All workers are `Suited`, those that are `claimed` have left or have been given up, and a run
that has `returned` is `AllReported`. -/
structure Standing (course : Course (SessionOver ω)) : Prop where
  suited : ∀ worker ∈ course.pool.workers, worker.Suited
  claimed : ∀ worker ∈ course.pool.workers, worker.progress.claimed = true →
    worker.isOver = true ∨ course.returned.isSome = true ∧ course.pool.clock.stopped = true
  reported : course.returned.isSome = true → course.pool.AllReported

namespace Standing

omit [Writer ω] in
/-- A run is `Standing` at its start, where nobody has been reported. -/
theorem start (policy : Policy) (first : Tally) (jobs : List Job) :
    Standing ⟨(Pool.start policy first jobs : Pool (SessionOver ω)), none⟩ := by
  refine ⟨?_, ?_, nofun⟩
  · intro worker hmem
    obtain ⟨job, -, rfl⟩ := List.mem_map.mp hmem
    trivial
  · intro worker hmem hclaimed
    obtain ⟨job, -, rfl⟩ := List.mem_map.mp hmem
    cases hclaimed

/-- A worker that is `claimed` has nothing to lose. -/
theorem not_loses (h : Standing course) (hmem : worker ∈ course.pool.workers)
    (hclaimed : worker.progress.claimed = true) :
    ¬ worker.Loses surroundings course.pool.clock course.returned.isNone := by
  intro hloses
  obtain ⟨hbusy, hheld⟩ := hloses.isOver_eq_false
  rcases h.claimed worker hmem hclaimed with hover | ⟨hreturned, hstopped⟩
  · rw [hbusy] at hover
    cases hover
  · rcases hheld with hwaiting | hrunning
    · rw [Option.isNone_iff_eq_none] at hwaiting
      rw [hwaiting] at hreturned
      cases hreturned
    · rw [hrunning] at hstopped
      cases hstopped

omit [Writer ω] in
/-- A run has not `returned` as long as there is a worker that is not `claimed`. -/
theorem returned_eq_none (h : Standing course) (hmem : worker ∈ course.pool.workers)
    (hfree : worker.progress.claimed = false) : course.returned = none := by
  cases hreturned : course.returned with
  | none => rfl
  | some _ =>
    have hclaimed := h.reported (by rw [hreturned, Option.isSome_some]) worker hmem
    rw [hfree] at hclaimed
    cases hclaimed

variable {pool later : Pool (SessionOver ω)} {returned : Option (Except Failure Tally)}

omit [Writer ω] in
/-- A run stays `Standing` as time passes. -/
theorem of_clock {clock : Clock} (h : Standing ⟨pool, returned⟩)
    (hstopped : pool.clock.stopped = true → clock.stopped = true) :
    Standing ⟨{ pool with clock }, returned⟩ :=
  ⟨h.suited, fun worker hmem hclaimed => (h.claimed worker hmem hclaimed).imp_right
    (And.imp_right hstopped), h.reported⟩

/-- A run stays `Standing` in the turn of a worker. -/
theorem advances (h : Standing ⟨pool, returned⟩) (hkept : Kept jobs first pool)
    (hadvances : Advances surroundings i pool later worker move) (hfits : surroundings.Fits)
    (hstopped : pool.clock.stopped = true → later.clock.stopped = true) :
    Standing ⟨later, returned⟩ := by
  have hmem := List.mem_of_getElem? hadvances.at_place
  have htells := hadvances.goes.tells (h.suited worker hmem) hfits
  have hclaimed := (hadvances.goes.keeps (hkept.books worker hmem)).claimed_filed
  -- Only the worker that moves is another one than before.
  have hmember : ∀ other ∈ later.workers, other = move.filed ∨ other ∈ pool.workers := by
    intro other hother
    rw [hadvances.workers] at hother
    exact (List.mem_or_eq_of_mem_set hother).symm
  refine ⟨?_, ?_, ?_⟩
  · intro other hother
    rcases hmember other hother with rfl | hbefore
    · exact htells.suited_filed
    · exact h.suited other hbefore
  · intro other hother hreported
    rcases hmember other hother with rfl | hbefore
    · rw [hclaimed, Bool.or_eq_true] at hreported
      rcases hreported with hleft | hbefore
      · exact .inl (htells.isOver_filed hleft)
      · rcases h.claimed worker hmem hbefore with hover | ⟨hreturned, hraised⟩
        · rw [hadvances.goes.isOver_eq_false] at hover
          cases hover
        · exact .inr ⟨hreturned, hstopped hraised⟩
    · exact (h.claimed other hbefore hreported).imp_right (And.imp_right hstopped)
  · intro hreturned other hother
    rcases hmember other hother with rfl | hbefore
    · rw [hclaimed, h.reported hreturned worker hmem, Bool.or_true]
    · exact h.reported hreturned other hbefore

omit [Writer ω] in
/-- A run that returns after its `sweep` has reported everybody. -/
theorem sweep (h : Standing ⟨pool, none⟩) (hkept : Kept jobs first pool)
    (hend : pool.isOver = true ∨ pool.clock.stopped = true) :
    Standing ⟨pool.sweep, some pool.sweep.totals⟩ := by
  refine ⟨?_, ?_, fun _ => hkept.sweep.2⟩
  · intro worker hmem
    obtain ⟨other, hother, hsame⟩ := exists_of_mem_sweep Worker.Suited (fun _ _ => rfl) hmem
    exact hsame ▸ h.suited other hother
  · intro worker hmem _
    rcases hend with hover | hstopped
    · obtain ⟨other, hother, hsame⟩ := exists_of_mem_sweep Worker.isOver (fun _ _ => rfl) hmem
      exact .inl (hsame ▸ List.all_eq_true.mp hover other hother)
    · exact .inr ⟨rfl, pool.clock_sweep ▸ hstopped⟩

/-- A run stays `Standing` in every action. -/
theorem perform (h : Standing course) (hkept : Kept jobs first course.pool)
    (hfits : ∀ surroundings i, action = .wake surroundings i → surroundings.Fits) :
    Standing (course.perform action) := by
  -- A signal that has been raised stays so.
  have hstopped : course.pool.clock.stopped = true →
      (course.perform action).pool.clock.stopped = true := by
    intro hbefore
    by_contra hrunning
    have hclock := stopped_of_perform (Bool.eq_false_iff.mpr hrunning)
    rw [hbefore] at hclock
    cases hclock
  obtain ⟨pool, returned⟩ := course
  cases action with
  | pass moment => exact h.of_clock hstopped
  | raise => exact h.of_clock hstopped
  | wake surroundings i =>
    rcases pool.wake_eq_or_advances surroundings i with ⟨hsame, -⟩ | ⟨worker, move, hadvances⟩
    · simp only [Course.perform, hsame]
      exact h
    · exact h.advances hkept hadvances (hfits surroundings i rfl) hstopped
  | finish =>
    cases returned with
    | some _ => exact h
    | none =>
      simp only [Course.perform, Bool.or_eq_true]
      split
      · next hend => exact h.sweep hkept hend
      · exact h

end Standing

/-! ## What the accounts tell -/

/-- The accounts that have been `merged` in a run tell, by `isLoss`, which workers have `lost` their
sessions. -/
structure Judged (jobs : List Job) (merged : Nat → WorkerResult → Prop) (lost : Nat → Prop)
    (course : Course (SessionOver ω)) : Prop where
  recorded : Recorded jobs .zero merged course
  standing : Standing course
  isLoss_iff : ∀ i result, merged i result → (result.outcome.isLoss = true ↔ lost i)
  isBare : ∀ i job, jobs[i]? = some job → lost i → job.spec.transport.isBare = true
  /-- Whoever has not been reported has lost nothing. -/
  free : ∀ i worker, course.pool.workers[i]? = some worker → worker.progress.claimed = false →
    ¬ lost i

namespace Judged

variable {merged : Nat → WorkerResult → Prop} {lost : Nat → Prop} {result : WorkerResult}

omit [Writer ω] in
/-- At the start nothing has been `merged`, and nobody has `lost` anything. -/
theorem start (policy : Policy) (jobs : List Job) :
    Judged jobs (fun _ _ => False) (fun _ => False)
      ⟨(Pool.start policy .zero jobs : Pool (SessionOver ω)), none⟩ :=
  ⟨.start policy .zero jobs, .start policy .zero jobs, nofun, nofun, fun _ _ _ _ hlost => hlost⟩

omit [Writer ω] in
/-- The worker at a place of the pool has the job at that place. -/
theorem job_eq (h : Judged jobs merged lost course) {job : Job} (hjob : jobs[i]? = some job)
    (hat : course.pool.workers[i]? = some worker) : worker.job = job := by
  obtain ⟨order, account, hledger⟩ := h.recorded.reports.kept
  have hsame := (hledger.entries i worker hat).job
  rw [hjob] at hsame
  exact (Option.some.inj hsame).symm

/-- A worker that `Loses` its session in an action is `claimed` after it. -/
theorem claimed_of_loses (h : Judged jobs merged lost course) (hloses : Loses i course action)
    (hfits : ∀ surroundings i, action = .wake surroundings i → surroundings.Fits)
    {later : Worker (SessionOver ω)} (hat : (course.perform action).pool.workers[i]? = some later) :
    later.progress.claimed = true := by
  obtain ⟨surroundings, worker, move, rfl, hlost, hadvances⟩ := hloses.exists_advances
  have hmem := List.mem_of_getElem? hadvances.at_place
  have htells := hadvances.goes.tells (h.standing.suited worker hmem) (hfits surroundings i rfl)
  have hkeeps := hadvances.goes.keeps (h.recorded.reports.kept.books worker hmem)
  rw [hadvances.workers] at hat
  rcases cases_of_set hat with ⟨-, rfl⟩ | ⟨hne, -⟩
  · rw [hkeeps.claimed_filed, Bool.or_eq_true]
    by_contra hfree
    exact htells.not_lost (Bool.eq_false_iff.mpr (not_or.mp hfree).1) hlost.of_waiting
  · exact absurd rfl hne

/-- An account that an action `Merges` tells, by `isLoss`, whether its worker `Loses` its session in
it. -/
theorem isLoss_iff_of_merges (h : Judged jobs merged lost course)
    (hmerges : Merges i result course action)
    (hfits : ∀ surroundings i, action = .wake surroundings i → surroundings.Fits) :
    result.outcome.isLoss = true ↔ Loses i course action := by
  cases hmerges with
  | @leaves surroundings worker move hadvances hreport =>
    have hat := hadvances.at_place
    have hmem := List.mem_of_getElem? hat
    have htells := hadvances.goes.tells (h.standing.suited worker hmem) (hfits surroundings i rfl)
    have hfree := (Merges.leaves hadvances hreport).claimed_eq_false h.recorded.reports.kept hat
    rw [htells.isLoss_iff (Move.outcome_of_report? hreport), loses_wake_iff hat,
      h.standing.returned_eq_none hmem hfree]
    rfl
  | givenUp _ _ _ _ hresult =>
    -- Nobody loses anything when the run returns.
    refine ⟨fun hloss => ?_, ?_⟩
    · rw [hresult] at hloss
      cases hloss
    · rintro ⟨surroundings, worker, hwake, -, -⟩
      cases hwake

/-- After an action a run is `Judged` with what the action `Merges` and `Loses`. -/
theorem perform (h : Judged jobs merged lost course)
    (hfits : ∀ surroundings i, action = .wake surroundings i → surroundings.Fits) :
    Judged jobs (fun i result => merged i result ∨ Merges i result course action)
      (fun i => lost i ∨ Loses i course action) (course.perform action) := by
  have hkept := h.recorded.reports.kept
  refine ⟨h.recorded.perform action, h.standing.perform hkept hfits, ?_, ?_, ?_⟩
  · rintro i result (hmerged | hmerges)
    · -- The worker has been reported before, so it has nothing to lose now.
      rw [h.isLoss_iff i result hmerged]
      refine (or_iff_left ?_).symm
      rintro ⟨surroundings, worker, -, hat, hloses⟩
      exact h.standing.not_loses (List.mem_of_getElem? hat) (h.recorded.claimed hmerged hat) hloses
    · obtain ⟨worker, hat, hfree⟩ := hmerges.free hkept
      rw [h.isLoss_iff_of_merges hmerges hfits, or_iff_right (h.free i worker hat hfree)]
  · rintro i job hjob (hlost | ⟨surroundings, worker, -, hat, hloses⟩)
    · exact h.isBare i job hjob hlost
    · exact h.job_eq hjob hat ▸ hloses.isBare
  · rintro i later hat hfree (hlost | hloses)
    · obtain ⟨worker, hbefore, hfreeBefore⟩ := free_of_perform hkept hat hfree
      exact h.free i worker hbefore hfreeBefore hlost
    · rw [h.claimed_of_loses hloses hfits hat] at hfree
      cases hfree

/-- After a history a run is `Judged` with all that its actions have merged and lost. -/
theorem after {actions : List (Action (SessionOver ω))} (h : Judged jobs merged lost course)
    (hfits : ∀ surroundings i, .wake surroundings i ∈ actions → surroundings.Fits) :
    Judged jobs (fun i result => merged i result ∨ Ever (Merges i result) actions course)
      (fun i => lost i ∨ Ever (Loses i) actions course) (course.after actions) := by
  induction actions generalizing course merged lost with
  | nil =>
    simp only [Ever, or_false]
    exact h
  | cons action actions ih =>
    have hfirst := h.perform fun surroundings i haction =>
      hfits surroundings i (haction ▸ List.mem_cons_self)
    have hrest := ih hfirst fun surroundings i hmem =>
      hfits surroundings i (List.mem_cons_of_mem action hmem)
    simp only [or_assoc] at hrest
    exact hrest

end Judged

/-- What the totals of a run tell: one `account` of every job has been merged, in some `order`, and
those of which `isLoss` holds are the accounts of the workers that have `lost` their sessions. -/
structure Verdict (jobs : List Job) (merged : Nat → WorkerResult → Prop) (lost : Nat → Prop)
    (account : Nat → WorkerResult) (order : List Nat) (stats : Tally) : Prop where
  once : order.Perm (List.range jobs.length)
  stats_eq : stats = { (order.map account).foldl Tally.merge .zero with elapsed := stats.elapsed }
  merged_iff : ∀ i job, jobs[i]? = some job → ∀ result, merged i result ↔ result = account i
  settles : ∀ i job, jobs[i]? = some job → (account i).Settles job
  isLoss_iff : ∀ i job, jobs[i]? = some job → ((account i).outcome.isLoss = true ↔ lost i)
  isBare : ∀ i job, jobs[i]? = some job → lost i → job.spec.transport.isBare = true

/-- A history after which a run has `returned` totals comes to a `Verdict`. -/
theorem exists_verdict {policy : Policy} {actions : List (Action (SessionOver ω))}
    (hfits : ∀ surroundings i, .wake surroundings i ∈ actions → surroundings.Fits) {stats : Tally}
    (hreturned : ((launch policy .zero jobs).after actions).returned = some (.ok stats)) :
    ∃ account order, Verdict jobs
      (fun i result => Ever (Merges i result) actions (launch policy .zero jobs))
      (fun i => Ever (Loses i) actions (launch policy .zero jobs)) account order stats := by
  cases hvalid : firstInvalid? jobs with
  | some broken =>
    -- A run that has failed has nothing else to return.
    have hfailed : (launch policy .zero jobs : Course (SessionOver ω)).returned =
        some (.error (.invalidScenario broken.1 broken.2)) := by rw [launch, hvalid]
    rw [returned_after hfailed actions] at hreturned
    cases hreturned
  | none =>
    have hlaunch : (launch policy .zero jobs : Course (SessionOver ω)) =
        ⟨Pool.start policy .zero jobs, none⟩ := by rw [launch, hvalid]
    have hsound := (sound_launch policy .zero jobs).reaches
      (reaches_after actions (launch policy .zero jobs))
    rw [hlaunch] at hreturned hsound ⊢
    have hjudged := (Judged.start policy jobs).after hfits
    simp only [false_or] at hjudged
    generalize after actions ⟨Pool.start policy .zero jobs, none⟩ = last at *
    cases hsound with
    | running hkept => cases hreturned
    | failed hcause => cases hreturned
    | @returned pool stats hkept hall hstats =>
      cases hreturned
      obtain ⟨account, order, hperm, haccount, htally⟩ :=
        hjudged.recorded.reports.exists_accounts hall
      refine ⟨account, order, hperm, htally ▸ hstats, ?_, ?_, ?_, hjudged.isBare⟩
      · intro i job hjob
        exact (haccount i job hjob).2
      · intro i job hjob
        exact (haccount i job hjob).1
      · intro i job hjob
        exact hjudged.isLoss_iff i (account i) (((haccount i job hjob).2 (account i)).mpr rfl)

namespace Verdict

variable {merged : Nat → WorkerResult → Prop} {lost : Nat → Prop} {account : Nat → WorkerResult}
  {order : List Nat} {stats : Tally}

/-- A job with a transport that is not `isBare` has no account of which `isLoss` holds. -/
theorem isLoss_eq_false (h : Verdict jobs merged lost account order stats) {job : Job}
    (hjob : jobs[i]? = some job) (hbare : job.spec.transport.isBare = false) :
    (account i).outcome.isLoss = false := by
  rw [Bool.eq_false_iff, Ne, h.isLoss_iff i job hjob]
  intro hlost
  rw [h.isBare i job hjob hlost] at hbare
  cases hbare

/-- The totals say `connectionsHeld` exactly if nobody has `lost` a session. -/
theorem connectionsHeld_iff (h : Verdict jobs merged lost account order stats)
    (hcount : jobs.length < 0x10000000000000000) :
    stats.connectionsHeld = true ↔ ∀ i job, jobs[i]? = some job → ¬ lost i := by
  have hlength : (order.map account).length < 0x10000000000000000 := by
    rw [List.length_map, h.once.length_eq, List.length_range]
    exact hcount
  -- The counters are exact as long as there are fewer workers than a word can count.
  have hsums := Tally.sums_foldl (order.map account)
  have hsame : stats.connectionsHeld =
      ((order.map account).foldl Tally.merge .zero).connectionsHeld := by
    rw [h.stats_eq]
    rfl
  rw [hsame, hsums.connectionsHeld_iff hlength]
  constructor
  · intro hheld i job hjob hlost
    have hmem : account i ∈ order.map account := by
      refine List.mem_map_of_mem (h.once.mem_iff.mpr (List.mem_range.mpr ?_))
      exact (List.getElem?_eq_some_iff.mp hjob).1
    have hloss := (h.isLoss_iff i job hjob).mpr hlost
    rw [hheld _ hmem] at hloss
    cases hloss
  · intro hheld result hresult
    obtain ⟨i, hi, rfl⟩ := List.mem_map.mp hresult
    have hlt := List.mem_range.mp (h.once.mem_iff.mp hi)
    have hjob := List.getElem?_eq_getElem hlt
    rw [Bool.eq_false_iff, Ne, h.isLoss_iff i _ hjob]
    exact hheld i _ hjob

end Verdict

end Pool.Course

end Volley
