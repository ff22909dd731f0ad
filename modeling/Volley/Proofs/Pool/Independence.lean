import Volley.Proofs.Pool.Conservation
import Volley.Proofs.Pool.Places
import Volley.Proofs.Pool.Tracks

/-!
# Independence of the schedule

The workers of a pool share the places, the stop signal and the tally. If the signal is not raised
and everybody comes to its end, none of this makes a difference to what they count: every worker
stays on its track, whenever it gets its place and whoever runs in between. The accounts are merged
in some order, which depends on the schedule, but the totals do not depend on it. Only the times do.

## Main definitions

* `Pool.Unharmed`: a run that nothing has disturbed.
* `Pool.Course.Regular`: an action that keeps to the conduct of the jobs.
* `Pool.Course.Undisturbed`: a run with such a history that nothing has disturbed.

## Main results

* `Pool.Course.onTrack_after`: whatever history a run has, everybody stays on track.
* `Pool.Course.Undisturbed.returned`: the totals that a run returns are those of its jobs.
* `Pool.Course.totals_independent`: two runs of the same jobs return the same totals.
-/

namespace Volley

variable {σ : Type} [Sink σ]

namespace Pool

/-- Nothing has disturbed a run: its clock is not `stopped`, there is no `fault`, and nobody
`isDead`. -/
structure Unharmed (pool : Pool σ) : Prop where
  running : pool.clock.stopped = false
  fault : pool.fault = none
  alive : ∀ worker ∈ pool.workers, worker.isDead = false

instance (pool : Pool σ) : Decidable pool.Unharmed :=
  decidable_of_iff (pool.clock.stopped = false ∧ pool.fault = none ∧
      ∀ worker ∈ pool.workers, worker.isDead = false)
    ⟨fun ⟨running, fault, alive⟩ => ⟨running, fault, alive⟩,
      fun ⟨running, fault, alive⟩ => ⟨running, fault, alive⟩⟩

/-- The accounts that have been reported are, but for the time, those of `Conduct.result`, and every
worker is on its track to that. -/
structure OnTrack (conduct : Job → Conduct) (jobs : List Job) (pool : Pool σ) : Prop where
  reports : Reports (fun i result => ∀ job, jobs[i]? = some job →
    result.timeless = (conduct job).result job) jobs .zero pool
  workers : ∀ worker ∈ pool.workers, worker.OnTrack conduct

variable {conduct : Job → Conduct} {jobs : List Job} {pool later : Pool σ}

/-- At the start every worker is on its track. -/
theorem OnTrack.start (policy : Policy) (conduct : Job → Conduct) (jobs : List Job) :
    OnTrack conduct jobs (Pool.start policy .zero jobs : Pool σ) := by
  refine ⟨.start policy _ jobs .zero, ?_⟩
  intro worker hworker
  obtain ⟨job, -, rfl⟩ := List.mem_map.mp hworker
  exact ⟨rfl, rfl⟩

/-- The account with which a worker leaves is the `Conduct.result` of its job, but for the time. -/
theorem timeless_of_report? {worker : Worker σ} {move : Move σ} {now : Nat} {result : WorkerResult}
    (hmove : move.OnTrack conduct) (hkeeps : move.Keeps worker)
    (hreport : move.report? now = some result) (hsettles : result.Settles worker.job) :
    result.timeless = (conduct worker.job).result worker.job := by
  cases move with
  | leaves next outcome =>
    have hjob : next.job = worker.job := hkeeps.job
    rw [Move.report?] at hreport
    split at hreport
    · cases hreport
    · cases hreport
      rw [← hjob] at hsettles ⊢
      exact hmove.2.timeless_eq hsettles
  | waits next => cases hreport
  | aborts next cause => cases hreport
  | dies next => cases hreport

/-- The turn of a worker keeps the pool `OnTrack`, if its session `Follows` the conduct, the worker
`IsDue`, and the pool is `Unharmed` afterwards. -/
theorem OnTrack.advances {surroundings : Surroundings σ} {i : Nat} {worker : Worker σ}
    {move : Move σ} (h : OnTrack conduct jobs pool)
    (hadvances : Advances surroundings i pool later worker move)
    (hfollows : surroundings.Follows worker.job (conduct worker.job))
    (hclock : pool.clock.stopped = false) (hdue : worker.IsDue surroundings pool.clock)
    (hunharmed : later.Unharmed) : OnTrack conduct jobs later := by
  have hmem := List.mem_of_getElem? hadvances.at_place
  have hmove := hadvances.goes.onTrack (h.workers worker hmem) hfollows hclock hdue
  have hkeeps := hadvances.goes.keeps (h.reports.kept.books worker hmem)
  refine ⟨h.reports.advances hadvances ?_, ?_⟩
  · intro result hreport hsettles job hjob
    obtain ⟨order, account, hledger⟩ := h.reports.kept
    have hsame := (hledger.entries i worker hadvances.at_place).job
    rw [hjob] at hsame
    cases hsame
    exact timeless_of_report? hmove hkeeps hreport hsettles
  · intro other hother
    rw [hadvances.workers] at hother
    rcases List.mem_or_eq_of_mem_set hother with hbefore | rfl
    · exact h.workers other hbefore
    · have hfiled : move.filed ∈ later.workers := by
        rw [hadvances.workers]
        exact List.mem_set (List.getElem?_eq_some_iff.mp hadvances.at_place).1 _
      cases move with
      | waits next => exact hmove
      | leaves next outcome =>
        -- It has left, and has been reported.
        obtain ⟨⟨session, hgone⟩, -⟩ := hmove
        unfold Worker.OnTrack
        rw [Move.stage_filed, Move.worker, hgone]
        rfl
      | aborts next cause =>
        have hfault := hadvances.fault next cause rfl
        rw [hunharmed.fault] at hfault
        cases hfault
      | dies next =>
        obtain ⟨session, hdead⟩ := hmove
        have halive := hunharmed.alive next hfiled
        rw [Worker.isDead, hdead] at halive
        cases halive

/-- In a pool that is `OnTrack`, workers that are all over are `AllReported`. -/
theorem OnTrack.allReported (h : OnTrack conduct jobs pool) (hover : pool.isOver = true) :
    pool.AllReported := by
  intro worker hworker
  have htrack := h.workers worker hworker
  have hdone := List.all_eq_true.mp hover worker hworker
  unfold Worker.OnTrack at htrack
  unfold Worker.isOver at hdone
  cases hstage : worker.stage with
  | gone session =>
    rw [hstage] at htrack
    exact htrack
  | dead session =>
    rw [hstage] at htrack
    exact htrack.elim
  | queued | connecting _ | sending _ _ _ | pausing _ _ | closing _ _ _ =>
    rw [hstage] at hdone
    cases hdone

/-- Once `AllReported`, the tally is the one of `Conduct.totals`, but for the times. -/
theorem OnTrack.timeless_tally (h : OnTrack conduct jobs pool) (hall : pool.AllReported) :
    pool.tally.timeless = Conduct.totals conduct jobs := by
  obtain ⟨account, order, hperm, haccount, htally⟩ := h.reports.exists_accounts hall
  have hresults : (List.range jobs.length).map (fun i => (account i).timeless) =
      jobs.map fun job => (conduct job).result job := by
    refine List.ext_getElem (by rw [List.length_map, List.length_map, List.length_range]) ?_
    intro i hi hj
    simp only [List.getElem_map, List.getElem_range]
    rw [List.length_map] at hj
    have hat := List.getElem?_eq_getElem hj
    exact (haccount i _ hat).2 _ hat
  rw [htally, Tally.timeless_foldl_merge, List.map_map, Conduct.totals, ← hresults]
  exact Tally.foldl_merge_perm _ (hperm.map _)

/-! ## Histories -/

/-- A worker that `isDead` stays where it is, whoever wakes. -/
theorem mem_workers_wake {surroundings : Surroundings σ} {i : Nat} {worker : Worker σ}
    (hmem : worker ∈ pool.workers) (hdead : worker.isDead = true) :
    worker ∈ (pool.wake surroundings i).workers := by
  rcases pool.wake_eq_or_advances surroundings i with ⟨hsame, -⟩ | ⟨other, move, hadvances⟩
  · rw [hsame]
    exact hmem
  · obtain ⟨j, hat⟩ := List.mem_iff_getElem?.mp hmem
    have hne : i ≠ j := by
      rintro rfl
      rw [hadvances.at_place] at hat
      cases hat
      -- It has no turn any more.
      have hover := hadvances.goes.isOver_eq_false
      rw [Worker.isOver_of_isDead hdead] at hover
      cases hover
    refine List.mem_iff_getElem?.mpr ⟨j, ?_⟩
    rw [hadvances.workers, List.getElem?_set_ne hne]
    exact hat

namespace Course

variable {course : Course σ} {action : Action σ}

/-- A run without a `fault` after an action had none before it. -/
theorem fault_of_perform (h : (course.perform action).pool.fault = none) :
    course.pool.fault = none := by
  obtain ⟨pool, returned⟩ := course
  cases action with
  | pass moment => exact h
  | raise => exact h
  | wake surroundings i =>
    by_contra hfault
    have hlater : (pool.wake surroundings i).fault.isSome = true :=
      fault_wake (Option.isSome_iff_ne_none.mpr hfault)
    exact absurd h (Option.isSome_iff_ne_none.mp hlater)
  | finish =>
    cases returned with
    | some result => exact h
    | none =>
      simp only [perform] at h
      split at h
      · exact pool.fault_sweep ▸ h
      · exact h

/-- A run that is `Unharmed` after an action was so before it. -/
theorem unharmed_of_perform (h : (course.perform action).pool.Unharmed) :
    course.pool.Unharmed := by
  refine ⟨stopped_of_perform h.running, fault_of_perform h.fault, ?_⟩
  obtain ⟨pool, returned⟩ := course
  intro worker hmem
  cases action with
  | pass moment => exact h.alive worker hmem
  | raise => exact h.alive worker hmem
  | wake surroundings i =>
    by_contra hdead
    rw [Bool.not_eq_false] at hdead
    exact absurd (h.alive worker (mem_workers_wake hmem hdead)) (by simp [hdead])
  | finish =>
    cases returned with
    | some result => exact h.alive worker hmem
    | none =>
      simp only [perform] at h
      split at h
      · -- The sweep changes nobody's stage.
        have hdead : worker.isDead ∈ pool.sweep.workers.map Worker.isDead := by
          rw [map_sweep Worker.isDead fun _ _ => rfl]
          exact List.mem_map_of_mem hmem
        obtain ⟨other, hother, hsame⟩ := List.mem_map.mp hdead
        exact hsame ▸ h.alive other hother
      · exact h.alive worker hmem

/-- An action that wakes nobody whose wait is not over, and nobody whose session does not follow the
`conduct` of its job. -/
def Regular (conduct : Job → Conduct) (course : Course σ) : Action σ → Prop
  | .pass _ => True
  | .raise => True
  | .wake surroundings i => ∀ worker, course.pool.workers[i]? = some worker →
      surroundings.Follows worker.job (conduct worker.job) ∧
        worker.IsDue surroundings course.pool.clock
  | .finish => True

/-- A `Regular` action keeps the pool `OnTrack`, as long as the pool is `Unharmed`. -/
theorem onTrack_perform (h : OnTrack conduct jobs course.pool)
    (hregular : Regular conduct course action) (hunharmed : (course.perform action).pool.Unharmed) :
    OnTrack conduct jobs (course.perform action).pool := by
  have hclock := stopped_of_perform hunharmed.running
  obtain ⟨pool, returned⟩ := course
  cases action with
  | pass moment => exact ⟨h.reports.congr rfl rfl, h.workers⟩
  | raise => exact ⟨h.reports.congr rfl rfl, h.workers⟩
  | wake surroundings i =>
    rcases pool.wake_eq_or_advances surroundings i with ⟨hsame, -⟩ | ⟨worker, move, hadvances⟩
    · simp only [perform, hsame]
      exact h
    · obtain ⟨hfollows, hdue⟩ := hregular worker hadvances.at_place
      exact h.advances hadvances hfollows hclock hdue hunharmed
  | finish =>
    cases returned with
    | some result => exact h
    | none =>
      simp only [perform]
      split
      · next hend =>
        -- Everybody has left, so there is nobody to be given up.
        rw [hclock, Bool.or_false] at hend
        rw [(h.allReported hend).sweep_eq]
        exact h
      · exact h

/-- A history of `Regular` actions keeps the pool `OnTrack`, as long as the pool is `Unharmed`. -/
theorem onTrack_after {actions : List (Action σ)} (h : OnTrack conduct jobs course.pool)
    (hregular : Along (Regular conduct) actions course)
    (hunharmed : (course.after actions).pool.Unharmed) :
    OnTrack conduct jobs (course.after actions).pool := by
  induction actions using List.reverseRecOn with
  | nil => exact h
  | append_singleton actions action ih =>
    rw [after_append] at hunharmed ⊢
    obtain ⟨hbefore, hlast, -⟩ := along_append.mp hregular
    exact onTrack_perform (ih hbefore (unharmed_of_perform hunharmed)) hlast hunharmed

/-- A run of `jobs` that is `Unharmed` so far, by a history of `Regular` actions. -/
def Undisturbed (conduct : Job → Conduct) (policy : Policy) (jobs : List Job)
    (last : Course σ) : Prop :=
  ∃ actions, Along (Regular conduct) actions (launch policy .zero jobs) ∧
    (launch policy .zero jobs).after actions = last ∧ last.pool.Unharmed

variable {policy other : Policy} {last : Course σ}

/-- What a run that is `Undisturbed` returns are the `Conduct.totals` of its jobs, with some
`elapsed`. -/
theorem Undisturbed.returned (h : Undisturbed conduct policy jobs last)
    (hvalid : firstInvalid? jobs = none) {result : Except Failure Tally}
    (hreturned : last.returned = some result) :
    ∃ elapsed, result = .ok { Conduct.totals conduct jobs with elapsed } := by
  obtain ⟨actions, hregular, rfl, hunharmed⟩ := h
  have hstart : OnTrack conduct jobs (launch policy .zero jobs : Course σ).pool := by
    rw [launch, hvalid]
    exact .start policy conduct jobs
  have htrack := onTrack_after hstart hregular hunharmed
  have hsound := (sound_launch policy .zero jobs).reaches
    (reaches_after actions (launch policy .zero jobs))
  have hfault := hunharmed.fault
  generalize (launch policy .zero jobs).after actions = last at *
  -- Nothing has failed, so what was returned are the totals of a pool that has reported everybody.
  cases hsound with
  | running hkept => cases hreturned
  | failed hcause =>
    rw [hvalid, hfault] at hcause
    cases hcause with
    | inl hinvalid => cases hinvalid
    | inr hfailed => cases hfailed
  | @returned pool stats hkept hall hstats =>
    cases hreturned
    have htimeless : stats.timeless = Conduct.totals conduct jobs := by
      rw [hstats]
      exact htrack.timeless_tally hall
    exact ⟨stats.elapsed, congrArg Except.ok (htimeless ▸ rfl)⟩

/-- A run that is not stuck: it has `returned` or can return, or there is a worker whose `wake`
lowers the `weight` of the pool, whatever that worker finds around it. -/
def CanGoOn (course : Course σ) : Prop :=
  (course.perform .finish).returned.isSome = true ∨
    ∃ i, ∀ surroundings, (course.pool.wake surroundings i).weight < course.pool.weight

/-- A run of valid jobs with places `CanGoOn` in all that it `Reaches`. -/
theorem canGoOn_of_reaches (hvalid : firstInvalid? jobs = none) (hsize : 0 < policy.size)
    (hreaches : (launch policy .zero jobs).Reaches last) : last.CanGoOn := by
  have hstart : Placed policy.size (launch policy .zero jobs : Course σ).pool := by
    rw [launch, hvalid]
    exact placed_start policy .zero jobs
  have hplaced := placed_of_reaches hreaches hstart
  obtain ⟨pool, returned⟩ := last
  cases hover : pool.isOver with
  | false => exact .inr (hplaced.exists_wake hsize hover)
  | true =>
    left
    cases returned with
    | some result => rfl
    | none => simp only [perform, hover, Bool.true_or, if_true, Option.isSome_some]

/-- Take two runs of the same valid `jobs` that are `Undisturbed`, with whatever sizes in `policy`
and `other`, sessions of whatever kinds, `σ` and `τ`, of the same `conduct`, and whatever orders of
steps. Both `CanGoOn`; and when both have `returned`, they have returned totals that differ in
nothing but `elapsed`. -/
theorem totals_independent {τ : Type} [Sink τ] {last' : Course τ}
    (hvalid : firstInvalid? jobs = none) (hsize : 0 < policy.size) (hother : 0 < other.size)
    (h : Undisturbed conduct policy jobs last) (h' : Undisturbed conduct other jobs last') :
    (last.CanGoOn ∧ last'.CanGoOn) ∧
      ∀ result result', last.returned = some result → last'.returned = some result' →
        ∃ stats elapsed, result = .ok stats ∧ result' = .ok { stats with elapsed } := by
  refine ⟨⟨?_, ?_⟩, ?_⟩
  · obtain ⟨actions, -, rfl, -⟩ := h
    exact canGoOn_of_reaches hvalid hsize (reaches_after actions _)
  · obtain ⟨actions, -, rfl, -⟩ := h'
    exact canGoOn_of_reaches hvalid hother (reaches_after actions _)
  · intro result result' hresult hresult'
    obtain ⟨elapsed, rfl⟩ := h.returned hvalid hresult
    obtain ⟨elapsed', rfl⟩ := h'.returned hvalid hresult'
    exact ⟨_, elapsed', rfl, rfl⟩

omit [Sink σ] in
/-- The workers of a launch have the `jobs` that were launched, or there are none. -/
theorem jobs_launch_subset (policy : Policy) (tally : Tally) (jobs : List Job) :
    (launch policy tally jobs : Course σ).pool.workers.map Worker.job ⊆ jobs := by
  unfold launch
  split
  · exact List.nil_subset jobs
  · intro job hjob
    obtain ⟨worker, hworker, rfl⟩ := List.mem_map.mp hjob
    obtain ⟨other, hother, rfl⟩ := List.mem_map.mp hworker
    exact hother

/-- What `Pool.run` returns, and the pool that it leaves, come of an undisturbed run if the pool
shows no harm and the sessions behave as the jobs say. -/
theorem undisturbed_run {surroundings : Surroundings σ} {peak : Nat}
    (hfollows : ∀ job ∈ jobs, surroundings.Follows job (conduct job))
    (hunharmed : (run policy surroundings ⟨.zero, peak⟩ jobs).2.2.Unharmed) :
    Undisturbed conduct policy jobs ⟨(run policy surroundings ⟨.zero, peak⟩ jobs).2.2,
      some (run policy surroundings ⟨.zero, peak⟩ jobs).1⟩ := by
  obtain ⟨actions, htimely, hafter⟩ :=
    exists_timely_run policy surroundings ⟨.zero, peak⟩ jobs
  refine ⟨actions, along_mono ?_ htimely, hafter, hunharmed⟩
  intro later hreaches action haction
  cases action with
  | pass moment => trivial
  | raise => trivial
  | finish => trivial
  | wake other i =>
    obtain ⟨rfl, hdue⟩ := haction
    intro worker hat
    have hjob : worker.job ∈ later.pool.workers.map Worker.job :=
      List.mem_map_of_mem (List.mem_of_getElem? hat)
    rw [jobs_of_reaches hreaches] at hjob
    exact ⟨hfollows _ (jobs_launch_subset policy .zero jobs hjob), hdue worker hat⟩

/-- The conduct of the sessions of `sampleSurroundings`: the stream of the first worker breaks at
its second write, and the second worker is refused. -/
def sampleConduct (job : Job) : Conduct :=
  if job.workerId = 0 then Recorder.conduct (some 1)
  else if job.workerId = 1 then ⟨false, fun _ => false, fun _ => false⟩
  else Recorder.conduct none

theorem follows_sample {job : Job} (hjob : job ∈ sampleJobs) :
    sampleSurroundings.Follows job (sampleConduct job) := by
  have hburst : ∀ other ∈ sampleJobs, other.spec.strategy = .burst := by decide
  have hstrategy : ∀ frames mode, job.spec.strategy ≠ .fragmented frames mode := by
    intro frames mode hfragmented
    rw [hburst job hjob] at hfragmented
    cases hfragmented
  unfold sampleConduct
  -- The first session breaks, the second is never opened, and the others take everything.
  by_cases hfirst : job.workerId = 0
  · rw [if_pos hfirst]
    refine ⟨?_, ?_⟩
    · simp only [sampleSurroundings, if_pos hfirst]
      rfl
    · intro session hdial
      simp only [sampleSurroundings, if_pos hfirst] at hdial
      cases hdial
      exact Recorder.obeys (some 1) hstrategy
  · rw [if_neg hfirst]
    by_cases hsecond : job.workerId = 1
    · rw [if_pos hsecond]
      refine ⟨?_, ?_⟩
      · simp only [sampleSurroundings, if_neg hfirst, if_pos hsecond]
        rfl
      · intro session hdial
        simp only [sampleSurroundings, if_neg hfirst, if_pos hsecond] at hdial
        cases hdial
    · rw [if_neg hsecond]
      refine ⟨?_, ?_⟩
      · simp only [sampleSurroundings, if_neg hfirst, if_neg hsecond]
        rfl
      · intro session hdial
        simp only [sampleSurroundings, if_neg hfirst, if_neg hsecond] at hdial
        cases hdial
        exact Recorder.obeys none hstrategy

/-- The sessions of `sampleSurroundings`, each of which takes a while to open. -/
def slowSurroundings : Surroundings Recorder where
  dial job := { sampleSurroundings.dial job with delay := 700 }
  timestamps _ := 9

/-- One place for the three `sampleJobs`, or a place for each of them and slower sessions. -/
theorem totals_independent_sample :
    ∃ (stats : Tally) (elapsed : Duration),
      (run ⟨1, 10000, 5000⟩ sampleSurroundings .zero sampleJobs).1 = .ok stats ∧
      (run ⟨3, 10000, 5000⟩ slowSurroundings .zero sampleJobs).1 = .ok { stats with elapsed } ∧
      stats = ⟨3, 9, 4, 5, .ofMillis 1000, ⟨1, 1, 1, 0⟩, [("burst", ⟨3, 9, 4, 5⟩)]⟩ ∧
      elapsed = .ofMillis 700 := by
  have hvalid : firstInvalid? sampleJobs = none := by decide +kernel
  have hunharmed : (run ⟨1, 10000, 5000⟩ sampleSurroundings .zero sampleJobs).2.2.Unharmed := by
    decide +kernel
  have hunharmed' : (run ⟨3, 10000, 5000⟩ slowSurroundings .zero sampleJobs).2.2.Unharmed := by
    decide +kernel
  have hslow : ∀ job ∈ sampleJobs, slowSurroundings.Follows job (sampleConduct job) := by
    intro job hjob
    obtain ⟨hconnects, hobeys⟩ := follows_sample hjob
    exact ⟨hconnects, hobeys⟩
  obtain ⟨-, hsame⟩ := totals_independent hvalid (by decide) (by decide)
    (undisturbed_run (fun _ => follows_sample) hunharmed) (undisturbed_run hslow hunharmed')
  obtain ⟨stats, elapsed, hstats, hstats'⟩ := hsame _ _ rfl rfl
  have hfirst : (run ⟨1, 10000, 5000⟩ sampleSurroundings .zero sampleJobs).1 =
      .ok ⟨3, 9, 4, 5, .ofMillis 1000, ⟨1, 1, 1, 0⟩, [("burst", ⟨3, 9, 4, 5⟩)]⟩ := by
    decide +kernel
  have hsecond : (run ⟨3, 10000, 5000⟩ slowSurroundings .zero sampleJobs).1 =
      .ok ⟨3, 9, 4, 5, .ofMillis 700, ⟨1, 1, 1, 0⟩, [("burst", ⟨3, 9, 4, 5⟩)]⟩ := by
    decide +kernel
  refine ⟨stats, elapsed, hstats, hstats', ?_, ?_⟩
  · exact Except.ok.inj (hstats.symm.trans hfirst)
  · exact congrArg Tally.elapsed (Except.ok.inj (hstats'.symm.trans hsecond))

end Course

end Pool

end Volley
