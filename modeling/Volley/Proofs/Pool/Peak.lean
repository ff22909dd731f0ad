import Mathlib.Algebra.GroupWithZero.Nat
import Mathlib.Algebra.Order.BigOperators.Group.List
import Volley.Proofs.Pool.Places
import Volley.Proofs.Pool.Schedule
import Volley.Proofs.Pool.Tracks

/-!
# The peak of a run

A pool counts the workers that are active and keeps the largest count as its peak. A worker that
dies gives its place back, but it is never taken off the count. So what the pool keeps is the
largest number of workers that have a place or have died. It is the number of those that were
driving a session at the same time as long as nobody dies; after that it can be too large, by as
many as have died.

## Main definitions

* `Pool.driving`, `Pool.broken`: the workers that have a place, and those that have died.
* `Pool.Course.highest`: the largest value of a measure in a history.

## Main results

* `Pool.shifts_wake`: what the turn of a worker changes in the count.
* `Pool.Course.peak_after`: the peak is the largest count of a history.
* `Pool.Course.peak_eq_highest`: what the peak says of the workers that drove a session.
-/

namespace Volley

variable {σ : Type}

/-- Whether a worker dies in a move, that is whether the move is `Move.dies`. -/
def Move.isDeath : Move σ → Bool
  | .waits _ => false
  | .leaves _ _ => false
  | .aborts _ _ => false
  | .dies _ => true

/-- A report of a worker changes neither its `place` nor whether it `isDead`. -/
theorem Move.counts_filed (move : Move σ) :
    move.filed.place = move.worker.place ∧ move.filed.isDead = move.worker.isDead := by
  cases move <;> exact ⟨rfl, rfl⟩

namespace Worker

/-- A worker that `isDead` has no place, so it counts once at most. -/
theorem place_add_isDead_le (worker : Worker σ) : worker.place + worker.isDead.toNat ≤ 1 := by
  unfold place isDead
  cases worker.stage <;> simp

/-- After `Worker.proceed` a worker `isDead` if its payload could not be built, and only then. -/
theorem isDead_proceed (clock : Clock) (worker : Worker σ) (run : Run σ) :
    (worker.proceed clock run).worker.isDead = (worker.proceed clock run).isDeath := by
  unfold proceed
  split <;> rfl

variable [Sink σ]

/-- After `Worker.leave` no worker `isDead`. -/
theorem isDead_leave (worker : Worker σ) (run : Run σ) (result : Except EncodingError Ending) :
    (worker.leave run result).worker.isDead = (worker.leave run result).isDeath := by
  unfold leave
  cases result <;> rfl

/-- After a `move` of its own a worker `isDead` if the move `isDeath`, and only then. -/
theorem isDead_of_wake {surroundings : Surroundings σ} {clock : Clock} {worker : Worker σ}
    {move : Move σ} (hwake : worker.wake surroundings clock = some move) :
    move.worker.isDead = move.isDeath := by
  cases hstage : worker.stage with
  | connecting since =>
    rw [wake, hstage] at hwake
    simp only at hwake
    split at hwake
    · cases hwake
      rfl
    · cases hwake
      exact isDead_proceed _ _ _
  | sending flight run since =>
    rw [wake, hstage] at hwake
    simp only at hwake
    split at hwake
    · cases hwake
      rfl
    · cases hwake
      exact isDead_leave _ _ _
    · split at hwake
      · cases hwake
        exact isDead_proceed _ _ _
      · cases hwake
        rfl
  | pausing run since =>
    rw [wake, hstage] at hwake
    cases hwake
    exact isDead_proceed _ _ _
  | closing result run since =>
    rw [wake, hstage] at hwake
    cases hwake
    exact isDead_leave _ _ _
  -- In these stages a worker does not wake by itself.
  | queued | gone _ | dead _ =>
    rw [wake, hstage] at hwake
    cases hwake

end Worker

namespace Pool

/-! ## Counting workers -/

/-- The number of workers that drive a session, from the moment they set out to open it: those that
have a `Worker.place`. -/
def driving (pool : Pool σ) : Nat :=
  (pool.workers.map Worker.place).sum

/-- The number of workers that have died: those of which `Worker.isDead` holds. -/
def broken (pool : Pool σ) : Nat :=
  (pool.workers.map fun worker => worker.isDead.toNat).sum

/-- The count of `active` workers takes in the `driving` ones and the `broken` ones, and `peak` has
kept up with it. -/
structure Counted (pool : Pool σ) : Prop where
  active : pool.active = pool.driving + pool.broken
  le_peak : pool.active ≤ pool.peak

variable {pool later : Pool σ} {i : Nat}

/-- No worker is both `driving` and `broken`. -/
theorem driving_add_broken_le (pool : Pool σ) :
    pool.driving + pool.broken ≤ pool.workers.length := by
  unfold driving broken
  generalize pool.workers = workers
  induction workers with
  | nil => exact Nat.le_refl 0
  | cons worker workers ih =>
    have hone := worker.place_add_isDead_le
    simp only [List.map_cons, List.sum_cons, List.length_cons]
    omega

/-- With `next` at the place of `worker`, `driving` and `broken` change by what the two of them
count. -/
theorem counts_set {worker : Worker σ} (next : Worker σ) (hat : pool.workers[i]? = some worker)
    (hworkers : later.workers = pool.workers.set i next) :
    later.driving + worker.place = pool.driving + next.place ∧
      later.broken + worker.isDead.toNat = pool.broken + next.isDead.toNat := by
  unfold driving broken
  rw [hworkers]
  exact ⟨sum_map_set Worker.place next hat,
    sum_map_set (fun worker => worker.isDead.toNat) next hat⟩

/-- A `report` changes neither `active` nor `peak`. -/
theorem counts_report (pool : Pool σ) (i : Nat) (worker : Worker σ) (outcome : Outcome) :
    (pool.report i worker outcome).active = pool.active ∧
      (pool.report i worker outcome).peak = pool.peak := by
  unfold report
  split <;> exact ⟨rfl, rfl⟩

/-- The `sweep` changes none of `active`, `peak`, `driving` and `broken`. -/
theorem counts_sweep (pool : Pool σ) :
    pool.sweep.active = pool.active ∧ pool.sweep.peak = pool.peak ∧
      pool.sweep.driving = pool.driving ∧ pool.sweep.broken = pool.broken := by
  have hcounter := sweep_induction
    (fun _ swept => swept.active = pool.active ∧ swept.peak = pool.peak) pool ⟨rfl, rfl⟩ ?_ ?_
  · refine ⟨hcounter.1, hcounter.2, ?_, ?_⟩
    · exact congrArg List.sum (map_sweep Worker.place (fun _ _ => rfl) pool)
    · exact congrArg List.sum
        (map_sweep (fun worker => worker.isDead.toNat) (fun _ _ => rfl) pool)
  · intro i swept worker hswept hat
    obtain ⟨hactive, hpeak⟩ := counts_report swept i worker .abandoned
    exact ⟨hactive.trans hswept.1, hpeak.trans hswept.2⟩
  · intro i swept hswept hnone
    exact hswept

/-- What the turn of a worker changes in `driving`, `broken`, `active` and `peak`: it stays where it
is, enters, leaves in order, or dies and is not taken off `active`. -/
inductive Shifts (pool later : Pool σ) : Prop where
  | stays (hdriving : later.driving = pool.driving) (hbroken : later.broken = pool.broken)
      (hactive : later.active = pool.active) (hpeak : later.peak = pool.peak)
  | enters (hdriving : later.driving = pool.driving + 1) (hbroken : later.broken = pool.broken)
      (hactive : later.active = pool.active + 1)
      (hpeak : later.peak = max pool.peak (pool.active + 1))
  | leaves (hdriving : later.driving + 1 = pool.driving) (hbroken : later.broken = pool.broken)
      (hactive : later.active = pool.active - 1) (hpeak : later.peak = pool.peak)
  | dies (hdriving : later.driving + 1 = pool.driving) (hbroken : later.broken = pool.broken + 1)
      (hactive : later.active = pool.active) (hpeak : later.peak = pool.peak)

namespace Shifts

/-- A pool that is `Counted` is `Counted` after a shift. -/
theorem counted (h : Shifts pool later) (hcounted : pool.Counted) : later.Counted := by
  obtain ⟨hactive, hpeak⟩ := hcounted
  cases h <;> exact ⟨by omega, by omega⟩

/-- In a shift, `peak` follows `active` upwards and never comes down. -/
theorem peak_eq (h : Shifts pool later) (hcounted : pool.Counted) :
    later.peak = max pool.peak later.active := by
  obtain ⟨hactive, hpeak⟩ := hcounted
  cases h <;> omega

/-- Nobody comes back who is `broken`. -/
theorem broken_le (h : Shifts pool later) : pool.broken ≤ later.broken := by
  cases h <;> omega

end Shifts

/-- A worker in the queue that is let `enter` gets a place, or finds that it is too late. -/
theorem shifts_enter {worker : Worker σ} (hat : pool.workers[i]? = some worker)
    (hstage : worker.stage = .queued) : Shifts pool (pool.enter i worker) := by
  have hplace : worker.place = 0 := by rw [Worker.place, hstage]
  have hdead : worker.isDead = false := by rw [Worker.isDead, hstage]
  unfold enter
  split
  · exact .stays rfl rfl rfl rfl
  split
  · -- It comes too late, and leaves without having counted as active.
    have hfiled := filed_report { worker with stage := .gone none } .abandoned hat
    obtain ⟨hactive, hpeak⟩ := counts_report pool i { worker with stage := .gone none } .abandoned
    obtain ⟨hdriving, hbroken⟩ := counts_set _ hat hfiled.workers
    rw [hplace] at hdriving
    rw [hdead] at hbroken
    exact .stays hdriving hbroken hactive hpeak
  · let next : Worker σ :=
      { worker with
        progress := worker.progress.start pool.clock.now
        stage := .connecting pool.clock.now }
    have hworkers : (pool.put i next).workers = pool.workers.set i next := rfl
    obtain ⟨hdriving, hbroken⟩ := counts_set next hat hworkers
    rw [hplace] at hdriving
    rw [hdead] at hbroken
    exact .enters hdriving hbroken rfl rfl

variable [Sink σ]

/-- A worker that makes its `move` has a place, and goes on, leaves or dies. -/
theorem shifts_apply {surroundings : Surroundings σ} {worker : Worker σ} {move : Move σ}
    (hat : pool.workers[i]? = some worker)
    (hwake : worker.wake surroundings pool.clock = some move) :
    Shifts pool (pool.apply i move) := by
  obtain ⟨hplace, hnears⟩ := Worker.nears_of_wake hwake
  -- Whoever has a place is alive.
  have hdead : worker.isDead.toNat = 0 := by
    have hone := worker.place_add_isDead_le
    omega
  have hfiled := (advances_apply hat hwake).workers
  obtain ⟨hdriving, hbroken⟩ := counts_set move.filed hat hfiled
  rw [move.counts_filed.1, hnears.place, hplace] at hdriving
  rw [move.counts_filed.2, Worker.isDead_of_wake hwake, hdead] at hbroken
  cases move with
  | waits next => exact .stays (Nat.add_right_cancel hdriving) hbroken rfl rfl
  | leaves next outcome =>
    -- It leaves its place after its report.
    obtain ⟨hactive, hpeak⟩ := counts_report pool i next outcome
    exact .leaves hdriving hbroken (congrArg (· - 1) hactive) hpeak
  | aborts next cause => exact .leaves hdriving hbroken rfl rfl
  | dies next => exact .dies hdriving hbroken rfl rfl

/-- Every `wake` is a shift of `driving`, `broken`, `active` and `peak`. -/
theorem shifts_wake (surroundings : Surroundings σ) (i : Nat) (pool : Pool σ) :
    Shifts pool (pool.wake surroundings i) := by
  rcases pool.wake_cases surroundings i with
    hsame | ⟨worker, hat, hstage, henter⟩ | ⟨worker, move, hat, hwake, hmove⟩
  · rw [hsame]
    exact .stays rfl rfl rfl rfl
  · rw [henter]
    exact shifts_enter hat hstage
  · rw [hmove]
    exact shifts_apply hat hwake

namespace Course

/-! ## The peak of a history -/

/-- Every `Action` is one: it counts at most one worker in another way than before. -/
theorem shifts_perform (course : Course σ) (action : Action σ) :
    Shifts course.pool (course.perform action).pool := by
  obtain ⟨pool, returned⟩ := course
  cases action with
  | pass moment => exact .stays rfl rfl rfl rfl
  | raise => exact .stays rfl rfl rfl rfl
  | wake surroundings i => exact shifts_wake surroundings i pool
  | finish =>
    cases returned with
    | some result => exact .stays rfl rfl rfl rfl
    | none =>
      simp only [perform]
      split
      · obtain ⟨hactive, hpeak, hdriving, hbroken⟩ := pool.counts_sweep
        exact .stays hdriving hbroken hactive hpeak
      · exact .stays rfl rfl rfl rfl

/-- The largest value that `measure` takes in a history of `actions`, the start and the end
included. -/
def highest (measure : Pool σ → Nat) : List (Action σ) → Course σ → Nat
  | [], course => measure course.pool
  | action :: actions, course =>
    max (measure course.pool) (highest measure actions (course.perform action))

variable {measure : Pool σ → Nat} {actions front : List (Action σ)} {course : Course σ}

/-- A `bound` of `highest` is a bound of `measure` after every `front` of the history. -/
theorem highest_le_iff {bound : Nat} :
    highest measure actions course ≤ bound ↔
      ∀ front, front <+: actions → measure (course.after front).pool ≤ bound := by
  induction actions generalizing course with
  | nil =>
    simp only [highest, List.prefix_nil, forall_eq, after_nil]
  | cons action actions ih =>
    rw [highest, Nat.max_le, ih]
    constructor
    · rintro ⟨hnow, hlater⟩ front hfront
      rcases List.prefix_cons_iff.mp hfront with rfl | ⟨rest, rfl, hrest⟩
      · exact hnow
      · exact hlater rest hrest
    · intro hall
      refine ⟨hall [] (List.nil_prefix), ?_⟩
      intro rest hrest
      exact hall (action :: rest) (List.prefix_cons_iff.mpr (.inr ⟨rest, rfl, hrest⟩))

/-- After no `front` of the history is `measure` above its `highest`. -/
theorem le_highest (hfront : front <+: actions) :
    measure (course.after front).pool ≤ highest measure actions course :=
  highest_le_iff.mp (Nat.le_refl _) front hfront

/-- Measures that agree after every `front` of the history have the same `highest`. -/
theorem highest_congr {other : Pool σ → Nat}
    (h : ∀ front, measure (course.after front).pool = other (course.after front).pool) :
    highest measure actions course = highest other actions course := by
  refine Nat.le_antisymm ?_ ?_
  · exact highest_le_iff.mpr fun front hfront => h front ▸ le_highest hfront
  · exact highest_le_iff.mpr fun front hfront => (h front).symm ▸ le_highest hfront

/-- A pool that is `Counted` stays so `after` any history. -/
theorem counted_after (h : course.pool.Counted) (actions : List (Action σ)) :
    (course.after actions).pool.Counted := by
  induction actions generalizing course with
  | nil => exact h
  | cons action actions ih => exact ih ((course.shifts_perform action).counted h)

/-- In no history are there fewer who are `broken` than before it. -/
theorem broken_le_after (course : Course σ) (actions : List (Action σ)) :
    course.pool.broken ≤ (course.after actions).pool.broken := by
  induction actions generalizing course with
  | nil => exact Nat.le_refl _
  | cons action actions ih =>
    exact Nat.le_trans (course.shifts_perform action).broken_le (ih (course.perform action))

/-- After a history, `peak` is the `highest` value of `active` in it, unless it was larger before.
-/
theorem peak_after (h : course.pool.Counted) (actions : List (Action σ)) :
    (course.after actions).pool.peak =
      max course.pool.peak (highest Pool.active actions course) := by
  induction actions generalizing course with
  | nil => exact (Nat.max_eq_left h.le_peak).symm
  | cons action actions ih =>
    have hshifts := course.shifts_perform action
    have hle : (course.perform action).pool.active ≤
        highest Pool.active actions (course.perform action) := le_highest (List.nil_prefix)
    have hpeak := hshifts.peak_eq h
    have hbefore := h.le_peak
    rw [after_cons, ih (hshifts.counted h), highest]
    omega

omit [Sink σ] in
/-- At the start everybody is in the queue: the pool is `Counted`, and `peak` is zero. -/
theorem counted_launch (policy : Policy) (first : Tally) (jobs : List Job) :
    (launch policy first jobs : Course σ).pool.Counted ∧
      (launch policy first jobs : Course σ).pool.peak = 0 := by
  have hstart (jobs : List Job) : (start policy first jobs : Pool σ).Counted := by
    have hnone : (start policy first jobs : Pool σ).driving = 0 ∧
        (start policy first jobs : Pool σ).broken = 0 := by
      unfold driving broken start
      induction jobs with
      | nil => exact ⟨rfl, rfl⟩
      | cons job jobs ih => exact ⟨(Nat.zero_add _).trans ih.1, (Nat.zero_add _).trans ih.2⟩
    refine ⟨?_, Nat.le_refl 0⟩
    rw [hnone.1, hnone.2]
    rfl
  unfold launch
  split
  · exact ⟨hstart [], rfl⟩
  · exact ⟨hstart jobs, rfl⟩

/-- In all that can come of a launch, no more workers are `driving` than `policy.size` allows or
than there are jobs, and `driving` and `broken` together are no more than the jobs. -/
theorem driving_le (policy : Policy) (first : Tally) (jobs : List Job) {later : Course σ}
    (hreaches : (launch policy first jobs).Reaches later) :
    later.pool.driving ≤ min policy.size jobs.length ∧
      later.pool.driving + later.pool.broken ≤ jobs.length := by
  have hlaunch : Placed policy.size (launch policy first jobs : Course σ).pool ∧
      (launch policy first jobs : Course σ).pool.workers.length ≤ jobs.length := by
    unfold launch
    split
    · exact ⟨placed_start policy first [], Nat.zero_le _⟩
    · exact ⟨placed_start policy first jobs, Nat.le_of_eq (List.length_map _)⟩
  have hplaced : later.pool.permits + later.pool.driving = policy.size :=
    placed_of_reaches hreaches hlaunch.1
  have hlength := congrArg List.length (jobs_of_reaches hreaches)
  simp only [List.length_map] at hlength
  have hcount := later.pool.driving_add_broken_le
  omega

/-- What `peak` says of the workers that are `driving` at the same time. After every history it is
the `highest` value of `driving + broken`. So it is at least the `highest` value of
`driving`, and too large by no more than the number of those who are `broken` in the end. If that is
zero, `peak` is the `highest` value of `driving`, and within `policy.size` and the number of jobs.
-/
theorem peak_eq_highest (policy : Policy) (first : Tally) (jobs : List Job)
    (actions : List (Action σ)) :
    let start : Course σ := launch policy first jobs
    let last := (start.after actions).pool
    last.peak = highest (fun pool => pool.driving + pool.broken) actions start ∧
      highest driving actions start ≤ min policy.size jobs.length ∧
      highest driving actions start ≤ last.peak ∧
      last.peak ≤ highest driving actions start + last.broken ∧
      last.peak ≤ jobs.length ∧
      (last.broken = 0 →
        last.peak = highest driving actions start ∧ last.peak ≤ min policy.size jobs.length) := by
  intro start last
  obtain ⟨hcounted, hzero⟩ := counted_launch policy first jobs (σ := σ)
  have hbounds (front : List (Action σ)) := driving_le policy first jobs (reaches_after front start)
  have hpeak : last.peak = highest (fun pool => pool.driving + pool.broken) actions start := by
    rw [peak_after hcounted, hzero, Nat.zero_max]
    exact highest_congr fun front => (counted_after hcounted front).active
  have hdriving : highest driving actions start ≤ min policy.size jobs.length :=
    highest_le_iff.mpr fun front _ => (hbounds front).1
  have hlower : highest driving actions start ≤ last.peak := by
    refine highest_le_iff.mpr fun front hfront => ?_
    have htop := highest_le_iff.mp (Nat.le_of_eq hpeak.symm) front hfront
    exact Nat.le_trans (Nat.le_add_right _ _) htop
  have hupper : last.peak ≤ highest driving actions start + last.broken := by
    rw [hpeak]
    refine highest_le_iff.mpr fun front hfront => ?_
    -- Whoever has died by then has died by the end.
    obtain ⟨rest, rfl⟩ := hfront
    have hdead : (start.after front).pool.broken ≤ last.broken := by
      have hle := broken_le_after (start.after front) rest
      rwa [← after_append] at hle
    exact Nat.add_le_add (le_highest (List.prefix_append front rest)) hdead
  have hjobs : last.peak ≤ jobs.length := by
    rw [hpeak]
    exact highest_le_iff.mpr fun front _ => (hbounds front).2
  refine ⟨hpeak, hdriving, hlower, hupper, hjobs, ?_⟩
  intro hnobody
  rw [hnobody, Nat.add_zero] at hupper
  exact ⟨Nat.le_antisymm hupper hlower, Nat.le_trans hupper hdriving⟩

/-- Two workers of one event each. The payload of the first, of `0xFFFFFFFFFFFFFFFF` bytes, is more
than can be built. -/
def oversizedJobs : List Job :=
  [(0, .single 0xFFFFFFFFFFFFFFFF), (1, .single 100)].map fun (workerId, sizes) =>
    ⟨workerId, ⟨"burst", .burst, .stream, 1, sizes, .load, 7, .zero, 0⟩,
      ⟨"receiver:7000", "receiver:7001", .ofMillis 50, .ofMillis 50, .zero⟩⟩

/-- Every session opens at once and takes every write. -/
def openSurroundings : Surroundings Recorder where
  dial _ := ⟨0, .ok (.new .stream none)⟩
  timestamps _ := 0

/-- Worker 0 gets the place and dies; worker 1 gets the place that it has left, and goes on to the
end. -/
def oversizedHistory : List (Action Recorder) :=
  [0, 0, 1, 1, 1, 1].map (Action.wake openSurroundings) ++ [.finish]

/-- In a pool of `size` 1, no two workers are `driving` at the same time. If the first of the
`oversizedJobs` dies, `peak` is 2 all the same. -/
theorem peak_of_oversized :
    firstInvalid? oversizedJobs = none ∧
      (let start : Course Recorder := launch ⟨1, 10000, 5000⟩ .zero oversizedJobs
        let last := start.after oversizedHistory
        last.returned = some (.ok ⟨2, 1, 1, 0, .zero, ⟨1, 0, 0, 1⟩, [("burst", ⟨2, 1, 1, 0⟩)]⟩) ∧
          last.pool.broken = 1 ∧ highest driving oversizedHistory start = 1 ∧
          last.pool.peak = 2) ∧
      (run ⟨1, 10000, 5000⟩ openSurroundings .zero oversizedJobs).2.1.peak = 2 := by
  decide +kernel

end Course

end Pool

end Volley
