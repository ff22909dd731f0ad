import Mathlib.Algebra.BigOperators.Group.List.Basic
import Mathlib.Algebra.GroupWithZero.Nat
import Volley.Proofs.Pool.History

/-!
# The places of a pool

A worker has a place from the moment it leaves the queue to the moment it leaves the pool, and the
places that nobody has are free. So a pool that has places at all is never stuck: either nothing
more is to be expected of any worker, or there is one whose turn brings its run closer to the end.

## Main definitions

* `Worker.place`: the place that a worker has, if it has one.
* `Pool.Placed`: every place of a pool is free, or some worker has it.

## Main results

* `Worker.Goes.nears`: whatever a worker does brings its run closer to the end.
* `Pool.Course.placed_of_reaches`: no place is lost, and none is given away twice.
* `Pool.Placed.exists_wake`: a pool with places is never stuck.
* `Pool.Course.jobs_of_reaches`: every worker keeps its job.
-/

namespace Volley

variable {σ : Type}

namespace Worker

/-- The number of places that a worker has: one from `Stage.connecting` to `Stage.closing`, else
none. -/
def place (worker : Worker σ) : Nat :=
  match worker.stage with
  | .queued => 0
  | .connecting _ => 1
  | .sending _ _ _ => 1
  | .pausing _ _ => 1
  | .closing _ _ _ => 1
  | .gone _ => 0
  | .dead _ => 0

/-- A worker that `isOver` has no `place`. -/
theorem place_of_isOver {worker : Worker σ} (h : worker.isOver = true) : worker.place = 0 := by
  unfold isOver at h
  unfold place
  cases hstage : worker.stage with
  | queued | gone _ | dead _ => rfl
  | connecting _ | sending _ _ _ | pausing _ _ | closing _ _ _ =>
    rw [hstage] at h
    cases h

end Worker

/-- The number of places that a worker has after a move: one if it `waits`, else none. -/
def Move.place : Move σ → Nat
  | .waits _ => 1
  | .leaves _ _ => 0
  | .aborts _ _ => 0
  | .dies _ => 0

/-- A move that lowers the `weight` of its worker, and so brings it closer to its end. -/
structure Move.Nears (worker : Worker σ) (move : Move σ) : Prop where
  job : move.worker.job = worker.job
  weight : move.worker.weight < worker.weight
  place : move.worker.place = move.place

namespace Worker

/-- A worker that goes on, by `Worker.proceed`, has one write less before it, or none. -/
theorem nears_proceed {worker : Worker σ} {run : Run σ} (clock : Clock)
    (h : 2 * run.plan.remaining + 1 < worker.weight) :
    (worker.proceed clock run).Nears worker := by
  have hlast : 1 < worker.weight := by omega
  unfold proceed
  split
  · next flight flying hturn =>
    have hless := Run.remaining_of_turn hturn
    refine ⟨rfl, ?_, rfl⟩
    show 2 * flying.plan.remaining + 3 < worker.weight
    omega
  · exact ⟨rfl, hlast, rfl⟩
  · exact ⟨rfl, hlast, rfl⟩
  · exact ⟨rfl, Nat.zero_lt_of_lt hlast, rfl⟩

/-- A worker that leaves, by `Worker.leave`, has nothing before it. -/
theorem nears_leave [Sink σ] {worker last : Worker σ} {run : Run σ}
    {result : Except EncodingError Ending} (hjob : last.job = worker.job)
    (hweight : 0 < worker.weight) : (last.leave run result).Nears worker := by
  unfold leave
  cases result with
  | ok ending => exact ⟨hjob, hweight, rfl⟩
  | error cause => exact ⟨hjob, hweight, rfl⟩

variable [Sink σ] {surroundings : Surroundings σ} {clock : Clock} {worker : Worker σ}
  {move : Move σ}

/-- A worker with a move of its own has a `place`, and the move `Nears` the end. -/
theorem nears_of_wake (hwake : worker.wake surroundings clock = some move) :
    worker.place = 1 ∧ move.Nears worker := by
  cases hstage : worker.stage with
  | connecting since =>
    refine ⟨by rw [place, hstage], ?_⟩
    have hweight : worker.weight = 2 * worker.job.spec.count.toNat + 4 := by rw [weight, hstage]
    rw [wake, hstage] at hwake
    simp only at hwake
    split at hwake
    · cases hwake
      refine ⟨rfl, ?_, rfl⟩
      show 0 < worker.weight
      omega
    · cases hwake
      refine nears_proceed clock ?_
      rw [Run.start, Plan.remaining_start]
      omega
  | sending flight run since =>
    refine ⟨by rw [place, hstage], ?_⟩
    have hweight : worker.weight = 2 * run.plan.remaining + 3 := by rw [weight, hstage]
    rw [wake, hstage] at hwake
    simp only [Run.submit_eq] at hwake
    split at hwake
    · cases hwake
      refine ⟨rfl, ?_, rfl⟩
      show 1 < worker.weight
      omega
    · cases hwake
      exact nears_leave rfl (by omega)
    · next settled hsettle =>
      -- What is still to come after the answer is what was to come before.
      have hplan := congrArg (·.2.plan) hsettle
      simp only [Run.plan_settle] at hplan
      rw [hplan] at hweight
      split at hwake
      · cases hwake
        exact nears_proceed clock (by omega)
      · cases hwake
        refine ⟨rfl, ?_, rfl⟩
        show 2 * settled.plan.remaining + 2 < worker.weight
        omega
  | pausing run since =>
    refine ⟨by rw [place, hstage], ?_⟩
    have hweight : worker.weight = 2 * run.plan.remaining + 2 := by rw [weight, hstage]
    rw [wake, hstage] at hwake
    cases hwake
    refine nears_proceed clock ?_
    show 2 * run.plan.remaining + 1 < worker.weight
    omega
  | closing result run since =>
    refine ⟨by rw [place, hstage], ?_⟩
    rw [wake, hstage] at hwake
    cases hwake
    have hweight : worker.weight = 1 := by rw [weight, hstage]
    exact nears_leave rfl (by omega)
  -- In these stages a worker does not wake by itself.
  | queued | gone _ | dead _ =>
    rw [wake, hstage] at hwake
    cases hwake

/-- Every move that a worker can make `Nears` the end. -/
theorem Goes.nears (h : worker.Goes surroundings clock move) : move.Nears worker := by
  cases h with
  | enters hstage hclock =>
    refine ⟨rfl, ?_, rfl⟩
    show 2 * worker.job.spec.count.toNat + 4 < worker.weight
    rw [weight, hstage]
    exact Nat.lt_succ_self _
  | turnsBack hstage hclock =>
    refine ⟨rfl, ?_, rfl⟩
    show 0 < worker.weight
    rw [weight, hstage]
    exact Nat.succ_pos _
  | moves hwake => exact (nears_of_wake hwake).2

/-- A worker that `isOver` makes no move. -/
theorem Goes.isOver_eq_false (h : worker.Goes surroundings clock move) :
    worker.isOver = false := by
  have hless := h.nears.weight
  unfold weight at hless
  unfold isOver
  cases hstage : worker.stage with
  | gone _ | dead _ =>
    rw [hstage] at hless
    cases hless
  | queued | connecting _ | sending _ _ _ | pausing _ _ | closing _ _ _ => rfl

end Worker

theorem Move.weight_filed (move : Move σ) : move.filed.weight = move.worker.weight := by
  cases move <;> rfl

namespace Pool

/-- When one entry of a list is changed, a sum over the list changes by as much. -/
theorem sum_map_set {α : Type} (f : α → Nat) {entries : List α} {i : Nat} {entry : α} (next : α)
    (hat : entries[i]? = some entry) :
    ((entries.set i next).map f).sum + f entry = (entries.map f).sum + f next := by
  induction entries generalizing i with
  | nil => cases hat
  | cons head rest ih =>
    cases i with
    | zero =>
      cases hat
      simp only [List.set_cons_zero, List.map_cons, List.sum_cons]
      omega
    | succ i =>
      have hrest := ih hat
      simp only [List.set_cons_succ, List.map_cons, List.sum_cons]
      omega

/-- Of the `size` places of a pool each is one of its `permits`, or the `place` of a worker. -/
def Placed (size : Nat) (pool : Pool σ) : Prop :=
  pool.permits + (pool.workers.map Worker.place).sum = size

variable {size : Nat} {pool later : Pool σ} {i : Nat}

/-- At the start all places are `permits`. -/
theorem placed_start (policy : Policy) (tally : Tally) (jobs : List Job) :
    Placed policy.size (start policy tally jobs : Pool σ) := by
  have hnone : ((jobs.map Worker.new).map (Worker.place (σ := σ))).sum = 0 := by
    induction jobs with
    | nil => rfl
    | cons job jobs ih => exact (Nat.zero_add _).trans ih
  rw [Placed, start, hnone, Nat.add_zero]

/-- A `report` takes no place and frees none. -/
theorem placed_report {worker : Worker σ} (next : Worker σ) (outcome : Outcome)
    (hat : pool.workers[i]? = some worker) :
    (pool.report i next outcome).permits = pool.permits ∧
      ((pool.report i next outcome).workers.map Worker.place).sum + worker.place =
        (pool.workers.map Worker.place).sum + next.place := by
  have hfiled := filed_report next outcome hat
  refine ⟨?_, ?_⟩
  · unfold report
    split <;> rfl
  · rw [hfiled.workers]
    exact sum_map_set Worker.place _ hat

variable [Sink σ]

/-- A worker that wakes takes one of the `permits`, or keeps its `place`, or gives it back. -/
theorem Placed.wake (h : Placed size pool) (surroundings : Surroundings σ) (i : Nat) :
    Placed size (pool.wake surroundings i) := by
  unfold Placed at h ⊢
  rcases pool.wake_cases surroundings i with
    hsame | ⟨worker, hat, hstage, henter⟩ | ⟨worker, move, hat, hwake, hmove⟩
  · rw [hsame]
    exact h
  · -- A worker in the queue has no place. It takes one with its permit, or leaves without either.
    have hqueued : worker.place = 0 := by rw [Worker.place, hstage]
    rw [henter, enter]
    split
    · exact h
    · split
      · obtain ⟨hpermits, hsum⟩ := placed_report { worker with stage := .gone none } .abandoned hat
        rw [hpermits]
        simp only [Worker.place, hstage] at hsum
        omega
      · have hsum := sum_map_set Worker.place { worker with
          progress := worker.progress.start pool.clock.now
          stage := .connecting pool.clock.now } hat
        simp only [Worker.place, hstage] at hsum
        simp only [put]
        omega
  · -- Any other worker keeps its place or gives it back, as `hmoved` says of the move.
    obtain ⟨hplace, hnears⟩ := Worker.nears_of_wake hwake
    have hmoved := hnears.place
    rw [hmove]
    cases move with
    | waits next =>
      have hsum := sum_map_set Worker.place next hat
      simp only [Move.worker, Move.place] at hmoved
      simp only [apply, put]
      omega
    | leaves next outcome =>
      obtain ⟨hpermits, hsum⟩ := placed_report next outcome hat
      simp only [Move.worker, Move.place] at hmoved
      simp only [apply, release]
      omega
    | aborts next cause =>
      have hsum := sum_map_set Worker.place next hat
      simp only [Move.worker, Move.place] at hmoved
      simp only [apply, put, release]
      omega
    | dies next =>
      have hsum := sum_map_set Worker.place next hat
      simp only [Move.worker, Move.place] at hmoved
      simp only [apply, put]
      omega

/-- A `wake` leaves every worker its `job`. -/
theorem jobs_wake (surroundings : Surroundings σ) (i : Nat) (pool : Pool σ) :
    (pool.wake surroundings i).workers.map Worker.job = pool.workers.map Worker.job := by
  rcases pool.wake_eq_or_advances surroundings i with ⟨hsame, -⟩ | ⟨worker, move, hadvances⟩
  · rw [hsame]
  · have hjob := move.job_filed.trans hadvances.goes.nears.job
    obtain ⟨hlt, hworker⟩ := List.getElem?_eq_some_iff.mp hadvances.at_place
    rw [hadvances.workers, List.map_set, hjob, ← hworker, ← List.map_set, List.set_getElem_self]

omit [Sink σ] in
/-- What a function `f` says of a worker without looking at its `progress` is the same after the
`sweep`. -/
theorem map_sweep {α : Type} (f : Worker σ → α)
    (hf : ∀ (worker : Worker σ) progress, f { worker with progress } = f worker) (pool : Pool σ) :
    pool.sweep.workers.map f = pool.workers.map f := by
  refine sweep_induction (fun _ swept => swept.workers.map f = pool.workers.map f) pool rfl ?_ ?_
  · intro i swept worker hswept hat
    have hfiled := filed_report worker .abandoned hat
    obtain ⟨hlt, rfl⟩ := List.getElem?_eq_some_iff.mp hat
    rw [hfiled.workers, List.map_set, Move.filed, hf, ← List.map_set, List.set_getElem_self]
    exact hswept
  · intro i swept hswept hnone
    exact hswept

omit [Sink σ] in
theorem exists_of_mem_sweep {α : Type} (f : Worker σ → α)
    (hf : ∀ (worker : Worker σ) progress, f { worker with progress } = f worker)
    {worker : Worker σ} (hmem : worker ∈ pool.sweep.workers) :
    ∃ other ∈ pool.workers, f other = f worker := by
  have himage := List.mem_map_of_mem (f := f) hmem
  rw [map_sweep f hf] at himage
  exact List.mem_map.mp himage

omit [Sink σ] in
/-- The `sweep` takes no place and frees none. -/
theorem Placed.sweep (h : Placed size pool) : Placed size pool.sweep := by
  refine sweep_induction (fun _ swept => Placed size swept) pool h ?_ ?_
  · intro i swept worker hplaced hat
    obtain ⟨hpermits, hsum⟩ := placed_report worker .abandoned hat
    unfold Placed at hplaced ⊢
    omega
  · intro i swept hplaced hnone
    exact hplaced

/-- Whoever has a turn lowers the `weight` of the pool. -/
theorem Advances.weight_lt {surroundings : Surroundings σ} {worker : Worker σ} {move : Move σ}
    (h : Advances surroundings i pool later worker move) : later.weight < pool.weight := by
  have hsum := sum_map_set Worker.weight move.filed h.at_place
  have hless := h.goes.nears.weight
  rw [← move.weight_filed] at hless
  show (later.workers.map Worker.weight).sum < (pool.workers.map Worker.weight).sum
  rw [h.workers]
  omega

/-- A pool with places is never stuck: unless it `isOver`, there is a worker whose `wake` lowers the
`weight` of the pool, whatever it finds around it. -/
theorem Placed.exists_wake (h : Placed size pool) (hsize : 0 < size)
    (hunfinished : pool.isOver = false) :
    ∃ i, ∀ surroundings, (pool.wake surroundings i).weight < pool.weight := by
  suffices hbusy : ∃ i, ¬ pool.Idle i by
    obtain ⟨i, hbusy⟩ := hbusy
    refine ⟨i, fun surroundings => ?_⟩
    rcases pool.wake_eq_or_advances surroundings i with ⟨-, hidle⟩ | ⟨worker, move, hadvances⟩
    · exact absurd hidle hbusy
    · exact hadvances.weight_lt
  by_contra! hidle
  -- Nobody has a place, so all places are free, and then nobody can be waiting for one.
  have hnone : (pool.workers.map Worker.place).sum = 0 := by
    refine List.sum_eq_zero ?_
    intro place hplace
    obtain ⟨worker, hworker, rfl⟩ := List.mem_map.mp hplace
    obtain ⟨i, hat⟩ := List.mem_iff_getElem?.mp hworker
    rcases hidle i worker hat with hover | ⟨hqueued, -⟩
    · exact Worker.place_of_isOver hover
    · rw [Worker.place, hqueued]
  rw [Placed, hnone, Nat.add_zero] at h
  obtain ⟨worker, hworker, hover⟩ := List.all_eq_false.mp hunfinished
  obtain ⟨i, hat⟩ := List.mem_iff_getElem?.mp hworker
  rcases hidle i worker hat with hdone | ⟨-, hfull⟩
  · exact hover hdone
  · omega

namespace Course

/-- No place is lost in the course of a run, and none is given away twice: the pool stays `Placed`.
-/
theorem placed_of_reaches {first last : Course σ} (hreaches : first.Reaches last)
    (h : Placed size first.pool) : Placed size last.pool := by
  induction hreaches with
  | refl => exact h
  | tail _ hmoves ih =>
    cases hmoves with
    | pass => exact ih
    | raise => exact ih
    | wake _ _ surroundings i => exact Placed.wake ih surroundings i
    | finish => exact ih.sweep

/-- In all that a run `Reaches` every worker has the `job` that it had. -/
theorem jobs_of_reaches {first last : Course σ} (hreaches : first.Reaches last) :
    last.pool.workers.map Worker.job = first.pool.workers.map Worker.job := by
  induction hreaches with
  | refl => rfl
  | tail _ hmoves ih =>
    cases hmoves with
    | pass => exact ih
    | raise => exact ih
    | wake _ _ surroundings i => exact (jobs_wake surroundings i _).trans ih
    | finish => exact (map_sweep Worker.job (fun _ _ => rfl) _).trans ih

end Course

end Pool

end Volley
