import Volley.Pool.Schedule
import Volley.Proofs.Pool.History

/-!
# The schedule

`Pool.run` is one of the ways in which a run can take its course: the one in which nothing is late.
Nothing is early in it either. The schedule notes for every worker when its wait is over, keeps its
notes up to date, and wakes nobody before that.

## Main definitions

* `Pool.Agenda.UpToDate`: the notes of the schedule are right.
* `Pool.Course.Timely`: an action that wakes nobody whose wait is not over.

## Main results

* `Pool.Agenda.UpToDate.step`: the notes are kept up to date.
* `Pool.Course.exists_timely_run`: a run of the schedule has a history of timely actions.
* `Pool.Course.reaches_run`: what it comes to can come of the launch of its jobs.
-/

namespace Volley.Pool

variable {σ : Type}

/-- The entry that is `earliest` is one of the list, with its place. -/
theorem getElem?_of_earliest {due : List (Option Nat)} {first i moment : Nat}
    (h : earliest first due = some (i, moment)) :
    ∃ k, i = first + k ∧ due[k]? = some (some moment) := by
  induction due generalizing first with
  | nil => cases h
  | cons entry rest ih =>
    -- A place in the tail is one further on in the whole list.
    have hrest (htail : earliest (first + 1) rest = some (i, moment)) :
        ∃ k, i = first + k ∧ (entry :: rest)[k]? = some (some moment) := by
      obtain ⟨k, hi, hk⟩ := ih htail
      exact ⟨k + 1, by omega, hk⟩
    rw [earliest] at h
    cases entry with
    | none =>
      cases htail : earliest (first + 1) rest with
      | none =>
        rw [htail] at h
        cases h
      | some later =>
        rw [htail] at h
        exact hrest (htail.trans h)
    | some soon =>
      cases htail : earliest (first + 1) rest with
      | none =>
        rw [htail] at h
        cases h
        exact ⟨0, rfl, rfl⟩
      | some later =>
        rw [htail] at h
        simp only [Option.map_some, earlier] at h
        split at h
        · exact hrest (htail.trans h)
        · cases h
          exact ⟨0, rfl, rfl⟩

/-- What the run has to `notice` is no business of its workers. -/
@[simp]
theorem workers_notice (pool : Pool σ) : pool.notice.workers = pool.workers := by
  unfold notice
  split <;> rfl

variable [Sink σ]

namespace Agenda

/-- An agenda whose `due` has of every worker when its wait is over, by `Worker.due?`. -/
def UpToDate (surroundings : Surroundings σ) (agenda : Agenda σ) : Prop :=
  agenda.due = agenda.pool.workers.map (·.due? surroundings agenda.pool.clock.stopAt)

variable {surroundings : Surroundings σ} {agenda : Agenda σ} {i moment : Nat}

/-- The worker that is `next` is due no later than the moment at which it is woken. -/
theorem UpToDate.due_le (h : agenda.UpToDate surroundings) (hnext : agenda.next = some (i, moment))
    {worker : Worker σ} (hat : agenda.pool.workers[i]? = some worker) {due : Nat}
    (hdue : worker.due? surroundings agenda.pool.clock.stopAt = some due) : due ≤ moment := by
  unfold next at hnext
  split at hnext
  · next first hadmission =>
    cases hnext
    -- A worker in the queue waits for its place and for nothing else.
    unfold nextAdmission at hadmission
    split at hadmission
    · cases hadmission
    · obtain ⟨hlt, hqueued, -⟩ := List.findIdx?_eq_some_iff_getElem.mp hadmission
      obtain ⟨_, hworker⟩ := List.getElem?_eq_some_iff.mp hat
      rw [hworker] at hqueued
      split at hqueued
      · next hstage =>
        rw [Worker.due?, hstage] at hdue
        cases hdue
      · cases hqueued
  · obtain ⟨k, hk, hentry⟩ := getElem?_of_earliest hnext
    rw [Nat.zero_add] at hk
    cases hk
    rw [h, List.getElem?_map, hat] at hentry
    simp only [Option.map_some, Option.some.injEq] at hentry
    rw [hdue] at hentry
    cases hentry
    exact Nat.le_refl _

/-- In a `step` of the schedule time passes, a worker has its `wake`, and the run its `notice`. -/
theorem pool_step (surroundings : Surroundings σ) (i moment : Nat) (agenda : Agenda σ) :
    (agenda.step surroundings i moment).pool =
      (({ agenda.pool with clock.now := max agenda.pool.clock.now moment } : Pool σ).wake
        surroundings i).notice := by
  simp only [step]
  split <;> rfl

omit [Sink σ] in
/-- Notes that are right of a list stay right of the list with a new entry, if that is noted. -/
private theorem set_map_of_set {f : Worker σ → Option Nat} {workers later : List (Worker σ)}
    (h : later = workers ∨ ∃ worker next, workers[i]? = some worker ∧ later = workers.set i next) :
    (workers.map f).set i (later[i]?.bind f) = later.map f := by
  rcases h with rfl | ⟨worker, next, hat, rfl⟩
  · cases hat : later[i]? with
    | none =>
      rw [List.set_eq_of_length_le]
      rw [List.length_map]
      exact List.getElem?_eq_none_iff.mp hat
    | some worker =>
      obtain ⟨hlt, rfl⟩ := List.getElem?_eq_some_iff.mp hat
      rw [Option.bind_some, ← List.map_set, List.set_getElem_self]
  · rw [List.getElem?_set_self (List.getElem?_eq_some_iff.mp hat).1, Option.bind_some,
      ← List.map_set]

/-- Only the worker that wakes is due at another time than before, unless `stopAt` is brought
forward; then every entry of `due` is made anew. -/
theorem UpToDate.step (h : agenda.UpToDate surroundings) (i moment : Nat) :
    (agenda.step surroundings i moment).UpToDate surroundings := by
  simp only [Agenda.step]
  split
  · next hstop =>
    unfold UpToDate at h ⊢
    simp only [hstop, h, workers_notice]
    refine set_map_of_set ?_
    rcases Pool.wake_eq_or_advances surroundings i
        { agenda.pool with clock.now := max agenda.pool.clock.now moment } with
      ⟨hsame, -⟩ | ⟨worker, move, hadvances⟩
    · exact .inl ((congrArg Pool.workers hsame).trans rfl)
    · exact .inr ⟨worker, _, hadvances.at_place, hadvances.workers⟩
  · rfl

end Agenda

namespace Course

/-- An action that wakes nobody whose wait is not over, by `Worker.IsDue`. -/
def Timely (surroundings : Surroundings σ) (course : Course σ) : Action σ → Prop
  | .pass _ => True
  | .raise => True
  | .wake other i => other = surroundings ∧
      ∀ worker, course.pool.workers[i]? = some worker →
        worker.IsDue surroundings course.pool.clock
  | .finish => True

/-- In a history of `Timely` actions all workers wake in the same `surroundings`. -/
theorem surroundings_eq_of_timely {surroundings other : Surroundings σ}
    {actions : List (Action σ)} {course : Course σ}
    (h : Along (Timely surroundings) actions course) {i : Nat} (hmem : .wake other i ∈ actions) :
    other = surroundings := by
  obtain ⟨later, hsame, -⟩ := exists_of_along h hmem
  exact hsame

/-- The run notices a `fault` by an action of its own, which is always timely. -/
theorem exists_timely_notice (surroundings : Surroundings σ) (pool : Pool σ)
    (returned : Option (Except Failure Tally)) :
    ∃ actions, Along (Timely surroundings) actions ⟨pool, returned⟩ ∧
      after actions ⟨pool, returned⟩ = ⟨pool.notice, returned⟩ := by
  unfold notice
  split
  · exact ⟨[.raise], ⟨trivial, trivial⟩, rfl⟩
  · exact ⟨[], trivial, rfl⟩

/-- What `Agenda.runUntil` comes to is what some history of `Timely` actions comes to. -/
theorem exists_timely_runUntil {surroundings : Surroundings σ} (horizon : Clock → Nat)
    {agenda : Agenda σ} (h : agenda.UpToDate surroundings)
    (returned : Option (Except Failure Tally)) :
    ∃ actions, Along (Timely surroundings) actions ⟨agenda.pool, returned⟩ ∧
      after actions ⟨agenda.pool, returned⟩ =
        ⟨(agenda.runUntil surroundings horizon).pool, returned⟩ := by
  fun_induction Agenda.runUntil surroundings horizon agenda with
  | case1 => exact ⟨[], trivial, rfl⟩
  | case2 => exact ⟨[], trivial, rfl⟩
  | case3 agenda i moment hnext hhorizon later hweight ih =>
    obtain ⟨actions, htimely, hafter⟩ := ih (h.step i moment)
    -- One step of the agenda is a pass of time, a wake, and a raise if the wake has left a fault.
    let woken := ({ agenda.pool with clock.now := max agenda.pool.clock.now moment } : Pool σ).wake
      surroundings i
    obtain ⟨noticing, hnoticing, hnoticed⟩ := exists_timely_notice surroundings woken returned
    have hpool : after noticing (after [.pass moment, .wake surroundings i]
        ⟨agenda.pool, returned⟩) = ⟨later.pool, returned⟩ := by
      rw [agenda.pool_step surroundings i moment]
      exact hnoticed
    refine ⟨[.pass moment, .wake surroundings i] ++ (noticing ++ actions), ?_, ?_⟩
    · refine along_append.mpr ⟨⟨trivial, ⟨rfl, ?_⟩, trivial⟩, along_append.mpr ⟨hnoticing, ?_⟩⟩
      · -- The worker that is woken is the one that is due first, so its wait is over.
        intro worker hat due hdue
        exact Nat.le_trans (h.due_le hnext hat hdue) (Nat.le_max_right _ moment)
      · rw [hpool]
        exact htimely
    · rw [after_append, after_append, hpool]
      exact hafter
  | case4 => exact ⟨[], trivial, rfl⟩

/-- So is what `Pool.wait` comes to; and then the pool `isOver`, or the signal has been raised. -/
theorem exists_timely_wait (policy : Policy) (surroundings : Surroundings σ) (pool : Pool σ)
    (returned : Option (Except Failure Tally)) (hstop : pool.clock.stopAt.isSome = true) :
    (∃ actions, Along (Timely surroundings) actions ⟨pool, returned⟩ ∧
      after actions ⟨pool, returned⟩ = ⟨pool.wait policy surroundings, returned⟩) ∧
      ((pool.wait policy surroundings).isOver = true ∨
        (pool.wait policy surroundings).clock.stopped = true) := by
  have huptodate : (Agenda.ofPool surroundings pool).UpToDate surroundings := rfl
  obtain ⟨actions, htimely, hafter⟩ :=
    exists_timely_runUntil policy.giveUpAt huptodate returned
  simp only [wait]
  generalize (Agenda.runUntil surroundings policy.giveUpAt
    (Agenda.ofPool surroundings pool)).pool = last at hafter ⊢
  split
  · next hover => exact ⟨⟨actions, htimely, hafter⟩, .inl hover⟩
  · refine ⟨⟨actions ++ [.pass (policy.giveUpAt last.clock)], ?_, ?_⟩, .inr ?_⟩
    · exact along_append.mpr ⟨htimely, trivial, trivial⟩
    · rw [after_append]
      exact congrArg (after _) hafter
    · -- The pool gives up at some time after the signal.
      have hreaches := reaches_after actions ⟨pool, returned⟩
      obtain ⟨moment, hmoment⟩ :=
        Option.isSome_iff_exists.mp (stopAt_of_reaches hreaches hstop)
      rw [show after actions ⟨pool, returned⟩ = _ from hafter] at hmoment
      simp only at hmoment
      simp only [Clock.stopped, hmoment, Policy.giveUpAt, Option.getD_some, decide_eq_true_eq]
      omega

/-- What `Pool.run` returns, and the pool that it leaves, come of the `launch` of its jobs by a
history of `Timely` actions. -/
theorem exists_timely_run (policy : Policy) (surroundings : Surroundings σ) (account : Account)
    (jobs : List Job) :
    ∃ actions, Along (Timely surroundings) actions (launch policy account.tally jobs) ∧
      (launch policy account.tally jobs).after actions =
        ⟨(run policy surroundings account jobs).2.2,
          some (run policy surroundings account jobs).1⟩ := by
  cases hvalid : firstInvalid? jobs with
  | some broken =>
    simp only [launch, run, hvalid]
    exact ⟨[], trivial, rfl⟩
  | none =>
    simp only [launch, run, hvalid]
    obtain ⟨⟨actions, htimely, hafter⟩, hend⟩ :=
      exists_timely_wait policy surroundings (start policy account.tally jobs) none rfl
    refine ⟨actions ++ [Action.finish], along_append.mpr ⟨htimely, trivial, trivial⟩, ?_⟩
    rw [after_append, hafter, after_cons, after_nil]
    simp only [perform, Bool.or_eq_true, if_pos hend]

/-- What `Pool.run` returns, and the pool that it leaves, can come of the `launch` of its jobs. -/
theorem reaches_run (policy : Policy) (surroundings : Surroundings σ) (account : Account)
    (jobs : List Job) :
    Reaches (launch policy account.tally jobs)
      ⟨(run policy surroundings account jobs).2.2,
        some (run policy surroundings account jobs).1⟩ := by
  obtain ⟨actions, -, hafter⟩ := exists_timely_run policy surroundings account jobs
  rw [← hafter]
  exact reaches_after actions _

end Course

end Volley.Pool
