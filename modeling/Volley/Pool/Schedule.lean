import Volley.Pool.Basic

/-!
# Running a pool

Of all the orders in which the workers of a pool can run, this is the one in which nothing is late:
the next to run is always the worker whose wait is over first, and time passes only when all of them
wait. A free place goes to the first worker in the queue, and a worker that aborts is noticed before
the next one wakes.
-/

namespace Volley.Pool

variable {σ : Type}

/-- A pool, and when each of its workers is due. -/
structure Agenda (σ : Type) where
  pool : Pool σ
  /-- When the wait of each worker is over; `none` for one that does not wake by itself. -/
  due : List (Option Nat)

/-- The earlier of two entries, `a` if they are for the same moment. -/
def earlier (a b : Option (Nat × Nat)) : Option (Nat × Nat) :=
  match a, b with
  | some (i, t), some (j, u) => if u < t then some (j, u) else some (i, t)
  | some entry, none => some entry
  | none, entry => entry

/-- The earliest entry and its place, counted from `i`. -/
def earliest (i : Nat) : List (Option Nat) → Option (Nat × Nat)
  | [] => none
  | moment :: rest => earlier (moment.map (i, ·)) (earliest (i + 1) rest)

/-- The first worker that is `queued`, if one of `permits` is free. -/
def nextAdmission (pool : Pool σ) : Option Nat :=
  if pool.permits = 0 then none
  else pool.workers.findIdx? fun worker => match worker.stage with
    | .queued => true
    | _ => false

/-- What the run does before anybody else wakes: once there is a `fault`, it raises the signal. -/
def notice (pool : Pool σ) : Pool σ :=
  match pool.fault with
  | some _ => { pool with clock := pool.clock.raise }
  | none => pool

variable [Sink σ]

namespace Agenda

/-- The agenda of a pool, with `due?` of each of its workers. -/
def ofPool (surroundings : Surroundings σ) (pool : Pool σ) : Agenda σ :=
  ⟨pool, pool.workers.map (·.due? surroundings pool.clock.stopAt)⟩

/-- Who runs next, and when: the `nextAdmission`, or else the `earliest` of those who are due. -/
def next (agenda : Agenda σ) : Option (Nat × Nat) :=
  match nextAdmission agenda.pool with
  | some i => some (i, agenda.pool.clock.now)
  | none => earliest 0 agenda.due

/-- Lets a worker run at a moment, and notes when it is due again. If the run has to `notice` an
event that could not be encoded, the stop signal is brought forward, and the others may be due
sooner, too. -/
def step (surroundings : Surroundings σ) (i moment : Nat) (agenda : Agenda σ) : Agenda σ :=
  let clock := { agenda.pool.clock with now := max agenda.pool.clock.now moment }
  let pool := ({ agenda.pool with clock }.wake surroundings i).notice
  if pool.clock.stopAt = clock.stopAt then
    let due := (pool.workers[i]?).bind (·.due? surroundings clock.stopAt)
    ⟨pool, agenda.due.set i due⟩
  else .ofPool surroundings pool

/-- Makes each `step` whose moment is not beyond the `horizon`, or until nobody is due. -/
def runUntil (surroundings : Surroundings σ) (horizon : Clock → Nat) (agenda : Agenda σ) :
    Agenda σ :=
  match agenda.next with
  | none => agenda
  | some (i, moment) =>
    if moment > horizon agenda.pool.clock then agenda
    else
      let later := agenda.step surroundings i moment
      -- Whoever wakes gets closer to the end of its run, so there is always less left to do.
      if later.pool.weight < agenda.pool.weight then later.runUntil surroundings horizon
      else agenda
termination_by agenda.pool.weight

end Agenda

/-- The moment at which the pool gives up waiting for its workers: `grace` after the signal. -/
def Policy.giveUpAt (policy : Policy) (clock : Clock) : Nat :=
  clock.stopAt.getD (Clock.timer policy.deadline) + Clock.timer policy.grace

/-- A pool that has waited for its workers: until it `isOver`, or until `giveUpAt`. -/
def wait (policy : Policy) (surroundings : Surroundings σ) (pool : Pool σ) : Pool σ :=
  let pool := ((Agenda.ofPool surroundings pool).runUntil surroundings policy.giveUpAt).pool
  if pool.isOver then pool
  else { pool with clock.now := max pool.clock.now (policy.giveUpAt pool.clock) }

/-- A run from the first worker to the `totals`, the `Account` after it, and the pool that it
leaves. If `firstInvalid?` finds a job, nothing is started. -/
def run (policy : Policy) (surroundings : Surroundings σ) (account : Account) (jobs : List Job) :
    Except Failure Tally × Account × Pool σ :=
  match firstInvalid? jobs with
  | some (workerId, cause) =>
    (.error (.invalidScenario workerId cause), account, start policy account.tally [])
  | none =>
    let pool := ((start policy account.tally jobs).wait policy surroundings).sweep
    (pool.totals, ⟨pool.tally, pool.peak⟩, pool)

end Volley.Pool
