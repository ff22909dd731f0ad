import Volley.CommandLine.Execution
import Volley.Proofs.Pool.Schedule
import Volley.Proofs.Pool.Verdict

/-!
# The exit status of a load run

A load run that returns totals ends with status 0 or 1. It is 1 if some worker lost the connection
that it needed, and 0 if not, whatever became of the other workers: neither datagrams that find no
way, nor a supervisor that finds nobody, nor a run that is stopped makes it fail.

## Main definitions

* `Execution.Merged`: the account of a worker is merged in the course of a run.
* `Execution.Lost`: a worker loses its session in the course of a run.

## Main results

* `Execution.status_of_verdict`: the exit status is decided by the workers that lost their sessions.
* `Execution.status_eq_one_iff`: the exit status of a run, in every order of steps.
* `Execution.status_ofSettings`: the exit status of the program.
-/

namespace Volley.CommandLine.Execution

open Pool Pool.Course

/-- The exit status that goes with a `Verdict`: it is 1 if some worker with a stream that nobody
opens again is among the `lost`, and 0 if no worker is. -/
theorem status_of_verdict {jobs : List Job} {merged : Nat → WorkerResult → Prop}
    {lost : Nat → Prop} {account : Nat → WorkerResult} {order : List Nat} {stats : Tally}
    (h : Verdict jobs merged lost account order stats)
    (hcount : jobs.length < 0x10000000000000000) {execution : Execution}
    (hheld : execution.held = .ok stats.connectionsHeld) :
    (execution.status = 1 ↔ ∃ i job, jobs[i]? = some job ∧
        (job.spec.transport = .stream ∨ job.spec.transport = .mixed) ∧ lost i) ∧
      (execution.status = 0 ↔ ∀ i job, jobs[i]? = some job → ¬ lost i) := by
  have hverdict := h.connectionsHeld_iff hcount
  have hlost : (∃ i job, jobs[i]? = some job ∧
      (job.spec.transport = .stream ∨ job.spec.transport = .mixed) ∧ lost i) ↔
        ¬ ∀ i job, jobs[i]? = some job → ¬ lost i := by
    push Not
    refine ⟨?_, ?_⟩
    · rintro ⟨i, job, hjob, -, hlost⟩
      exact ⟨i, job, hjob, hlost⟩
    · rintro ⟨i, job, hjob, hlost⟩
      exact ⟨i, job, hjob, Scenario.Transport.isBare_iff.mp (h.isBare i job hjob hlost), hlost⟩
  rw [hlost, ← hverdict, status, hheld]
  cases stats.connectionsHeld <;> decide

variable {ω : Type} [Writer ω]

/-- In the course of a run the account of the worker at place `i` is merged. -/
def Merged (policy : Policy) (jobs : List Job) (actions : List (Action (SessionOver ω))) (i : Nat)
    (result : WorkerResult) : Prop :=
  Ever (Merges i result) actions (launch policy .zero jobs)

/-- In the course of a run the worker at place `i` loses its session. -/
def Lost (policy : Policy) (jobs : List Job) (actions : List (Action (SessionOver ω))) (i : Nat) :
    Prop :=
  Ever (Loses i) actions (launch policy .zero jobs)

/-- What `Pool.run` returns on a network comes of a history of `Timely` actions in which all
sessions that are opened fit, by `Surroundings.Fits`. -/
theorem exists_history (network : Network) (timestamps : Nat → Int) (policy : Policy)
    (jobs : List Job) (horizon : Nat) :
    ∃ actions : List (Action Session),
      Along (Timely ⟨network.dial horizon, timestamps⟩) actions (launch policy .zero jobs) ∧
      (∀ surroundings i, .wake surroundings i ∈ actions → surroundings.Fits) ∧
      ((launch policy .zero jobs).after actions).returned =
        some (run policy ⟨network.dial horizon, timestamps⟩ .zero jobs).1 := by
  obtain ⟨actions, htimely, hafter⟩ :=
    exists_timely_run policy ⟨network.dial horizon, timestamps⟩ .zero jobs
  refine ⟨actions, htimely, ?_, congrArg Course.returned hafter⟩
  intro surroundings i hmem
  rw [surroundings_eq_of_timely htimely hmem]
  exact network.fits horizon timestamps

/-- For every run of a list of `jobs` that returns `stats`, in whatever order time passes, the stop
signal is raised, workers wake and the run returns, and whatever the sessions do: the run comes to a
`Verdict`, with one account of every job `Merged`, and `stats` are the totals of these accounts. Of
a worker with a `supervised` session, or with one that sends datagrams, no account is `Merged` with
the outcome `connectFailed` or `transportFailed`, and nobody of whom it is `Merged` that it was
`abandoned` has `Lost` its session. `Execution.status` is 1 if and only if some worker with the
transport `stream` or `mixed` could not open its session while the run still waited for it, or had a
write fail on its stream while the stop signal was not raised; otherwise it is 0. -/
theorem status_eq_one_iff {policy : Policy} {jobs : List Job}
    (hcount : jobs.length < 0x10000000000000000) {actions : List (Action (SessionOver ω))}
    (hfits : ∀ surroundings i, .wake surroundings i ∈ actions → surroundings.Fits) {stats : Tally}
    (hreturned : ((launch policy .zero jobs).after actions).returned = some (.ok stats)) :
    (∃ account order, Verdict jobs (Merged policy jobs actions) (Lost policy jobs actions) account
      order stats) ∧
    (∀ i job result, jobs[i]? = some job → Merged policy jobs actions i result →
      (job.spec.transport = .supervised ∨ job.spec.transport = .datagram →
        result.outcome ≠ .connectFailed ∧ result.outcome ≠ .transportFailed) ∧
      (result.outcome = .abandoned → ¬ Lost policy jobs actions i)) ∧
    ∀ execution : Execution, execution.held = .ok stats.connectionsHeld →
      (execution.status = 1 ↔ ∃ i job, jobs[i]? = some job ∧
        (job.spec.transport = .stream ∨ job.spec.transport = .mixed) ∧
        Lost policy jobs actions i) ∧
      (execution.status = 0 ↔ ∀ i job, jobs[i]? = some job → ¬ Lost policy jobs actions i) := by
  obtain ⟨account, order, hverdict⟩ := exists_verdict hfits hreturned
  refine ⟨⟨account, order, hverdict⟩, ?_, ?_⟩
  · intro i job result hjob hmerged
    -- There is no other account of a worker than the one in the verdict.
    obtain rfl := (hverdict.merged_iff i job hjob result).mp hmerged
    refine ⟨?_, ?_⟩
    · intro htransport
      have hbare : job.spec.transport.isBare = false := by
        rcases htransport with hsupervised | hdatagram
        · rw [hsupervised]
          rfl
        · rw [hdatagram]
          rfl
      have hheld := hverdict.isLoss_eq_false hjob hbare
      rw [Bool.eq_false_iff, Ne, Outcome.isLoss_iff] at hheld
      exact not_or.mp hheld
    · intro houtcome hlost
      have hloss := (hverdict.isLoss_iff i job hjob).mpr hlost
      rw [houtcome] at hloss
      cases hloss
  · intro execution hheld
    exact status_of_verdict hverdict hcount hheld

/-- A worker with each `transport`, and each of them in trouble: one peer takes a connection and
reads almost nothing of it, the other refuses connections. -/
def troubledJobs : List Job :=
  [(0, .stream, "stalled:7000"), (1, .supervised, "refusing:7000"), (2, .datagram, "stalled:7000"),
    (3, .mixed, "refusing:7000")].map fun (workerId, transport, stream) =>
      ⟨workerId, ⟨"burst", .burst, transport, 3, .single 100, .load, 7, .zero, 0⟩,
        ⟨stream, "receiver:7001", .ofMillis 50, .ofMillis 50, .ofMillis 50⟩⟩

def troubledNetwork : Network where
  peer address := if address = "stalled:7000" then .stalled 10 else .refusing
  route := .unreachable

/-- The stream of the `troubledJobs` breaks and the pair is refused, and for these two the run
fails. The supervisor is stopped before it has sent anything, and no datagram has arrived either. -/
theorem status_eq_one_troubled :
    ∃ (actions : List (Action Session)) (stats : Tally),
      ((launch ⟨4, 200, 50⟩ .zero troubledJobs).after actions).returned = some (.ok stats) ∧
      stats = ⟨4, 10, 0, 10, .ofMillis 200, ⟨1, 1, 1, 1⟩, [("burst", ⟨4, 10, 0, 10⟩)]⟩ ∧
      (Execution.mk "" (.ok stats.connectionsHeld) []).status = 1 ∧
      ∃ i job, troubledJobs[i]? = some job ∧
        (job.spec.transport = .stream ∨ job.spec.transport = .mixed) ∧
        Lost ⟨4, 200, 50⟩ troubledJobs actions i := by
  obtain ⟨actions, -, hfits, hreturned⟩ :=
    exists_history troubledNetwork (fun _ => 0) ⟨4, 200, 50⟩ troubledJobs 200
  have hstats : (run ⟨4, 200, 50⟩ ⟨troubledNetwork.dial 200, fun _ => 0⟩ .zero troubledJobs).1 =
      .ok ⟨4, 10, 0, 10, .ofMillis 200, ⟨1, 1, 1, 1⟩, [("burst", ⟨4, 10, 0, 10⟩)]⟩ := by
    decide +kernel
  rw [hstats] at hreturned
  obtain ⟨-, -, hstatus⟩ := status_eq_one_iff (by decide) hfits hreturned
  have hone : (Execution.mk "" (.ok (Tally.connectionsHeld
      ⟨4, 10, 0, 10, .ofMillis 200, ⟨1, 1, 1, 1⟩, [("burst", ⟨4, 10, 0, 10⟩)]⟩)) []).status = 1 :=
    by decide
  exact ⟨actions, _, hreturned, rfl, hone, (hstatus _ rfl).1.mp hone⟩

/-- An execution that tells whether all connections were kept has totals of `Pool.run`, and what it
tells is their `connectionsHeld`. -/
theorem exists_totals {environs : Environs} {receiver : Receiver} {settings : Settings}
    {held : Bool} (hheld : (ofSettings environs receiver settings).held = .ok held) :
    ∃ stats, (run { size := settings.poolSize.toNat, deadline := settings.deadline.timerMillis }
        ⟨environs.network.dial settings.deadline.timerMillis, environs.timestamps⟩ .zero
        (settings.jobs receiver.stream receiver.datagram)).1 = .ok stats ∧
      stats.connectionsHeld = held := by
  simp only [ofSettings] at hheld
  split at hheld
  · next stats hstats =>
    cases hheld
    exact ⟨stats, hstats, rfl⟩
  · cases hheld

/-- The exit status of the program, by `Execution.ofSettings`: a load run that returns totals ends
with status 1 if and only if some worker that needs its stream has `Lost` it, and with 0 if nobody
has. -/
theorem status_ofSettings (environs : Environs) (receiver : Receiver) (settings : Settings)
    {held : Bool} (hheld : (ofSettings environs receiver settings).held = .ok held) :
    let deadline := settings.deadline.timerMillis
    let policy : Policy := { size := settings.poolSize.toNat, deadline }
    let jobs := settings.jobs receiver.stream receiver.datagram
    ∃ actions : List (Action Session),
      Along (Timely ⟨environs.network.dial deadline, environs.timestamps⟩) actions
        (launch policy .zero jobs) ∧
      ((ofSettings environs receiver settings).status = 1 ↔ ∃ i job, jobs[i]? = some job ∧
        (job.spec.transport = .stream ∨ job.spec.transport = .mixed) ∧
        Lost policy jobs actions i) ∧
      ((ofSettings environs receiver settings).status = 0 ↔
        ∀ i job, jobs[i]? = some job → ¬ Lost policy jobs actions i) := by
  intro deadline policy jobs
  obtain ⟨stats, hstats, rfl⟩ := exists_totals hheld
  have hcount : jobs.length < 0x10000000000000000 := by
    have hword := settings.workers.toNat_lt
    simp only [jobs, Settings.jobs, List.length_map, List.length_range]
    omega
  obtain ⟨actions, htimely, hfits, hreturned⟩ :=
    exists_history environs.network environs.timestamps policy jobs deadline
  obtain ⟨account, order, hverdict⟩ := exists_verdict hfits (hreturned.trans (congrArg some hstats))
  exact ⟨actions, htimely, status_of_verdict hverdict hcount hheld⟩

end Volley.CommandLine.Execution
