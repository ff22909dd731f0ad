import Volley.Network
import Volley.Proofs.Pool.History
import Volley.Proofs.Sink.Loss
import Volley.Proofs.Tally

/-!
# Workers that lose their sessions

A worker loses its session if it cannot open one while the run still waits for it, or if a write
fails on a stream that nobody opens again while the stop signal is not raised. In the same move it
leaves with the outcome of a loss, as one that could not connect or one that has lost its transport,
and in no other case does a worker leave so: whoever is stopped or dies does not, and a supervised
session or one that sends datagrams is never lost.

## Main definitions

* `Surroundings.Fits`: new sessions are of the kind that is asked for.
* `Worker.Loses`: a worker loses its session.
* `Worker.Suited`: the session of a worker is one that its job asks for.

## Main results

* `Network.fits`: the sessions on a network are of the kind that is asked for.
* `Worker.Goes.tells`: a worker leaves with a loss exactly if it loses its session.
-/

namespace Volley

variable {ω : Type}

/-- The sessions that `dial` opens for jobs are new and of the kind that their `transport` asks for.
To open a supervised session, or one that sends datagrams, nothing is needed from outside. -/
structure Surroundings.Fits (surroundings : Surroundings (SessionOver ω)) : Prop where
  stream : ∀ job session, job.spec.transport = .stream →
    (surroundings.dial job).result = .ok session →
      ∃ writer limit, session = .stream (.new writer limit)
  supervised : ∀ job, job.spec.transport = .supervised →
    ∃ connector backoff,
      (surroundings.dial job).result = .ok (.supervised (.new connector backoff true))
  datagram : ∀ job, job.spec.transport = .datagram →
    ∃ route, (surroundings.dial job).result = .ok (.datagram (.new route))
  mixed : ∀ job session, job.spec.transport = .mixed →
    (surroundings.dial job).result = .ok session →
      ∃ writer limit route, session = .mixed (.new (.new writer limit) (.new route))

namespace Surroundings.Fits

variable {surroundings : Surroundings (SessionOver ω)} {job : Job}

/-- A session that `dial` opens in surroundings of which `Fits` holds `Suits` its job. -/
theorem suits {session : SessionOver ω} (h : surroundings.Fits)
    (hdial : (surroundings.dial job).result = .ok session) : session.Suits job.spec.transport := by
  cases htransport : job.spec.transport with
  | stream =>
    obtain ⟨writer, limit, rfl⟩ := h.stream job session htransport hdial
    exact ⟨rfl, rfl⟩
  | supervised =>
    obtain ⟨connector, backoff, hsession⟩ := h.supervised job htransport
    rw [hdial] at hsession
    cases hsession
    exact ⟨rfl, rfl⟩
  | datagram =>
    obtain ⟨route, hsession⟩ := h.datagram job htransport
    rw [hdial] at hsession
    cases hsession
    rfl
  | mixed =>
    obtain ⟨writer, limit, route, rfl⟩ := h.mixed job session htransport hdial
    exact ⟨rfl, rfl⟩

/-- Only a transport that `isBare`, a stream that nobody opens again, can be refused. -/
theorem isBare_of_error {cause : TransportError} (h : surroundings.Fits)
    (hdial : (surroundings.dial job).result = .error cause) :
    job.spec.transport.isBare = true := by
  cases htransport : job.spec.transport with
  | stream => rfl
  | supervised =>
    obtain ⟨connector, backoff, hsession⟩ := h.supervised job htransport
    rw [hdial] at hsession
    cases hsession
  | datagram =>
    obtain ⟨route, hsession⟩ := h.datagram job htransport
    rw [hdial] at hsession
    cases hsession
  | mixed => rfl

end Surroundings.Fits

/-- An `attempt` at a peer that succeeds yields a new session. -/
theorem Peer.exists_of_attempt {peer : Peer} {target : Target} {session : StreamSession Pipe}
    (h : (peer.attempt target).result = .ok session) :
    ∃ writer limit, session = .new writer limit := by
  unfold attempt at h
  split at h
  · cases h
    exact ⟨_, _, rfl⟩
  · cases h
    exact ⟨_, _, rfl⟩
  · cases h
  · cases h

/-- The sessions of `Network.dial` fit. -/
theorem Network.fits (network : Network) (horizon : Nat) (timestamps : Nat → Int) :
    Surroundings.Fits ⟨network.dial horizon, timestamps⟩ := by
  refine ⟨?_, ?_, ?_, ?_⟩
  · intro job session htransport hdial
    simp only [dial, htransport] at hdial
    obtain ⟨stream, hstream, rfl⟩ := Attempt.result_map_eq_ok_iff.mp hdial
    obtain ⟨writer, limit, rfl⟩ := Peer.exists_of_attempt hstream
    exact ⟨writer, limit, rfl⟩
  · intro job htransport
    simp only [dial, htransport]
    exact ⟨_, _, rfl⟩
  · intro job htransport
    simp only [dial, htransport]
    exact ⟨_, rfl⟩
  · intro job session htransport hdial
    simp only [dial, htransport] at hdial
    obtain ⟨stream, hstream, rfl⟩ := Attempt.result_map_eq_ok_iff.mp hdial
    obtain ⟨writer, limit, rfl⟩ := Peer.exists_of_attempt hstream
    exact ⟨writer, limit, network.route, rfl⟩

variable [Writer ω]

/-! ## Workers -/

/-- A `report?` has the `outcome?` with which its worker leaves. -/
theorem Move.outcome_of_report? {σ : Type} {move : Move σ} {now : Nat} {result : WorkerResult}
    (h : move.report? now = some result) : move.outcome? = some result.outcome := by
  cases move with
  | leaves next outcome =>
    rw [report?] at h
    split at h
    · cases h
    · cases h
      rfl
  | waits next => cases h
  | aborts next cause => cases h
  | dies next => cases h

namespace Worker

/-- A worker is about to lose its session, in one of two ways. It is `refused` one while the run is
still `waiting` for it. Or its stream, which nobody opens again, has `broken`: a write fails while
the stop signal is not raised. -/
inductive Loses (surroundings : Surroundings (SessionOver ω)) (clock : Clock) (waiting : Bool)
    (worker : Worker (SessionOver ω)) : Prop where
  | refused {since : Nat} {cause : TransportError} (hstage : worker.stage = .connecting since)
      (hbare : worker.job.spec.transport.isBare = true)
      (hdial : (surroundings.dial worker.job).result = .error cause) (hwaiting : waiting = true)
  | broken {flight : Run.Flight} {run : Run (SessionOver ω)} {since : Nat}
      (hstage : worker.stage = .sending flight run since) (hclock : clock.stopped = false)
      (hbreaks : flight.Breaks worker.job.spec.transport run.sink
        (flight.offer ⟨since, clock.stopAt⟩ run.sink).1)

/-- The session of a worker `Suits` its job, and one that is closing was not lost. -/
def Suited (worker : Worker (SessionOver ω)) : Prop :=
  match worker.stage with
  | .sending flight run _ => flight.CutInside ∧ run.sink.Suits worker.job.spec.transport
  | .pausing run _ => run.sink.Suits worker.job.spec.transport
  | .closing result _ _ => result ≠ .ok .transportFailed
  | _ => True

end Worker

/-- A worker leaves with an outcome that `isLoss` exactly if it has `lost` its session. -/
def Move.Tells (lost : Prop) : Move (SessionOver ω) → Prop
  | .waits next => next.Suited ∧ ¬ lost
  | .leaves next outcome => next.isOver = true ∧ (outcome.isLoss = true ↔ lost)
  | .aborts next _ => next.isOver = true ∧ ¬ lost
  | .dies next => next.isOver = true ∧ ¬ lost

namespace Worker

variable {surroundings : Surroundings (SessionOver ω)} {clock : Clock} {waiting : Bool}
  {worker : Worker (SessionOver ω)} {run : Run (SessionOver ω)} {lost : Prop}

omit [Writer ω] in
/-- The end that `endingOf` names is no loss. -/
theorem tells_over (hheld : ¬ lost) :
    (worker.conclude clock run (.ok run.endingOf)).Tells lost := by
  refine ⟨?_, hheld⟩
  intro hlost
  have hending : run.endingOf = .transportFailed := Except.ok.inj hlost
  unfold Run.endingOf at hending
  split at hending <;> cases hending

omit [Writer ω] in
/-- A worker that goes on, by `Worker.proceed`, has not lost its session. -/
theorem tells_proceed (h : run.sink.Suits worker.job.spec.transport) (hheld : ¬ lost) :
    (worker.proceed clock run).Tells lost := by
  unfold proceed
  split
  · next flight flying hturn =>
    obtain ⟨plan, hnext, hbytes, rfl⟩ := Run.exists_of_turn hturn
    exact ⟨⟨(Run.Flight.cut_of_next hnext hbytes).2, h⟩, hheld⟩
  · exact tells_over hheld
  · refine ⟨?_, hheld⟩
    intro hlost
    cases hlost
  · exact ⟨rfl, hheld⟩

omit [Writer ω] in
/-- A worker that goes on after a write, with its pause or without, has not lost its session. -/
theorem tells_goOn (h : run.sink.Suits worker.job.spec.transport) (hheld : ¬ lost)
    {move : Move (SessionOver ω)}
    (hmove : (if run.plan.spec.pace = .zero then some (worker.proceed clock run)
      else some (.waits { worker with
        progress := run.progress
        stage := .pausing run clock.now })) = some move) : move.Tells lost := by
  split at hmove
  · cases hmove
    exact tells_proceed h hheld
  · cases hmove
    exact ⟨h, hheld⟩

/-- A worker that has the answer to its write leaves with a loss exactly if it `Loses` its session:
the write has broken its stream before the run was stopped. -/
theorem tells_land {move : Move (SessionOver ω)} {flight : Run.Flight} {since : Nat}
    (h : worker.Suited) (hstage : worker.stage = .sending flight run since)
    (hwake : worker.wake surroundings clock = some move) :
    move.Tells (worker.Loses surroundings clock true) := by
  unfold Suited at h
  simp only [hstage] at h
  obtain ⟨hcut, hsuits⟩ := h
  -- Only a write that breaks a stream can be the cause of a loss here.
  have hlost : worker.Loses surroundings clock true ↔ clock.stopped = false ∧
      flight.Breaks worker.job.spec.transport run.sink
        (flight.offer ⟨since, clock.stopAt⟩ run.sink).1 := by
    refine ⟨?_, fun ⟨hclock, hbreaks⟩ => .broken hstage hclock hbreaks⟩
    rintro (⟨hother, -, -, -⟩ | ⟨hother, hclock, hbreaks⟩)
    · rw [hstage] at hother
      cases hother
    · rw [hstage] at hother
      cases hother
      exact ⟨hclock, hbreaks⟩
  rw [hlost]
  rcases hoffer : flight.offer ⟨since, clock.stopAt⟩ run.sink with ⟨reply, done, left⟩
  obtain ⟨hcloses, hkeeps⟩ := hsuits.offer hcut hoffer
  rw [wake, hstage] at hwake
  simp only [Run.submit_eq, hoffer] at hwake
  cases reply with
  | ok =>
    have hholds : ¬ flight.Breaks worker.job.spec.transport run.sink (.ok ()) :=
      fun hbreaks => by cases hbreaks.failed
    have hnext : (Run.mk run.plan left (worker.progress.addSent flight.events)).sink.Suits
        worker.job.spec.transport := hkeeps hholds
    exact tells_goOn hnext (fun hboth => hholds hboth.2) hwake
  | error e =>
    simp only [Run.settle] at hwake
    cases hclock : clock.stopped with
    | true =>
      simp only [hclock, if_true] at hwake
      cases hwake
      exact tells_over fun hboth => by cases hboth.1
    | false =>
      simp only [hclock, Bool.false_eq_true, if_false] at hwake
      by_cases hbreaks : flight.Breaks worker.job.spec.transport run.sink (.error e)
      · simp only [hcloses hbreaks clock, Bool.false_eq_true, if_false] at hwake
        cases hwake
        exact ⟨rfl, fun _ => ⟨rfl, hbreaks⟩, fun _ => rfl⟩
      · simp only [(hkeeps hbreaks).isOpen hclock, if_true] at hwake
        have hnext : (Run.mk run.plan left (worker.progress.addErrors flight.events)).sink.Suits
            worker.job.spec.transport := hkeeps hbreaks
        exact tells_goOn hnext (fun hboth => hbreaks hboth.2) hwake

/-- In its turn a worker leaves with an outcome that `isLoss` exactly if it `Loses` its session. -/
theorem Goes.tells {move : Move (SessionOver ω)} (hgoes : worker.Goes surroundings clock move)
    (h : worker.Suited) (hfits : surroundings.Fits) :
    move.Tells (worker.Loses surroundings clock true) := by
  -- Nothing is lost in any other stage than these two.
  have hheld (hconnecting : ∀ since, worker.stage ≠ .connecting since)
      (hsending : ∀ flight run since, worker.stage ≠ .sending flight run since) :
      ¬ worker.Loses surroundings clock true := by
    rintro (⟨hstage, -, -, -⟩ | ⟨hstage, -, -⟩)
    · exact hconnecting _ hstage
    · exact hsending _ _ _ hstage
  cases hgoes with
  | enters hstage _ =>
    refine ⟨trivial, hheld ?_ ?_⟩
    · simp [hstage]
    · simp [hstage]
  | turnsBack hstage _ =>
    have hnone := hheld (by simp [hstage]) (by simp [hstage])
    refine ⟨rfl, fun hloss => ?_, fun hlost => absurd hlost hnone⟩
    cases hloss
  | moves hwake =>
    cases hstage : worker.stage with
    | connecting since =>
      rw [wake, hstage] at hwake
      cases hdial : (surroundings.dial worker.job).result with
      | error cause =>
        simp only [hdial] at hwake
        cases hwake
        refine ⟨rfl, fun _ => ?_, fun _ => rfl⟩
        exact .refused hstage (hfits.isBare_of_error hdial) hdial rfl
      | ok session =>
        simp only [hdial] at hwake
        cases hwake
        refine tells_proceed (hfits.suits hdial) ?_
        rintro (⟨-, -, hrefused, -⟩ | ⟨hother, -, -⟩)
        · rw [hdial] at hrefused
          cases hrefused
        · rw [hstage] at hother
          cases hother
    | sending flight run since => exact tells_land h hstage hwake
    | pausing run since =>
      unfold Suited at h
      simp only [hstage] at h
      rw [wake, hstage] at hwake
      cases hwake
      have hnext : (Run.mk run.plan run.sink worker.progress).sink.Suits
          worker.job.spec.transport := h
      exact tells_proceed hnext (hheld (by simp [hstage]) (by simp [hstage]))
    | closing result run since =>
      unfold Suited at h
      simp only [hstage] at h
      rw [wake, hstage] at hwake
      cases hwake
      have hnone := hheld (by simp [hstage]) (by simp [hstage])
      cases result with
      | error cause => exact ⟨rfl, hnone⟩
      | ok ending =>
        refine ⟨rfl, fun hloss => ?_, fun hlost => absurd hlost hnone⟩
        -- How the run has ended was settled before.
        cases ending with
        | completed => cases hloss
        | transportFailed => exact absurd rfl h
        | stopped => cases hloss
    -- In these stages a worker does not wake by itself.
    | queued | gone _ | dead _ =>
      rw [wake, hstage] at hwake
      cases hwake

omit [Writer ω] in
/-- A worker that `isOver` is `Suited` in any case. -/
theorem suited_of_isOver {worker : Worker (SessionOver ω)} (h : worker.isOver = true) :
    worker.Suited := by
  unfold isOver at h
  unfold Suited
  cases hstage : worker.stage with
  | queued | connecting _ | gone _ | dead _ => trivial
  | sending _ _ _ | pausing _ _ | closing _ _ _ =>
    rw [hstage] at h
    cases h

end Worker

namespace Move.Tells

variable {lost : Prop} {move : Move (SessionOver ω)}

omit [Writer ω] in
theorem suited_filed (h : move.Tells lost) : move.filed.Suited := by
  cases move with
  | waits next => exact h.1
  | leaves next outcome => exact Worker.suited_of_isOver h.1
  | aborts next cause => exact Worker.suited_of_isOver h.1
  | dies next => exact Worker.suited_of_isOver h.1

omit [Writer ω] in
/-- A move without an `outcome?` has lost nothing. -/
theorem not_lost (h : move.Tells lost) (hnone : move.outcome?.isSome = false) : ¬ lost := by
  cases move with
  | waits next => exact h.2
  | leaves next outcome => cases hnone
  | aborts next cause => exact h.2
  | dies next => exact h.2

omit [Writer ω] in
/-- A worker that leaves with a result `isOver`. -/
theorem isOver_filed (h : move.Tells lost) (hsome : move.outcome?.isSome = true) :
    move.filed.isOver = true := by
  cases move with
  | waits next => cases hsome
  | leaves next outcome => exact h.1
  | aborts next cause => cases hsome
  | dies next => cases hsome

omit [Writer ω] in
/-- An `outcome?` tells, by `isLoss`, whether a session has been `lost`. -/
theorem isLoss_iff {outcome : Outcome} (h : move.Tells lost)
    (hsome : move.outcome? = some outcome) : outcome.isLoss = true ↔ lost := by
  cases move with
  | waits next => cases hsome
  | leaves next other =>
    cases hsome
    exact h.2
  | aborts next cause => cases hsome
  | dies next => cases hsome

end Move.Tells

namespace Worker

variable {surroundings : Surroundings (SessionOver ω)} {clock : Clock} {waiting : Bool}
  {worker : Worker (SessionOver ω)}

/-- A worker that `Loses` its session has a transport that `isBare`. -/
theorem Loses.isBare (h : worker.Loses surroundings clock waiting) :
    worker.job.spec.transport.isBare = true := by
  cases h with
  | refused _ hbare _ _ => exact hbare
  | broken _ _ hbreaks => exact hbreaks.bare

/-- No worker `Loses` a session while it is `queued`. -/
theorem Loses.stage_ne_queued (h : worker.Loses surroundings clock waiting) :
    worker.stage ≠ .queued := by
  cases h with
  | refused hstage _ _ _ =>
    rw [hstage]
    nofun
  | broken hstage _ _ =>
    rw [hstage]
    nofun

theorem Loses.of_waiting (h : worker.Loses surroundings clock waiting) :
    worker.Loses surroundings clock true := by
  cases h with
  | refused hstage hbare hdial _ => exact .refused hstage hbare hdial rfl
  | broken hstage hclock hbreaks => exact .broken hstage hclock hbreaks

/-- A worker that `isOver` loses nothing, and nobody does once the run is not `waiting` for it and
the signal has been raised. -/
theorem Loses.isOver_eq_false (h : worker.Loses surroundings clock waiting) :
    worker.isOver = false ∧ (waiting = true ∨ clock.stopped = false) := by
  cases h with
  | refused hstage _ _ hwaiting => exact ⟨by rw [isOver, hstage], .inl hwaiting⟩
  | broken hstage hclock _ => exact ⟨by rw [isOver, hstage], .inr hclock⟩

end Worker

end Volley
