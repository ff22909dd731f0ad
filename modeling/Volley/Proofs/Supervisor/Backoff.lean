import Volley.Proofs.Supervisor.Course

/-!
# Pauses after failures

A supervisor decides by its state alone whether it has to pause before an attempt, possibly several
requests after the failure that led to this state. Seen from outside, as long as nobody raises the
stop signal, this comes to a simple rule for the order in which things happen to it (`Phase`): a
failed attempt or a failed write is followed by one pause of full length before the next attempt,
unless the supervisor is closed first, and there is no other pause. A pause is of full length if its
timer has run out; the timer is set to the interval, but does not run longer than thirty years.

What happens up to some point depends only on the attempts up to this point, so that scripts, which
come to an end, stand for all connectors.

## Main definitions

* `Supervisor.Pause.IsFull`: a pause that has lasted as long as it should.
* `Supervisor.Phase`: what may happen next to a supervisor that nobody stops.
* `Supervisor.Disciplined`: pauses stand between failures and attempts, one for each.

## Main results

* `Supervisor.disciplined`: what happens along the phases is disciplined.
* `Supervisor.Course.Paced.of_reaches`: what happens to a supervisor happens along the phases.
* `Supervisor.Course.backoff_discipline`: pauses, attempts and counters of a supervisor.
-/

namespace Volley.Supervisor

variable {σ : Type}

/-- A pause that was set to `backoff` and lasted until its timer had run out. -/
structure Pause.IsFull (backoff : Nat) (pause : Pause) : Prop where
  span_eq : pause.span = backoff
  ended_eq : pause.ended = pause.began + Clock.timer backoff
  complete : pause.complete = true

/-! ## Phases -/

/-- Where a supervisor stands between failures and attempts, which says what may come next. -/
inductive Phase where
  /-- It is new, or has been closed since the last attempt. -/
  | released
  | attempting
  /-- It holds a session. -/
  | held
  /-- An attempt or a write has failed, and a pause is due. -/
  | owing
  /-- The pause has passed. -/
  | rested

namespace Phase

/-- What may happen in a `Phase`, and the phase after it. -/
inductive Next (backoff : Nat) : Phase → Happening → Phase → Prop where
  | begins (moment : Nat) : Next backoff released (.attempted moment) attempting
  | succeeds : Next backoff attempting .connected held
  | fails : Next backoff attempting .missed owing
  /-- A session is kept if nothing has gone wrong that makes it useless. -/
  | keeps {reply : Reply} (hkept : (Happening.submitted reply true).isFailure = false) :
      Next backoff held (.submitted reply true) held
  | loses (reply : Reply) : Next backoff held (.submitted reply false) owing
  | rests {pause : Pause} (hfull : pause.IsFull backoff) : Next backoff owing (.paused pause) rested
  | retries (moment : Nat) : Next backoff rested (.attempted moment) attempting
  | staysReleased : Next backoff released .closed released
  | closes : Next backoff held .closed released
  /-- A supervisor that is closed need not pause any more. -/
  | relieves : Next backoff owing .closed released

/-- One thing after the other may happen, each by `Next`, from one `Phase` to another. -/
inductive Leads (backoff : Nat) : Phase → List Happening → Phase → Prop where
  | nil (phase : Phase) : Leads backoff phase [] phase
  | cons {phase next last : Phase} {first : Happening} {trace : List Happening}
      (hfirst : Next backoff phase first next) (hrest : Leads backoff next trace last) :
      Leads backoff phase (first :: trace) last

variable {backoff : Nat} {phase last : Phase}

theorem leads_append_iff {trace way : List Happening} :
    Leads backoff phase (trace ++ way) last ↔
      ∃ next, Leads backoff phase trace next ∧ Leads backoff next way last := by
  -- What happens first leads to a phase from which the rest is to be split.
  induction trace generalizing phase with
  | nil =>
    constructor
    · intro h
      exact ⟨phase, .nil phase, h⟩
    · rintro ⟨next, htrace, hway⟩
      cases htrace
      exact hway
  | cons first trace ih =>
    constructor
    · intro h
      obtain _ | ⟨hfirst, hrest⟩ := h
      obtain ⟨next, htrace, hway⟩ := ih.mp hrest
      exact ⟨next, .cons hfirst htrace, hway⟩
    · rintro ⟨next, htrace, hway⟩
      obtain _ | ⟨hfirst, hrest⟩ := htrace
      exact .cons hfirst (ih.mpr ⟨next, hrest, hway⟩)

theorem Leads.concat {next : Phase} {trace : List Happening} {final : Happening}
    (h : Leads backoff phase trace next) (hfinal : Next backoff next final last) :
    Leads backoff phase (trace ++ [final]) last :=
  leads_append_iff.mpr ⟨next, h, .cons hfinal (.nil last)⟩

/-- After a failure, by `isFailure`, a supervisor is `owing` a pause. -/
theorem Next.eq_owing {failure : Happening} (h : Next backoff phase failure last)
    (hfailure : failure.isFailure = true) : last = owing := by
  -- An answer with which the session is kept is no failure, and the rest is neither.
  cases h with
  | fails => rfl
  | loses => rfl
  | keeps hkept =>
    rw [hkept] at hfailure
    cases hfailure
  | begins => cases hfailure
  | succeeds => cases hfailure
  | rests => cases hfailure
  | retries => cases hfailure
  | staysReleased => cases hfailure
  | closes => cases hfailure
  | relieves => cases hfailure

/-- After it is `closed` it is `released` from that. -/
theorem Next.eq_released (h : Next backoff phase .closed last) : last = released := by
  cases h <;> rfl

/-- Until the next attempt, a supervisor that is `released` makes no pause. -/
theorem Leads.of_released {trace : List Happening} (h : Leads backoff released trace last)
    (hattempts : attempts trace = []) : last = released ∧ pauses trace = [] := by
  induction trace with
  | nil =>
    cases h
    exact ⟨rfl, rfl⟩
  | cons first trace ih =>
    obtain _ | ⟨hfirst, hrest⟩ := h
    cases hfirst with
    | begins => cases hattempts
    | staysReleased => exact ih hrest hattempts

/-- Nothing but an attempt comes after a pause, when a supervisor is `rested`. -/
theorem Leads.of_rested {trace : List Happening} (h : Leads backoff rested trace last)
    (hattempts : attempts trace = []) : trace = [] := by
  cases h with
  | nil => rfl
  | cons hfirst hrest =>
    cases hfirst
    cases hattempts

/-- Until the next attempt, a supervisor that is `owing` a pause makes one that `IsFull`, or it is
`closed` and makes none. -/
theorem Leads.of_owing {trace : List Happening} (h : Leads backoff owing trace last)
    (hattempts : attempts trace = []) :
    last = owing ∨ (∃ pause, pause.IsFull backoff ∧ trace = [.paused pause]) ∨
      (.closed ∈ trace ∧ pauses trace = []) := by
  cases h with
  | nil => exact Or.inl rfl
  | cons hfirst hrest =>
    cases hfirst with
    | @rests pause hfull =>
      have hnil := hrest.of_rested hattempts
      rw [hnil]
      exact Or.inr (Or.inl ⟨pause, hfull, rfl⟩)
    | relieves =>
      obtain ⟨-, hpauses⟩ := hrest.of_released hattempts
      exact Or.inr (Or.inr ⟨List.mem_cons_self, hpauses⟩)

/-- After a failure, there is one pause that `IsFull` before the next attempt, unless the supervisor
is `closed` in between. -/
theorem Leads.after_failure {failure : Happening} {between later : List Happening} {moment : Nat}
    (h : Leads backoff phase (failure :: (between ++ .attempted moment :: later)) last)
    (hfailure : failure.isFailure = true) (hattempts : attempts between = []) :
    (∃ pause, pause.IsFull backoff ∧ between = [.paused pause]) ∨
      (.closed ∈ between ∧ pauses between = []) := by
  obtain _ | ⟨hfailed, hrest⟩ := h
  rw [hfailed.eq_owing hfailure] at hrest
  obtain ⟨next, hbetween, _ | ⟨hattempted, -⟩⟩ := leads_append_iff.mp hrest
  rcases hbetween.of_owing hattempts with rfl | hrested
  · -- While a pause is due, no attempt begins.
    cases hattempted
  · exact hrested

/-- After a supervisor is `closed`, there are no `pauses` before the next attempt. -/
theorem Leads.after_close {between later : List Happening}
    (h : Leads backoff phase (.closed :: (between ++ later)) last)
    (hattempts : attempts between = []) : pauses between = [] := by
  obtain _ | ⟨hclosed, hrest⟩ := h
  rw [hclosed.eq_released] at hrest
  obtain ⟨next, hbetween, -⟩ := leads_append_iff.mp hrest
  exact (hbetween.of_released hattempts).2

end Phase

/-! ## Discipline -/

/-- In a `trace`, pauses stand between failures and attempts, one for each failure, unless the
supervisor is `closed` in between. -/
structure Disciplined (backoff : Nat) (trace : List Happening) : Prop where
  /-- Between a failure and the next attempt there is one full pause. -/
  after_failure : ∀ (before between later : List Happening) (failure : Happening) (moment : Nat),
    trace = before ++ failure :: (between ++ .attempted moment :: later) →
    failure.isFailure = true → attempts between = [] → .closed ∉ between →
    ∃ pause, pauses between = [pause] ∧ pause.IsFull backoff
  /-- If the supervisor is closed in between, there is none. -/
  after_closed_failure :
    ∀ (before between later : List Happening) (failure : Happening) (moment : Nat),
    trace = before ++ failure :: (between ++ .attempted moment :: later) →
    failure.isFailure = true → attempts between = [] → .closed ∈ between → pauses between = []
  /-- Nor is there one before the first attempt of all. -/
  before_first : ∀ (before later : List Happening) (moment : Nat),
    trace = before ++ .attempted moment :: later → attempts before = [] → pauses before = []
  /-- Nor before the first attempt after the supervisor is closed. -/
  after_close : ∀ (before between later : List Happening) (moment : Nat),
    trace = before ++ .closed :: (between ++ .attempted moment :: later) →
    attempts between = [] → pauses between = []

/-- A trace that leads along the phases, from `released` on, is `Disciplined`. -/
theorem disciplined {backoff : Nat} {trace : List Happening} {last : Phase}
    (h : Phase.released.Leads backoff trace last) : Disciplined backoff trace := by
  -- The phase in which the failure, or the closing, happens does not matter: the one after it is
  -- the same from all.
  refine ⟨?_, ?_, ?_, ?_⟩
  · rintro before between later failure moment rfl hfailure hattempts hopen
    obtain ⟨phase, -, hrest⟩ := Phase.leads_append_iff.mp h
    rcases hrest.after_failure hfailure hattempts with ⟨pause, hfull, rfl⟩ | ⟨hclosed, -⟩
    · exact ⟨pause, rfl, hfull⟩
    · exact absurd hclosed hopen
  · rintro before between later failure moment rfl hfailure hattempts hclosed
    obtain ⟨phase, -, hrest⟩ := Phase.leads_append_iff.mp h
    rcases hrest.after_failure hfailure hattempts with ⟨pause, -, rfl⟩ | ⟨-, hpauses⟩
    · -- The pause is all that happens in between.
      simp at hclosed
    · exact hpauses
  · rintro before later moment rfl hattempts
    obtain ⟨phase, hbefore, -⟩ := Phase.leads_append_iff.mp h
    exact (hbefore.of_released hattempts).2
  · rintro before between later moment rfl hattempts
    obtain ⟨phase, -, hrest⟩ := Phase.leads_append_iff.mp h
    exact hrest.after_close hattempts

/-! ## Supervisors that nobody stops -/

/-- The `Phase` in which a supervisor is in a `ConnectionState`. -/
def Phase.ofState : ConnectionState → Phase
  | .disconnected => released
  | .connecting => attempting
  | .connected => held
  | .failed => owing

/-- A pause of `waitBackoff` whose timer has run out `IsFull`. -/
theorem Pause.isFull_of_waitBackoff {clock later : Clock} {supervisor : Supervisor σ}
    (hwait : supervisor.waitBackoff clock = (true, later)) :
    Pause.IsFull supervisor.backoff ⟨supervisor.backoff, clock.now, later.now, true⟩ := by
  rcases supervisor.waitBackoff_cases clock with ⟨hwaited, -⟩ | ⟨-, _, -, -, hwaited⟩
  · rw [hwaited] at hwait
    cases hwait
    exact ⟨rfl, rfl, rfl⟩
  · rw [hwaited] at hwait
    cases hwait

/-- In `waitBackoff`, nobody ends the pause of a supervisor that does not hear of a signal. -/
theorem complete_of_unheard {clock later : Clock} {supervisor : Supervisor σ} {complete : Bool}
    (hunheard : supervisor.listens = true → clock.stopAt = none)
    (hwait : supervisor.waitBackoff clock = (complete, later)) : complete = true := by
  rcases supervisor.waitBackoff_cases clock with ⟨hwaited, -⟩ | ⟨hlistens, moment, hstop, -⟩
  · rw [hwaited] at hwait
    cases hwait
    rfl
  · rw [hunheard hlistens] at hstop
    cases hstop

variable [Sink σ]

/-- A supervisor that is `Attempting` and gets a session is `connected`. -/
theorem Attempting.state_hold {supervisor : Supervisor σ} (h : supervisor.Attempting)
    (session : σ) : (supervisor.hold session).state = .connected := by
  show supervisor.state.after .connectSucceeded = .connected
  rw [h.state]
  rfl

theorem Attempting.state_miss {supervisor : Supervisor σ} (h : supervisor.Attempting) :
    supervisor.miss.state = .failed := by
  show supervisor.state.after .connectFailed = .failed
  rw [h.state]
  rfl

/-- A supervisor that is `Orderly`, without a session, and from which no pause is due is
`disconnected`. -/
theorem Orderly.state_eq_disconnected {supervisor : Supervisor σ} (h : supervisor.Orderly)
    (hnone : supervisor.session = none) (hready : supervisor.state.needsBackoff = false) :
    supervisor.state = .disconnected := by
  rcases h.state_of_none hnone with hstate | hstate
  · exact hstate
  · rw [hstate] at hready
    cases hready

/-- To `deliver` a submission leaves a session that can still be used, or costs the session. -/
theorem deliver_cases {inStep : TransportError → Bool}
    {submission : Clock → σ → Reply × Clock × σ} {clock later : Clock}
    {supervisor next : Supervisor σ} {reply : Reply} (hheld : supervisor.session.isSome = true)
    (h : supervisor.deliver inStep submission clock = (reply, later, next)) :
    (next.session.isSome = true ∧ next.state = supervisor.state ∧
        ∀ e, reply = .error e → inStep e = true) ∨
      (next.session.isSome = false ∧ next.state = supervisor.state.after .sendFailed) := by
  obtain ⟨session, hsession⟩ := Option.isSome_iff_exists.mp hheld
  unfold deliver at h
  rcases hsubmission : submission clock session with ⟨e | _, after, left⟩
  · simp only [hsession, hsubmission] at h
    split at h
    · next hinStep =>
      cases h
      refine Or.inl ⟨rfl, rfl, ?_⟩
      intro other hother
      cases hother
      exact hinStep
    · cases h
      exact Or.inr ⟨rfl, rfl⟩
  · simp only [hsession, hsubmission] at h
    cases h
    exact Or.inl ⟨rfl, rfl, nofun⟩

/-- The `happenings` of a request may happen in the phase of the supervisor. -/
theorem leads_happenings {request : Request} {clock later : Clock}
    {supervisor next : Supervisor σ} {reply : Reply} (horderly : supervisor.Orderly)
    (hheld : request ≠ .close → supervisor.session.isSome = true)
    (h : supervisor.finish request clock = (reply, later, next)) (backoff : Nat) :
    (Phase.ofState supervisor.state).Leads backoff (request.happenings reply next)
      (Phase.ofState next.state) := by
  -- A submission is made in the state in which there is a session.
  have hsubmitted : ∀ {inStep : TransportError → Bool}
      {submission : Clock → σ → Reply × Clock × σ}, request ≠ .close →
      (∀ e, inStep e = true → e.isInvalidSplit = true) →
      supervisor.deliver inStep submission clock = (reply, later, next) →
      (Phase.ofState supervisor.state).Leads backoff [.submitted reply next.session.isSome]
        (Phase.ofState next.state) := by
    intro inStep submission hne hinStep hdeliver
    have hconnected := horderly.isSome_iff.mp (hheld hne)
    rcases deliver_cases (hheld hne) hdeliver with ⟨hkept, hstate, hreply⟩ | ⟨hlost, hstate⟩
    · rw [hstate, hconnected, hkept]
      refine .cons (.keeps ?_) (.nil .held)
      cases reply with
      | ok => rfl
      | error e =>
        simp only [Happening.isFailure, hinStep e (hreply e rfl), Bool.not_true]
    · rw [hstate, hconnected, hlost]
      exact .cons (.loses reply) (.nil .owing)
  cases request with
  | send bytes => exact hsubmitted nofun (fun _ hfalse => absurd hfalse Bool.false_ne_true) h
  | sendSplit bytes cut => exact hsubmitted nofun (fun _ => id) h
  | ensureConnected =>
    cases h
    exact .nil _
  | close =>
    cases h
    have hne := horderly.state_ne
    refine .cons ?_ (.nil .released)
    cases hstate : supervisor.state with
    | disconnected => exact .staysReleased
    | connected => exact .closes
    | failed => exact .relieves
    | connecting => exact absurd hstate hne

namespace Course

/-- A supervisor that nobody stops has come to its state along the phases, by `Leads` over its
`trace`. -/
structure Paced (backoff : Nat) (course : Course σ) : Prop where
  inOrder : course.InOrder
  backoff_eq : course.supervisor.backoff = backoff
  /-- It does not listen to the stop signal, or the signal is never raised. -/
  unheard : course.supervisor.listens = true → course.clock.stopAt = none
  leads : Phase.released.Leads backoff course.trace (.ofState course.supervisor.state)

/-- Whatever a supervisor that is `Paced` does in `advance`, it may do in its phase. -/
theorem Paced.leads_advance {backoff : Nat} {course : Course σ} (h : course.Paced backoff) :
    Phase.released.Leads backoff course.advance.trace
      (.ofState course.advance.supervisor.state) := by
  obtain ⟨hinOrder, rfl, hunheard, hleads⟩ := h
  have hstep := advances course
  generalize course.advance = after at hstep
  -- Each step adds what the phase of the present state allows.
  cases hstep with
  | rests => exact hleads
  | finds => exact hleads
  | refuses => exact hleads
  | pauses => exact hleads
  | @starts _ clock _ _ hclosed _ hready =>
    cases hinOrder with
    | seeking horderly =>
      have hnone := horderly.session_eq_none hclosed
      have hbegun := (horderly.apply_connectRequested hnone hready).state
      simp only [horderly.state_eq_disconnected hnone hready] at hleads
      simp only [startAttempt, draw, hbegun]
      exact hleads.concat (.begins clock.now)
  | @retries _ _ later _ _ hwait =>
    cases hinOrder with
    | pausing horderly hnone hfailed _ =>
      have hbegun := (horderly.apply_backoffElapsed hnone hfailed hwait).state
      simp only [hfailed] at hleads
      simp only [startAttempt, draw, hbegun]
      have hrested := hleads.concat (.rests (Pause.isFull_of_waitBackoff hwait))
      exact hrested.concat (.retries later.now)
  | givesUp hwait => cases complete_of_unheard hunheard hwait
  | @connects _ _ _ _ _ session _ =>
    cases hinOrder with
    | attempting hattempting _ =>
      simp only [hattempting.state] at hleads
      simp only [hattempting.state_hold session]
      exact hleads.concat .succeeds
  | misses _ =>
    cases hinOrder with
    | attempting hattempting _ =>
      simp only [hattempting.state] at hleads
      simp only [hattempting.state_miss]
      exact hleads.concat .fails
  | answers hfinish =>
    cases hinOrder with
    | serving horderly hheld =>
      exact Phase.leads_append_iff.mpr ⟨_, hleads, leads_happenings horderly hheld hfinish _⟩

theorem Paced.advance [Sink.Steadfast σ] [Sink.Punctual σ] {backoff : Nat} {course : Course σ}
    (h : course.Paced backoff) : course.advance.Paced backoff := by
  have hfollows := follows_advance course
  refine ⟨h.inOrder.advance, hfollows.backoff_eq.trans h.backoff_eq, ?_, h.leads_advance⟩
  rw [hfollows.listens_eq, hfollows.precedes.stopAt_eq]
  exact h.unheard

/-- A supervisor that is `Paced` is so at every point that its course `Reaches`. -/
theorem Paced.of_reaches [Sink.Steadfast σ] [Sink.Punctual σ] {backoff : Nat}
    {first course : Course σ} (hreaches : first.Reaches course) (h : first.Paced backoff) :
    course.Paced backoff := by
  refine hreaches.invariant Paced.advance ?_ h
  intro course h reply hidle request span
  exact ⟨h.inOrder.ask hidle request span, h.backoff_eq, h.unheard, h.leads⟩

/-- A supervisor that is `InOrder` and waits, by `isWaiting`, holds no session. -/
theorem InOrder.session_eq_none {course : Course σ} (h : course.InOrder)
    (hwaiting : course.stage.isWaiting = true) : course.supervisor.session = none := by
  cases h with
  | pausing _ hnone _ _ => exact hnone
  | attempting hattempting _ => exact hattempting.session
  | idle => cases hwaiting
  | seeking => cases hwaiting
  | serving => cases hwaiting

/-- A supervisor that nobody stops, whose connector `HandsOutOpen` sessions, is `Disciplined` in
whatever it is asked. After an attempt or a write that failed it makes exactly one pause that
`IsFull` before the next attempt, and none if it is `closed` in between; before its first attempt,
and the first after it is `closed`, it makes none. While it pauses or attempts it holds no session.
`failedAttempts`, `connects`, `reconnects` and `attemptTimes` say at every point how many attempts
have failed, how many have succeeded, and when they began. Between two requests, the next one is
answered along the course. -/
theorem backoff_discipline [Sink.Steadfast σ] [Sink.Punctual σ] {connector : Connector σ}
    (hopen : connector.HandsOutOpen) (backoff : Nat) {listens : Bool} {clock : Clock}
    (hnever : listens = true → clock.stopAt = none) {course : Course σ}
    (hreaches : (launch (new connector backoff listens) clock).Reaches course) :
    Disciplined backoff course.trace ∧
      (course.stage.isWaiting = true → course.supervisor.session = none) ∧
      course.supervisor.failedAttempts = course.trace.countP Happening.isMissed ∧
      course.supervisor.connects = course.trace.countP Happening.isConnected ∧
      course.supervisor.reconnects = course.trace.countP Happening.isConnected - 1 ∧
      course.supervisor.attemptTimes.reverse = attempts course.trace ∧
      ∀ reply, course.stage = .idle reply → ∀ (request : Request) (span : Nat), ∃ way,
        course.Reaches
          ⟨.idle (course.supervisor.respond request (course.clock.pass span)).1,
            (course.supervisor.respond request (course.clock.pass span)).2.1,
            (course.supervisor.respond request (course.clock.pass span)).2.2,
            course.trace ++ way⟩ := by
  have hlaunched : (launch (new connector backoff listens) clock).Paced backoff :=
    ⟨.launch hopen backoff listens clock, rfl, hnever, .nil .released⟩
  have hpaced := hlaunched.of_reaches hreaches
  have hrecorded := Recorded.of_reaches hreaches
  refine ⟨disciplined hpaced.leads, hpaced.inOrder.session_eq_none, hrecorded.missed_eq.symm,
    hrecorded.connected_eq.symm, ?_, hrecorded.attempts_eq.symm, ?_⟩
  · rw [reconnects, hrecorded.connected_eq]
  · intro reply hidle request span
    have hinOrder := hpaced.inOrder
    obtain ⟨stage, now, supervisor, trace⟩ := course
    cases hidle
    cases hinOrder with
    | idle horderly => exact reaches_respond horderly request span

/-- A supervisor whose second attempt yields a session that takes one write, after three requests,
of which the second has cost it the session, and after it has been closed. -/
def bumpy : Course Recorder :=
  let launched := launch (new flaky 10 true) .start
  let sent := advance^[6] (launched.ask (.send [1]) 0)
  let lost := advance^[2] (sent.ask (.send [2]) 0)
  let again := advance^[4] (lost.ask (.send [3]) 3)
  advance^[1] (again.ask .close 0)

/-- In the course of `bumpy` the first attempt and the second write fail, and a pause follows each
of them. -/
theorem backoff_discipline_bumpy :
    flaky.HandsOutOpen ∧ Disciplined 10 bumpy.trace ∧
      pauses bumpy.trace = [⟨10, 5, 15, true⟩, ⟨10, 18, 28, true⟩] ∧
      attempts bumpy.trace = [0, 15, 28] ∧ bumpy.supervisor.failedAttempts = 1 ∧
      bumpy.supervisor.reconnects = 1 := by
  have hreaches : (launch (new flaky 10 true) .start).Reaches bumpy := by
    have hsent : (launch (new flaky 10 true) .start).Reaches _ :=
      reaches_ask (.ok ()) rfl (.send [1]) 0 6
    have hlost := hsent.trans (reaches_ask (.ok ()) rfl (.send [2]) 0 2)
    have hagain := hlost.trans (reaches_ask (.error (.io .brokenPipe)) rfl (.send [3]) 3 4)
    exact hagain.trans (reaches_ask (.ok ()) rfl .close 0 1)
  obtain ⟨hdisciplined, -, -, -, hreconnects, -⟩ :=
    backoff_discipline handsOutOpen_flaky 10 (fun _ => rfl) hreaches
  refine ⟨handsOutOpen_flaky, hdisciplined, by decide +kernel, by decide +kernel,
    by decide +kernel, ?_⟩
  rw [hreconnects]
  decide +kernel

/-- A supervisor with a `backoff` of one millisecond more than `Clock.longestWait`, after its pause.
-/
def patient : Course Recorder :=
  advance^[6] ((launch (new flaky (Clock.longestWait + 1) true) .start).ask .ensureConnected 0)

/-- The one pause of `patient`, between a failed attempt and the next one, is over before its
`backoff` has passed, because no timer of the runtime runs longer than `Clock.longestWait`. -/
theorem pause_shorter_than_interval :
    flaky.HandsOutOpen ∧ (launch (new flaky (Clock.longestWait + 1) true) .start).Reaches patient ∧
      ∃ before between later failure moment pause,
        patient.trace = before ++ failure :: (between ++ .attempted moment :: later) ∧
        failure.isFailure = true ∧ attempts between = [] ∧ .closed ∉ between ∧
        pauses between = [pause] ∧ pause.span = Clock.longestWait + 1 ∧
        pause.ended < pause.began + (Clock.longestWait + 1) := by
  have hreaches : (launch (new flaky (Clock.longestWait + 1) true) .start).Reaches patient :=
    reaches_ask (.ok ()) rfl .ensureConnected 0 6
  let pause : Pause := ⟨946080000001, 5, 946080000005, true⟩
  refine ⟨handsOutOpen_flaky, hreaches, [.attempted 0], [.paused pause], [.connected], .missed,
    946080000005, pause, ?_, rfl, rfl, ?_, rfl, rfl, ?_⟩
  · decide +kernel
  · decide
  · decide

end Course

end Volley.Supervisor
