import Mathlib.Logic.Function.Iterate
import Mathlib.Logic.Relation
import Volley.Proofs.Sink.Punctual
import Volley.Proofs.Supervisor.Sessions

/-!
# The course of a supervisor

A supervisor is asked for one thing after the other, and for most of them it needs an open session.
On the way to one it pauses and makes attempts, as often as it takes. This module takes a supervisor
from one of these places to the next, in the steps of which `Supervisor.ensureConnected` is made,
and notes what happens to it on the way, so that something can be said of everything that happens
before, during and between the requests.

## Main definitions

* `Supervisor.Happening`: what can happen to a supervisor.
* `Supervisor.Course`: where a supervisor stands, and what has happened to it so far.
* `Supervisor.Course.advance`: what it does next.
* `Supervisor.Course.Reaches`: what can come of a course, whatever is asked and whenever.

## Main results

* `Supervisor.Course.advances`: all that a supervisor can do next, case by case.
* `Supervisor.Course.reaches_respond`: a request is answered as the supervisor answers it.
* `Supervisor.Course.InOrder.of_reaches`: state, session and place agree all along a course.
* `Supervisor.Course.Recorded.of_reaches`: so do the counters and what has happened.
-/

namespace Volley.Supervisor

variable {σ : Type}

/-! ## What happens -/

/-- A pause after a failure, once it is over: from `began` to `ended`. -/
structure Pause where
  /-- What its timer was set to, in milliseconds. -/
  span : Nat
  began : Nat
  ended : Nat
  /-- Whether the timer has run out; otherwise the stop signal ended the pause. -/
  complete : Bool
  deriving DecidableEq, Repr

/-- Something that happens to a supervisor, as an entry of the `trace` of a `Course`. -/
inductive Happening where
  /-- A pause is over. -/
  | paused (pause : Pause)
  /-- An attempt to open a session begins. -/
  | attempted (moment : Nat)
  /-- It has yielded a session. -/
  | connected
  /-- It has yielded none. -/
  | missed
  /-- The session has answered a submission, and is kept or given up. -/
  | submitted (reply : Reply) (kept : Bool)
  /-- The supervisor has been closed. -/
  | closed
  deriving DecidableEq

namespace Happening

/-- The `Pause` that is over. -/
def pause? : Happening → Option Pause
  | paused pause => some pause
  | _ => none

/-- The moment at which an attempt begins, if one is `attempted`. -/
def moment? : Happening → Option Nat
  | attempted moment => some moment
  | _ => none

/-- Whether an attempt has succeeded, that is whether the supervisor is `connected`. -/
def isConnected : Happening → Bool
  | connected => true
  | _ => false

/-- Whether an attempt has failed, that is whether a session was `missed`. -/
def isMissed : Happening → Bool
  | missed => true
  | _ => false

/-- Whether an attempt or a write has failed. An error of which `isInvalidSplit` holds, that bytes
cannot be cut where they should be, is not a failure of the session. -/
def isFailure : Happening → Bool
  | missed => true
  | submitted (.error e) _ => !e.isInvalidSplit
  | _ => false

end Happening

/-- The pauses in a `trace`, in order. -/
def pauses (trace : List Happening) : List Pause :=
  trace.filterMap Happening.pause?

/-- The moments at which the attempts in a `trace` began, in order. -/
def attempts (trace : List Happening) : List Nat :=
  trace.filterMap Happening.moment?

theorem pauses_append (trace way : List Happening) :
    pauses (trace ++ way) = pauses trace ++ pauses way :=
  List.filterMap_append

theorem attempts_append (trace way : List Happening) :
    attempts (trace ++ way) = attempts trace ++ attempts way :=
  List.filterMap_append

/-! ## Answers -/

section answers

variable [Sink σ]

/-- The answer of a supervisor to a `Request`. To `close` it never fails. -/
def respond (request : Request) (clock : Clock) (supervisor : Supervisor σ) :
    Reply × Clock × Supervisor σ :=
  match request with
  | .send bytes => Sink.send bytes clock supervisor
  | .sendSplit bytes cut => Sink.sendSplit bytes cut clock supervisor
  | .ensureConnected => supervisor.ensureConnected clock
  | .close => (.ok (), clock, Sink.close supervisor)

/-- What `serve` leaves behind comes with the answer of `respond`. -/
theorem serve_eq (request : Request) (clock : Clock) (supervisor : Supervisor σ) :
    supervisor.serve request clock = (supervisor.respond request clock).2.2 := by
  cases request <;> rfl

/-- The answer to a `Request` for which there is all that it needs. -/
def finish (request : Request) (clock : Clock) (supervisor : Supervisor σ) :
    Reply × Clock × Supervisor σ :=
  match request with
  | .send bytes => supervisor.deliver (fun _ => false) (Sink.send bytes) clock
  | .sendSplit bytes cut =>
    supervisor.deliver TransportError.isInvalidSplit (Sink.sendSplit bytes cut) clock
  | .ensureConnected => (.ok (), clock, supervisor)
  | .close => (.ok (), clock, Sink.close supervisor)

/-- To `close` a supervisor no session is needed; for everything else `ensureConnected` comes first,
and then `finish`. -/
theorem respond_eq {request : Request} (hne : request ≠ .close) (clock : Clock)
    (supervisor : Supervisor σ) :
    supervisor.respond request clock =
      match supervisor.ensureConnected clock with
      | (.error e, later, left) => (.error e, later, left)
      | (.ok (), later, held) => held.finish request later := by
  -- Only the two kinds of writes do anything with the session that is found.
  rcases request with bytes | ⟨bytes, cut⟩ | _ | _
  · exact submit_eq _ _ clock supervisor
  · exact submit_eq _ _ clock supervisor
  · show supervisor.ensureConnected clock = _
    rcases supervisor.ensureConnected clock with ⟨e | _, later, left⟩ <;> rfl
  · exact absurd rfl hne

/-- With an open session, `respond` is `finish`. -/
theorem respond_eq_finish {request : Request} {clock : Clock} {supervisor : Supervisor σ}
    (hheld : request ≠ .close → supervisor.holdsOpen clock = true) :
    supervisor.respond request clock = supervisor.finish request clock := by
  by_cases hclose : request = .close
  · rw [hclose]
    rfl
  · rw [respond_eq hclose, ensureConnected_of_holdsOpen (hheld hclose)]

/-- A supervisor that is `Orderly` and has no open session has none. -/
theorem Orderly.session_eq_none {supervisor : Supervisor σ} (h : supervisor.Orderly)
    {clock : Clock} (hclosed : supervisor.holdsOpen clock = false) : supervisor.session = none := by
  rw [h.holdsOpen_eq] at hclosed
  exact Option.not_isSome_iff_eq_none.mp (Bool.eq_false_iff.mp hclosed)

/-- To `finish` a request leaves a supervisor `Orderly`. -/
theorem Orderly.finish [Sink.Steadfast σ] {request : Request} {supervisor : Supervisor σ}
    (h : supervisor.Orderly) (hheld : request ≠ .close → supervisor.session.isSome = true)
    (clock : Clock) : (supervisor.finish request clock).2.2.Orderly := by
  rw [← respond_eq_finish fun hne => (h.holdsOpen_eq clock).trans (hheld hne), ← serve_eq]
  exact h.serve request clock

/-- The counters and the settings of `next` are those of `supervisor`. -/
structure Unaltered (supervisor next : Supervisor σ) : Prop where
  backoff_eq : next.backoff = supervisor.backoff
  listens_eq : next.listens = supervisor.listens
  connects_eq : next.connects = supervisor.connects
  failedAttempts_eq : next.failedAttempts = supervisor.failedAttempts
  attemptTimes_eq : next.attemptTimes = supervisor.attemptTimes

theorem unaltered_deliver (inStep : TransportError → Bool)
    (submission : Clock → σ → Reply × Clock × σ) (clock : Clock) (supervisor : Supervisor σ) :
    supervisor.Unaltered (supervisor.deliver inStep submission clock).2.2 := by
  unfold deliver
  split
  · exact ⟨rfl, rfl, rfl, rfl, rfl⟩
  · split
    · exact ⟨rfl, rfl, rfl, rfl, rfl⟩
    · simp only
      split <;> exact ⟨rfl, rfl, rfl, rfl, rfl⟩

/-- To `finish` a request makes no attempt, and leaves the counters `Unaltered`. -/
theorem unaltered_finish (request : Request) (clock : Clock) (supervisor : Supervisor σ) :
    supervisor.Unaltered (supervisor.finish request clock).2.2 := by
  cases request with
  | send => exact unaltered_deliver _ _ clock supervisor
  | sendSplit => exact unaltered_deliver _ _ clock supervisor
  | ensureConnected => exact ⟨rfl, rfl, rfl, rfl, rfl⟩
  | close => exact ⟨rfl, rfl, rfl, rfl, rfl⟩

/-- To `finish` a request only takes time. -/
theorem precedes_finish [Sink.Punctual σ] (request : Request) (clock : Clock)
    (supervisor : Supervisor σ) : clock.Precedes (supervisor.finish request clock).2.1 := by
  cases request with
  | send bytes => exact precedes_deliver (Sink.Punctual.send bytes) _ clock supervisor
  | sendSplit bytes cut =>
    exact precedes_deliver (Sink.Punctual.sendSplit bytes cut) _ clock supervisor
  | ensureConnected => rfl
  | close => rfl

/-- Where no pause is due, a supervisor is `Attempting` at once. -/
theorem Orderly.apply_connectRequested {supervisor : Supervisor σ} (h : supervisor.Orderly)
    (hnone : supervisor.session = none) (hready : supervisor.state.needsBackoff = false) :
    (supervisor.apply .connectRequested).Attempting := by
  have hbegin : supervisor.beginAttempt .start =
      (some (supervisor.apply .connectRequested), .start) := by
    rw [Supervisor.beginAttempt, hready, if_neg Bool.false_ne_true]
  exact h.beginAttempt hnone hbegin

/-- Where a pause is due, a supervisor is `Attempting` when it has passed. -/
theorem Orderly.apply_backoffElapsed {supervisor : Supervisor σ} (h : supervisor.Orderly)
    (hnone : supervisor.session = none) (hfailed : supervisor.state = .failed)
    {clock later : Clock} (hwait : supervisor.waitBackoff clock = (true, later)) :
    (supervisor.apply .backoffElapsed).Attempting := by
  have hbackoff : supervisor.state.needsBackoff = true := by rw [hfailed]; rfl
  have hbegin : supervisor.beginAttempt clock =
      (some (supervisor.apply .backoffElapsed), later) := by
    rw [Supervisor.beginAttempt, if_pos hbackoff, hwait]
  exact h.beginAttempt hnone hbegin

end answers

/-- What happens with the answer to a `Request`. -/
def Request.happenings (request : Request) (reply : Reply) (next : Supervisor σ) :
    List Happening :=
  match request with
  | .send _ => [.submitted reply next.session.isSome]
  | .sendSplit _ _ => [.submitted reply next.session.isSome]
  | .ensureConnected => []
  | .close => [.closed]

/-- The `happenings` of a request are neither pauses nor attempts nor what comes of one. -/
theorem Request.happenings_uncounted (request : Request) (reply : Reply) (next : Supervisor σ) :
    pauses (request.happenings reply next) = [] ∧ attempts (request.happenings reply next) = [] ∧
      (request.happenings reply next).countP Happening.isMissed = 0 ∧
      (request.happenings reply next).countP Happening.isConnected = 0 := by
  cases request <;> exact ⟨rfl, rfl, rfl, rfl⟩

/-! ## Courses -/

/-- Where a supervisor stands, with the `Request` that it has to answer. -/
inductive Stage (σ : Type) where
  /-- Nothing is asked of it; this is its last answer. -/
  | idle (reply : Reply)
  /-- It looks for an open session. -/
  | seeking (request : Request)
  /-- It waits for the pause after a failure to pass. -/
  | pausing (request : Request)
  /-- It waits for what comes of an attempt. -/
  | attempting (request : Request) (attempt : Attempt σ)
  /-- It has what it needs. -/
  | serving (request : Request)

/-- Whether a supervisor waits on its way to a session: it is `pausing` or `attempting`. -/
def Stage.isWaiting : Stage σ → Bool
  | idle _ => false
  | seeking _ => false
  | pausing _ => true
  | attempting _ _ => true
  | serving _ => false

/-- A supervisor at some `stage`, with the `trace` of what has happened to it, in order. -/
structure Course (σ : Type) where
  stage : Stage σ
  clock : Clock
  supervisor : Supervisor σ
  trace : List Happening

namespace Course

/-- A supervisor of which nothing has been asked, with an empty `trace`. -/
def launch (supervisor : Supervisor σ) (clock : Clock) : Course σ :=
  ⟨.idle (.ok ()), clock, supervisor, []⟩

/-- A supervisor that makes the next attempt of its connector, by `Supervisor.draw`. -/
def startAttempt (request : Request) (clock : Clock) (supervisor : Supervisor σ)
    (trace : List Happening) : Course σ :=
  ⟨.attempting request supervisor.connector.next.1, clock, supervisor.draw clock.now,
    trace ++ [.attempted clock.now]⟩

/-- A supervisor of which, after some time, a `Request` is made. -/
def ask (request : Request) (span : Nat) (course : Course σ) : Course σ :=
  { course with
    stage := if request = .close then .serving request else .seeking request
    clock := course.clock.pass span }

section moves

variable [Sink σ]

/-- What a supervisor does next at its `stage`. -/
def advance (course : Course σ) : Course σ :=
  let ⟨stage, clock, supervisor, trace⟩ := course
  match stage with
  | .idle reply => ⟨.idle reply, clock, supervisor, trace⟩
  | .seeking request =>
    -- The signal counts only where there is no open session.
    if supervisor.holdsOpen clock then ⟨.serving request, clock, supervisor, trace⟩
    else if supervisor.stopped clock then ⟨.idle (.error .closed), clock, supervisor, trace⟩
    else if supervisor.state.needsBackoff then ⟨.pausing request, clock, supervisor, trace⟩
    else startAttempt request clock (supervisor.apply .connectRequested) trace
  | .pausing request =>
    match supervisor.waitBackoff clock with
    | (true, later) =>
      startAttempt request later (supervisor.apply .backoffElapsed)
        (trace ++ [.paused ⟨supervisor.backoff, clock.now, later.now, true⟩])
    | (false, later) =>
      ⟨.idle (.error .closed), later, supervisor,
        trace ++ [.paused ⟨supervisor.backoff, clock.now, later.now, false⟩]⟩
  | .attempting request attempt =>
    match attempt.result with
    | .ok session =>
      ⟨.serving request, clock.advance attempt.delay, supervisor.hold session,
        trace ++ [.connected]⟩
    | .error _ =>
      -- The search starts over, with the signal to be looked at again.
      ⟨.seeking request, clock.advance attempt.delay, supervisor.miss, trace ++ [.missed]⟩
  | .serving request =>
    let (reply, later, next) := supervisor.finish request clock
    ⟨.idle reply, later, next, trace ++ request.happenings reply next⟩

/-- What can happen next: the supervisor has its `advance`, or it is asked for something if it is
`idle`. -/
inductive Moves : Course σ → Course σ → Prop where
  | advance (course : Course σ) : Moves course course.advance
  | ask {course : Course σ} {reply : Reply} (hidle : course.stage = .idle reply)
      (request : Request) (span : Nat) : Moves course (course.ask request span)

/-- What can come of a course by any number of `Moves`. -/
def Reaches (first later : Course σ) : Prop :=
  Relation.ReflTransGen Moves first later

theorem Reaches.refl (course : Course σ) : course.Reaches course :=
  Relation.ReflTransGen.refl

theorem Reaches.trans {first second third : Course σ} (h : first.Reaches second)
    (h' : second.Reaches third) : first.Reaches third :=
  Relation.ReflTransGen.trans h h'

/-- Whatever a course `Reaches` after its `advance` it reaches. -/
theorem Reaches.of_advance {course later : Course σ} (h : course.advance.Reaches later) :
    course.Reaches later :=
  Relation.ReflTransGen.head (Moves.advance course) h

theorem Reaches.of_advance_eq {course later : Course σ} (h : course.advance = later) :
    course.Reaches later :=
  Reaches.of_advance (h ▸ Reaches.refl course.advance)

/-- A course `Reaches` what comes of any number of times `advance`. -/
theorem reaches_iterate (n : Nat) (course : Course σ) : course.Reaches (advance^[n] course) := by
  induction n generalizing course with
  | zero => exact .refl course
  | succ n ih => exact .of_advance (ih course.advance)

/-- A supervisor that is `idle` can be asked for something, and then go on. -/
theorem reaches_ask {course : Course σ} (reply : Reply) (hidle : course.stage = .idle reply)
    (request : Request) (span n : Nat) :
    course.Reaches (advance^[n] (course.ask request span)) :=
  Relation.ReflTransGen.head (Moves.ask hidle request span) (reaches_iterate n _)

/-- A property `P` that holds to begin with, and is kept by `advance` and by `ask`, holds of all
that a course `Reaches`. -/
theorem Reaches.invariant {P : Course σ → Prop} {first course : Course σ}
    (hadvance : ∀ {course : Course σ}, P course → P course.advance)
    (hask : ∀ {course : Course σ}, P course → ∀ {reply : Reply}, course.stage = .idle reply →
      ∀ (request : Request) (span : Nat), P (course.ask request span))
    (hreaches : first.Reaches course) (h : P first) : P course := by
  induction hreaches with
  | refl => exact h
  | tail _ hmoves ih =>
    cases hmoves with
    | advance => exact hadvance ih
    | ask hidle request span => exact hask ih hidle request span

/-- Everything that a supervisor can do next, one way for each branch of `advance`. -/
inductive Advances : Course σ → Course σ → Prop where
  | rests (reply : Reply) (clock : Clock) (supervisor : Supervisor σ) (trace : List Happening) :
      Advances ⟨.idle reply, clock, supervisor, trace⟩ ⟨.idle reply, clock, supervisor, trace⟩
  | finds {request : Request} {clock : Clock} {supervisor : Supervisor σ}
      {trace : List Happening} (hopen : supervisor.holdsOpen clock = true) :
      Advances ⟨.seeking request, clock, supervisor, trace⟩
        ⟨.serving request, clock, supervisor, trace⟩
  | refuses {request : Request} {clock : Clock} {supervisor : Supervisor σ}
      {trace : List Happening} (hclosed : supervisor.holdsOpen clock = false)
      (hstopped : supervisor.stopped clock = true) :
      Advances ⟨.seeking request, clock, supervisor, trace⟩
        ⟨.idle (.error .closed), clock, supervisor, trace⟩
  | pauses {request : Request} {clock : Clock} {supervisor : Supervisor σ}
      {trace : List Happening} (hclosed : supervisor.holdsOpen clock = false)
      (hrunning : supervisor.stopped clock = false)
      (hbackoff : supervisor.state.needsBackoff = true) :
      Advances ⟨.seeking request, clock, supervisor, trace⟩
        ⟨.pausing request, clock, supervisor, trace⟩
  | starts {request : Request} {clock : Clock} {supervisor : Supervisor σ}
      {trace : List Happening} (hclosed : supervisor.holdsOpen clock = false)
      (hrunning : supervisor.stopped clock = false)
      (hready : supervisor.state.needsBackoff = false) :
      Advances ⟨.seeking request, clock, supervisor, trace⟩
        (startAttempt request clock (supervisor.apply .connectRequested) trace)
  | retries {request : Request} {clock later : Clock} {supervisor : Supervisor σ}
      {trace : List Happening} (hwait : supervisor.waitBackoff clock = (true, later)) :
      Advances ⟨.pausing request, clock, supervisor, trace⟩
        (startAttempt request later (supervisor.apply .backoffElapsed)
          (trace ++ [.paused ⟨supervisor.backoff, clock.now, later.now, true⟩]))
  | givesUp {request : Request} {clock later : Clock} {supervisor : Supervisor σ}
      {trace : List Happening} (hwait : supervisor.waitBackoff clock = (false, later)) :
      Advances ⟨.pausing request, clock, supervisor, trace⟩
        ⟨.idle (.error .closed), later, supervisor,
          trace ++ [.paused ⟨supervisor.backoff, clock.now, later.now, false⟩]⟩
  | connects {request : Request} {attempt : Attempt σ} {clock : Clock} {supervisor : Supervisor σ}
      {trace : List Happening} {session : σ} (hresult : attempt.result = .ok session) :
      Advances ⟨.attempting request attempt, clock, supervisor, trace⟩
        ⟨.serving request, clock.advance attempt.delay, supervisor.hold session,
          trace ++ [.connected]⟩
  | misses {request : Request} {attempt : Attempt σ} {clock : Clock} {supervisor : Supervisor σ}
      {trace : List Happening} {e : TransportError} (hresult : attempt.result = .error e) :
      Advances ⟨.attempting request attempt, clock, supervisor, trace⟩
        ⟨.seeking request, clock.advance attempt.delay, supervisor.miss, trace ++ [.missed]⟩
  | answers {request : Request} {clock later : Clock} {supervisor next : Supervisor σ}
      {trace : List Happening} {reply : Reply}
      (hfinish : supervisor.finish request clock = (reply, later, next)) :
      Advances ⟨.serving request, clock, supervisor, trace⟩
        ⟨.idle reply, later, next, trace ++ request.happenings reply next⟩

/-- To `advance` is one of the ways of `Advances`. -/
theorem advances (course : Course σ) : course.Advances course.advance := by
  obtain ⟨stage, clock, supervisor, trace⟩ := course
  rcases stage with reply | request | request | ⟨request, attempt⟩ | request
  · exact .rests reply clock supervisor trace
  · simp only [advance]
    split
    · next hopen => exact .finds hopen
    · next hopen =>
      have hclosed := Bool.eq_false_iff.mpr hopen
      split
      · next hstopped => exact .refuses hclosed hstopped
      · next hrunning =>
        have hrunning := Bool.eq_false_iff.mpr hrunning
        split
        · next hbackoff => exact .pauses hclosed hrunning hbackoff
        · next hready => exact .starts hclosed hrunning (Bool.eq_false_iff.mpr hready)
  · simp only [advance]
    split
    · next hwait => exact .retries hwait
    · next hwait => exact .givesUp hwait
  · simp only [advance]
    split
    · next hresult => exact .connects hresult
    · next hresult => exact .misses hresult
  · exact .answers rfl

/-! ## The way to a session -/

/-- An attempt ends as `Supervisor.attempt` says. -/
theorem advance_startAttempt (request : Request) (clock : Clock) (supervisor : Supervisor σ)
    (trace : List Happening) :
    (startAttempt request clock supervisor trace).advance =
      match supervisor.attempt clock with
      | (true, later, next) =>
        ⟨.serving request, later, next, trace ++ [.attempted clock.now, .connected]⟩
      | (false, later, next) =>
        ⟨.seeking request, later, next, trace ++ [.attempted clock.now, .missed]⟩ := by
  unfold startAttempt advance Supervisor.attempt
  simp only
  rcases supervisor.connector.next.1.result with e | session
  · simp only [List.append_assoc, List.singleton_append]
  · simp only [List.append_assoc, List.singleton_append]

section seeking

variable (request : Request) {clock later : Clock} {supervisor left : Supervisor σ}

/-- A supervisor that is `seeking` a session comes to an attempt when `beginAttempt` lets it. -/
theorem reaches_startAttempt (hclosed : supervisor.holdsOpen clock = false)
    (hrunning : supervisor.stopped clock = false)
    (hbegin : supervisor.beginAttempt clock = (some left, later)) (trace : List Happening) :
    ∃ way, Reaches ⟨.seeking request, clock, supervisor, trace⟩
      (startAttempt request later left (trace ++ way)) := by
  unfold beginAttempt at hbegin
  split at hbegin
  · next hbackoff =>
    split at hbegin
    · next hwait =>
      -- One step to the pause, and one to its end.
      cases hbegin
      refine ⟨[.paused ⟨supervisor.backoff, clock.now, later.now, true⟩],
        Reaches.of_advance (Reaches.of_advance_eq ?_)⟩
      simp only [advance, hclosed, hrunning, hbackoff, hwait, Bool.false_eq_true, if_false, if_true]
    · cases hbegin
  · next hready =>
    cases hbegin
    refine ⟨[], Reaches.of_advance_eq ?_⟩
    simp only [advance, hclosed, hrunning, hready, Bool.false_eq_true, if_false, List.append_nil]

/-- If the stop signal comes first in `beginAttempt`, it gives up. -/
theorem reaches_idle_of_beginAttempt (hclosed : supervisor.holdsOpen clock = false)
    (hrunning : supervisor.stopped clock = false)
    (hbegin : supervisor.beginAttempt clock = (none, later)) (trace : List Happening) :
    ∃ way, Reaches ⟨.seeking request, clock, supervisor, trace⟩
      ⟨.idle (.error .closed), later, supervisor, trace ++ way⟩ := by
  unfold beginAttempt at hbegin
  split at hbegin
  · next hbackoff =>
    split at hbegin
    · cases hbegin
    · next hwait =>
      cases hbegin
      refine ⟨[.paused ⟨supervisor.backoff, clock.now, later.now, false⟩],
        Reaches.of_advance (Reaches.of_advance_eq ?_)⟩
      simp only [advance, hclosed, hrunning, hbackoff, hwait, Bool.false_eq_true, if_false, if_true]
  · cases hbegin

/-- Where a supervisor stands that has looked for a session with this result: `serving`, or `idle`
with an error. -/
def sought (request : Request) : Reply → Stage σ
  | .ok () => .serving request
  | .error e => .idle (.error e)

/-- A supervisor that looks for a session comes to the result of `Supervisor.ensureConnected`. If it
has a session then, it had one before, or its last attempt has just yielded one. -/
theorem reaches_sought {reply : Reply} (horderly : supervisor.Orderly)
    (h : supervisor.ensureConnected clock = (reply, later, left)) (trace : List Happening) :
    ∃ way, Reaches ⟨.seeking request, clock, supervisor, trace⟩
        ⟨sought request reply, later, left, trace ++ way⟩ ∧
      (reply = .ok () → supervisor.holdsOpen clock = true ∨
        ∃ front moment, way = front ++ [.attempted moment, .connected]) := by
  fun_induction ensureConnected clock supervisor generalizing trace with
  | case1 clock supervisor hopen =>
    cases h
    refine ⟨[], Reaches.of_advance_eq ?_, fun _ => Or.inl hopen⟩
    simp only [advance, hopen, if_true, List.append_nil]
    rfl
  | case2 clock supervisor hclosed hstopped =>
    cases h
    refine ⟨[], Reaches.of_advance_eq ?_, fun hok => by cases hok⟩
    simp only [advance, hclosed, hstopped, Bool.false_eq_true, if_false, if_true, List.append_nil]
    rfl
  | case3 clock supervisor hclosed hrunning started hbegin =>
    cases h
    obtain ⟨way, hway⟩ := reaches_idle_of_beginAttempt request
      (Bool.eq_false_iff.mpr hclosed) (Bool.eq_false_iff.mpr hrunning) hbegin trace
    exact ⟨way, hway, fun hok => by cases hok⟩
  | case4 clock supervisor hclosed hrunning begun started hbegin _ next hattempt =>
    cases h
    obtain ⟨way, hway⟩ := reaches_startAttempt request
      (Bool.eq_false_iff.mpr hclosed) (Bool.eq_false_iff.mpr hrunning) hbegin trace
    refine ⟨way ++ [.attempted started.now, .connected], hway.trans (Reaches.of_advance_eq ?_),
      fun _ => Or.inr ⟨way, started.now, rfl⟩⟩
    rw [advance_startAttempt, hattempt, ← List.append_assoc]
    rfl
  | case5 clock supervisor hclosed hrunning begun started hbegin after next hattempt _ ih =>
    -- The attempt has failed, and the search starts over without a session, so what it finds in the
    -- end comes from an attempt.
    have hnone := horderly.session_eq_none (Bool.eq_false_iff.mpr hclosed)
    obtain ⟨hnext, hlost⟩ := (horderly.beginAttempt hnone hbegin).attempt hattempt
    obtain ⟨way, hway⟩ := reaches_startAttempt request
      (Bool.eq_false_iff.mpr hclosed) (Bool.eq_false_iff.mpr hrunning) hbegin trace
    obtain ⟨rest, hrest, hfound⟩ :=
      ih hnext h (trace ++ way ++ [.attempted started.now, .missed])
    refine ⟨way ++ [.attempted started.now, .missed] ++ rest, ?_, ?_⟩
    · refine hway.trans (Reaches.of_advance ?_)
      rw [advance_startAttempt, hattempt]
      simpa only [List.append_assoc] using hrest
    · intro hok
      rcases hfound hok with hopen | ⟨front, moment, rfl⟩
      · rw [hnext.holdsOpen_eq, hlost rfl] at hopen
        exact absurd hopen Bool.false_ne_true
      · refine Or.inr ⟨way ++ [.attempted started.now, .missed] ++ front, moment, ?_⟩
        simp only [List.append_assoc]

end seeking

/-! ## Requests -/

/-- Unless it is a `close`, a `request` that is asked of an idle supervisor leads to the stage
`seeking` in one `ask`. -/
theorem reaches_seeking {request : Request} (hne : request ≠ .close) (reply : Reply)
    (clock : Clock) (supervisor : Supervisor σ) (trace : List Happening) (span : Nat) :
    Reaches ⟨.idle reply, clock, supervisor, trace⟩
      ⟨.seeking request, clock.pass span, supervisor, trace⟩ := by
  have hask : Moves ⟨.idle reply, clock, supervisor, trace⟩
      (ask request span ⟨.idle reply, clock, supervisor, trace⟩) := .ask rfl request span
  rw [ask, if_neg hne] at hask
  exact Relation.ReflTransGen.single hask

/-- What `Supervisor.ensureConnected` computes for `.ensureConnected` is reached by a course, with
the same reply, clock and supervisor. If the reply is `.ok ()`, the way there ends with
`.connected`, unless `holdsOpen` was true at the start. -/
theorem reaches_ensureConnected {clock later : Clock} {supervisor left : Supervisor σ}
    {reply found : Reply} {trace : List Happening} (horderly : supervisor.Orderly) {span : Nat}
    (h : supervisor.ensureConnected (clock.pass span) = (found, later, left)) :
    ∃ way, Reaches ⟨.idle reply, clock, supervisor, trace⟩
        ⟨.idle found, later, left, trace ++ way⟩ ∧
      (found = .ok () → supervisor.holdsOpen (clock.pass span) = true ∨
        ∃ front began, way = front ++ [.attempted began, .connected]) := by
  obtain ⟨way, hway, hfound⟩ := reaches_sought .ensureConnected horderly h trace
  refine ⟨way, (reaches_seeking (by decide) reply clock supervisor trace span).trans
    (hway.trans ?_), hfound⟩
  rcases found with e | _
  · exact .refl _
  · refine Reaches.of_advance_eq ?_
    simp only [sought, advance, finish, Request.happenings, List.append_nil]

/-- What `respond` computes for a `request` is reached by a course in which it is asked, with the
same reply, clock and supervisor, so `Reaches` covers every call of these functions. -/
theorem reaches_respond {reply : Reply} {clock : Clock} {supervisor : Supervisor σ}
    {trace : List Happening} (horderly : supervisor.Orderly) (request : Request) (span : Nat) :
    ∃ way, Reaches ⟨.idle reply, clock, supervisor, trace⟩
      ⟨.idle (supervisor.respond request (clock.pass span)).1,
        (supervisor.respond request (clock.pass span)).2.1,
        (supervisor.respond request (clock.pass span)).2.2, trace ++ way⟩ := by
  by_cases hclose : request = .close
  · subst hclose
    have hask : Moves ⟨.idle reply, clock, supervisor, trace⟩
        (ask .close span ⟨.idle reply, clock, supervisor, trace⟩) := .ask rfl .close span
    exact ⟨[.closed], Relation.ReflTransGen.head hask (Reaches.of_advance_eq rfl)⟩
  · -- The request first looks for a session, and is served if there is one.
    have hseeking := reaches_seeking hclose reply clock supervisor trace span
    rw [respond_eq hclose]
    rcases hensure : supervisor.ensureConnected (clock.pass span) with ⟨found, later, left⟩
    obtain ⟨way, hway, -⟩ := reaches_sought request horderly hensure trace
    rcases found with e | _
    · exact ⟨way, hseeking.trans hway⟩
    · simp only
      rcases hfinish : left.finish request later with ⟨answer, after, next⟩
      refine ⟨way ++ request.happenings answer next,
        hseeking.trans (hway.trans (Reaches.of_advance_eq ?_))⟩
      simp only [sought, advance, hfinish, List.append_assoc]

/-! ## Order -/

/-- State, session and stage agree: the supervisor is `Orderly`, except that it is `Attempting` at
the stage `attempting`; it is `failed`, has no `session` and is not `stopped` when a pause begins;
and it is `serving` a request other than `close` only with a session. -/
inductive InOrder : Course σ → Prop where
  | idle {reply : Reply} {clock : Clock} {supervisor : Supervisor σ} {trace : List Happening}
      (horderly : supervisor.Orderly) : InOrder ⟨.idle reply, clock, supervisor, trace⟩
  | seeking {request : Request} {clock : Clock} {supervisor : Supervisor σ}
      {trace : List Happening} (horderly : supervisor.Orderly) :
      InOrder ⟨.seeking request, clock, supervisor, trace⟩
  | pausing {request : Request} {clock : Clock} {supervisor : Supervisor σ}
      {trace : List Happening} (horderly : supervisor.Orderly)
      (hnone : supervisor.session = none) (hfailed : supervisor.state = .failed)
      (hrunning : supervisor.stopped clock = false) :
      InOrder ⟨.pausing request, clock, supervisor, trace⟩
  | attempting {request : Request} {attempt : Attempt σ} {clock : Clock}
      {supervisor : Supervisor σ} {trace : List Happening} (hattempting : supervisor.Attempting)
      (hopen : ∀ session, attempt.result = .ok session →
        ∀ clock, Sink.isOpen clock session = true) :
      InOrder ⟨.attempting request attempt, clock, supervisor, trace⟩
  | serving {request : Request} {clock : Clock} {supervisor : Supervisor σ}
      {trace : List Happening} (horderly : supervisor.Orderly)
      (hheld : request ≠ .close → supervisor.session.isSome = true) :
      InOrder ⟨.serving request, clock, supervisor, trace⟩

/-- From a supervisor that is `Attempting`, `startAttempt` gives a course that is `InOrder`. -/
theorem InOrder.startAttempt {begun : Supervisor σ} (hbegun : begun.Attempting)
    (request : Request) (clock : Clock) (trace : List Happening) :
    (startAttempt request clock begun trace).InOrder := by
  refine .attempting (hbegun.draw clock.now) ?_
  intro session hresult
  rw [Connector.next_fst] at hresult
  exact hbegun.handsOutOpen 0 session hresult

/-- A step of the supervisor itself, `advance`, keeps `InOrder`. -/
theorem InOrder.advance [Sink.Steadfast σ] {course : Course σ} (h : course.InOrder) :
    course.advance.InOrder := by
  have hstep := advances course
  generalize course.advance = after at hstep
  cases hstep with
  | rests => exact h
  | finds hopen =>
    cases h with
    | seeking horderly => exact .serving horderly fun _ => horderly.holdsOpen_eq _ ▸ hopen
  | refuses _ _ =>
    cases h with
    | seeking horderly => exact .idle horderly
  | pauses hclosed hrunning hbackoff =>
    cases h with
    | seeking horderly =>
      refine .pausing horderly (horderly.session_eq_none hclosed) ?_ hrunning
      simpa [ConnectionState.needsBackoff] using hbackoff
  | starts hclosed _ hready =>
    cases h with
    | seeking horderly =>
      -- A session that is held would be open.
      have hnone := horderly.session_eq_none hclosed
      exact .startAttempt (horderly.apply_connectRequested hnone hready) _ _ _
  | retries hwait =>
    cases h with
    | pausing horderly hnone hfailed _ =>
      exact .startAttempt (horderly.apply_backoffElapsed hnone hfailed hwait) _ _ _
  | givesUp _ =>
    cases h with
    | pausing horderly _ _ _ => exact .idle horderly
  | connects hresult =>
    cases h with
    | attempting hattempting hopen =>
      exact .serving (hattempting.hold (hopen _ hresult)) fun _ => rfl
  | misses hresult =>
    cases h with
    | attempting hattempting _ => exact .seeking hattempting.miss.1
  | @answers _ clock _ _ _ _ _ hfinish =>
    cases h with
    | serving horderly hheld =>
      have hnext := horderly.finish hheld clock
      rw [hfinish] at hnext
      exact .idle hnext

/-- So does `ask`, which is possible at the stage `idle` only. -/
theorem InOrder.ask {course : Course σ} (h : course.InOrder) {reply : Reply}
    (hidle : course.stage = .idle reply) (request : Request) (span : Nat) :
    (course.ask request span).InOrder := by
  cases h with
  | idle horderly =>
    unfold Course.ask
    by_cases hclose : request = .close
    · rw [if_pos hclose]
      exact .serving horderly fun hne => absurd hclose hne
    · rw [if_neg hclose]
      exact .seeking horderly
  | seeking => cases hidle
  | pausing => cases hidle
  | attempting => cases hidle
  | serving => cases hidle

/-- The invariant `InOrder` holds at every point that a course `Reaches`. -/
theorem InOrder.of_reaches [Sink.Steadfast σ] {first course : Course σ} (h : first.InOrder)
    (hreaches : first.Reaches course) : course.InOrder :=
  hreaches.invariant InOrder.advance InOrder.ask h

/-- The first point of a course, `launch`, is `InOrder` if the connector `HandsOutOpen`. -/
theorem InOrder.launch {connector : Connector σ} (hopen : connector.HandsOutOpen) (backoff : Nat)
    (listens : Bool) (clock : Clock) : (launch (new connector backoff listens) clock).InOrder :=
  .idle (Orderly.new hopen backoff listens)

end moves

/-! ## What stays, and what is counted -/

/-- A course goes on from `first` at a later moment, with the same settings. -/
structure Follows (first course : Course σ) : Prop where
  backoff_eq : course.supervisor.backoff = first.supervisor.backoff
  listens_eq : course.supervisor.listens = first.supervisor.listens
  precedes : first.clock.Precedes course.clock

theorem Follows.refl (course : Course σ) : course.Follows course :=
  ⟨rfl, rfl, .refl course.clock⟩

/-- The counters of the supervisor say what its `trace` has. -/
structure Recorded (course : Course σ) : Prop where
  attempts_eq : attempts course.trace = course.supervisor.attemptTimes.reverse
  missed_eq : course.trace.countP Happening.isMissed = course.supervisor.failedAttempts
  connected_eq : course.trace.countP Happening.isConnected = course.supervisor.connects

/-- The counters that are `Recorded` keep up with what happens on the `way`. -/
theorem Recorded.append {course next : Course σ} {way : List Happening} (h : course.Recorded)
    (htrace : next.trace = course.trace ++ way)
    (hattempts : next.supervisor.attemptTimes =
      (attempts way).reverse ++ course.supervisor.attemptTimes)
    (hmissed : next.supervisor.failedAttempts =
      course.supervisor.failedAttempts + way.countP Happening.isMissed)
    (hconnected : next.supervisor.connects =
      course.supervisor.connects + way.countP Happening.isConnected) : next.Recorded := by
  refine ⟨?_, ?_, ?_⟩
  · rw [htrace, hattempts, attempts_append, h.attempts_eq, List.reverse_append,
      List.reverse_reverse]
  · rw [htrace, hmissed, List.countP_append, h.missed_eq]
  · rw [htrace, hconnected, List.countP_append, h.connected_eq]

variable [Sink σ]

/-- In `advance` a supervisor keeps its settings, and the clock is not turned back. -/
theorem follows_advance [Sink.Punctual σ] (course : Course σ) :
    course.Follows course.advance := by
  have hstep := advances course
  generalize course.advance = after at hstep
  -- Time passes in a pause, in an attempt and while a request is served.
  cases hstep with
  | rests => exact .refl _
  | finds => exact ⟨rfl, rfl, .refl _⟩
  | refuses => exact ⟨rfl, rfl, .refl _⟩
  | pauses => exact ⟨rfl, rfl, .refl _⟩
  | starts => exact ⟨rfl, rfl, .refl _⟩
  | @retries _ clock _ supervisor _ hwait =>
    have hwaited := supervisor.precedes_waitBackoff clock
    rw [hwait] at hwaited
    exact ⟨rfl, rfl, hwaited⟩
  | @givesUp _ clock _ supervisor _ hwait =>
    have hwaited := supervisor.precedes_waitBackoff clock
    rw [hwait] at hwaited
    exact ⟨rfl, rfl, hwaited⟩
  | @connects _ attempt clock =>
    exact ⟨rfl, rfl, clock.precedes_advance attempt.delay⟩
  | @misses _ attempt clock =>
    exact ⟨rfl, rfl, clock.precedes_advance attempt.delay⟩
  | @answers request clock _ supervisor _ _ _ hfinish =>
    have hsame := unaltered_finish request clock supervisor
    have hserved := supervisor.precedes_finish request clock
    rw [hfinish] at hsame hserved
    exact ⟨hsame.backoff_eq, hsame.listens_eq, hserved⟩

/-- What a supervisor does in `advance` is `Recorded`. -/
theorem Recorded.advance {course : Course σ} (h : course.Recorded) : course.advance.Recorded := by
  have hstep := advances course
  generalize course.advance = after at hstep
  -- An attempt is counted when it begins, and once more when it has a result.
  cases hstep with
  | rests => exact h
  | finds => exact ⟨h.attempts_eq, h.missed_eq, h.connected_eq⟩
  | refuses => exact ⟨h.attempts_eq, h.missed_eq, h.connected_eq⟩
  | pauses => exact ⟨h.attempts_eq, h.missed_eq, h.connected_eq⟩
  | starts => exact h.append rfl rfl rfl rfl
  | retries => exact h.append (List.append_assoc _ _ _) rfl rfl rfl
  | givesUp => exact h.append rfl rfl rfl rfl
  | connects => exact h.append rfl rfl rfl rfl
  | misses => exact h.append rfl rfl rfl rfl
  | @answers request clock _ supervisor next _ reply hfinish =>
    have hsame := unaltered_finish request clock supervisor
    rw [hfinish] at hsame
    obtain ⟨-, hattempts, hmissed, hconnected⟩ := request.happenings_uncounted reply next
    refine h.append rfl ?_ ?_ ?_
    · rw [hattempts]
      exact hsame.attemptTimes_eq
    · rw [hmissed]
      exact hsame.failedAttempts_eq
    · rw [hconnected]
      exact hsame.connects_eq

/-- At every point that a course `Reaches`, the counters are `Recorded`: they agree with the
`trace`. -/
theorem Recorded.of_reaches {connector : Connector σ} {backoff : Nat} {listens : Bool}
    {clock : Clock} {course : Course σ}
    (hreaches : (launch (new connector backoff listens) clock).Reaches course) :
    course.Recorded := by
  refine hreaches.invariant (P := Recorded) Recorded.advance ?_ ⟨rfl, rfl, rfl⟩
  intro course h reply _ request span
  exact ⟨h.attempts_eq, h.missed_eq, h.connected_eq⟩

end Course

end Volley.Supervisor
