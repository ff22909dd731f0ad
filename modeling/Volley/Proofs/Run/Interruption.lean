import Volley.Proofs.Run.Accounting
import Volley.Proofs.Scenario.Pulling
import Volley.Proofs.Sink.Punctual

/-!
# Runs and the stop signal

The stop signal may be raised before the first write of a run, while its sink takes a write, in a
pause, or when all writes have been made. A run looks at it before each write and in each pause, and
in the pauses only does it wait for it. So no write is begun once the signal has been raised, but
the one that is under way is completed, however long it takes, and it is not made again.

This holds of every scenario, also of one whose payloads cannot be built or whose events cannot be
encoded, and of every sink that does nothing but take its time.

A write that fails when the signal has been raised ends the run. Whether the run says that it was
stopped is not decided there: it does if its plan has further writes, and a run whose last write has
failed counts as completed.

## Main definitions

* `Submission`: what a sink is asked to take.
* `Run.Course.submissions`: what a run has asked of its sink so far, or is asking.
* `Run.Course.Offered`: this is the beginning of what the plan hands out.
* `Run.endingBefore`: how a run ends before the given writes.

## Main results

* `Run.Course.Offered.proceed`: each write is offered in its turn.
* `Run.Course.submissions_of_stopped`: once the signal has been raised, no write is begun.
* `Run.Course.stop_keeps_writes_whole`: what the signal does to a run.
* `Run.ending_of_failure_when_stopped`: how a run ends whose write fails then.
-/

namespace Volley

/-- The `bytes` that a sink is asked to take, and the place to `cut` them, if they are to be cut. -/
structure Submission where
  bytes : Bytes
  cut : Option Nat
  deriving DecidableEq, Repr

/-- What a sink is asked to take in a `Call`, if the call is not to `close` it. -/
def Call.submission? : Call → Option Submission
  | send bytes _ _ => some ⟨bytes, none⟩
  | sendSplit bytes cut _ _ => some ⟨bytes, some cut⟩
  | close => none

variable {σ : Type}

/-- To keep a log takes no time. -/
instance [Sink σ] [Sink.Punctual σ] : Sink.Punctual (Logged σ) where
  send bytes clock logged := Sink.Punctual.send bytes clock logged.sink
  sendSplit bytes cut clock logged := Sink.Punctual.sendSplit bytes cut clock logged.sink

namespace Run

/-- What a sink is asked to take with a write, by its `shape`. -/
def Flight.submission (flight : Flight) : Submission :=
  match flight.step.shape with
  | .split cut => ⟨flight.bytes, some cut⟩
  | _ => ⟨flight.bytes, none⟩

/-- The `call` of a write has its `submission`. -/
theorem Flight.submission?_call (flight : Flight) (reply : Reply) (isOpen : Bool) :
    (flight.call reply isOpen).submission? = some flight.submission := by
  unfold call submission
  cases flight.step.shape <;> rfl

theorem Flight.precedes_offer [Sink σ] [Sink.Punctual σ] (flight : Flight) (clock : Clock)
    (sink : σ) : clock.Precedes (flight.offer clock sink).2.1 := by
  unfold offer
  split
  · exact Sink.Punctual.sendSplit _ _ clock sink
  · exact Sink.Punctual.send _ clock sink

theorem precedes_pause (run : Run σ) (clock : Clock) : clock.Precedes (run.pause clock) := by
  unfold pause
  split
  · rfl
  · exact clock.precedes_waitOrStop _

/-- A `pause` ends with its timer or with the signal, whichever comes first. -/
theorem now_pause (run : Run σ) {clock : Clock} {moment : Nat}
    (hstop : clock.stopAt = some moment) :
    (run.pause clock).now =
      min (clock.now + Clock.timer run.plan.spec.pace.timerMillis) (max clock.now moment) := by
  unfold pause
  split
  · next hpace =>
    -- Without a pace nobody waits, and a timer that is set to nothing has run out.
    rw [hpace]
    exact (Nat.min_eq_left (Nat.le_max_left _ _)).symm
  · rcases clock.waitOrStop_cases run.plan.spec.pace.timerMillis with
      ⟨hwait, hle⟩ | ⟨other, hother, hlt, hwait⟩
    · have hbefore := hle moment hstop
      rw [hwait]
      exact (Nat.min_eq_left (Nat.le_trans hbefore (Nat.le_max_right _ _))).symm
    · cases hstop.symm.trans hother
      have hnow : clock.now ≤ clock.now + Clock.timer run.plan.spec.pace.timerMillis :=
        Nat.le_add_right _ _
      rw [hwait]
      exact (Nat.min_eq_right (Nat.max_le.mpr ⟨hnow, Nat.le_of_lt hlt⟩)).symm

/-- The write that a sink is taking, in the stage `writing`. -/
def Stage.flying : Stage → List Flight
  | writing flight => [flight]
  | pausing => []
  | closing _ => []
  | returned _ => []

namespace Course

/-- What a run has asked its sink to take, in order, by the `calls` of the log and with the write
that is `flying`. -/
def submissions (course : Course (Logged σ)) : List Submission :=
  course.run.sink.calls.filterMap Call.submission? ++ course.stage.flying.map Flight.submission

/-- From one place to the next a run `begins` the next write of its plan, with the signal not
raised, or it begins none. -/
inductive Proceeds (course next : Course (Logged σ)) : Prop where
  | begins {flight : Flight} (hrunning : next.clock.stopped = false)
      (hwriting : next.stage = .writing flight)
      (hnext : course.run.plan.next = .ok (some (flight.step, next.run.plan)))
      (hbytes : Event.encodeAll flight.step.events = .ok flight.bytes)
      (hsubmissions : next.submissions = course.submissions ++ [flight.submission])
  | same (hflying : next.stage.flying = []) (hplan : next.run.plan = course.run.plan)
      (hsubmissions : next.submissions = course.submissions)

/-- So it is when a run without a write under way goes through `depart`. -/
theorem proceeds_depart {course : Course (Logged σ)} (hflying : course.stage.flying = [])
    (clock : Clock) : course.Proceeds (depart clock course.run) := by
  have hsubmissions : course.submissions = course.run.sink.calls.filterMap Call.submission? := by
    rw [submissions, hflying, List.map_nil, List.append_nil]
  -- A turn that begins no write changes nothing but the place of the run.
  have hnone : ∀ stage : Stage, stage.flying = [] →
      course.Proceeds ⟨stage, clock, course.run⟩ := by
    intro stage hstage
    refine .same hstage rfl ?_
    rw [hsubmissions, submissions, hstage, List.map_nil, List.append_nil]
  unfold depart
  cases hturn : course.run.turn clock with
  | «over» => exact hnone _ rfl
  | failed cause => cases cause <;> exact hnone _ rfl
  | write flight flying =>
    obtain ⟨plan, hnext, hbytes, rfl⟩ := exists_of_turn hturn
    refine .begins ?_ rfl hnext hbytes ?_
    · by_cases hstopped : clock.stopped = true
      · rw [turn_of_stopped hstopped] at hturn
        cases hturn
      · exact Bool.eq_false_iff.mpr hstopped
    · rw [hsubmissions]
      rfl

/-- A run before its first `Run.turn`, as if it were `pausing`. -/
def unlaunched (spec : Scenario.Spec) (timestamps : Nat → Int) (sink : σ) (clock : Clock) :
    Course (Logged σ) :=
  ⟨.pausing, clock, start spec timestamps (Logged.new sink) .zero clock⟩

theorem proceeds_launch (spec : Scenario.Spec) (timestamps : Nat → Int) (sink : σ)
    (clock : Clock) :
    (unlaunched spec timestamps sink clock).Proceeds
      (launch spec timestamps (Logged.new sink) clock) :=
  proceeds_depart rfl clock

theorem clock_depart (clock : Clock) (run : Run σ) : (depart clock run).clock = clock := by
  unfold depart
  split <;> rfl

/-- In `land` neither the plan nor the sink changes, and nothing is `flying` after it. -/
theorem land_eq [Sink σ] (flight : Flight) (reply : Reply) (clock : Clock) (run : Run σ) :
    (land flight reply clock run).stage.flying = [] ∧
      (land flight reply clock run).clock = clock ∧
      (land flight reply clock run).run.plan = run.plan ∧
      (land flight reply clock run).run.sink = run.sink := by
  unfold land settle
  cases reply with
  | ok => exact ⟨rfl, rfl, rfl, rfl⟩
  | error e =>
    -- The error is counted, and it may end the run; the sink is left as it is.
    simp only
    cases clock.stopped with
    | true => exact ⟨rfl, rfl, rfl, rfl⟩
    | false => cases Sink.isOpen clock run.sink <;> exact ⟨rfl, rfl, rfl, rfl⟩

section advance

variable [Sink σ]

/-- A write is completed with the answer of the sink, however long the sink takes, and is among the
`calls` of the log then. -/
theorem advance_writing {course : Course (Logged σ)} {flight : Flight}
    (hwriting : course.stage = .writing flight) {reply : Reply} {later : Clock} {left : σ}
    (hoffer : flight.offer course.clock course.run.sink.sink = (reply, later, left)) :
    course.advance.stage.flying = [] ∧ course.advance.clock = later ∧
      course.advance.run.plan = course.run.plan ∧
      course.advance.run.sink =
        ⟨left, course.run.sink.calls ++ [flight.call reply (Sink.isOpen later left)]⟩ := by
  simp only [Course.advance, hwriting, submit_eq, flight.offer_logged, hoffer]
  exact land_eq flight reply later _

/-- What was `flying` is in the log afterwards, so nothing is asked for twice. -/
theorem submissions_advance_writing {course : Course (Logged σ)} {flight : Flight}
    (hwriting : course.stage = .writing flight) :
    course.advance.submissions = course.submissions := by
  rcases hoffer : flight.offer course.clock course.run.sink.sink with ⟨reply, later, left⟩
  obtain ⟨hflying, -, -, hsink⟩ := advance_writing hwriting hoffer
  rw [submissions, hflying, hsink, submissions, hwriting]
  simp [Flight.submission?_call, Stage.flying]

/-- In its `advance` a run begins at most one write. -/
theorem proceeds_advance (course : Course (Logged σ)) : course.Proceeds course.advance := by
  cases hstage : course.stage with
  | writing flight =>
    rcases hoffer : flight.offer course.clock course.run.sink.sink with ⟨reply, later, left⟩
    obtain ⟨hflying, -, hplan, -⟩ := advance_writing hstage hoffer
    exact .same hflying hplan (submissions_advance_writing hstage)
  | pausing =>
    have hflying : course.stage.flying = [] := by
      rw [hstage]
      rfl
    simp only [Course.advance, hstage]
    exact proceeds_depart hflying _
  | closing result =>
    simp only [Course.advance, hstage]
    refine .same rfl rfl ?_
    simp [submissions, hstage, Stage.flying, close, Sink.close, Call.submission?]
  | returned result =>
    simp only [Course.advance, hstage]
    refine .same ?_ rfl rfl
    rw [hstage]
    rfl

/-- In its `advance` a run takes its time, and nothing else happens to the clock. -/
theorem precedes_advance [Sink.Punctual σ] (course : Course (Logged σ)) :
    course.clock.Precedes course.advance.clock := by
  cases hstage : course.stage with
  | writing flight =>
    rcases hoffer : flight.offer course.clock course.run.sink.sink with ⟨reply, later, left⟩
    obtain ⟨-, hclock, -⟩ := advance_writing hstage hoffer
    have htaken := flight.precedes_offer course.clock course.run.sink.sink
    rw [hoffer] at htaken
    rw [hclock]
    exact htaken
  | pausing =>
    simp only [Course.advance, hstage, clock_depart]
    exact course.run.precedes_pause course.clock
  | closing result =>
    simp only [Course.advance, hstage]
    rfl
  | returned result =>
    simp only [Course.advance, hstage]
    rfl

end advance

/-! ## The order of the plan -/

/-- A run has offered the writes of `flights`, the first of the `plan`, to its sink, each once and
in their order, the one that is `flying` included. -/
structure Offered (plan : Plan) (flights : List Flight) (course : Course (Logged σ)) : Prop where
  submissions_eq : course.submissions = flights.map Flight.submission
  /-- These are the answers to the first pulls from the plan. -/
  answers_eq : plan.answers (flights.map Flight.step).length =
    .ok ((flights.map Flight.step).map some, course.run.plan)
  encoded : ∀ flight ∈ flights, Event.encodeAll flight.step.events = .ok flight.bytes

/-- In a step in which the run `Proceeds`, the next write is `Offered` in its turn. -/
theorem Offered.proceed {plan : Plan} {flights : List Flight} {course next : Course (Logged σ)}
    (h : Offered plan flights course) (hproceeds : course.Proceeds next) :
    ∃ offered, Offered plan offered next := by
  cases hproceeds with
  | @begins flight _ _ hnext hbytes hsubmissions =>
    refine ⟨flights ++ [flight], ?_, ?_, ?_⟩
    · rw [hsubmissions, h.submissions_eq, List.map_append]
      rfl
    · rw [List.map_append, List.length_append, List.map_append]
      exact Plan.answers_concat h.answers_eq hnext
    · intro other hother
      rcases List.mem_append.mp hother with hother | hother
      · exact h.encoded other hother
      · rw [List.mem_singleton.mp hother]
        exact hbytes
  | same _ hplan hsubmissions =>
    refine ⟨flights, hsubmissions.trans h.submissions_eq, ?_, h.encoded⟩
    rw [hplan]
    exact h.answers_eq

/-- Wherever a run waits, what it has `Offered` is the beginning of its plan. -/
theorem exists_offered [Sink σ] {spec : Scenario.Spec} {timestamps : Nat → Int} {sink : σ}
    {clock : Clock} {course : Course (Logged σ)}
    (hreaches : (launch spec timestamps (Logged.new sink) clock).Reaches course) :
    ∃ flights, Offered (.start spec timestamps) flights course := by
  induction hreaches with
  | refl =>
    -- Before its first turn a run has offered nothing.
    have hidle : Offered (.start spec timestamps) [] (unlaunched spec timestamps sink clock) :=
      ⟨rfl, rfl, List.forall_mem_nil _⟩
    exact hidle.proceed (proceeds_launch spec timestamps sink clock)
  | tail _ hmove ih =>
    obtain ⟨flights, hoffered⟩ := ih
    cases hmove with
    | advance => exact hoffered.proceed (proceeds_advance _)
    | raise => exact ⟨flights, hoffered.submissions_eq, hoffered.answers_eq, hoffered.encoded⟩

/-! ## After the signal -/

/-- A write is begun only while the clock is not `stopped`. -/
theorem running_of_begun {course next : Course (Logged σ)} (hproceeds : course.Proceeds next)
    {flight : Flight} (hwriting : next.stage = .writing flight) : next.clock.stopped = false := by
  cases hproceeds with
  | begins hrunning => exact hrunning
  | same hflying =>
    rw [hwriting] at hflying
    cases hflying

/-- Once the clock is `stopped`, there are no further `submissions`: nothing more is asked of the
sink than to complete the write that is `flying`. -/
theorem submissions_of_stopped [Sink σ] [Sink.Punctual σ] {course later : Course (Logged σ)}
    (hstopped : course.clock.stopped = true) (hreaches : course.Reaches later) :
    later.submissions = course.submissions := by
  -- The signal stays raised, and every write that is begun would find it raised.
  have hboth : later.clock.stopped = true ∧ later.submissions = course.submissions := by
    induction hreaches with
    | refl => exact ⟨hstopped, rfl⟩
    | @tail course next _ hmove ih =>
      obtain ⟨hraised, hsame⟩ := ih
      cases hmove with
      | advance =>
        have hstill := (precedes_advance course).stopped hraised
        refine ⟨hstill, ?_⟩
        cases proceeds_advance course with
        | begins hrunning =>
          rw [hstill] at hrunning
          cases hrunning
        | same _ _ hsubmissions => exact hsubmissions.trans hsame
      | raise => exact ⟨course.clock.stopped_raise, hsame⟩
  exact hboth.2

/-- A run that finds the signal raised after a pause has nothing more to do than to close its sink.
-/
theorem advance_pausing_of_stopped [Sink σ] {course : Course (Logged σ)}
    (hpausing : course.stage = .pausing) (hstopped : course.advance.clock.stopped = true) :
    course.advance.stage = .closing (.ok course.run.endingOf) := by
  simp only [Course.advance, hpausing, clock_depart] at hstopped ⊢
  rw [depart, turn_of_stopped hstopped]

/-- A course in which the stop signal tears nothing apart, with the plan that is run. -/
structure Unbroken [Sink σ] (plan : Plan) (course : Course (Logged σ)) : Prop where
  /-- What the sink has been offered is the beginning of the plan. -/
  in_order : ∃ flights, Offered plan flights course ∧
    ∀ writes, plan.steps = .ok writes → flights.map Flight.step <+: writes
  /-- A write that is under way is completed with the answer of the sink, and logged once. -/
  completes : ∀ (flight : Flight) (reply : Reply) (later : Clock) (left : σ),
    course.stage = .writing flight →
    flight.offer course.clock course.run.sink.sink = (reply, later, left) →
    course.advance.clock = later ∧ course.advance.submissions = course.submissions ∧
      course.advance.run.sink =
        ⟨left, course.run.sink.calls ++ [flight.call reply (Sink.isOpen later left)]⟩
  /-- No write is begun when the signal is raised, -/
  begins : ∀ flight, course.advance.stage = .writing flight → course.advance.clock.stopped = false
  /-- nor ever after. -/
  ends : course.clock.stopped = true → ∀ later, course.Reaches later →
    later.submissions = course.submissions
  /-- A pause ends with the signal, if not before, -/
  pause_ends : course.stage = .pausing → ∀ moment, course.clock.stopAt = some moment →
    course.advance.clock.now =
      min (course.clock.now + Clock.timer plan.spec.pace.timerMillis)
        (max course.clock.now moment)
  /-- and with it the run. -/
  pause_closes : course.stage = .pausing → course.advance.clock.stopped = true →
    course.advance.stage = .closing (.ok course.run.endingOf)

/-- For every scenario, every sink that is `Punctual`, and every moment at which the stop signal may
be raised, no write is torn apart, and every course is `Unbroken`: the sink is `Offered` the first
writes of the plan, each once and in their order. None of them is begun once the clock is `stopped`,
and the one that is under way then is completed. A pause ends with the signal. `Run.scenario` is one
of these courses, with the log of its sink and without. -/
theorem stop_keeps_writes_whole [Sink σ] [Sink.Punctual σ] (spec : Scenario.Spec)
    (timestamps : Nat → Int) (sink : σ) (clock : Clock) :
    (∀ flight, (launch spec timestamps (Logged.new sink) clock).stage = .writing flight →
      clock.stopped = false) ∧
    (∀ course, (launch spec timestamps (Logged.new sink) clock).Reaches course →
      Unbroken (.start spec timestamps) course) ∧
    ∃ result later final,
      scenario spec timestamps (Logged.new sink) clock = (result, later, final) ∧
      scenario spec timestamps sink clock = (result, later, final.unlogged) ∧
      (launch spec timestamps (Logged.new sink) clock).Reaches
        ⟨.returned result, later, final⟩ := by
  refine ⟨?_, ?_, ?_⟩
  · intro flight hwriting
    -- A course that begins with a write has seen no signal.
    have hrunning := running_of_begun (proceeds_launch spec timestamps sink clock) hwriting
    rw [launch, clock_depart] at hrunning
    exact hrunning
  · intro course hreaches
    obtain ⟨flights, hoffered⟩ := exists_offered hreaches
    refine ⟨⟨flights, hoffered, fun _ => Plan.prefix_of_answers hoffered.answers_eq⟩,
      ?_, ?_, ?_, ?_, ?_⟩
    · intro flight reply later left hwriting hoffer
      obtain ⟨-, hclock, -, hsink⟩ := advance_writing hwriting hoffer
      exact ⟨hclock, submissions_advance_writing hwriting, hsink⟩
    · intro flight hwriting
      exact running_of_begun (proceeds_advance course) hwriting
    · intro hstopped later hlater
      exact submissions_of_stopped hstopped hlater
    · intro hpausing moment hstop
      have hnow := course.run.now_pause hstop
      rw [← Plan.spec_of_answers hoffered.answers_eq]
      simp only [Course.advance, hpausing, clock_depart]
      exact hnow
    · intro hpausing hstopped
      exact advance_pausing_of_stopped hpausing hstopped
  · -- The run itself is one of these courses, and it does not see the log.
    have hreaches := reaches_toEnd clock (start spec timestamps (Logged.new sink) .zero clock)
    have hsame := toEnd_unlogged clock (start spec timestamps (Logged.new sink) .zero clock)
    rcases hrun : (start spec timestamps (Logged.new sink) .zero clock).toEnd clock with
      ⟨result, later, final⟩
    rw [hrun] at hreaches hsame
    exact ⟨result, later, final, hrun, hsame, hreaches⟩

end Course

/-- Four events, ten milliseconds apart. -/
def quartet : Scenario.Spec :=
  ⟨"burst", .burst, .stream, 4, .single 30, .load, 7, .ofMillis 10, 0⟩

/-- Of the four writes of `quartet`, which take no time, two are made before the signal, which ends
the second pause. -/
theorem stop_keeps_writes_whole_halfway :
    ∃ later final,
      scenario quartet (fun _ => 0) (Logged.new (Recorder.new .stream none)) ⟨0, some 15⟩ =
        (.ok .stopped, later, final) ∧
      later.now = 15 ∧ (final.sink.calls.filterMap Call.submission?).length = 2 ∧
      Course.Unbroken (.start quartet fun _ => 0) ⟨.returned (.ok .stopped), later, final⟩ := by
  obtain ⟨-, hwhole, result, later, final, hrun, -, hreaches⟩ :=
    Course.stop_keeps_writes_whole quartet (fun _ => 0) (Recorder.new .stream none) ⟨0, some 15⟩
  have hresult : (scenario quartet (fun _ => 0) (Logged.new (Recorder.new .stream none))
      ⟨0, some 15⟩).1 = .ok .stopped := by decide +kernel
  have hnow : (scenario quartet (fun _ => 0) (Logged.new (Recorder.new .stream none))
      ⟨0, some 15⟩).2.1.now = 15 := by decide +kernel
  have hsubmissions : ((scenario quartet (fun _ => 0) (Logged.new (Recorder.new .stream none))
      ⟨0, some 15⟩).2.2.sink.calls.filterMap Call.submission?).length = 2 := by decide +kernel
  rw [hrun] at hresult hnow hsubmissions
  obtain rfl : result = .ok .stopped := hresult
  exact ⟨later, final, hrun, hnow, hsubmissions, hwhole _ hreaches⟩

/-! ## How a stopped run ends -/

/-- How a run ends that is over, with the writes `rest` still to come. -/
def endingBefore (rest : List Step) : Ending :=
  if rest = [] then .completed else .stopped

theorem endingOf_eq (run : Run σ) {rest : List Step} (h : run.plan.Yields rest) :
    run.endingOf = endingBefore rest := by
  have hzero := remaining_eq_zero_iff h
  unfold endingOf endingBefore
  by_cases hrest : rest = []
  · rw [if_pos hrest, if_neg (Nat.not_lt_of_le (Nat.le_of_eq (hzero.mpr hrest)))]
  · rw [if_neg hrest, if_pos (Nat.pos_of_ne_zero fun h => hrest (hzero.mp h))]

variable [Sink σ]

/-- A run that is `closing` its sink returns the result that it has. -/
theorem Course.result_of_reaches {course later : Course σ} {result : Except Failure Ending}
    (hclosing : course.stage = .closing result ∨ course.stage = .returned result)
    (hreaches : course.Reaches later) :
    later.stage = .closing result ∨ later.stage = .returned result := by
  induction hreaches with
  | refl => exact hclosing
  | tail _ hmove ih =>
    cases hmove with
    | advance =>
      rcases ih with hstage | hstage
      · exact Or.inr (by simp only [advance, hstage])
      · exact Or.inr (by simp only [advance, hstage])
    | raise => exact ih

/-- How a run ends whose write fails when the signal has been raised, if its plan `Yields` its
writes. It ends at once with `endingBefore rest`: it says `stopped` only if there are further
writes. If the write was the last one, the run has attempted everything and ends as `completed`. -/
theorem ending_of_failure_when_stopped (spec : Scenario.Spec) (timestamps : Nat → Int) (sink : σ)
    (clock : Clock) {writes : List Step} (hyields : (Plan.start spec timestamps).Yields writes)
    {course : Course (Logged σ)}
    (hreaches : (Course.launch spec timestamps (Logged.new sink) clock).Reaches course)
    {flight : Flight} (hwriting : course.stage = .writing flight) {e : TransportError}
    {later : Clock} {left : Logged σ}
    (hoffer : flight.offer course.clock course.run.sink = (.error e, later, left))
    (hstopped : later.stopped = true) :
    ∃ (landings : List Landing) (rest : List Step),
      writes = landings.map Landing.step ++ flight.step :: rest ∧
      course.run.sink.calls = landings.map Landing.call ∧
      (∃ after final, course.Reaches ⟨.returned (.ok (endingBefore rest)), after, final⟩) ∧
      ∀ result after final, course.advance.Reaches ⟨.returned result, after, final⟩ →
        result = .ok (endingBefore rest) := by
  have hlaunch : Accounted writes (Course.launch spec timestamps (Logged.new sink) clock) :=
    Accounted.depart ⟨rfl, List.forall_mem_nil _, hyields⟩ (Tally.start clock.now) rfl clock
  have haccounted := hlaunch.of_reaches hreaches
  obtain ⟨stage, now, run⟩ := course
  cases hwriting
  cases haccounted with
  | @writing landings rest _ _ _ trail _ _ calls =>
    -- The failure ends the run, and what the plan still yields decides how.
    have hclosing : (Course.advance ⟨.writing flight, now, run⟩).stage =
        .closing (.ok (endingBefore rest)) := by
      simp only [Course.advance, submit_eq, hoffer, Course.land, settle, hstopped, if_true]
      exact congrArg (fun ending => Stage.closing (.ok ending)) (endingOf_eq ⟨_, _, _⟩ trail.yields)
    have horder : writes = landings.map Landing.step ++ flight.step :: rest := by
      rw [trail.order, List.append_assoc]
      rfl
    have hresult : ∀ result after final,
        (Course.advance ⟨.writing flight, now, run⟩).Reaches ⟨.returned result, after, final⟩ →
          result = .ok (endingBefore rest) := by
      intro result after final hreturned
      rcases Course.result_of_reaches (Or.inl hclosing) hreturned with hstage | hstage
      · cases hstage
      · cases hstage
        rfl
    obtain ⟨result, after, final, hreturned⟩ :=
      (Course.advance ⟨.writing flight, now, run⟩).exists_returned
    have hending := hresult result after final hreturned
    subst hending
    exact ⟨landings, rest, horder, calls, ⟨after, final, .of_advance hreturned⟩, hresult⟩

/-- As many events as `count`, without a pause between them. -/
def volley (count : UInt64) : Scenario.Spec :=
  ⟨"burst", .burst, .stream, count, .single 30, .load, 7, .zero, 0⟩

/-- A supervisor whose first session takes no write, with a `backoff` of a second. -/
def faltering : Supervisor Recorder :=
  .new ⟨[⟨0, .ok (.new .stream (some 0))⟩], .new .stream none⟩ 1000 true

/-- A run of a `volley` that is to be stopped after half a second, when its first write has failed
and the second one waits for a session. -/
def secondWrite (count : UInt64) : Course (Logged (Supervisor Recorder)) :=
  (Course.launch (volley count) (fun _ => 0) (Logged.new faltering) ⟨0, some 500⟩).advance.advance

theorem reaches_secondWrite (count : UInt64) :
    (Course.launch (volley count) (fun _ => 0) (Logged.new faltering) ⟨0, some 500⟩).Reaches
      (secondWrite count) :=
  .of_advance (.of_advance (.refl _))

theorem exists_yields_volley (count : UInt64) :
    ∃ writes, (Plan.start (volley count) fun _ => 0).Yields writes :=
  Plan.exists_yields (Scenario.Spec.roomy_of_single rfl (by decide)) fun _ => 0

/-- What there is to be seen of a write that is `flying` and fails because of the signal. -/
theorem exists_failing (course : Course (Logged σ)) (hflying : course.stage.flying ≠ [])
    (hfails : ∀ flight ∈ course.stage.flying,
      (flight.offer course.clock course.run.sink).1 = .error .closed ∧
        (flight.offer course.clock course.run.sink).2.1.stopped = true) :
    ∃ flight later left, course.stage = .writing flight ∧
      flight.offer course.clock course.run.sink = (.error .closed, later, left) ∧
      later.stopped = true := by
  cases hstage : course.stage with
  | writing flight =>
    obtain ⟨hreply, hstopped⟩ := hfails flight (by rw [hstage]; exact List.mem_singleton_self _)
    rcases hoffer : flight.offer course.clock course.run.sink with ⟨reply, later, left⟩
    rw [hoffer] at hreply hstopped
    obtain rfl : reply = .error .closed := hreply
    exact ⟨flight, later, left, rfl, hoffer, hstopped⟩
  | pausing => exact absurd (by rw [hstage]; rfl) hflying
  | closing => exact absurd (by rw [hstage]; rfl) hflying
  | returned => exact absurd (by rw [hstage]; rfl) hflying

/-- The signal ends the pause of the `faltering` supervisor, and the second of three writes fails.
The third is not made, and the run was `stopped`. -/
theorem ending_of_failure_when_stopped_early :
    ∃ flight rest, (secondWrite 3).stage = .writing flight ∧
      (∃ after final,
        (secondWrite 3).Reaches ⟨.returned (.ok (endingBefore rest)), after, final⟩) ∧
      (scenario (volley 3) (fun _ => 0) faltering ⟨0, some 500⟩).1 = .ok .stopped := by
  obtain ⟨writes, hyields⟩ := exists_yields_volley 3
  obtain ⟨flight, later, left, hwriting, hoffer, hstopped⟩ :=
    exists_failing (secondWrite 3) (by decide +kernel) (by decide +kernel)
  obtain ⟨landings, rest, -, -, hreturned, -⟩ :=
    ending_of_failure_when_stopped (volley 3) (fun _ => 0) faltering ⟨0, some 500⟩ hyields
      (reaches_secondWrite 3) hwriting hoffer hstopped
  exact ⟨flight, rest, hwriting, hreturned, by decide +kernel⟩

/-- If the second write is the last one, the run counts as `completed`, although the write was lost
because of the signal. -/
theorem completed_of_failure_when_stopped :
    ∃ writes flight later left,
      (Plan.start (volley 2) fun _ => 0).Yields writes ∧
      (Course.launch (volley 2) (fun _ => 0) (Logged.new faltering) ⟨0, some 500⟩).Reaches
        (secondWrite 2) ∧
      (secondWrite 2).stage = .writing flight ∧
      flight.offer (secondWrite 2).clock (secondWrite 2).run.sink =
        (.error .closed, later, left) ∧
      later.stopped = true ∧
      (scenario (volley 2) (fun _ => 0) faltering ⟨0, some 500⟩).1 = .ok .completed := by
  obtain ⟨writes, hyields⟩ := exists_yields_volley 2
  obtain ⟨flight, later, left, hwriting, hoffer, hstopped⟩ :=
    exists_failing (secondWrite 2) (by decide +kernel) (by decide +kernel)
  exact ⟨writes, flight, later, left, hyields, reaches_secondWrite 2, hwriting, hoffer, hstopped,
    by decide +kernel⟩

end Run

end Volley
