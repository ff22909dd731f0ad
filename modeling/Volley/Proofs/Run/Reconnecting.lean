import Mathlib.Data.List.Forall2
import Volley.Proofs.Run.Accounting
import Volley.Proofs.Run.Recording
import Volley.Proofs.Supervisor.Sessions

/-!
# Runs over a stream that is opened again

Over a supervisor a run does not end with a session: the write that fails is lost, and the next one
goes over the next session. The writes of the plan therefore fall into legs, one for each session,
in their order and each in one leg only. All writes of a leg but the last are on its session as a
whole; the last may have broken off, and the session then has nothing else behind its beginning.
So every session can be decoded by itself.

The invariant (`Run.Underway`) holds between two writes: the sessions that were given up have
carried the legs so far, and the session that is held, if one is, carries the leg that is going on.

## Main definitions

* `Run.Carried`, `Run.Carrying`: what is on a session that is given up, and on one that is held.
* `Run.Underway`: the invariant between two writes.
* `Run.Journey`: how a run has spread its writes over sessions.

## Main results

* `Run.Underway.step`, `Run.exists_journey`: every write keeps the invariant, and so does a run.
* `Run.Carried.drain`: a session decodes to the first events of its leg, without an error.
* `Run.reconnecting`: a run over any connector that succeeds again and again is completed.
-/

namespace Volley

/-- A supervisor of `Logged` sessions is, without the log, the supervisor of the sessions. -/
theorem Supervisor.new_unlogged {σ : Type} (connector : Connector σ) (backoff : Nat)
    (listens : Bool) :
    (Supervisor.new (connector.map Logged.new) backoff listens).map Logged.sink =
      Supervisor.new connector backoff listens := by
  have hattempt : Attempt.map Logged.sink ∘ Attempt.map Logged.new = (id : Attempt σ → _) := by
    funext attempt
    obtain ⟨delay, result⟩ := attempt
    cases result <;> rfl
  have hconnector : (connector.map Logged.new).map Logged.sink = connector := by
    unfold Connector.map
    rw [List.map_map, hattempt, List.map_id]
    rfl
  show Supervisor.new ((connector.map Logged.new).map Logged.sink) backoff listens = _
  rw [hconnector]

namespace Run

/-! ## Writes on a supervisor -/

/-- Whether a failure of this write leaves a supervised session in step with its peer: of a `split`
write this is one for which `isInvalidSplit` holds. -/
def Flight.inStep (flight : Flight) (e : TransportError) : Bool :=
  match flight.step.shape with
  | .split _ => e.isInvalidSplit
  | _ => false

/-- A supervisor is offered a write by `Supervisor.submit`, to the session that it holds. -/
theorem Flight.offer_supervisor {σ : Type} [Sink σ] (flight : Flight) (clock : Clock)
    (supervisor : Supervisor σ) :
    flight.offer clock supervisor = supervisor.submit flight.inStep flight.offer clock := by
  unfold offer inStep
  cases flight.step.shape <;> rfl

/-- A failure that closes a `Steadfast` session does not leave it `inStep` with its peer. -/
theorem Flight.inStep_of_closed {σ : Type} [Sink σ] [Sink.Steadfast σ] {flight : Flight}
    {clock later : Clock} {session next : σ} {e : TransportError}
    (hopen : Sink.isOpen clock session = true)
    (hoffer : flight.offer clock session = (.error e, later, next))
    (hclosed : Sink.isOpen later next = false) : flight.inStep e = false := by
  unfold inStep
  split
  · next cut hshape =>
    rw [offer_of_split hshape] at hoffer
    -- A cut in the wrong place would have left the session open.
    by_contra hinvalid
    have hstill := Sink.Steadfast.isOpen_sendSplit hopen hoffer fun other hother => by
      cases hother
      exact Bool.of_not_eq_false hinvalid
    rw [hstill] at hclosed
    cases hclosed
  · rfl

/-! ## Legs -/

/-- The events of the writes of a `leg`, which are those that one session is offered. -/
def eventsOf (leg : List Landing) : List Event :=
  (leg.map Landing.step).flatMap Step.events

@[simp]
theorem eventsOf_singleton (landing : Landing) :
    eventsOf [landing] = landing.step.events := by
  simp only [eventsOf, List.map_cons, List.map_nil, List.flatMap_singleton]

theorem eventsOf_append (leg more : List Landing) :
    eventsOf (leg ++ more) = eventsOf leg ++ eventsOf more := by
  simp only [eventsOf, List.map_append, List.flatMap_append]

/-- The last write of a `leg` has failed, and its session was closed by it. -/
def BrokenOff (leg : List Landing) : Prop :=
  ∃ done flight e, leg = done ++ [⟨flight, .error e, false⟩]

/-- A session that is held has been offered the writes of `leg`, and all of them are on it. -/
structure Carrying (leg : List Landing) (session : Logged Recorder) : Prop where
  playing : session.sink.Playing
  taken : ∀ landing ∈ leg, landing.reply = .ok ()
  calls : session.calls = leg.map Landing.call
  attempts : session.sink.attempts = pieces (leg.map Landing.step)
  encoded : Event.encodeAll (eventsOf leg) = .ok session.sink.bytes

/-- A session that was given up has been offered the writes of `leg` and nothing else, and then it
was closed. All of them are on it, or the last is not, and only `part`, a strict beginning of its
frames, is. -/
inductive Carried (leg : List Landing) (session : Logged Recorder) : Prop where
  | whole (taken : ∀ landing ∈ leg, landing.reply = .ok ())
      (calls : session.calls = leg.map Landing.call ++ [.close])
      (encoded : Event.encodeAll (eventsOf leg) = .ok session.sink.bytes)
  | broken {done : List Landing} {flight : Flight} {e : TransportError} {front part : Bytes}
      (split : leg = done ++ [⟨flight, .error e, false⟩])
      (taken : ∀ landing ∈ done, landing.reply = .ok ())
      (calls : session.calls = leg.map Landing.call ++ [.close])
      (encoded : Event.encodeAll (eventsOf done) = .ok front)
      (encodedLast : Event.encodeAll flight.step.events = .ok flight.bytes)
      (bytes : session.sink.bytes = front ++ part)
      (strict : part <+: flight.bytes ∧ part ≠ flight.bytes)
      (breaksOff : flight.BreaksOff session.sink.failAfter (pieces (done.map Landing.step)) part)

/-- A new session is `Carrying` nothing. -/
theorem Carrying.new (failAfter : Option Nat) :
    Carrying [] (Logged.new (Recorder.new .stream failAfter)) :=
  ⟨⟨rfl, rfl⟩, List.forall_mem_nil _, rfl, rfl, rfl⟩

/-- A session that is closed in the end has `Carried` everything. -/
theorem Carrying.close {leg : List Landing} {session : Logged Recorder} (h : Carrying leg session) :
    Carried leg (Sink.close session) := by
  refine .whole h.taken ?_ h.encoded
  rw [← h.calls]
  rfl

/-- A session that is offered the next write is `Carrying` it, or has `Carried` what it is and
breaks off. -/
theorem Carrying.offer {leg : List Landing} {session : Logged Recorder} (h : Carrying leg session)
    {flight : Flight} (hencoded : Event.encodeAll flight.step.events = .ok flight.bytes)
    (hne : flight.bytes ≠ [])
    (hcut : ∀ cut, flight.step.shape = .split cut → 0 < cut ∧ cut < flight.bytes.length)
    (clock : Clock) :
    (∃ left, flight.offer clock session = (.ok (), clock, left) ∧
      Carrying (leg ++ [⟨flight, .ok (), true⟩]) left) ∨
    (∃ e left, flight.offer clock session = (.error e, clock, left) ∧ flight.inStep e = false ∧
      Carried (leg ++ [⟨flight, .error e, false⟩]) (Sink.close left)) := by
  rw [flight.offer_logged]
  rcases Flight.offer_recorder h.playing hcut clock with
    ⟨sink, hoffer, hplaying, -, hattempts, hbytes⟩ |
    ⟨e, sink, part, hoffer, hclosed, hfail, hbytes, hpart⟩
  · left
    rw [hoffer]
    refine ⟨_, rfl, hplaying, ?_, ?_, ?_, ?_⟩
    · intro landing hmem
      rcases List.mem_append.mp hmem with hmem | hmem
      · exact h.taken landing hmem
      · rw [List.mem_singleton.mp hmem]
    · have hopen : Sink.isOpen clock sink = true := hplaying.isOpen
      rw [List.map_append, ← h.calls, hopen]
      rfl
    · show sink.attempts = _
      rw [hattempts, h.attempts, List.map_append, pieces_append]
      rfl
    · show Event.encodeAll _ = .ok sink.bytes
      rw [hbytes, eventsOf_append, eventsOf_singleton]
      exact Event.encodeAll_append h.encoded hencoded
  · right
    rw [hoffer]
    refine ⟨e, _, rfl, Flight.inStep_of_closed h.playing.isOpen hoffer hclosed, ?_⟩
    rw [← hfail, h.attempts] at hpart
    refine .broken rfl h.taken ?_ h.encoded hencoded hbytes (hpart.strict hne hcut) hpart
    have hopen : Sink.isOpen clock sink = false := hclosed
    rw [List.map_append, ← h.calls, hopen]
    rfl

/-! ## Decoding a session -/

/-- If every write is taken, the writes that are `taken` are all. -/
theorem taken_eq {leg : List Landing} (h : ∀ landing ∈ leg, landing.reply = .ok ()) :
    taken leg = leg.map Landing.step := by
  have hall : leg.filter (fun landing => landing.reply.isOk) = leg := by
    refine List.filter_eq_self.mpr fun landing hmem => ?_
    rw [h landing hmem]
    rfl
  rw [taken, hall]

/-- Of a session that has `Carried` its leg, `Codec.drain` finds the first events of the leg, at
least those of the writes that it took, and no error. -/
theorem Carried.drain {leg : List Landing} {session : Logged Recorder} (h : Carried leg session)
    {codec : Codec} (hlimit : ∀ event ∈ eventsOf leg, event.frame.body.length ≤ codec.limit) :
    ∃ k rest, eventCount (Run.taken leg) ≤ k ∧
      codec.drain session.sink.bytes =
        ((((eventsOf leg).take k).map fun event => .ok (some event.frame)) ++ [.ok none],
          rest) := by
  cases h with
  | whole taken calls encoded =>
    refine ⟨(eventsOf leg).length, [], ?_, ?_⟩
    · rw [taken_eq taken]
      exact Nat.le_refl _
    · have hdrain := Codec.drain_encodeAll encoded hlimit []
      rw [List.append_nil, Codec.drain_nil] at hdrain
      rw [hdrain, List.take_length]
  | @broken done flight e front part split taken calls encoded encodedLast bytes strict breaksOff =>
    -- The bytes end in a beginning of the write that broke, and so perhaps inside a frame.
    rw [split, eventsOf_append, eventsOf_singleton] at hlimit ⊢
    have hdone := fun event hmem => hlimit event (List.mem_append_left _ hmem)
    have hlast := fun event hmem => hlimit event (List.mem_append_right _ hmem)
    obtain ⟨k, rest, hdrain⟩ := Codec.drain_of_prefix encodedLast hlast strict.1
    refine ⟨(eventsOf done).length + k, rest, ?_, ?_⟩
    · have htaken : Run.taken (done ++ [⟨flight, .error e, false⟩]) = Run.taken done := by
        simp [Run.taken, Except.isOk, Except.toBool]
      rw [htaken, taken_eq taken]
      exact Nat.le_add_right _ _
    · rw [bytes, Codec.drain_encodeAll encoded hdone part, hdrain, List.take_length_add_append,
        List.map_append, List.append_assoc]
      rfl

/-! ## The invariant -/

/-- The session that a supervisor holds is `Carrying` this `leg`; without a session there is no leg.
-/
def Aboard (leg : List Landing) (supervisor : Supervisor (Logged Recorder)) : Prop :=
  (supervisor.session = none ∧ leg = []) ∨
    ∃ session, supervisor.session = some session ∧ leg ≠ [] ∧ Carrying leg session

/-- A run between two writes: the sessions that were given up have `Carried` their `legs`, the
session that is held carries `leg`, and the writes in `rest` are still to come. -/
structure Underway (writes rest : List Step) (legs : List (List Landing)) (leg : List Landing)
    (run : Run (Supervisor (Logged Recorder))) : Prop where
  trail : Trail writes (legs.flatten ++ leg) [] rest run.plan
  tally : Tally (legs.flatten ++ leg) [] [] run.progress
  carried : List.Forall₂ Carried legs run.sink.retired.reverse
  broken : ∀ leg ∈ legs, BrokenOff leg
  aboard : Aboard leg run.sink

/-- What a run has made of its `writes`: each was offered to one session, in order, and the sessions
have `Carried` the `legs` that they fall into. -/
structure Journey (writes : List Step) (legs : List (List Landing))
    (run : Run (Supervisor (Logged Recorder))) : Prop where
  order : legs.flatten.map Landing.step = writes
  encoded : ∀ landing ∈ legs.flatten,
    Event.encodeAll landing.flight.step.events = .ok landing.flight.bytes
  carried : List.Forall₂ Carried legs run.sink.sessions
  nonempty : ∀ leg ∈ legs, leg ≠ []
  broken : ∀ leg ∈ legs.dropLast, BrokenOff leg
  tally : Tally legs.flatten [] [] run.progress

variable {attempts : Nat → Attempt (Logged Recorder)} {n m bound : Nat} {failAfter : Option Nat}

/-- A supervisor with a session goes on with it, and one without gets the next. -/
theorem Aboard.board {leg : List Landing} {supervisor : Supervisor (Logged Recorder)}
    (h : Aboard leg supervisor)
    (hfirst : FirstSession attempts n m (Logged.new (Recorder.new .stream failAfter)))
    (hbound : m < bound) (hfollows : supervisor.connector.Follows attempts n bound) {clock : Clock}
    (hstop : clock.stopAt = none) :
    ∃ later held session next, supervisor.ensureConnected clock = (.ok (), later, held) ∧
      later.stopAt = none ∧ held.session = some session ∧ Carrying leg session ∧
      held.retired = supervisor.retired ∧ held.connector.Follows attempts next bound ∧
      (next = n ∨ next = m + 1) := by
  rcases h with ⟨hnone, rfl⟩ | ⟨session, hsession, -, hcarrying⟩
  · obtain ⟨later, held, hensure, hlater, hsession, hretired, hfollows'⟩ :=
      Supervisor.ensureConnected_of_first hfirst hbound hfollows hnone hstop
    exact ⟨later, held, _, m + 1, hensure, hlater, hsession, Carrying.new failAfter, hretired,
      hfollows', Or.inr rfl⟩
  · have hopen : supervisor.holdsOpen clock = true := by
      rw [Supervisor.holdsOpen, hsession]
      exact hcarrying.playing.isOpen
    exact ⟨clock, supervisor, session, n, Supervisor.ensureConnected_of_holdsOpen hopen, hstop,
      hsession, hcarrying, rfl, hfollows, Or.inl rfl⟩

variable {writes rest : List Step} {legs : List (List Landing)} {leg : List Landing}
  {run : Run (Supervisor (Logged Recorder))} {clock : Clock}

/-- A write that has been answered is behind the writes of its leg, and no longer to come. -/
theorem Underway.land {flight : Flight} {plan : Plan}
    (h : Underway writes (flight.step :: rest) legs leg run)
    (hencoded : Event.encodeAll flight.step.events = .ok flight.bytes) (hrest : plan.Yields rest)
    (reply : Reply) (isOpen : Bool) :
    Trail writes (legs.flatten ++ (leg ++ [⟨flight, reply, isOpen⟩])) [] rest plan := by
  have htrail : Trail writes (legs.flatten ++ leg) [flight.step] rest plan := by
    refine ⟨?_, h.trail.encoded, hrest⟩
    rw [h.trail.order, List.append_nil, List.append_assoc]
    rfl
  have hland := htrail.land hencoded reply isOpen
  rwa [List.append_assoc] at hland

/-- A write that is taken makes the `leg` longer that is going on. -/
theorem Underway.taken {flight : Flight} {plan : Plan} {session : Logged Recorder}
    {supervisor : Supervisor (Logged Recorder)}
    (h : Underway writes (flight.step :: rest) legs leg run)
    (hencoded : Event.encodeAll flight.step.events = .ok flight.bytes) (hrest : plan.Yields rest)
    (hsession : supervisor.session = some session)
    (hretired : supervisor.retired = run.sink.retired)
    (hcarrying : Carrying (leg ++ [⟨flight, .ok (), true⟩]) session) :
    Underway writes rest legs (leg ++ [⟨flight, .ok (), true⟩])
      (run.sent flight plan supervisor) := by
  refine ⟨h.land hencoded hrest _ _, ?_, ?_, h.broken, ?_⟩
  · rw [← List.append_assoc]
    exact (h.tally.fly flight).land_ok true
  · show List.Forall₂ Carried legs supervisor.retired.reverse
    rw [hretired]
    exact h.carried
  · exact Or.inr ⟨session, hsession, List.concat_ne_nil _ leg, hcarrying⟩

/-- A write that is refused is the last of its `leg`, and no session is held after it. -/
theorem Underway.refused {flight : Flight} {plan : Plan} {session : Logged Recorder}
    {supervisor : Supervisor (Logged Recorder)} {e : TransportError}
    (h : Underway writes (flight.step :: rest) legs leg run)
    (hencoded : Event.encodeAll flight.step.events = .ok flight.bytes) (hrest : plan.Yields rest)
    (hsession : supervisor.session = none)
    (hretired : supervisor.retired = session :: run.sink.retired)
    (hcarried : Carried (leg ++ [⟨flight, .error e, false⟩]) session) :
    Underway writes rest (legs ++ [leg ++ [⟨flight, .error e, false⟩]]) []
      (run.failed flight plan supervisor) := by
  refine ⟨?_, ?_, ?_, ?_, Or.inl ⟨hsession, rfl⟩⟩
  · rw [List.append_nil, List.flatten_append, List.flatten_singleton]
    exact h.land hencoded hrest _ _
  · rw [List.append_nil, List.flatten_append, List.flatten_singleton, ← List.append_assoc]
    exact (h.tally.fly flight).land_error e false
  · show List.Forall₂ Carried _ supervisor.retired.reverse
    rw [hretired, List.reverse_cons]
    exact List.rel_append h.carried (List.Forall₂.cons hcarried .nil)
  · intro other hmem
    rcases List.mem_append.mp hmem with hmem | hmem
    · exact h.broken other hmem
    · rw [List.mem_singleton.mp hmem]
      exact ⟨leg, flight, e, rfl⟩

/-- A run that is `Underway` makes the next write on the session that is held, or on the next one,
and is `Underway` after it. -/
theorem Underway.step {step : Step} (h : Underway writes (step :: rest) legs leg run)
    (hfirst : FirstSession attempts n m (Logged.new (Recorder.new .stream failAfter)))
    (hbound : m < bound) (hfollows : run.sink.connector.Follows attempts n bound)
    (hstop : clock.stopAt = none) :
    ∃ legs leg run' later next, run.toEnd clock = toEnd later run' ∧ later.stopAt = none ∧
      Underway writes rest legs leg run' ∧ run'.sink.connector.Follows attempts next bound ∧
      (next = n ∨ next = m + 1) := by
  obtain ⟨plan, bytes, hnext, hrest, hbytes, hturn⟩ :=
    turn_of_yields_cons h.trail.yields (Clock.stopped_of_stopAt_none hstop)
  obtain ⟨hne, hcut⟩ := Flight.cut_of_next hnext hbytes
  obtain ⟨later, held, session, next, hensure, hlater, hsession, hcarrying, hretired, hconnector,
    hwhich⟩ := h.aboard.board hfirst hbound hfollows hstop
  let flight : Flight := ⟨step, bytes⟩
  have hencoded : Event.encodeAll flight.step.events = .ok flight.bytes := hbytes
  have hsubmit := @Supervisor.submit_of_ensured _ _ flight.inStep flight.offer _ _ _ _ _ hensure
    hsession
  rw [← flight.offer_supervisor] at hsubmit
  rcases hcarrying.offer hencoded hne hcut later with
    ⟨left, hoffer, hleft⟩ | ⟨e, left, hoffer, hinStep, hleft⟩
  · rw [hoffer] at hsubmit
    have hunderway : Underway writes rest legs (leg ++ [⟨flight, .ok (), true⟩])
        (run.sent flight plan { held with session := some left }) :=
      h.taken hencoded hrest rfl hretired hleft
    exact ⟨_, _, _, _, next, toEnd_of_sent hturn hsubmit, (stopAt_pause _ later).trans hlater,
      hunderway, hconnector, hwhich⟩
  · rw [hoffer] at hsubmit
    simp only [hinStep, Bool.false_eq_true, if_false] at hsubmit
    let lost := (Supervisor.retire { held with session := some left }).apply .sendFailed
    have hclock := Clock.stopped_of_stopAt_none hlater
    have hopen : Sink.isOpen later lost = true := by
      show (!Supervisor.stopped later _) = true
      rw [Supervisor.stopped, hclock, Bool.and_false]
      rfl
    -- The session that broke is put away, so the next write asks for a new one.
    have hput : lost.retired = Sink.close left :: run.sink.retired :=
      congrArg (Sink.close left :: ·) hretired
    have hunderway : Underway writes rest (legs ++ [leg ++ [⟨flight, .error e, false⟩]]) []
        (run.failed flight plan lost) :=
      h.refused hencoded hrest rfl hput hleft
    exact ⟨_, _, _, _, next, toEnd_of_failed hturn hsubmit hclock hopen,
      (stopAt_pause _ later).trans hlater, hunderway, hconnector, hwhich⟩

/-- A run that is `Underway` with no more writes closes its session, is `completed`, and has made
its `Journey`. -/
theorem Underway.finish (h : Underway writes [] legs leg run) :
    ∃ final legs, run.toEnd clock = (.ok .completed, clock, final) ∧ Journey writes legs final := by
  have hover := turn_of_yields_nil h.trail.yields clock
  have hending : run.endingOf = .completed := by
    rw [endingOf, (remaining_eq_zero_iff h.trail.yields).mpr rfl]
    rfl
  have horder : (legs.flatten ++ leg).map Landing.step = writes := by
    rw [h.trail.order, List.append_nil, List.append_nil]
  have hbroken : ∀ leg ∈ legs, leg ≠ [] := by
    intro leg hmem
    obtain ⟨done, flight, e, rfl⟩ := h.broken leg hmem
    exact List.append_ne_nil_of_right_ne_nil _ (List.cons_ne_nil _ _)
  have hsessions := run.sink.sessions_close
  rw [toEnd_of_over hover, hending]
  rcases h.aboard with ⟨hnone, rfl⟩ | ⟨session, hsession, hne, hcarrying⟩
  · -- The last write broke off, and there is no session to close.
    have htrail := h.trail.encoded
    have htally := h.tally
    rw [List.append_nil] at horder htrail htally
    rw [hnone, Option.map_none, Option.toList_none, List.append_nil] at hsessions
    refine ⟨run.close, legs, rfl, horder, htrail, ?_, hbroken, ?_, htally⟩
    · show List.Forall₂ Carried legs (Sink.close run.sink).sessions
      rw [hsessions]
      exact h.carried
    · exact fun leg hmem => h.broken leg (List.dropLast_subset legs hmem)
  · -- The last session is still open and is closed in order.
    have hflatten : (legs ++ [leg]).flatten = legs.flatten ++ leg := by
      rw [List.flatten_append, List.flatten_singleton]
    rw [hsession, Option.map_some, Option.toList_some] at hsessions
    refine ⟨run.close, legs ++ [leg], rfl, ?_, ?_, ?_, ?_, ?_, ?_⟩
    · rw [hflatten, horder]
    · rw [hflatten]
      exact h.trail.encoded
    · show List.Forall₂ Carried _ (Sink.close run.sink).sessions
      rw [hsessions]
      exact List.rel_append h.carried (List.Forall₂.cons hcarrying.close .nil)
    · intro other hmem
      rcases List.mem_append.mp hmem with hmem | hmem
      · exact hbroken other hmem
      · rw [List.mem_singleton.mp hmem]
        exact hne
    · rw [List.dropLast_concat]
      exact h.broken
    · rw [hflatten]
      exact h.tally

/-- A run that is `Underway` goes over its writes to the end and makes its `Journey`, if the
connector makes enough attempts. -/
theorem exists_journey
    (hfresh : ∀ n session, (attempts n).result = .ok session →
      ∃ failAfter, session = Logged.new (Recorder.new .stream failAfter))
    (hrecurs : ∀ n, ∃ m, n ≤ m ∧ ∃ session, (attempts m).result = .ok session)
    (writes rest : List Step) (n : Nat) :
    ∃ bound, ∀ {legs : List (List Landing)} {leg : List Landing}
      {run : Run (Supervisor (Logged Recorder))} {clock : Clock},
      Underway writes rest legs leg run → run.sink.connector.Follows attempts n bound →
      clock.stopAt = none →
      ∃ later final legs, run.toEnd clock = (.ok .completed, later, final) ∧
        Journey writes legs final := by
  induction rest generalizing n with
  | nil =>
    refine ⟨0, fun h _ _ => ?_⟩
    obtain ⟨final, legs, hend, hjourney⟩ := h.finish
    exact ⟨_, final, legs, hend, hjourney⟩
  | cons step rest ih =>
    -- The write is made with the session there is, or with that of the next attempt to succeed.
    obtain ⟨m, session, hfirst⟩ := exists_firstSession hrecurs n
    obtain ⟨failAfter, rfl⟩ := hfresh m session hfirst.succeeds
    obtain ⟨same, hsame⟩ := ih n
    obtain ⟨fresh, hnext⟩ := ih (m + 1)
    refine ⟨max (m + 1) (max same fresh), fun h hfollows hstop => ?_⟩
    obtain ⟨legs, leg, run', later, next, hend, hlater, hunderway, hfollows', hwhich⟩ :=
      h.step hfirst (Nat.le_max_left _ _) hfollows hstop
    rw [hend]
    rcases hwhich with rfl | rfl
    · exact hsame hunderway (hfollows'.mono (by omega)) hlater
    · exact hnext hunderway (hfollows'.mono (by omega)) hlater

/-- With the stop signal never raised, a run over a supervisor is `completed`, if the `attempts`
succeed again and again, and whatever write each session fails at. Only the attempts up to `bound`
matter. Every write of the plan is offered to one session, once and in order; the writes fall into
`legs`. On each session are the frames of the writes of its leg that it took, and then a strict
beginning of the one that it failed at, if there is one, after which the next session goes on with
the next write. On each session `Codec.drain` finds the first events of its leg, and no error. The
events of the writes that were taken are counted as `sent`, and the others as `errors`. -/
theorem reconnecting (spec : Scenario.Spec) (timestamps : Nat → Int) (backoff : Nat)
    (listens : Bool) (clock : Clock) (attempts : Nat → Attempt Recorder) {writes : List Step}
    (hyields : (Plan.start spec timestamps).Yields writes) (hstop : clock.stopAt = none)
    (hfresh : ∀ n session, (attempts n).result = .ok session →
      ∃ failAfter, session = Recorder.new .stream failAfter)
    (hrecurs : ∀ n, ∃ m, n ≤ m ∧ ∃ session, (attempts m).result = .ok session) :
    ∃ bound, ∀ connector : Connector Recorder, (∀ n < bound, connector.attempt n = attempts n) →
      ∃ later final legs,
        scenario spec timestamps (Supervisor.new (connector.map Logged.new) backoff listens) clock =
          (.ok .completed, later, final) ∧
        scenario spec timestamps (Supervisor.new connector backoff listens) clock =
          (.ok .completed, later, final.map (Supervisor.map Logged.sink)) ∧
        final.progress.attempted = spec.count ∧
        legs.flatten.map Landing.step = writes ∧
        (∀ landing ∈ legs.flatten,
          Event.encodeAll landing.flight.step.events = .ok landing.flight.bytes) ∧
        (∀ leg ∈ legs, leg ≠ []) ∧ (∀ leg ∈ legs.dropLast, BrokenOff leg) ∧
        List.Forall₂ (fun leg session => Carried leg session ∧
          ∀ codec : Codec, (∀ event ∈ eventsOf leg, event.frame.body.length ≤ codec.limit) →
            ∃ k rest, eventCount (taken leg) ≤ k ∧
              codec.drain session.sink.bytes =
                ((((eventsOf leg).take k).map fun event => .ok (some event.frame)) ++ [.ok none],
                  rest)) legs final.sink.sessions ∧
        final.progress.sent.toNat = eventCount (taken legs.flatten) ∧
        final.progress.errors.toNat = eventCount (refused legs.flatten) := by
  have hcount : eventCount writes = spec.count.toNat := by
    rw [← remaining_eq_eventCount hyields, Plan.remaining_start]
  let logged : Nat → Attempt (Logged Recorder) := fun n => (attempts n).map Logged.new
  have hfresh' : ∀ n session, (logged n).result = .ok session →
      ∃ failAfter, session = Logged.new (Recorder.new .stream failAfter) := by
    intro n session hsession
    obtain ⟨plain, hplain, rfl⟩ := Attempt.result_map_eq_ok_iff.mp hsession
    obtain ⟨failAfter, rfl⟩ := hfresh n plain hplain
    exact ⟨failAfter, rfl⟩
  have hrecurs' : ∀ n, ∃ m, n ≤ m ∧ ∃ session, (logged m).result = .ok session := by
    intro n
    obtain ⟨m, hle, session, hsession⟩ := hrecurs n
    exact ⟨m, hle, _, Attempt.result_map_eq_ok_iff.mpr ⟨session, hsession, rfl⟩⟩
  obtain ⟨bound, hbound⟩ := exists_journey hfresh' hrecurs' writes writes 0
  refine ⟨bound, fun connector hconnector => ?_⟩
  have hfollows : (connector.map Logged.new).Follows logged 0 bound := by
    intro k hk
    rw [Connector.attempt_map, hconnector k (by omega), Nat.zero_add]
  -- At the start nothing has been written, and no session is held.
  let first := start spec timestamps (Supervisor.new (connector.map Logged.new) backoff listens)
    .zero clock
  have hlaunch : Underway writes writes [] [] first :=
    ⟨⟨rfl, List.forall_mem_nil _, hyields⟩, Tally.start clock.now, .nil, List.forall_mem_nil _,
      Or.inl ⟨rfl, rfl⟩⟩
  obtain ⟨later, final, legs, hend, hjourney⟩ := hbound hlaunch hfollows hstop
  have hplain : scenario spec timestamps (Supervisor.new connector backoff listens) clock =
      (.ok .completed, later, final.map (Supervisor.map Logged.sink)) := by
    have himage := toEnd_map Logged.hom_sink.supervisor clock first
    have hfirst : first.map (Supervisor.map Logged.sink) =
        start spec timestamps (Supervisor.new connector backoff listens) .zero clock := by
      rw [← Supervisor.new_unlogged connector backoff listens]
      rfl
    rw [hfirst, hend] at himage
    exact himage
  have hevents : eventCount (legs.flatten.map Landing.step ++ [] ++ []) = spec.count.toNat := by
    rw [List.append_nil, List.append_nil, hjourney.order, hcount]
  have hlt := spec.count.toNat_lt
  rw [← hevents] at hlt
  obtain ⟨hattempted, hsent, hbalance⟩ := hjourney.tally.balance hlt
  have hall := eventCount_landings legs.flatten
  rw [hevents] at hattempted
  rw [hjourney.order, hcount] at hall
  refine ⟨later, final, legs, hend, hplain, UInt64.toNat_inj.mp hattempted, hjourney.order,
    hjourney.encoded, hjourney.nonempty, hjourney.broken, ?_, hsent, ?_⟩
  · exact hjourney.carried.imp fun leg session hcarried =>
      ⟨hcarried, fun codec hlimit => hcarried.drain hlimit⟩
  · have hnone : eventCount [] = 0 := rfl
    omega

/-- Five events, each write `.split` in two parts, over attempts of which every other one fails; the
others yield sessions that break, each later than the one before. -/
theorem reconnecting_alternating :
    ∃ (spec : Scenario.Spec) (writes : List Step) (attempts : Nat → Attempt Recorder) (bound : Nat)
      (later : Clock) (final : Run (Supervisor Recorder)),
      spec = ⟨"fragmented", .fragmented 2 .split, .supervised, 5, .single 64, .load, 42, .zero, 0⟩ ∧
      attempts = (fun n => if n % 2 = 0 then ⟨5, .error .timeout⟩
        else ⟨0, .ok (.new .stream (some n))⟩) ∧
      (Plan.start spec fun _ => 0).Yields writes ∧ Clock.start.stopAt = none ∧
      scenario spec (fun _ => 0)
        (Supervisor.new (.ofAttempts attempts bound (.new .datagram none)) 100 true) .start =
        (.ok .completed, later, final) ∧
      final.progress.attempted = 5 := by
  let spec : Scenario.Spec :=
    ⟨"fragmented", .fragmented 2 .split, .supervised, 5, .single 64, .load, 42, .zero, 0⟩
  let attempts : Nat → Attempt Recorder := fun n =>
    if n % 2 = 0 then ⟨5, .error .timeout⟩ else ⟨0, .ok (.new .stream (some n))⟩
  have hroomy : spec.Roomy := Scenario.Spec.roomy_of_single rfl (by decide)
  obtain ⟨writes, hyields⟩ := Plan.exists_yields hroomy fun _ => 0
  have hfresh : ∀ n session, (attempts n).result = .ok session →
      ∃ failAfter, session = Recorder.new .stream failAfter := by
    intro n session hsession
    by_cases heven : n % 2 = 0
    · simp [attempts, heven] at hsession
    · simp only [attempts, heven, if_false, Except.ok.injEq] at hsession
      exact ⟨some n, hsession.symm⟩
  have hrecurs : ∀ n, ∃ m, n ≤ m ∧ ∃ session, (attempts m).result = .ok session := by
    intro n
    have hodd : ¬ (2 * n + 1) % 2 = 0 := by omega
    refine ⟨2 * n + 1, by omega, .new .stream (some (2 * n + 1)), ?_⟩
    simp only [attempts, hodd, if_false]
  obtain ⟨bound, hbound⟩ :=
    reconnecting spec (fun _ => 0) 100 true .start attempts hyields rfl hfresh hrecurs
  obtain ⟨later, final, legs, -, hrun, hattempted, -⟩ :=
    hbound (.ofAttempts attempts bound (.new .datagram none)) fun n hlt =>
      Connector.attempt_ofAttempts hlt _
  exact ⟨spec, writes, attempts, bound, later, final.map (Supervisor.map Logged.sink), rfl, rfl,
    hyields, rfl, hrun, hattempted⟩

end Run

end Volley
