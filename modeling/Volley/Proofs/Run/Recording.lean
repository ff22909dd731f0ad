import Volley.Proofs.Run.Turns
import Volley.Proofs.Scenario.Buildable
import Volley.Sink.Recorder

/-!
# What a run puts on a stream

A recorder that plays a stream takes every write, up to one that fails and closes it. A run that
nobody stops therefore leaves the frames of its first events, and behind them at most a beginning of
the write that failed: of a write in two parts the first part is already on the stream when the
second fails. How many events these are is what the run counts as sent.

## Main definitions

* `Step.pieces`, `Run.pieces`: in how many pieces writes go to the wire.
* `Run.Recorded`: how a run ends, what it sends and which bytes it leaves, for a list of writes.

## Main results

* `Run.Flight.offer_recorder`: what a recorder makes of one write.
* `Run.toEnd_recorder`: what a run over any list of writes leaves, by induction on the list.
* `Run.stream_holds_sent_events`: the bytes that a scenario leaves are those of the sent events.
-/

namespace Volley

/-- The number of pieces in which a write goes to the wire: two if its `shape` is `split`. -/
def Step.pieces (step : Step) : Nat :=
  match step.shape with
  | .split _ => 2
  | _ => 1

theorem Step.pieces_of_split {step : Step} {cut : Nat} (h : step.shape = .split cut) :
    step.pieces = 2 := by
  rw [pieces, h]

theorem Step.pieces_of_ne_split {step : Step} (h : ∀ cut, step.shape ≠ .split cut) :
    step.pieces = 1 := by
  unfold pieces
  split
  · next cut hshape => exact absurd hshape (h cut)
  · rfl

namespace Recorder

/-- A recorder that plays a stream and has not failed yet, so that it `isOpen`. -/
structure Playing (recorder : Recorder) : Prop where
  wire : recorder.wire = .stream
  isOpen : recorder.isOpen = true

/-- A write whose number is not `failAfter` is recorded. -/
theorem send_of_ne {recorder : Recorder} (h : recorder.Playing)
    (hne : recorder.failAfter ≠ some recorder.attempts) (bytes : Bytes) (clock : Clock) :
    ∃ later, recorder.send bytes clock = (.ok (), clock, later) ∧ later.Playing ∧
      later.failAfter = recorder.failAfter ∧ later.attempts = recorder.attempts + 1 ∧
      later.bytes = recorder.bytes ++ bytes := by
  refine ⟨{ recorder with attempts := recorder.attempts + 1, log := bytes :: recorder.log },
    ?_, ⟨h.wire, h.isOpen⟩, rfl, rfl, ?_⟩
  · rw [send, h.isOpen, if_neg (by decide), if_neg hne]
  · simp only [Recorder.bytes, writes, List.reverse_cons, List.flatten_append,
      List.flatten_singleton]

/-- The write with the number `failAfter` leaves no bytes and closes the recorder. -/
theorem send_of_eq {recorder : Recorder} (h : recorder.Playing)
    (heq : recorder.failAfter = some recorder.attempts) (bytes : Bytes) (clock : Clock) :
    ∃ later, recorder.send bytes clock = (.error (.io .brokenPipe), clock, later) ∧
      later.isOpen = false ∧ later.failAfter = recorder.failAfter ∧
      later.bytes = recorder.bytes := by
  refine ⟨{ recorder with attempts := recorder.attempts + 1, isOpen := false }, ?_, rfl, rfl, rfl⟩
  rw [send, h.isOpen, if_neg (by decide), if_pos heq, h.wire]
  rfl

end Recorder

namespace Run

/-- A write of a plan is never empty, and if its `shape` is `split`, it is cut inside. -/
theorem Flight.cut_of_next {plan later : Plan} {step : Step} {bytes : Bytes}
    (hnext : plan.next = .ok (some (step, later)))
    (hbytes : Event.encodeAll step.events = .ok bytes) :
    bytes ≠ [] ∧ ∀ cut, step.shape = .split cut → 0 < cut ∧ cut < bytes.length := by
  have hlength : bytes.length = step.encodedLength := Event.length_of_encodeAll hbytes
  refine ⟨?_, fun cut hshape => ?_⟩
  · -- A write has events, and each of them has a header.
    rintro rfl
    have hlong := Step.one_lt_encodedLength (Plan.events_ne_nil_of_next hnext)
    rw [← hlength] at hlong
    cases hlong
  · rw [hlength]
    exact Plan.cut_of_next hnext hshape

/-- A write fails on a recorder that has been attempted `attempts` times before, and `part` of it is
recorded: nothing if the write or its first piece failed, and the first piece if the second did. -/
def Flight.BreaksOff (flight : Flight) (failAfter : Option Nat) (attempts : Nat) (part : Bytes) :
    Prop :=
  failAfter = some attempts ∧ part = [] ∨
    ∃ cut, flight.step.shape = .split cut ∧ part = flight.bytes.take cut ∧
      failAfter = some (attempts + 1)

/-- What is recorded of a write that `BreaksOff` is a strict beginning of it. -/
theorem Flight.BreaksOff.strict {flight : Flight} {failAfter : Option Nat} {attempts : Nat}
    {part : Bytes} (h : flight.BreaksOff failAfter attempts part) (hne : flight.bytes ≠ [])
    (hcut : ∀ cut, flight.step.shape = .split cut → 0 < cut ∧ cut < flight.bytes.length) :
    part <+: flight.bytes ∧ part ≠ flight.bytes := by
  rcases h with ⟨-, rfl⟩ | ⟨cut, hshape, rfl, -⟩
  · exact ⟨List.nil_prefix, hne.symm⟩
  · refine ⟨List.take_prefix _ _, fun h => ?_⟩
    have hshort := congrArg List.length h
    have hinside := hcut cut hshape
    rw [List.length_take] at hshort
    omega

/-- On a recorder that is `Playing`, a write that is cut inside its bytes, if it is cut, is recorded
as a whole, or it `BreaksOff`: with nothing recorded of it, or with the first of its two pieces. -/
theorem Flight.offer_recorder {flight : Flight} {sink : Recorder} (hplaying : sink.Playing)
    (hcut : ∀ cut, flight.step.shape = .split cut → 0 < cut ∧ cut < flight.bytes.length)
    (clock : Clock) :
    (∃ later, flight.offer clock sink = (.ok (), clock, later) ∧ later.Playing ∧
      later.failAfter = sink.failAfter ∧ later.attempts = sink.attempts + flight.step.pieces ∧
      later.bytes = sink.bytes ++ flight.bytes) ∨
    (∃ e later part, flight.offer clock sink = (.error e, clock, later) ∧ later.isOpen = false ∧
      later.failAfter = sink.failAfter ∧ later.bytes = sink.bytes ++ part ∧
      flight.BreaksOff sink.failAfter sink.attempts part) := by
  by_cases hsplit : ∃ cut, flight.step.shape = .split cut
  · obtain ⟨cut, hshape⟩ := hsplit
    have hoffer : flight.offer clock sink =
        sendInTwo Recorder.send flight.bytes cut clock sink := offer_of_split hshape clock sink
    rw [hoffer, sendInTwo, splitAtCut, if_pos (hcut cut hshape), Step.pieces_of_split hshape]
    by_cases hfirst : sink.failAfter = some sink.attempts
    · -- The first part fails, and the second is never sent.
      right
      obtain ⟨later, hsend, hclosed, hfail, hbytes⟩ :=
        Recorder.send_of_eq hplaying hfirst (flight.bytes.take cut) clock
      simp only [hsend]
      refine ⟨_, later, [], rfl, hclosed, hfail, ?_, Or.inl ⟨hfirst, rfl⟩⟩
      rw [hbytes, List.append_nil]
    obtain ⟨half, hsend, hhalf, hfail, hattempts, hbytes⟩ :=
      Recorder.send_of_ne hplaying hfirst (flight.bytes.take cut) clock
    simp only [hsend]
    by_cases hsecond : sink.failAfter = some (sink.attempts + 1)
    · -- The second part fails, and the first has been recorded.
      right
      have heq : half.failAfter = some half.attempts := by rw [hfail, hattempts, hsecond]
      obtain ⟨later, hsend', hclosed, hfail', hbytes'⟩ :=
        Recorder.send_of_eq hhalf heq (flight.bytes.drop cut) clock
      refine ⟨_, later, flight.bytes.take cut, hsend', hclosed, hfail'.trans hfail, ?_,
        Or.inr ⟨cut, hshape, rfl, hsecond⟩⟩
      rw [hbytes', hbytes]
    · left
      have hne : half.failAfter ≠ some half.attempts := by rwa [hfail, hattempts]
      obtain ⟨later, hsend', hlater, hfail', hattempts', hbytes'⟩ :=
        Recorder.send_of_ne hhalf hne (flight.bytes.drop cut) clock
      refine ⟨later, hsend', hlater, hfail'.trans hfail, ?_, ?_⟩
      · rw [hattempts', hattempts]
      · rw [hbytes', hbytes, List.append_assoc, List.take_append_drop]
  · have hwhole : ∀ cut, flight.step.shape ≠ .split cut := fun cut h => hsplit ⟨cut, h⟩
    have hoffer : flight.offer clock sink = Recorder.send flight.bytes clock sink :=
      offer_of_ne_split hwhole clock sink
    rw [hoffer, Step.pieces_of_ne_split hwhole]
    by_cases hfirst : sink.failAfter = some sink.attempts
    · right
      obtain ⟨later, hsend, hclosed, hfail, hbytes⟩ :=
        Recorder.send_of_eq hplaying hfirst flight.bytes clock
      refine ⟨_, later, [], hsend, hclosed, hfail, ?_, Or.inl ⟨hfirst, rfl⟩⟩
      rw [hbytes, List.append_nil]
    · left
      exact Recorder.send_of_ne hplaying hfirst flight.bytes clock

/-- The number of pieces in which several `writes` go to the wire. -/
def pieces (writes : List Step) : Nat :=
  (writes.map Step.pieces).foldr (· + ·) 0

/-- How a run over these writes ends, how many events it sends and which bytes it leaves, on a
recorder that fails at an attempt or never and has been attempted `attempts` times before. -/
inductive Recorded (writes : List Step) (failAfter : Option Nat) (attempts : Nat) :
    Ending → Nat → Bytes → Prop where
  /-- Every write is recorded. -/
  | whole {bytes : Bytes} (encoded : Event.encodeAll (writes.flatMap Step.events) = .ok bytes) :
      Recorded writes failAfter attempts .completed (writes.flatMap Step.events).length bytes
  /-- The writes `done` are recorded, and `part` of the next one. -/
  | broken {done rest : List Step} {step : Step} {front next part : Bytes}
      (split : writes = done ++ step :: rest)
      (encoded : Event.encodeAll (done.flatMap Step.events) = .ok front)
      (encodedNext : Event.encodeAll step.events = .ok next)
      (strict : part <+: next ∧ part ≠ next)
      (failed : failAfter = some (attempts + pieces done) ∧ part = [] ∨
        ∃ cut, step.shape = .split cut ∧ part = next.take cut ∧
          failAfter = some (attempts + pieces done + 1)) :
      Recorded writes failAfter attempts .transportFailed (done.flatMap Step.events).length
        (front ++ part)

/-- What is `Recorded` of later writes comes behind a write that is recorded. -/
theorem Recorded.cons {writes : List Step} {failAfter : Option Nat} {attempts sent : Nat}
    {ending : Ending} {step : Step} {bytes more : Bytes}
    (hstep : Event.encodeAll step.events = .ok bytes)
    (h : Recorded writes failAfter (attempts + step.pieces) ending sent more) :
    Recorded (step :: writes) failAfter attempts ending (step.events.length + sent)
      (bytes ++ more) := by
  cases h with
  | whole encoded =>
    rw [← List.length_append, ← List.flatMap_cons]
    refine Recorded.whole ?_
    rw [List.flatMap_cons]
    exact Event.encodeAll_append hstep encoded
  | @broken done rest next front _ part split encoded encodedNext strict failed =>
    have hpieces : attempts + step.pieces + pieces done = attempts + pieces (step :: done) := by
      rw [Nat.add_assoc]
      rfl
    rw [← List.length_append, ← List.flatMap_cons, ← List.append_assoc]
    rw [hpieces] at failed
    have hsplit : step :: writes = (step :: done) ++ next :: rest := by
      rw [split]
      rfl
    have hencoded :
        Event.encodeAll ((step :: done).flatMap Step.events) = .ok (bytes ++ front) := by
      rw [List.flatMap_cons]
      exact Event.encodeAll_append hstep encoded
    exact Recorded.broken hsplit hencoded encodedNext strict failed

/-- By `Run.toEnd`, a run that nobody stops leaves on a recorder what is `Recorded` of its writes.
-/
theorem toEnd_recorder {writes : List Step} {run : Run Recorder} {clock : Clock}
    (hyields : run.plan.Yields writes) (hplaying : run.sink.Playing)
    (hstop : clock.stopAt = none) :
    ∃ ending later final sent bytes, run.toEnd clock = (.ok ending, later, final) ∧
      Recorded writes run.sink.failAfter run.sink.attempts ending sent bytes ∧
      final.sink.bytes = run.sink.bytes ++ bytes ∧
      final.progress.sent = run.progress.sent + UInt64.ofNat sent := by
  induction writes generalizing run clock with
  | nil =>
    have hremaining : run.plan.remaining = 0 := hyields.length_events.symm
    refine ⟨.completed, clock, run.close, 0, [], ?_, .whole rfl, ?_, ?_⟩
    · rw [toEnd_of_over (turn_of_yields_nil hyields clock), endingOf, hremaining]
      rfl
    · rw [List.append_nil]
      rfl
    · exact (UInt64.add_zero _).symm
  | cons step rest ih =>
    have hclock := Clock.stopped_of_stopAt_none hstop
    obtain ⟨plan, bytes, hnext, hrest, hbytes, hturn⟩ := turn_of_yields_cons hyields hclock
    obtain ⟨hne, hcut⟩ := Flight.cut_of_next hnext hbytes
    rcases @Flight.offer_recorder ⟨step, bytes⟩ run.sink hplaying hcut clock with
      ⟨sink, hoffer, hlater, hfail, hattempts, hrecorded⟩ |
      ⟨e, sink, part, hoffer, hclosed, -, hrecorded, hpart⟩
    · -- The write is recorded, and the run goes on with the plan after it.
      obtain ⟨ending, later, final, sent, more, hend, hrec, hfinal, hsent⟩ :=
        @ih (run.sent ⟨step, bytes⟩ plan sink) _ hrest hlater ((stopAt_pause _ clock).trans hstop)
      refine ⟨ending, later, final, step.events.length + sent, bytes ++ more, ?_, ?_, ?_, ?_⟩
      · rw [toEnd_of_sent hturn hoffer, hend]
      · rw [Run.sent, hfail, hattempts] at hrec
        exact hrec.cons hbytes
      · rw [hfinal, ← List.append_assoc, ← hrecorded]
        rfl
      · rw [hsent, UInt64.ofNat_add, ← UInt64.add_assoc]
        rfl
    · -- The write failed and closed the recorder, so the run is lost.
      have hlost := toEnd_of_lost hturn hoffer hclock hclosed
      refine ⟨.transportFailed, clock, _, 0, part, hlost, ?_, hrecorded, (UInt64.add_zero _).symm⟩
      exact Recorded.broken (List.nil_append _).symm rfl hbytes (hpart.strict hne hcut) hpart

theorem pieces_append (writes others : List Step) :
    pieces (writes ++ others) = pieces writes + pieces others := by
  induction writes with
  | nil => exact (Nat.zero_add _).symm
  | cons step rest ih =>
    simp only [pieces, List.cons_append, List.map_cons, List.foldr_cons] at ih ⊢
    omega

/-- Every write goes to the wire in one of its `pieces` or two. -/
theorem pieces_pos (step : Step) : 0 < step.pieces := by
  unfold Step.pieces
  split <;> decide

namespace Recorded

variable {writes : List Step} {failAfter : Option Nat} {sent : Nat} {ending : Ending}
  {bytes : Bytes}

/-- What is `Recorded` are the frames of the events that are `sent`, and a `part` of the next write.
-/
theorem exists_split (h : Recorded writes failAfter 0 ending sent bytes) :
    ∃ done rest front part, writes = done ++ rest ∧ sent = (done.flatMap Step.events).length ∧
      Event.encodeAll ((writes.flatMap Step.events).take sent) = .ok front ∧
      bytes = front ++ part ∧ (rest = [] → part = []) ∧
      ∀ step more, rest = step :: more → ∃ next, Event.encodeAll step.events = .ok next ∧
        part <+: next ∧ part ≠ next ∧
        (failAfter = some (pieces done) ∧ part = [] ∨
          ∃ cut, step.shape = .split cut ∧ part = next.take cut ∧
            failAfter = some (pieces done + 1)) := by
  cases h with
  | whole encoded =>
    refine ⟨writes, [], bytes, [], (List.append_nil _).symm, rfl, ?_, (List.append_nil _).symm,
      fun _ => rfl, by rintro _ _ ⟨⟩⟩
    rw [List.take_length]
    exact encoded
  | @broken done rest step front next part split encoded encodedNext strict failed =>
    refine ⟨done, step :: rest, front, part, split, rfl, ?_, rfl, (by rintro ⟨⟩), ?_⟩
    · rw [split, List.flatMap_append, List.take_left]
      exact encoded
    · intro first more h
      cases h
      rw [Nat.zero_add] at failed
      exact ⟨next, encodedNext, strict.1, strict.2, failed⟩

/-- If there are not enough `pieces` for the attempt `failAfter`, everything is recorded. -/
theorem eq_whole (h : Recorded writes failAfter 0 ending sent bytes)
    (hnever : ∀ n, failAfter = some n → pieces writes ≤ n) :
    ending = .completed ∧ sent = (writes.flatMap Step.events).length ∧
      Event.encodeAll (writes.flatMap Step.events) = .ok bytes := by
  cases h with
  | whole encoded => exact ⟨rfl, rfl, encoded⟩
  | @broken done rest step front next part split encoded encodedNext strict failed =>
    -- The piece that failed is one of the pieces of the plan.
    have hpieces : pieces writes = pieces done + (step.pieces + pieces rest) := by
      rw [split, pieces_append]
      rfl
    exfalso
    rcases failed with ⟨hfail, -⟩ | ⟨cut, hshape, -, hfail⟩
    · have hle := hnever _ hfail
      have hpos := pieces_pos step
      omega
    · have hle := hnever _ hfail
      have htwo := Step.pieces_of_split hshape
      omega

end Recorded

/-- With the stop signal never raised, the `bytes` that a run leaves on a stream are the frames of
the first events of its plan, as many as are counted as `sent`, and then `part`, a strict beginning
of the next write, which is not empty only if the second half of a write in two parts failed. If no
write fails, they are the frames of all events, and `Codec.drain` with a limit that covers their
bodies finds these events and nothing else. -/
theorem stream_holds_sent_events (spec : Scenario.Spec) (timestamps : Nat → Int)
    (failAfter : Option Nat) (clock : Clock) {writes : List Step}
    (hyields : (Plan.start spec timestamps).Yields writes) (hstop : clock.stopAt = none) :
    ∃ ending later final done rest front part,
      scenario spec timestamps (Recorder.new .stream failAfter) clock = (.ok ending, later, final) ∧
      writes = done ++ rest ∧
      final.progress.sent.toNat = (done.flatMap Step.events).length ∧
      Event.encodeAll ((writes.flatMap Step.events).take final.progress.sent.toNat) = .ok front ∧
      final.sink.bytes = front ++ part ∧
      (rest = [] → part = []) ∧
      (∀ step more, rest = step :: more → ∃ next, Event.encodeAll step.events = .ok next ∧
        part <+: next ∧ part ≠ next ∧
        (failAfter = some (pieces done) ∧ part = [] ∨
          ∃ cut, step.shape = .split cut ∧ part = next.take cut ∧
            failAfter = some (pieces done + 1))) ∧
      ((∀ n, failAfter = some n → pieces writes ≤ n) →
        ending = .completed ∧ final.progress.sent = spec.count ∧ part = [] ∧
        ∀ codec : Codec,
          (∀ event ∈ writes.flatMap Step.events, event.frame.body.length ≤ codec.limit) →
          codec.drain final.sink.bytes =
            (((writes.flatMap Step.events).map fun event => .ok (some event.frame)) ++ [.ok none],
              [])) := by
  have hcount : (writes.flatMap Step.events).length = spec.count.toNat := by
    rw [hyields.length_events, Plan.remaining_start]
  obtain ⟨ending, later, final, sent, bytes, hend, hrec, hbytes, hsent⟩ :=
    @toEnd_recorder writes (start spec timestamps (Recorder.new .stream failAfter) .zero clock)
      clock hyields ⟨rfl, rfl⟩ hstop
  have hbytes : final.sink.bytes = bytes := hbytes
  obtain ⟨done, rest, front, part, hsplit, hdone, hfront, hpart, hnil, hnext⟩ := hrec.exists_split
  -- At most the planned events are sent, so the counter has not started over.
  have htoNat : final.progress.sent.toNat = sent := by
    have hle : sent ≤ spec.count.toNat := by
      rw [← hcount, hsplit, List.flatMap_append, List.length_append, ← hdone]
      exact Nat.le_add_right _ _
    have hlt := Nat.lt_of_le_of_lt hle spec.count.toNat_lt
    have hcounter : final.progress.sent = UInt64.ofNat sent := by
      rw [hsent]
      exact UInt64.zero_add _
    rw [hcounter, UInt64.toNat_ofNat']
    exact Nat.mod_eq_of_lt hlt
  refine ⟨ending, later, final, done, rest, front, part, hend, hsplit, ?_, ?_, ?_, hnil, hnext,
    fun hnever => ?_⟩
  · rw [htoNat, hdone]
  · rw [htoNat]
    exact hfront
  · rw [hbytes, hpart]
  · obtain ⟨hending, hall, hwhole⟩ := hrec.eq_whole hnever
    refine ⟨hending, ?_, ?_, fun codec hlimit => ?_⟩
    · rw [← UInt64.toNat_inj, htoNat, hall, hcount]
    · rw [hall, List.take_length, hwhole] at hfront
      rw [← Except.ok.inj hfront] at hpart
      exact List.self_eq_append_right.mp hpart
    · have hdrain := Codec.drain_encodeAll hwhole hlimit []
      rw [List.append_nil] at hdrain
      rw [hbytes, hdrain, Codec.drain_nil]

/-- Five events of 64 bytes, two to a write and each write `split` in two parts, on a stream that
never fails. -/
theorem stream_holds_sent_events_fragmented :
    ∃ (spec : Scenario.Spec) (writes : List Step) (later : Clock) (final : Run Recorder),
      spec = ⟨"fragmented", .fragmented 2 .split, .stream, 5, .single 64, .load, 42, .zero, 0⟩ ∧
      (Plan.start spec fun _ => 0).Yields writes ∧ Clock.start.stopAt = none ∧
      scenario spec (fun _ => 0) (Recorder.new .stream none) .start =
        (.ok .completed, later, final) ∧
      final.progress.sent = 5 ∧
      Event.encodeAll (writes.flatMap Step.events) = .ok final.sink.bytes := by
  let spec : Scenario.Spec :=
    ⟨"fragmented", .fragmented 2 .split, .stream, 5, .single 64, .load, 42, .zero, 0⟩
  have hroomy : spec.Roomy := Scenario.Spec.roomy_of_single rfl (by decide)
  obtain ⟨writes, hyields⟩ := Plan.exists_yields hroomy fun _ => 0
  obtain ⟨ending, later, final, done, rest, front, part, hrun, hsplit, hsent, hfront, hbytes, -, -,
    hwhole⟩ := stream_holds_sent_events spec (fun _ => 0) none .start hyields rfl
  obtain ⟨rfl, hcount, rfl, -⟩ := hwhole fun n hfail => by cases hfail
  refine ⟨spec, writes, later, final, rfl, hyields, rfl, hrun, hcount, ?_⟩
  have hall : final.progress.sent.toNat = (writes.flatMap Step.events).length := by
    rw [hyields.length_events, Plan.remaining_start, hcount]
  rw [hall, List.take_length] at hfront
  rw [hbytes, List.append_nil, hfront]

end Run

end Volley
