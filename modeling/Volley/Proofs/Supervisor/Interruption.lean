import Volley.Proofs.Sink.Splitting
import Volley.Proofs.Supervisor.Course

/-!
# Supervisors and the stop signal

The stop signal may be raised at any moment: before a supervisor is asked for anything, in one of
its pauses, or while an attempt is under way. It is looked at in two places, before each pause or
attempt and during each pause. This is enough for the supervisor to do nothing new once the signal
has been raised. It makes no further attempt, and its answer is an error if it has no session by
then, with one exception: where a pause ends at the very moment at which the signal is raised, the
timer comes first, and one more attempt begins.

## Main definitions

* `Supervisor.Pause.Heeds`: a pause that ends no later than the signal is raised.
* `Supervisor.Untied`: no pause ends when the signal is raised.

## Main results

* `Supervisor.Orderly.of_ensureConnected_error`: a supervisor gives up only because of the signal.
* `Supervisor.Course.Heeding.of_reaches`: pauses and attempts along a course, and the signal.
* `Supervisor.Course.stop_interrupts`: what a supervisor does when the signal is raised.
-/

namespace Volley

theorem Clock.stopped_iff {clock : Clock} {moment : Nat} (hstop : clock.stopAt = some moment) :
    clock.stopped = true ↔ moment ≤ clock.now := by
  simp only [stopped, hstop, decide_eq_true_eq]

namespace Supervisor

variable {σ : Type}

/-- A `Pause` of a supervisor that listens to a signal raised at `moment`: it begins before `moment`
and ends no later, with its timer of `backoff` if it is `complete`, and at `moment` otherwise. -/
structure Pause.Heeds (backoff moment : Nat) (pause : Pause) : Prop where
  began_lt : pause.began < moment
  ended_le : pause.ended ≤ moment
  of_complete : pause.complete = true → pause.ended = pause.began + Clock.timer backoff
  of_incomplete : pause.complete = false →
    pause.ended = moment ∧ moment < pause.began + Clock.timer backoff

/-- No `complete` pause of the `trace` has `ended` at the very `moment` at which the signal is
raised. -/
def Untied (moment : Nat) (trace : List Happening) : Prop :=
  ∀ pause ∈ pauses trace, pause.complete = true → pause.ended ≠ moment

/-- All `pauses` of a trace have `Pause.Heeds`, and if it is `Untied`, all `attempts` begin before
`moment`. -/
structure Heeded (backoff moment : Nat) (trace : List Happening) : Prop where
  pauses : ∀ pause ∈ pauses trace, pause.Heeds backoff moment
  attempts : Untied moment trace → ∀ began ∈ attempts trace, began < moment

/-- Two traces that are `Heeded` are so one after the other. -/
theorem Heeded.append {backoff moment : Nat} {trace way : List Happening}
    (h : Heeded backoff moment trace) (h' : Heeded backoff moment way) :
    Heeded backoff moment (trace ++ way) := by
  refine ⟨?_, ?_⟩
  · intro pause hpause
    rw [pauses_append] at hpause
    rcases List.mem_append.mp hpause with hpause | hpause
    · exact h.pauses pause hpause
    · exact h'.pauses pause hpause
  · intro huntied began hbegan
    rw [Untied, pauses_append] at huntied
    rw [attempts_append] at hbegan
    rcases List.mem_append.mp hbegan with hbegan | hbegan
    · exact h.attempts (fun pause hpause => huntied pause (List.mem_append_left _ hpause))
        began hbegan
    · exact h'.attempts (fun pause hpause => huntied pause (List.mem_append_right _ hpause))
        began hbegan

/-- A way without `pauses` and `attempts` is `Heeded`, whatever else happens on it. -/
theorem Heeded.of_nil {backoff moment : Nat} {way : List Happening}
    (hpauses : Supervisor.pauses way = []) (hattempts : Supervisor.attempts way = []) :
    Heeded backoff moment way := by
  refine ⟨?_, ?_⟩
  · rw [hpauses]
    exact fun _ hpause => absurd hpause List.not_mem_nil
  · rw [hattempts]
    exact fun _ _ hbegan => absurd hbegan List.not_mem_nil

/-- A trace of one pause that has `Pause.Heeds` is `Heeded`. -/
theorem Heeded.of_pause {backoff moment : Nat} {pause : Pause} (h : pause.Heeds backoff moment) :
    Heeded backoff moment [.paused pause] := by
  refine ⟨?_, fun _ _ hbegan => absurd hbegan List.not_mem_nil⟩
  intro other hother
  rw [List.mem_singleton.mp hother]
  exact h

/-- A trace of one attempt that has `began` before `moment` is `Heeded`. -/
theorem Heeded.of_attempt {backoff moment began : Nat} (h : began < moment) :
    Heeded backoff moment [.attempted began] := by
  refine ⟨fun _ hpause => absurd hpause List.not_mem_nil, ?_⟩
  intro _ other hother
  rw [List.mem_singleton.mp hother]
  exact h

/-- A `complete` pause with the attempt that begins when it has `ended` is `Heeded`: the attempt
comes before `moment` unless the two are tied, and then the trace is not `Untied`. -/
theorem Heeded.of_retry {backoff moment : Nat} {pause : Pause} (h : pause.Heeds backoff moment)
    (hcomplete : pause.complete = true) :
    Heeded backoff moment [.paused pause, .attempted pause.ended] := by
  refine ⟨?_, ?_⟩
  · intro other hother
    rw [List.mem_singleton.mp hother]
    exact h
  · intro huntied other hother
    rw [List.mem_singleton.mp hother]
    exact Nat.lt_of_le_of_ne h.ended_le (huntied pause List.mem_cons_self hcomplete)

/-! ## Pauses and the signal -/

theorem stopped_of_waitBackoff {clock later : Clock} {supervisor : Supervisor σ}
    (h : supervisor.waitBackoff clock = (false, later)) : later.stopped = true := by
  unfold waitBackoff at h
  split at h
  · exact Clock.stopped_of_waitOrStop h
  · cases h

/-- Only the signal makes `beginAttempt` return `none`: the clock `later` is then `stopped`. -/
theorem stopped_of_beginAttempt {clock later : Clock} {supervisor : Supervisor σ}
    (h : supervisor.beginAttempt clock = (none, later)) : later.stopped = true := by
  unfold beginAttempt at h
  split at h
  · split at h
    · cases h
    · next hwait =>
      cases h
      exact stopped_of_waitBackoff hwait
  · cases h

/-- As long as a supervisor that `listens` is not `stopped`, the clock has `now` before the `moment`
at which the signal is raised. -/
theorem now_lt_of_running {moment : Nat} {clock : Clock} {supervisor : Supervisor σ}
    (hlistens : supervisor.listens = true) (hstop : clock.stopAt = some moment)
    (hrunning : supervisor.stopped clock = false) : clock.now < moment := by
  rw [Supervisor.stopped, hlistens, Bool.true_and] at hrunning
  have hnot : ¬ moment ≤ clock.now := by
    rw [← Clock.stopped_iff hstop, hrunning]
    exact Bool.false_ne_true
  exact Nat.lt_of_not_le hnot

/-- What `waitBackoff` does from a moment before the signal is a pause that has `Pause.Heeds`. -/
theorem heeds_of_waitBackoff {moment : Nat} {clock later : Clock} {supervisor : Supervisor σ}
    {complete : Bool} (hstop : clock.stopAt = some moment) (hbefore : clock.now < moment)
    (hlistens : supervisor.listens = true)
    (hwait : supervisor.waitBackoff clock = (complete, later)) :
    Pause.Heeds supervisor.backoff moment
      ⟨supervisor.backoff, clock.now, later.now, complete⟩ := by
  rcases supervisor.waitBackoff_cases clock with ⟨hwaited, hle⟩ | ⟨-, other, hother, hlt, hwaited⟩
  · rw [hwaited] at hwait
    cases hwait
    exact ⟨hbefore, hle hlistens moment hstop, fun _ => rfl, nofun⟩
  · rw [hwaited] at hwait
    cases hwait
    cases hstop.symm.trans hother
    have hended : max clock.now moment = moment := Nat.max_eq_right (Nat.le_of_lt hbefore)
    exact ⟨hbefore, Nat.le_of_eq hended, nofun, fun _ => ⟨hended, hlt⟩⟩

variable [Sink σ]

/-- If `ensureConnected` answers with an error, the supervisor that is `left` has no `session`, and
the clock is `stopped`. -/
theorem Orderly.of_ensureConnected_error {clock later : Clock} {supervisor left : Supervisor σ}
    {e : TransportError} (horderly : supervisor.Orderly)
    (h : supervisor.ensureConnected clock = (.error e, later, left)) :
    left.session = none ∧ later.stopped = true := by
  -- The search ends without a session where the signal is found raised, before a pause or in one.
  fun_induction Supervisor.ensureConnected clock supervisor with
  | case1 => cases h
  | case2 clock supervisor hclosed hstopped =>
    cases h
    unfold Supervisor.stopped at hstopped
    rw [Bool.and_eq_true] at hstopped
    exact ⟨horderly.session_eq_none (Bool.eq_false_iff.mpr hclosed), hstopped.2⟩
  | case3 clock supervisor hclosed _ started hbegin =>
    cases h
    exact ⟨horderly.session_eq_none (Bool.eq_false_iff.mpr hclosed),
      stopped_of_beginAttempt hbegin⟩
  | case4 => cases h
  | case5 clock supervisor hclosed _ begun started hbegin _ next hattempt _ ih =>
    have hnone := horderly.session_eq_none (Bool.eq_false_iff.mpr hclosed)
    exact ih ((horderly.beginAttempt hnone hbegin).attempt hattempt).1 h

namespace Course

/-- A course that is `InOrder`, whose supervisor listens to a signal raised at `moment` and pauses
for `backoff`, and whose `trace` is `Heeded`. -/
structure Heeding (backoff moment : Nat) (course : Course σ) : Prop where
  inOrder : course.InOrder
  backoff_eq : course.supervisor.backoff = backoff
  listens : course.supervisor.listens = true
  stopAt_eq : course.clock.stopAt = some moment
  heeded : Heeded backoff moment course.trace

/-- The trace of a course that is `Heeding` is still `Heeded` after `advance`. -/
theorem Heeding.heeded_advance {backoff moment : Nat} {course : Course σ}
    (h : course.Heeding backoff moment) : Heeded backoff moment course.advance.trace := by
  obtain ⟨hinOrder, rfl, hlistens, hstop, hheeded⟩ := h
  have hstep := advances course
  generalize course.advance = after at hstep
  -- A pause or an attempt is only begun by a supervisor that does not know of the signal.
  cases hstep with
  | rests => exact hheeded
  | finds => exact hheeded
  | refuses => exact hheeded
  | pauses => exact hheeded
  | starts _ hrunning _ =>
    exact hheeded.append (.of_attempt (now_lt_of_running hlistens hstop hrunning))
  | retries hwait =>
    cases hinOrder with
    | pausing _ _ _ hrunning =>
      have hbefore := now_lt_of_running hlistens hstop hrunning
      have hpause := heeds_of_waitBackoff hstop hbefore hlistens hwait
      simp only [startAttempt, List.append_assoc]
      exact hheeded.append (.of_retry hpause rfl)
  | givesUp hwait =>
    cases hinOrder with
    | pausing _ _ _ hrunning =>
      have hbefore := now_lt_of_running hlistens hstop hrunning
      exact hheeded.append (.of_pause (heeds_of_waitBackoff hstop hbefore hlistens hwait))
  | connects => exact hheeded.append (.of_nil rfl rfl)
  | misses => exact hheeded.append (.of_nil rfl rfl)
  | @answers request _ _ _ next _ reply _ =>
    obtain ⟨hpauses, hattempts, -⟩ := request.happenings_uncounted reply next
    exact hheeded.append (.of_nil hpauses hattempts)

theorem Heeding.advance [Sink.Steadfast σ] [Sink.Punctual σ] {backoff moment : Nat}
    {course : Course σ} (h : course.Heeding backoff moment) :
    course.advance.Heeding backoff moment := by
  have hfollows := follows_advance course
  exact ⟨h.inOrder.advance, hfollows.backoff_eq.trans h.backoff_eq,
    hfollows.listens_eq.trans h.listens, hfollows.precedes.stopAt_eq.trans h.stopAt_eq,
    h.heeded_advance⟩

/-- The invariant `Heeding` holds at every point that a course `Reaches`. -/
theorem Heeding.of_reaches [Sink.Steadfast σ] [Sink.Punctual σ] {backoff moment : Nat}
    {first course : Course σ} (hreaches : first.Reaches course)
    (h : first.Heeding backoff moment) : course.Heeding backoff moment := by
  refine hreaches.invariant Heeding.advance ?_ h
  intro course h reply hidle request span
  exact ⟨h.inOrder.ask hidle request span, h.backoff_eq, h.listens, h.stopAt_eq, h.heeded⟩

/-- If the signal comes before the timer of a pause would run out, `advance` leads from `pausing` to
the idle stage with the answer `.closed`, at `moment`. -/
theorem Heeding.advance_of_pausing {backoff moment : Nat} {course : Course σ}
    (h : course.Heeding backoff moment) {request : Request}
    (hpausing : course.stage = .pausing request)
    (hlt : moment < course.clock.now + Clock.timer backoff) :
    course.advance.stage = .idle (.error .closed) ∧ course.advance.clock.now = moment := by
  obtain ⟨hinOrder, rfl, hlistens, hstop, -⟩ := h
  obtain ⟨stage, clock, supervisor, trace⟩ := course
  cases hpausing
  cases hinOrder with
  | pausing _ _ _ hrunning =>
    have hbefore := now_lt_of_running hlistens hstop hrunning
    rcases supervisor.waitBackoff_cases clock with ⟨-, hle⟩ | ⟨-, other, hother, -, hwaited⟩
    · exact absurd hlt (Nat.not_lt_of_le (hle hlistens moment hstop))
    · cases hstop.symm.trans hother
      simp only [Course.advance, hwaited]
      exact ⟨trivial, Nat.max_eq_right (Nat.le_of_lt hbefore)⟩

/-- What a supervisor does when the signal is raised at `moment`. All `pauses` have `Pause.Heeds`,
so they end at `moment` if not before, and the search for a session ends with them. If the trace is
`Untied`, no attempt begins from then on. `ensureConnected` answers with an error only if the clock
is `stopped`, with no attempt under way. Once it is, the answer is `.closed`, unless `holdsOpen` was
true all along, or the attempt that was under way at `moment` has yielded a session. -/
theorem stop_interrupts [Sink.Steadfast σ] [Sink.Punctual σ] {connector : Connector σ}
    (hopen : connector.HandsOutOpen) (backoff : Nat) {clock : Clock} {course : Course σ}
    (hreaches : (launch (new connector backoff true) clock).Reaches course) :
    (∀ moment, clock.stopAt = some moment →
      (∀ pause ∈ pauses course.trace, pause.Heeds backoff moment) ∧
      (∀ request, course.stage = .pausing request →
        moment < course.clock.now + Clock.timer backoff →
          course.advance.stage = .idle (.error .closed) ∧ course.advance.clock.now = moment) ∧
      (Untied moment course.trace → ∀ began ∈ attempts course.trace, began < moment)) ∧
    ∀ reply, course.stage = .idle reply → ∀ (span : Nat) (found : Reply) (later : Clock)
      (left : Supervisor σ),
      course.supervisor.ensureConnected (course.clock.pass span) = (found, later, left) →
      ∃ way, course.Reaches ⟨.idle found, later, left, course.trace ++ way⟩ ∧
        (∀ e, found = .error e → e = .closed ∧ later.stopped = true ∧
          (left.state = .disconnected ∨ left.state = .failed)) ∧
        ∀ moment, clock.stopAt = some moment → later.stopped = true →
          Untied moment (course.trace ++ way) →
          found = .error .closed ∨
          course.supervisor.holdsOpen (course.clock.pass span) = true ∨
          ∃ front began, way = front ++ [.attempted began, .connected] ∧
            began < moment ∧ moment ≤ later.now := by
  have hlaunched : ∀ moment, clock.stopAt = some moment →
      (launch (new connector backoff true) clock).Heeding backoff moment :=
    fun _ hstop => ⟨.launch hopen backoff true clock, rfl, rfl, hstop, .of_nil rfl rfl⟩
  refine ⟨?_, ?_⟩
  · intro moment hstop
    have hheeding := (hlaunched moment hstop).of_reaches hreaches
    exact ⟨hheeding.heeded.pauses, fun _ => hheeding.advance_of_pausing, hheeding.heeded.attempts⟩
  · intro reply hidle span found later left hensure
    have hinOrder := (InOrder.launch hopen backoff true clock).of_reaches hreaches
    obtain ⟨stage, now, supervisor, trace⟩ := course
    cases hidle
    cases hinOrder with
    | idle horderly =>
      obtain ⟨way, hway, hfound⟩ := reaches_ensureConnected horderly hensure
      refine ⟨way, hway, ?_, ?_⟩
      · rintro e rfl
        obtain ⟨hnone, hstopped⟩ := horderly.of_ensureConnected_error hensure
        have hleft := horderly.ensureConnected (now.pass span)
        rw [hensure] at hleft
        exact ⟨eq_closed_of_ensureConnected hensure, hstopped, hleft.state_of_none hnone⟩
      · intro moment hstop hstopped huntied
        rcases found with e | _
        · rw [eq_closed_of_ensureConnected hensure]
          exact Or.inl rfl
        · rcases hfound rfl with hheld | ⟨front, began, rfl⟩
          · exact Or.inr (Or.inl hheld)
          · -- The attempt is one of those along the course, so it began in time.
            have hended := (hlaunched moment hstop).of_reaches (hreaches.trans hway)
            have hbegan : began < moment := by
              refine hended.heeded.attempts huntied began ?_
              simp [attempts, Happening.moment?]
            have hraised : moment ≤ later.now := (Clock.stopped_iff hended.stopAt_eq).mp hstopped
            exact Or.inr (Or.inr ⟨front, began, rfl, hbegan, hraised⟩)

/-- A course of the connector `flaky` in the stage `pausing`, after an attempt from 0 to 5 that it
has missed. The signal is raised at 12, before the timer of the pause runs out. -/
def cutShort : Course Recorder :=
  advance^[3] ((launch (new flaky 10 true) ⟨0, some 12⟩).ask (.send [1]) 0)

/-- After `cutShort` the pause has `ended` with the signal, and there is no second attempt. -/
theorem stop_interrupts_cutShort :
    flaky.HandsOutOpen ∧ cutShort.advance.stage = .idle (.error .closed) ∧
      cutShort.advance.clock.now = 12 ∧
      pauses cutShort.advance.trace = [⟨10, 5, 12, false⟩] ∧
      attempts cutShort.advance.trace = [0] ∧
      ∀ began ∈ attempts cutShort.advance.trace, began < 12 := by
  have hreaches : (launch (new flaky 10 true) ⟨0, some 12⟩).Reaches cutShort :=
    reaches_ask (.ok ()) rfl (.send [1]) 0 3
  have huntied : Untied 12 cutShort.advance.trace := by
    show ∀ pause ∈ [(⟨10, 5, 12, false⟩ : Pause)], _
    decide
  obtain ⟨-, hended, -⟩ := (stop_interrupts handsOutOpen_flaky 10 hreaches).1 12 rfl
  obtain ⟨hidle, hnow⟩ := hended (.send [1]) rfl (by decide)
  obtain ⟨-, -, hattempts⟩ :=
    (stop_interrupts handsOutOpen_flaky 10 (hreaches.trans (.of_advance (.refl _)))).1 12 rfl
  exact ⟨handsOutOpen_flaky, hidle, hnow, by decide +kernel, by decide +kernel, hattempts huntied⟩

end Course

end Supervisor

end Volley
