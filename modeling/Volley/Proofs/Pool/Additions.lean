import Volley.Proofs.Pool.Books
import Volley.Saturate

/-!
# The additions of a worker

The counters of a worker are words that start over at their end. This module lists the additions
that a worker makes to them between two waits, in order, and shows that none of them goes beyond the
end of a word: each takes its events from those that remain, or from those under way, and with them
a counter is never above the number of planned events, which is itself a word.

## Main definitions

* `Progress.Fits`: additions that stay below the end of a word, each made after those before it.
* `Worker.additions`: what a worker adds to its counters between two waits.

## Main results

* `Worker.count_of_wake`: these are all the additions that there are.
* `Worker.fits_additions`: all of them stay below the end of a word.
-/

namespace Volley

/-- One of the three counters of a worker. -/
inductive Counter where
  | attempted
  | sent
  | errors
  deriving DecidableEq, Repr

/-- A number of `events` that is added to a `counter`. -/
structure Addition where
  counter : Counter
  events : UInt64
  deriving DecidableEq, Repr

namespace Progress

/-- The value of a `Counter`. -/
def count (progress : Progress) : Counter → UInt64
  | .attempted => progress.attempted
  | .sent => progress.sent
  | .errors => progress.errors

/-- Makes an `Addition`. -/
def add (progress : Progress) (addition : Addition) : Progress :=
  match addition.counter with
  | .attempted => progress.addAttempted addition.events
  | .sent => progress.addSent addition.events
  | .errors => progress.addErrors addition.events

/-- Additions that keep their counters within `maxWord`, each made after those before it. -/
def Fits : List Addition → Progress → Prop
  | [], _ => True
  | addition :: rest, progress =>
    (progress.count addition.counter).toNat + addition.events.toNat ≤ maxWord ∧
      Fits rest (progress.add addition)

theorem fits_append {additions more : List Addition} {progress : Progress} :
    Fits (additions ++ more) progress ↔
      Fits additions progress ∧ Fits more (additions.foldl add progress) := by
  induction additions generalizing progress with
  | nil => simp only [List.nil_append, Fits, true_and, List.foldl_nil]
  | cons addition additions ih =>
    simp only [List.cons_append, Fits, ih, List.foldl_cons, and_assoc]

/-- The moment of `Progress.start` is no counter. -/
theorem add_start (progress : Progress) (now : Nat) (addition : Addition) :
    (progress.start now).add addition = (progress.add addition).start now := by
  obtain ⟨counter, events⟩ := addition
  cases counter <;> rfl

theorem count_start (progress : Progress) (now : Nat) (counter : Counter) :
    (progress.start now).count counter = progress.count counter := by
  cases counter <;> rfl

/-- After `Progress.start` the same additions come to the same counters. -/
theorem foldl_add_start (additions : List Addition) (progress : Progress) (now : Nat) :
    additions.foldl add (progress.start now) = (additions.foldl add progress).start now := by
  induction additions generalizing progress with
  | nil => rfl
  | cons addition additions ih => rw [List.foldl_cons, List.foldl_cons, add_start, ih]

/-- After `Progress.start` there is as much room for them. -/
theorem fits_start {additions : List Addition} {progress : Progress} {now : Nat} :
    Fits additions (progress.start now) ↔ Fits additions progress := by
  induction additions generalizing progress with
  | nil => exact Iff.rfl
  | cons addition additions ih => simp only [Fits, count_start, add_start, ih]

end Progress

/-- Events that are written off are added to `attempted` and to `errors`. -/
def Addition.writeOff (events : UInt64) : List Addition :=
  [⟨.attempted, events⟩, ⟨.errors, events⟩]

namespace Progress.Balanced

variable {progress : Progress} {count : UInt64} {flying remaining : Nat}

/-- There is room in `attempted` for the `events` of a write that begins. -/
theorem fits_attempted {events : Nat} (h : progress.Balanced count 0 (events + remaining)) :
    Fits [⟨.attempted, .ofNat events⟩] progress := by
  have hplanned := h.planned
  have hmax := toNat_le_maxWord count
  have hevents : (UInt64.ofNat events).toNat = events := toNat_ofNat_of_le (by omega)
  refine ⟨?_, trivial⟩
  simp only [Progress.count, hevents]
  omega

/-- There is room in `sent`, and in `errors`, for the events that are `flying`. -/
theorem fits_answered (h : progress.Balanced count flying remaining) :
    Fits [⟨.sent, .ofNat flying⟩] progress ∧ Fits [⟨.errors, .ofNat flying⟩] progress := by
  have hplanned := h.planned
  have hanswered := h.answered
  have hmax := toNat_le_maxWord count
  have hevents : (UInt64.ofNat flying).toNat = flying := toNat_ofNat_of_le (by omega)
  refine ⟨⟨?_, trivial⟩, ⟨?_, trivial⟩⟩
  · simp only [Progress.count, hevents]
    omega
  · simp only [Progress.count, hevents]
    omega

/-- There is room in `attempted` and in `errors` for everything that remains. -/
theorem fits_writeOff (h : progress.Balanced count 0 remaining) :
    Fits (Addition.writeOff (.ofNat remaining)) progress := by
  have hall : progress.Balanced count 0 (remaining + 0) := h
  exact ⟨hall.fits_attempted.1, hall.addAttempted.fits_answered.2⟩

end Progress.Balanced

/-! ## Runs -/

namespace Run

variable {σ : Type}

/-- What `Run.turn` adds to the counters: the events of the write, if it makes one. -/
def turnAdditions (clock : Clock) (run : Run σ) : List Addition :=
  match run.turn clock with
  | .write flight _ => [⟨.attempted, flight.events⟩]
  | .over => []
  | .failed _ => []

/-- What `Run.settle` adds to the counters: the events of the write to `sent` or to `errors`, and
what remains, if the session is lost with it. -/
def settleAdditions [Sink σ] (flight : Flight) (reply : Reply) (clock : Clock) (run : Run σ) :
    List Addition :=
  match reply with
  | .ok () => [⟨.sent, flight.events⟩]
  | .error _ =>
    if clock.stopped || Sink.isOpen clock run.sink then [⟨.errors, flight.events⟩]
    else ⟨.errors, flight.events⟩ :: Addition.writeOff (.ofNat run.plan.remaining)

/-- The counters after a `turn` that makes a write come of its `turnAdditions`. -/
theorem progress_of_turn {clock : Clock} {run flying : Run σ} {flight : Flight}
    (hturn : run.turn clock = .write flight flying) :
    flying.progress = (run.turnAdditions clock).foldl Progress.add run.progress := by
  obtain ⟨plan, -, -, rfl⟩ := exists_of_turn hturn
  rw [turnAdditions, hturn]
  rfl

/-- There is room for the `turnAdditions` of a run that is `Balanced`. -/
theorem fits_turnAdditions {run : Run σ} {count : UInt64} (clock : Clock)
    (h : run.progress.Balanced count 0 run.plan.remaining) :
    Progress.Fits (run.turnAdditions clock) run.progress := by
  unfold turnAdditions
  split
  · next flight flying hturn =>
    obtain ⟨plan, hnext, -, -⟩ := exists_of_turn hturn
    have hlength := Plan.remaining_add_length_of_next hnext
    rw [← hlength, Nat.add_comm] at h
    exact h.fits_attempted
  · trivial
  · trivial

variable [Sink σ]

/-- The counters after `settle` come of its `settleAdditions`. -/
theorem progress_settle (flight : Flight) (reply : Reply) (clock : Clock) (run : Run σ) :
    (run.settle flight reply clock).2.progress =
      (run.settleAdditions flight reply clock).foldl Progress.add run.progress := by
  cases reply with
  | ok => rfl
  | error cause =>
    simp only [settle, settleAdditions, Bool.or_eq_true]
    split
    · next hstopped =>
      rw [if_pos (.inl hstopped)]
      rfl
    · next hgoing =>
      split
      · next hopen =>
        rw [if_pos (.inr hopen)]
        rfl
      · next hclosed =>
        rw [if_neg (not_or.mpr ⟨hgoing, hclosed⟩)]
        rfl

/-- There is room for the `settleAdditions` of a run that is `Balanced`. -/
theorem fits_settleAdditions {flight : Flight} {run : Run σ} {count : UInt64} (reply : Reply)
    (clock : Clock)
    (h : run.progress.Balanced count flight.step.events.length run.plan.remaining) :
    Progress.Fits (run.settleAdditions flight reply clock) run.progress := by
  unfold settleAdditions
  split
  · exact h.fits_answered.1
  · split
    · exact h.fits_answered.2
    · exact Progress.fits_append.mpr ⟨h.fits_answered.2, h.addErrors.fits_writeOff⟩

end Run

/-! ## Workers -/

namespace Worker

variable {σ : Type} [Sink σ]

/-- What a worker adds to its counters in its `wake`, in order. -/
def additions (surroundings : Surroundings σ) (clock : Clock) (worker : Worker σ) :
    List Addition :=
  match worker.stage with
  | .connecting _ =>
    match (surroundings.dial worker.job).result with
    | .error _ => Addition.writeOff worker.job.spec.count
    | .ok session =>
      (Run.start worker.job.spec surroundings.timestamps session worker.progress
        clock).turnAdditions clock
  | .sending flight run since =>
    let run := { run with progress := worker.progress }
    let (reply, _, run) := run.submit flight { clock with now := since }
    run.settleAdditions flight reply clock ++
      match run.settle flight reply clock with
      | (.goOn, run) => if run.plan.spec.pace = .zero then run.turnAdditions clock else []
      | (.over, _) => []
      | (.lost, _) => []
  | .pausing run _ => ({ run with progress := worker.progress } : Run σ).turnAdditions clock
  | .queued => []
  | .closing _ _ _ => []
  | .gone _ => []
  | .dead _ => []

omit [Sink σ] in
/-- In `Worker.proceed` a worker makes the `turnAdditions` of its run. -/
theorem progress_proceed (clock : Clock) (worker : Worker σ) (run : Run σ) :
    (worker.proceed clock run).worker.progress =
      (run.turnAdditions clock).foldl Progress.add run.progress := by
  unfold proceed
  split
  · next flight flying hturn => exact Run.progress_of_turn hturn
  all_goals
    next hturn =>
      rw [Run.turnAdditions, hturn]
      rfl

/-- In `Worker.leave` a worker adds nothing. -/
theorem progress_leave (worker : Worker σ) (run : Run σ) (result : Except EncodingError Ending) :
    (worker.leave run result).worker.progress = worker.progress := by
  cases result <;> rfl

/-- A worker that has the answer to its write makes the `settleAdditions`. -/
theorem landed_progress (worker : Worker σ) (flight : Run.Flight) (reply : Reply) (clock : Clock)
    (plan : Plan) (sink : σ) :
    (Run.settle flight reply clock ⟨plan, sink, worker.progress⟩).2.progress =
      (Run.settleAdditions flight reply clock ⟨plan, sink, worker.progress⟩).foldl Progress.add
        worker.progress :=
  Run.progress_settle flight reply clock ⟨plan, sink, worker.progress⟩

/-- The `additions` of a worker are all that its `wake` does to its counters. -/
theorem count_of_wake {surroundings : Surroundings σ} {clock : Clock} {worker : Worker σ}
    {move : Move σ} (hwake : worker.wake surroundings clock = some move) (counter : Counter) :
    move.worker.progress.count counter =
      ((worker.additions surroundings clock).foldl Progress.add worker.progress).count counter := by
  cases hstage : worker.stage with
  | connecting since =>
    rw [wake, hstage] at hwake
    rw [additions, hstage]
    cases hdial : (surroundings.dial worker.job).result with
    | error cause =>
      simp only [hdial] at hwake ⊢
      cases hwake
      rfl
    | ok session =>
      simp only [hdial] at hwake ⊢
      cases hwake
      rw [progress_proceed]
      simp only [Run.start, Progress.foldl_add_start, Progress.count_start]
  | sending flight run since =>
    rw [wake, hstage] at hwake
    rw [additions, hstage]
    simp only [Run.submit_eq] at hwake ⊢
    -- First comes the answer to the write, and then, without a pace, the next write.
    rw [List.foldl_append, ← landed_progress]
    split at hwake
    · next settled hsettle =>
      cases hwake
      rw [hsettle]
      rfl
    · next settled hsettle =>
      cases hwake
      rw [hsettle, progress_leave]
      rfl
    · next settled hsettle =>
      rw [hsettle]
      simp only
      split at hwake
      · next hpace =>
        cases hwake
        rw [if_pos hpace, progress_proceed]
      · next hpace =>
        cases hwake
        rw [if_neg hpace]
        rfl
  | pausing run since =>
    rw [wake, hstage] at hwake
    rw [additions, hstage]
    cases hwake
    rw [progress_proceed]
  | closing result run since =>
    rw [wake, hstage] at hwake
    rw [additions, hstage]
    cases hwake
    rw [progress_leave]
    rfl
  -- In these stages a worker does not wake by itself.
  | queued | gone _ | dead _ =>
    rw [wake, hstage] at hwake
    cases hwake

/-- There is room for all `additions` of a worker that has its `Books` in order. -/
theorem fits_additions {worker : Worker σ} (surroundings : Surroundings σ) (clock : Clock)
    (h : worker.Books) :
    Progress.Fits (worker.additions surroundings clock) worker.progress := by
  obtain ⟨remaining, hbalanced, hleaves⟩ := h
  cases hstage : worker.stage with
  | connecting since =>
    rw [hstage] at hbalanced hleaves
    cases hleaves
    rw [additions, hstage]
    simp only
    split
    · have hoff := hbalanced.fits_writeOff
      rwa [UInt64.ofNat_toNat] at hoff
    · next session hdial =>
      let run : Run σ :=
        .start worker.job.spec surroundings.timestamps session worker.progress clock
      have hremaining : run.plan.remaining = worker.job.spec.count.toNat :=
        Plan.remaining_start ..
      have hbegun : run.progress.Balanced worker.job.spec.count 0 run.plan.remaining := by
        rw [hremaining]
        exact ⟨hbalanced.planned, hbalanced.answered⟩
      exact Progress.fits_start.mp (Run.fits_turnAdditions clock hbegun)
  | sending flight run since =>
    rw [hstage] at hbalanced hleaves
    cases hleaves
    rw [additions, hstage]
    simp only [Run.submit_eq]
    refine Progress.fits_append.mpr ⟨Run.fits_settleAdditions _ clock hbalanced, ?_⟩
    rw [← landed_progress]
    split
    · next settled hsettle =>
      obtain ⟨hnext, -⟩ := Run.balanced_of_settle hsettle hbalanced
      split
      · rw [hsettle]
        exact Run.fits_turnAdditions clock hnext
      · trivial
    · trivial
    · trivial
  | pausing run since =>
    rw [hstage] at hbalanced hleaves
    cases hleaves
    rw [additions, hstage]
    exact Run.fits_turnAdditions clock hbalanced
  | queued | closing _ _ _ | gone _ | dead _ =>
    rw [additions, hstage]
    trivial

end Worker

end Volley
