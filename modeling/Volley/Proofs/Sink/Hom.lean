import Volley.Proofs.Run.Turns

/-!
# Maps between sinks

A map from one kind of sink to another may commute with everything that a run asks of its sink: with
writes and their answers, with the question whether the sink is open, and with closing it. A run
then goes over the image of a sink as it goes over the sink itself, and leaves the image of what it
would have left. Such a map may forget something that the first kind of sink knows, and no run can
tell.

## Main definitions

* `Sink.Hom`: a map that commutes with everything that a run asks of its sink.
* `Run.map`: a run with another sink.

## Main results

* `Run.toEnd_map`: runs to the end are taken to each other.
-/

namespace Volley

variable {σ τ : Type}

/-- A map between sinks that commutes with `isOpen`, `send`, `sendSplit` and `close`, which is all
that a `Run` asks of its sink. -/
structure Sink.Hom [Sink σ] [Sink τ] (f : σ → τ) : Prop where
  isOpen_eq : ∀ clock sink, Sink.isOpen clock (f sink) = Sink.isOpen clock sink
  send_eq : ∀ bytes clock sink,
    Sink.send bytes clock (f sink) = (Sink.send bytes clock sink).map id (Prod.map id f)
  sendSplit_eq : ∀ bytes cut clock sink,
    Sink.sendSplit bytes cut clock (f sink) =
      (Sink.sendSplit bytes cut clock sink).map id (Prod.map id f)
  close_eq : ∀ sink, Sink.close (f sink) = f (Sink.close sink)

namespace Run

/-- The `run` over the image of its sink under `f`. -/
def map (f : σ → τ) (run : Run σ) : Run τ :=
  ⟨run.plan, f run.sink, run.progress⟩

/-- The turn whose run, if any, is over the image of its sink under `f`. -/
def Turn.map (f : σ → τ) : Turn σ → Turn τ
  | .write flight run => .write flight (run.map f)
  | .over => .over
  | .failed cause => .failed cause

/-- Which `turn` comes next does not depend on the sink. -/
theorem turn_map (f : σ → τ) (clock : Clock) (run : Run σ) :
    (run.map f).turn clock = (run.turn clock).map f := by
  unfold turn map
  -- The turn is picked by the clock and the plan, which both runs share.
  split
  · rfl
  · simp only
    cases run.plan.next with
    | error cause => rfl
    | ok found =>
      cases found with
      | none => rfl
      | some pair =>
        simp only
        cases Event.encodeAll pair.1.events <;> rfl

variable [Sink σ] [Sink τ] {f : σ → τ}

theorem Flight.offer_map (hf : Sink.Hom f) (flight : Flight) (clock : Clock) (sink : σ) :
    flight.offer clock (f sink) = (flight.offer clock sink).map id (Prod.map id f) := by
  unfold offer
  split
  · exact hf.sendSplit_eq _ _ clock sink
  · exact hf.send_eq _ clock sink

theorem submit_map (hf : Sink.Hom f) (flight : Flight) (clock : Clock) (run : Run σ) :
    (run.map f).submit flight clock = (run.submit flight clock).map id (Prod.map id (map f)) := by
  have hoffer : flight.offer clock (run.map f).sink =
      (flight.offer clock run.sink).map id (Prod.map id f) := flight.offer_map hf clock run.sink
  rw [submit_eq, submit_eq, hoffer]
  rfl

theorem settle_map (hf : Sink.Hom f) (flight : Flight) (reply : Reply) (clock : Clock)
    (run : Run σ) :
    (run.map f).settle flight reply clock = (run.settle flight reply clock).map id (map f) := by
  cases reply with
  | ok _ => rfl
  | error e =>
    -- The sink is asked whether it is open only if the signal is not raised.
    cases hstopped : clock.stopped with
    | true =>
      simp only [settle, hstopped, if_true]
      rfl
    | false =>
      have hopen : Sink.isOpen clock (f run.sink) = Sink.isOpen clock run.sink :=
        hf.isOpen_eq clock run.sink
      cases hclosed : Sink.isOpen clock run.sink with
      | true =>
        simp only [settle, hstopped, map, hopen, hclosed, Bool.false_eq_true, if_false, if_true]
        rfl
      | false =>
        simp only [settle, hstopped, map, hopen, hclosed, Bool.false_eq_true, if_false]
        rfl

theorem close_map (hf : Sink.Hom f) (run : Run σ) : (run.map f).close = run.close.map f := by
  simp only [close, map, hf.close_eq]

/-- The outcome and the clock of `toEnd` are the same over the image of a sink under a `Sink.Hom`,
and the run that is left is the image. -/
theorem toEnd_map (hf : Sink.Hom f) (clock : Clock) (run : Run σ) :
    (run.map f).toEnd clock = (run.toEnd clock).map id (Prod.map id (map f)) := by
  induction hremaining : run.plan.remaining using Nat.strongRecOn generalizing run clock with
  | ind remaining ih =>
    rw [toEnd_eq clock (run.map f), toEnd_eq clock run, turn_map]
    cases hturn : run.turn clock with
    | «over» =>
      simp only [Turn.map, close_map hf]
      rfl
    | failed cause =>
      cases cause with
      | encoding cause =>
        simp only [Turn.map, close_map hf]
        rfl
      | payload cause => rfl
    | write flight flying =>
      have hlt := remaining_of_turn hturn
      rcases hsubmit : flying.submit flight clock with ⟨reply, later, landed⟩
      rcases hsettle : landed.settle flight reply later with ⟨outcome, settled⟩
      simp only [Turn.map, submit_map hf, hsubmit, Prod.map_apply, id_eq, settle_map hf, hsettle]
      cases outcome with
      | «over» =>
        simp only [close_map hf]
        rfl
      | lost =>
        simp only [close_map hf]
        rfl
      | goOn =>
        -- The plan is shorter after the write, so the rest of the run is taken along as well.
        have hplan := plan_of_landed hsubmit hsettle
        rw [← hplan, hremaining] at hlt
        exact ih _ hlt _ settled rfl

end Run

end Volley
