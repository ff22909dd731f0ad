import Volley.Proofs.Sink.Hom

/-!
# Sinks with a log

A sink can keep a log of what is asked of it, with the answers that it gives, beside whatever it
does anyway. A run does not notice the log: it ends in the same way, at the same time and with the
same counters, and it leaves the same sink (`Run.toEnd_unlogged`). So what the log of a run says is
what the run asks of its sink, whichever sink that is.

## Main definitions

* `Call`: what is asked of a sink, and how it answers.
* `Logged`: a sink and its log.
* `Run.unlogged`: a run without the log of its sink.

## Main results

* `Logged.hom_sink`: leaving out the log commutes with everything that a run asks of its sink.
* `Run.Flight.offer_logged`: a write is logged once.
* `Run.toEnd_unlogged`: a run is the same with and without the log.
-/

namespace Volley

/-- Something that is asked of a sink. Of a write the log holds the `reply`, and whether the sink
said right after it, by `isOpen`, that a later write could still succeed. -/
inductive Call where
  | send (bytes : Bytes) (reply : Reply) (isOpen : Bool)
  | sendSplit (bytes : Bytes) (cut : Nat) (reply : Reply) (isOpen : Bool)
  | close

/-- A sink and the `calls` of it, in order. -/
structure Logged (σ : Type) where
  sink : σ
  calls : List Call

variable {σ : Type}

namespace Logged

/-- A sink with no `calls` so far. -/
def new (sink : σ) : Logged σ :=
  ⟨sink, []⟩

instance [Sink σ] : Sink (Logged σ) where
  wire logged := Sink.wire logged.sink
  isOpen clock logged := Sink.isOpen clock logged.sink
  send bytes clock logged :=
    let (reply, later, sink) := Sink.send bytes clock logged.sink
    (reply, later, ⟨sink, logged.calls ++ [.send bytes reply (Sink.isOpen later sink)]⟩)
  sendSplit bytes cut clock logged :=
    let (reply, later, sink) := Sink.sendSplit bytes cut clock logged.sink
    (reply, later, ⟨sink, logged.calls ++ [.sendSplit bytes cut reply (Sink.isOpen later sink)]⟩)
  close logged := ⟨Sink.close logged.sink, logged.calls ++ [.close]⟩

/-- No run can tell whether a sink is `Logged`: the sink in it answers as it does. -/
theorem hom_sink [Sink σ] : Sink.Hom (Logged.sink (σ := σ)) where
  isOpen_eq _ _ := rfl
  send_eq _ _ _ := rfl
  sendSplit_eq _ _ _ _ := rfl
  close_eq _ := rfl

end Logged

namespace Run

/-- The `Call` of a sink for a write. -/
def Flight.call (flight : Flight) (reply : Reply) (isOpen : Bool) : Call :=
  match flight.step.shape with
  | .split cut => .sendSplit flight.bytes cut reply isOpen
  | _ => .send flight.bytes reply isOpen

/-- A run without the `calls` of its sink. -/
def unlogged (run : Run (Logged σ)) : Run σ :=
  ⟨run.plan, run.sink.sink, run.progress⟩

variable [Sink σ]

/-- A sink that is `Logged` takes a write as it does without, and puts it at the end of its `calls`.
-/
theorem Flight.offer_logged (flight : Flight) (clock : Clock) (logged : Logged σ) :
    flight.offer clock logged =
      match flight.offer clock logged.sink with
      | (reply, later, sink) =>
        (reply, later, ⟨sink, logged.calls ++ [flight.call reply (Sink.isOpen later sink)]⟩) := by
  unfold offer call
  cases flight.step.shape <;> rfl

/-- By `Run.toEnd`, a run is the same when it is `unlogged`. -/
theorem toEnd_unlogged (clock : Clock) (run : Run (Logged σ)) :
    run.unlogged.toEnd clock =
      match run.toEnd clock with
      | (result, later, final) => (result, later, final.unlogged) :=
  toEnd_map Logged.hom_sink clock run

end Run

end Volley
