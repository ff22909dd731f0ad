import Volley.Clock

/-!
# The stop signal

A handle raises the signal, any number of observers see it. An observer outlives its handle: once
the handle is gone the signal stays as it was, and nobody can raise it any more.

Runs, supervisors and pools read the signal off their `Clock`, as `Clock.stopped` and
`Clock.waitOrStop`. That this is what an observer of a `Stop` sees and waits for is proved in
`Volley.Proofs.Stop`.
-/

namespace Volley

namespace Stop

/-- What an observer watches. -/
inductive Observer where
  /-- The signal of the handle. -/
  | linked
  /-- A signal that nobody can raise. -/
  | never
  deriving DecidableEq, Repr

end Stop

/-- A handle, its signal, and the observers there are. -/
structure Stop where
  /-- Whether the signal has been raised. -/
  raised : Bool
  /-- Whether the handle still exists. -/
  held : Bool
  observers : List Stop.Observer
  deriving DecidableEq, Repr

namespace Stop

/-- A handle with a lowered signal and one observer. -/
def channel : Stop := ⟨false, true, [.linked]⟩

/-- Sets `raised`, if the handle is still `held`. The answer is whether it was. -/
def raise (stop : Stop) : Bool × Stop :=
  (stop.held, { stop with raised := stop.raised || stop.held })

/-- Adds an observer that is `linked`, if there is a handle to get it from. -/
def subscribe (stop : Stop) : Stop :=
  if stop.held then { stop with observers := stop.observers ++ [.linked] } else stop

/-- Adds an observer of what the one at `index` watches. -/
def clone (stop : Stop) (index : Nat) : Stop :=
  { stop with observers := stop.observers ++ (stop.observers[index]?).toList }

/-- Adds an observer that `never` sees anything. -/
def addNever (stop : Stop) : Stop :=
  { stop with observers := stop.observers ++ [.never] }

/-- Gives up the handle: it is no longer `held`. -/
def dropHandle (stop : Stop) : Stop :=
  { stop with held := false }

/-- Whether the observer at `index` sees the signal `raised`. -/
def sees (stop : Stop) (index : Nat) : Bool :=
  match stop.observers[index]? with
  | some .linked => stop.raised
  | _ => false

/-- Waits until an observer sees the signal, for at most `span`. The answer is whether it did. -/
def wait (stop : Stop) (index span : Nat) (clock : Clock) : Bool × Clock :=
  if stop.sees index then (true, clock) else (false, clock.advance span)

end Stop

end Volley
