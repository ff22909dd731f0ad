import Volley.Sink.Basic

/-!
# A sink that raises the stop signal

The wrapper raises the signal as soon as a given number of submissions have returned, whether they
succeeded or not.
-/

namespace Volley

/-- A sink that may raise the stop signal. -/
structure Tripwire (σ : Type) where
  inner : σ
  /-- The number of submissions after which the signal is raised, if it is. -/
  raiseAfter : Option Nat
  /-- The number of submissions that have returned. -/
  returned : Nat
  deriving DecidableEq, Repr

namespace Tripwire

variable {σ : Type} [Sink σ]

/-- Counts a submission that has returned, and raises the signal by `Clock.raise` if it was number
`raiseAfter`. -/
def after (tripwire : Tripwire σ) : Reply × Clock × σ → Reply × Clock × Tripwire σ
  | (reply, clock, inner) =>
    let returned := tripwire.returned + 1
    let clock := if tripwire.raiseAfter = some returned then clock.raise else clock
    (reply, clock, { tripwire with inner, returned })

instance : Sink (Tripwire σ) where
  wire tripwire := Sink.wire tripwire.inner
  isOpen clock tripwire := Sink.isOpen clock tripwire.inner
  send bytes clock tripwire := tripwire.after (Sink.send bytes clock tripwire.inner)
  sendSplit bytes cut clock tripwire :=
    tripwire.after (Sink.sendSplit bytes cut clock tripwire.inner)
  close tripwire := { tripwire with inner := Sink.close tripwire.inner }

end Tripwire

end Volley
