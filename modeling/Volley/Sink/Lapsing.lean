import Volley.Sink.Basic

/-!
# A sink that ends by itself

Some peers hang up after a while without a failure that the sender could see. The wrapper closes its
sink right after a given number of successful submissions.
-/

namespace Volley

/-- A sink that may close by itself. -/
structure Lapsing (σ : Type) where
  inner : σ
  /-- The number of successful submissions after which the sink closes, if it does. -/
  lapseAfter : Option Nat
  /-- The number of successful submissions. -/
  submitted : Nat
  deriving DecidableEq, Repr

namespace Lapsing

variable {σ : Type} [Sink σ]

/-- Counts a submission if it succeeded, and closes `inner` if it was number `lapseAfter`. -/
def after (lapsing : Lapsing σ) : Reply × Clock × σ → Reply × Clock × Lapsing σ
  | (.error e, clock, inner) => (.error e, clock, { lapsing with inner })
  | (.ok (), clock, inner) =>
    let submitted := lapsing.submitted + 1
    let inner := if lapsing.lapseAfter = some submitted then Sink.close inner else inner
    (.ok (), clock, { lapsing with inner, submitted })

instance : Sink (Lapsing σ) where
  wire lapsing := Sink.wire lapsing.inner
  isOpen clock lapsing := Sink.isOpen clock lapsing.inner
  send bytes clock lapsing := lapsing.after (Sink.send bytes clock lapsing.inner)
  sendSplit bytes cut clock lapsing := lapsing.after (Sink.sendSplit bytes cut clock lapsing.inner)
  close lapsing := { lapsing with inner := Sink.close lapsing.inner }

end Lapsing

end Volley
