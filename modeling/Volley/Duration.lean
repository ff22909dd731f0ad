/-!
# Spans of time

A span of time in whole nanoseconds, with the units in which settings give it and reports show it.
-/

namespace Volley

/-- A span of time. -/
structure Duration where
  nanos : Nat
  deriving DecidableEq, Repr, Inhabited

namespace Duration

/-- No time at all. -/
def zero : Duration := ⟨0⟩

def ofSecs (n : Nat) : Duration := ⟨n * 1000000000⟩

def ofMillis (n : Nat) : Duration := ⟨n * 1000000⟩

def ofMicros (n : Nat) : Duration := ⟨n * 1000⟩

/-- The whole seconds of `nanos`. -/
def secs (d : Duration) : Nat := d.nanos / 1000000000

/-- The nanoseconds that `secs` leaves. -/
def subsecNanos (d : Duration) : Nat := d.nanos % 1000000000

/-- The milliseconds after which a timer of this span has run out: `nanos` rounded up. -/
def timerMillis (d : Duration) : Nat := (d.nanos + 999999) / 1000000

/-- The longer of two spans. -/
def max (a b : Duration) : Duration := ⟨Nat.max a.nanos b.nanos⟩

end Duration

end Volley
