import Volley.Clock
import Volley.Duration

/-!
# Progress of a worker

The counters that a worker keeps while it runs: the events it has handed over or written off, those
that were sent and those that failed. The counters are 64-bit words that start over at their end.
Whoever ends the worker first may report its counters, and nobody else after that.
-/

namespace Volley

/-- The counters of one worker. -/
structure Progress where
  attempted : UInt64
  sent : UInt64
  errors : UInt64
  /-- When the worker started, once it has. -/
  startedAt : Option Nat
  /-- Whether somebody has taken the right to report the worker. -/
  claimed : Bool
  deriving DecidableEq, Repr

namespace Progress

/-- The counters of a worker that has not started. -/
def zero : Progress := ⟨0, 0, 0, none, false⟩

/-- Sets `startedAt` to `now`; only the first start counts. -/
def start (progress : Progress) (now : Nat) : Progress :=
  { progress with startedAt := some (progress.startedAt.getD now) }

def addAttempted (progress : Progress) (events : UInt64) : Progress :=
  { progress with attempted := progress.attempted + events }

def addSent (progress : Progress) (events : UInt64) : Progress :=
  { progress with sent := progress.sent + events }

def addErrors (progress : Progress) (events : UInt64) : Progress :=
  { progress with errors := progress.errors + events }

/-- The time from `startedAt` to `now`. -/
def elapsed (progress : Progress) (now : Nat) : Duration :=
  match progress.startedAt with
  | some start => .ofMillis (now - start)
  | none => .zero

/-- Asks for the right to report the worker. Only the first to ask gets it, and `claimed` is set. -/
def claim (progress : Progress) : Bool × Progress :=
  (!progress.claimed, { progress with claimed := true })

end Progress

end Volley
