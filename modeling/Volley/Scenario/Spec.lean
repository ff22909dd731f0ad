import Volley.Duration
import Volley.Payload.Sizes
import Volley.Topic

/-!
# Scenarios

A scenario is a traffic pattern together with everything that fixes what one worker sends: how many
events, over which transport, with which topics, payload sizes, seed, pace and ids. Not every
combination makes sense; `Spec.validate` names the rule that one breaks.
-/

namespace Volley

namespace Scenario

/-- How the frames of one write are put on the wire. -/
inductive FragmentMode where
  /-- As two writes, cut at a random place. -/
  | split
  /-- As a single write. -/
  | sticky
  deriving DecidableEq, Repr

/-- The traffic pattern of a scenario. -/
inductive Strategy where
  /-- Every pair of a tier and a topic in turn, each for `repeats` events. -/
  | sweep (repeats : UInt32)
  /-- Tiers and topics in rotation. -/
  | burst
  /-- A burst in which the first of every `interval` fresh events is sent again. -/
  | duplicates (interval : UInt32)
  /-- A burst with several frames in one write. -/
  | fragmented (frames : UInt64) (mode : FragmentMode)
  /-- More events of one tier than a receiver's queue of this capacity holds. -/
  | overflow (priority : Priority) (capacity : UInt64)
  /-- Tier, topic and payload size at random. -/
  | chaos
  /-- Topics in rotation, each with its conventional tier. -/
  | tiered
  deriving DecidableEq, Repr

/-- What a scenario runs over. -/
inductive Transport where
  /-- One connection, whose first failure ends the run. -/
  | stream
  /-- A connection that is opened again after a failure. -/
  | supervised
  /-- One datagram per frame. -/
  | datagram
  /-- A connection and datagrams by turns. -/
  | mixed
  deriving DecidableEq, Repr

/-- Whether all frames travel on an ordered stream of bytes: `stream` or `supervised`. -/
def Transport.isStream : Transport → Bool
  | stream => true
  | supervised => true
  | datagram => false
  | mixed => false

/-- Everything that fixes what one worker sends. -/
structure Spec where
  /-- The name that reports use. -/
  name : String
  strategy : Strategy
  transport : Transport
  /-- The number of events, those sent again included. -/
  count : UInt64
  sizes : PayloadSizes
  topics : TopicSet
  /-- Fixes every random choice. -/
  seed : UInt64
  /-- The pause after each write. -/
  pace : Duration
  /-- The id of the first event. -/
  idBase : UInt64
  deriving DecidableEq

/-- A rule of `validate` that a `Spec` breaks. -/
inductive Error where
  | fragmentationNeedsStream (name : String)
  | tooFewFramesPerWrite (name : String) (frames : UInt64)
  | overflowBelowCapacity (name : String) (count capacity : UInt64)
  | partialSweep (name : String) (count : UInt64) (pass : Nat)
  | singleFragment (name : String)
  | zeroPeriod (name : String)
  deriving DecidableEq, Repr

/-- The wording of an `Error`. -/
def Error.message : Error → String
  | .fragmentationNeedsStream name =>
    s!"scenario {Text.quoted name}: fragmented writes require a stream transport"
  | .tooFewFramesPerWrite name frames =>
    s!"scenario {Text.quoted name}: frames per write must be at least 2, got {frames}"
  | .overflowBelowCapacity name count capacity =>
    s!"scenario {Text.quoted name}: overflow count {count} does not exceed capacity {capacity}"
  | .partialSweep name count pass =>
    s!"scenario {Text.quoted name}: sweep count {count} is not a multiple of {pass} events per pass"
  | .singleFragment name =>
    s!"scenario {Text.quoted name}: fragmented writes need at least 2 events"
  | .zeroPeriod name =>
    s!"scenario {Text.quoted name}: repeats and intervals must be positive"

namespace Spec

/-- The events of one pass of a sweep: each of `pairs` for its number of `repeats`. -/
def pass (spec : Spec) (repeats : UInt32) : Nat :=
  spec.topics.pairs * repeats.toNat

/-- Checks the rules that `spec` has to keep for its strategy. -/
def validate (spec : Spec) : Except Error Unit :=
  match spec.strategy with
  | .fragmented frames _ =>
    if !spec.transport.isStream then .error (.fragmentationNeedsStream spec.name)
    else if frames < 2 then .error (.tooFewFramesPerWrite spec.name frames)
    else if spec.count = 1 then .error (.singleFragment spec.name)
    else .ok ()
  | .overflow _ capacity =>
    if spec.count ≤ capacity then .error (.overflowBelowCapacity spec.name spec.count capacity)
    else .ok ()
  | .sweep repeats =>
    if repeats = 0 then .error (.zeroPeriod spec.name)
    else if spec.count.toNat % spec.pass repeats ≠ 0 then
      .error (.partialSweep spec.name spec.count (spec.pass repeats))
    else .ok ()
  | .duplicates interval => if interval = 0 then .error (.zeroPeriod spec.name) else .ok ()
  | .burst => .ok ()
  | .chaos => .ok ()
  | .tiered => .ok ()

end Spec

end Scenario

end Volley
