import Volley.Saturate
import Volley.Scenario.Spec

/-!
# The scenario catalogue

The scenarios that can be selected by name. An entry turns the knobs that all scenarios share into
a complete scenario; the ids then start at zero until a worker gets its own range.
-/

namespace Volley.Scenario

/-- The knobs that all scenarios share. -/
structure Params where
  /-- The number of events that each worker is asked for. -/
  events : UInt64
  sizes : PayloadSizes
  seed : UInt64
  pace : Duration
  /-- The capacity of the receiver's queue. -/
  overflowCapacity : UInt64
  /-- The number of fresh events between two that are sent again. -/
  duplicateInterval : UInt32
  deriving DecidableEq

/-- A scenario that can be selected by name. -/
structure Entry where
  name : String
  /-- What the scenario should do to the receiver, for those who read the receiver's log. -/
  effect : String
  /-- The scenario of this name for the given knobs. -/
  build : String → Params → Spec

namespace Catalog

/-- What the entries have in common: `params.events` events on a stream, with plain topics. -/
def base (strategy : Strategy) (name : String) (params : Params) : Spec where
  name
  strategy
  transport := .stream
  count := params.events
  sizes := params.sizes
  topics := .load
  seed := params.seed
  pace := params.pace
  idBase := 0

/-- Whole passes over every pair, as many as it takes to plan `params.events`, and as many as the
`repeats` of a pair can say. -/
def sweep (name : String) (params : Params) : Spec :=
  let pairs := TopicSet.all.pairs
  let passes := (params.events.toNat + pairs - 1) / pairs
  let repeats := min (max passes 1) 0xFFFFFFFF
  { base (.sweep (UInt32.ofNat repeats)) name params with
    topics := .all
    count := saturate (pairs * min passes repeats) }

/-- At least `params.events`, and a quarter more than the `capacity`. -/
def overflow (name : String) (params : Params) : Spec :=
  let capacity := params.overflowCapacity
  let beyond := max (saturate (capacity.toNat + capacity.toNat / 4)) (saturate (capacity.toNat + 1))
  { base (.overflow .high capacity) name params with
    topics := .realtime
    count := max params.events beyond }

/-- A burst over a supervised connection, slow enough to see it being opened again. -/
def reconnect (name : String) (params : Params) : Spec :=
  { base .burst name params with
    transport := .supervised
    pace := params.pace.max (.ofMillis 10) }

/-- Every scenario, in the order in which they are listed. -/
def entries : List Entry :=
  [{ name := "sweep"
     effect := "every priority/topic pair is accepted and routed to its tier queue"
     build := sweep },
   { name := "burst"
     effect := "sustained TCP throughput; no parse errors, queues drain"
     build := base .burst },
   { name := "duplicates"
     effect := "repeated event ids are detected or processed idempotently"
     build := fun name params => base (.duplicates params.duplicateInterval) name params },
   { name := "fragmented"
     effect := "frames split across writes are reassembled intact"
     build := base (.fragmented 2 .split) },
   { name := "sticky"
     effect := "several frames in one write are all parsed"
     build := base (.fragmented 3 .sticky) },
   { name := "overflow"
     effect := "HIGH queue overflows; the receiver drops or applies backpressure"
     build := overflow },
   { name := "chaos"
     effect := "random tiers, topics and sizes are parsed without errors"
     build := fun name params => { base .chaos name params with topics := .all } },
   { name := "tiered"
     effect := "realtime, transactional and batch topics land in their conventional tiers"
     build := fun name params => { base .tiered name params with topics := .all } },
   { name := "reconnect"
     effect := "the harness reconnects after receiver restarts; gaps show as errors"
     build := reconnect },
   { name := "udp-burst"
     effect := "UDP frames are parsed one per datagram; losses are not reported"
     build := fun name params => { base .burst name params with transport := .datagram } },
   { name := "udp-chaos"
     effect := "random UDP traffic is parsed; oversize datagrams are rejected locally"
     build := fun name params =>
       { base .chaos name params with transport := .datagram, topics := .all } },
   { name := "mixed"
     effect := "TCP and UDP ingress interleave without cross-talk"
     build := fun name params => { base .burst name params with transport := .mixed } }]

/-- The entry of this `name`. -/
def find? (name : String) : Option Entry :=
  entries.find? (·.name = name)

/-- A text brought to at least `width` characters by spaces behind it. -/
def padded (width : Nat) (text : String) : String :=
  text ++ String.ofList (List.replicate (width - text.length) ' ')

/-- One line for each of `entries`: its name, `padded`, and what it should do. -/
def listing : String :=
  String.join (entries.map fun entry => s!"{padded 12 entry.name} {entry.effect}\n")

end Catalog

/-- The spec that the entry called `name` builds of `params`. -/
def build? (name : String) (params : Params) : Option Spec :=
  (Catalog.find? name).map fun entry => entry.build entry.name params

end Volley.Scenario
