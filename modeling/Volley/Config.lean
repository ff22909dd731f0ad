/-!
# Configuration

What a user can set for a load run. Every field has a default; a value from outside is given to a
field by its key, and is refused if it is of the wrong kind or out of the field's range.
-/

namespace Volley

/-- What a user can set for a load run. -/
structure Config where
  /-- The host name or address of the receiver. -/
  host : String := "127.0.0.1"
  /-- The port for streams. -/
  tcpPort : UInt16 := 9000
  /-- The port for datagrams. -/
  udpPort : UInt16 := 9001
  /-- The number of workers. -/
  workers : UInt32 := 10
  /-- The number of workers that run at the same time. -/
  poolSize : UInt32 := 10
  /-- The number of events that each worker is asked for. -/
  eventsPerWorker : UInt64 := 1000
  /-- A comma-separated list of payload sizes. -/
  payloadSizes : String := "256"
  /-- A comma-separated list of scenario names. -/
  scenario : String := "sweep"
  /-- Fixes the random choices of the run; zero leaves it to the clock. -/
  seed : UInt64 := 0
  /-- The time after which the run is stopped, in seconds. -/
  timeoutSecs : UInt64 := 300
  /-- The pause after a failure of a supervised stream, in milliseconds. -/
  backoffMs : UInt64 := 1000
  /-- The time that a write may take, in milliseconds. -/
  ioTimeoutMs : UInt64 := 5000
  /-- The pause between writes, in microseconds. -/
  paceUs : UInt64 := 0
  /-- The capacity of the receiver's queue. -/
  overflowCapacity : UInt64 := 16384
  /-- The number of fresh events between two that are sent again. -/
  duplicateInterval : UInt32 := 10
  /-- The distance between the first event ids of two workers. -/
  idStride : UInt64 := 10000
  deriving DecidableEq, Repr

namespace Config

/-- A value from outside. -/
inductive Value where
  | text (content : String)
  | integer (n : Int)
  /-- A value that no field takes. -/
  | foreign
  deriving DecidableEq, Repr

/-- The name of a field. -/
inductive Key where
  | host
  | tcpPort
  | udpPort
  | workers
  | poolSize
  | eventsPerWorker
  | payloadSizes
  | scenario
  | seed
  | timeoutSecs
  | backoffMs
  | ioTimeoutMs
  | paceUs
  | overflowCapacity
  | duplicateInterval
  | idStride
  deriving DecidableEq, Repr

namespace Key

/-- Every key. -/
def all : List Key :=
  [host, tcpPort, udpPort, workers, poolSize, eventsPerWorker, payloadSizes, scenario, seed,
   timeoutSecs, backoffMs, ioTimeoutMs, paceUs, overflowCapacity, duplicateInterval, idStride]

/-- The words of a `Key`, which `name` and `option` put together. -/
def words : Key → List String
  | host => ["host"]
  | tcpPort => ["tcp", "port"]
  | udpPort => ["udp", "port"]
  | workers => ["workers"]
  | poolSize => ["pool", "size"]
  | eventsPerWorker => ["events", "per", "worker"]
  | payloadSizes => ["payload", "sizes"]
  | scenario => ["scenario"]
  | seed => ["seed"]
  | timeoutSecs => ["timeout", "secs"]
  | backoffMs => ["backoff", "ms"]
  | ioTimeoutMs => ["io", "timeout", "ms"]
  | paceUs => ["pace", "us"]
  | overflowCapacity => ["overflow", "capacity"]
  | duplicateInterval => ["duplicate", "interval"]
  | idStride => ["id", "stride"]

/-- A `Key` as it stands in a file, and in the name of an environment variable: its `words` with
underscores. -/
def name (key : Key) : String :=
  String.intercalate "_" key.words

/-- A `Key` as it stands on a command line, without the dashes before it: its `words` with hyphens.
-/
def option (key : Key) : String :=
  String.intercalate "-" key.words

/-- The `Key` with this `name`. -/
def ofName? (name : String) : Option Key :=
  all.find? (·.name = name)

/-- The `Key` with this `option`. -/
def ofOption? (option : String) : Option Key :=
  all.find? (·.option = option)

/-- What the numbers that a field takes lie below; `none` for a field that takes text. -/
def bound? : Key → Option Nat
  | host => none
  | tcpPort => some UInt16.size
  | udpPort => some UInt16.size
  | workers => some UInt32.size
  | poolSize => some UInt32.size
  | eventsPerWorker => some UInt64.size
  | payloadSizes => none
  | scenario => none
  | seed => some UInt64.size
  | timeoutSecs => some UInt64.size
  | backoffMs => some UInt64.size
  | ioTimeoutMs => some UInt64.size
  | paceUs => some UInt64.size
  | overflowCapacity => some UInt64.size
  | duplicateInterval => some UInt32.size
  | idStride => some UInt64.size

theorem mem_all (key : Key) : key ∈ all := by
  cases key <;> decide

end Key

/-- The number below `bound` that a field takes from a value. -/
def Value.number? (bound : Nat) : Value → Option Nat
  | integer n => if 0 ≤ n ∧ n.toNat < bound then some n.toNat else none
  | text _ => none
  | foreign => none

/-- The text that a field takes from a `Value`. -/
def Value.text? : Value → Option String
  | text content => some content
  | integer _ => none
  | foreign => none

/-- Gives a value to a field; `none` if the field does not take it. -/
def set? (config : Config) (key : Key) (value : Value) : Option Config :=
  match key with
  | .host => value.text?.map fun text => { config with host := text }
  | .tcpPort => (value.number? UInt16.size).map fun n => { config with tcpPort := UInt16.ofNat n }
  | .udpPort => (value.number? UInt16.size).map fun n => { config with udpPort := UInt16.ofNat n }
  | .workers => (value.number? UInt32.size).map fun n => { config with workers := UInt32.ofNat n }
  | .poolSize => (value.number? UInt32.size).map fun n => { config with poolSize := UInt32.ofNat n }
  | .eventsPerWorker =>
    (value.number? UInt64.size).map fun n => { config with eventsPerWorker := UInt64.ofNat n }
  | .payloadSizes => value.text?.map fun text => { config with payloadSizes := text }
  | .scenario => value.text?.map fun text => { config with scenario := text }
  | .seed => (value.number? UInt64.size).map fun n => { config with seed := UInt64.ofNat n }
  | .timeoutSecs =>
    (value.number? UInt64.size).map fun n => { config with timeoutSecs := UInt64.ofNat n }
  | .backoffMs =>
    (value.number? UInt64.size).map fun n => { config with backoffMs := UInt64.ofNat n }
  | .ioTimeoutMs =>
    (value.number? UInt64.size).map fun n => { config with ioTimeoutMs := UInt64.ofNat n }
  | .paceUs => (value.number? UInt64.size).map fun n => { config with paceUs := UInt64.ofNat n }
  | .overflowCapacity =>
    (value.number? UInt64.size).map fun n => { config with overflowCapacity := UInt64.ofNat n }
  | .duplicateInterval =>
    (value.number? UInt32.size).map fun n => { config with duplicateInterval := UInt32.ofNat n }
  | .idStride => (value.number? UInt64.size).map fun n => { config with idStride := UInt64.ofNat n }

/-- The `Value` of the field of a `Key`. -/
def get (config : Config) : Key → Value
  | .host => .text config.host
  | .tcpPort => .integer config.tcpPort.toNat
  | .udpPort => .integer config.udpPort.toNat
  | .workers => .integer config.workers.toNat
  | .poolSize => .integer config.poolSize.toNat
  | .eventsPerWorker => .integer config.eventsPerWorker.toNat
  | .payloadSizes => .text config.payloadSizes
  | .scenario => .text config.scenario
  | .seed => .integer config.seed.toNat
  | .timeoutSecs => .integer config.timeoutSecs.toNat
  | .backoffMs => .integer config.backoffMs.toNat
  | .ioTimeoutMs => .integer config.ioTimeoutMs.toNat
  | .paceUs => .integer config.paceUs.toNat
  | .overflowCapacity => .integer config.overflowCapacity.toNat
  | .duplicateInterval => .integer config.duplicateInterval.toNat
  | .idStride => .integer config.idStride.toNat

theorem Value.text?_eq_some {value : Value} {content : String}
    (h : value.text? = some content) : value = .text content := by
  cases value with
  | text => exact congrArg Value.text (Option.some.inj h)
  | integer => cases h
  | foreign => cases h

theorem Value.number?_eq_some {value : Value} {bound n : Nat} (h : value.number? bound = some n) :
    value = .integer n ∧ n < bound := by
  cases value with
  | text => cases h
  | integer m =>
    simp only [number?, Option.ite_none_right_eq_some, Option.some.injEq] at h
    obtain ⟨⟨hm, hn⟩, rfl⟩ := h
    exact ⟨by rw [Int.toNat_of_nonneg hm], hn⟩
  | foreign => cases h

/-- After `set?` of a value, `get` returns it. -/
theorem get_of_set? {config later : Config} {key : Key} {value : Value}
    (h : config.set? key value = some later) : later.get key = value := by
  cases key <;> obtain ⟨_, taken, rfl⟩ := Option.map_eq_some_iff.1 h
  case host | payloadSizes | scenario => exact (Value.text?_eq_some taken).symm
  all_goals
    obtain ⟨rfl, hn⟩ := Value.number?_eq_some taken
    exact congrArg (fun number : Nat => Value.integer number) (Nat.mod_eq_of_lt hn)

/-- By `set?` the fields of other keys stay as they were. -/
theorem get_of_set?_of_ne {config later : Config} {key other : Key} {value : Value}
    (h : config.set? key value = some later) (hne : other ≠ key) :
    later.get other = config.get other := by
  cases key <;> obtain ⟨_, _, rfl⟩ := Option.map_eq_some_iff.1 h <;> cases other <;>
    first | rfl | exact absurd rfl hne

/-- Values for some of the fields. Of several for one `Key` the first counts. -/
abbrev Layer := List (Key × Value)

/-- The defaults with a layer over them; `none` if some field does not take its value. -/
def ofLayer (layer : Layer) : Option Config :=
  Key.all.foldlM (fun config key =>
    match layer.lookup key with
    | some value => config.set? key value
    | none => some config) {}

/-- The configuration of several layers, the ones that count more first, by `ofLayer`. A value that
is hidden by one of its `Key` before it does no harm, whatever it is. -/
def ofLayers (layers : List Layer) : Option Config :=
  ofLayer layers.flatten

end Config

end Volley
