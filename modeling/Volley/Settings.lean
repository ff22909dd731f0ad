import Volley.Config
import Volley.Scenario.Catalog

/-!
# Settings of a load run

A configuration says what a user wants; settings are what a run can be started with: the sizes are
read, the scenarios are looked up, and every worker has a range of event ids of its own. From
settings follows one job per worker.
-/

namespace Volley

/-- An address of a receiver, as it is written. -/
abbrev Address := String

/-- Where a worker sends to, and with how much patience. -/
structure Target where
  /-- The address for streams. -/
  stream : Address
  /-- The address for datagrams. -/
  datagram : Address
  /-- The time that opening a stream may take. -/
  connectTimeout : Duration
  /-- The time that a write may take. -/
  ioTimeout : Duration
  /-- The pause after a failure of a supervised stream. -/
  backoff : Duration
  deriving DecidableEq, Repr

/-- What one worker does. -/
structure Job where
  workerId : UInt64
  spec : Scenario.Spec
  target : Target
  deriving DecidableEq

/-- The entries of the `names` in a comma-separated list, each by `find?`. The error is the first
name that is not in the catalogue. -/
def Scenario.Catalog.select (names : String) : Except String (List Entry) :=
  let rec go : List (List Char) → Except String (List Entry)
    | [] => .ok []
    | name :: rest =>
      match find? (String.ofList name) with
      | none => .error (String.ofList name)
      | some entry =>
        match go rest with
        | .error unknown => .error unknown
        | .ok entries => .ok (entry :: entries)
  go (Text.listItems names.toList)

/-- What a load run is started with. -/
structure Settings where
  workers : UInt32
  /-- The number of workers that run at the same time. -/
  poolSize : UInt32
  poolSize_ne_zero : poolSize ≠ 0
  /-- The scenarios, which the workers take in turn. -/
  scenarios : List Scenario.Entry
  scenarios_ne_nil : scenarios ≠ []
  params : Scenario.Params
  /-- The distance between the first event ids of two workers. -/
  idStride : UInt64
  /-- The time after which the run is stopped. -/
  deadline : Duration
  backoff : Duration
  ioTimeout : Duration

namespace Settings

/-- Why a configuration cannot be run. -/
inductive Error where
  | payloadSizes (cause : PayloadSizes.Error)
  | unknownScenario (name : String)
  | noScenario
  | zeroPoolSize
  | zeroWorkers
  /-- The ids of the last worker would be too large. -/
  | idSpaceOverflow (stride : UInt64) (workers : UInt32)
  deriving DecidableEq, Repr

/-- The wording of an `Error`. -/
def Error.message : Error → String
  | .payloadSizes cause => s!"invalid --payload-sizes: {cause.message}"
  | .unknownScenario name => "unknown scenario '" ++ name ++ "' (run `evstress list`)"
  | .noScenario => "no scenario selected"
  | .zeroPoolSize => "--pool-size must be at least 1"
  | .zeroWorkers => "--workers must be at least 1"
  | .idSpaceOverflow stride workers =>
    s!"--id-stride {stride} overflows event ids for {workers} workers"

/-- A stride that is at least `stride` and at least the `count` of each of the scenarios. -/
def widenStride (stride : UInt64) (scenarios : List Scenario.Entry) (params : Scenario.Params) :
    UInt64 :=
  scenarios.foldl (fun stride entry => max stride (entry.build entry.name params).count) stride

/-- The settings of a configuration that can be run. A `seed` of zero is replaced by `fallbackSeed`.
-/
def ofConfig (config : Config) (fallbackSeed : UInt64) : Except Error Settings :=
  if config.workers = 0 then .error .zeroWorkers
  else if hpool : config.poolSize = 0 then .error .zeroPoolSize
  else
    match PayloadSizes.parse config.payloadSizes with
    | .error cause => .error (.payloadSizes cause)
    | .ok sizes =>
      match Scenario.Catalog.select config.scenario with
      | .error name => .error (.unknownScenario name)
      | .ok scenarios =>
        if hscenarios : scenarios = [] then .error .noScenario
        else
          let params : Scenario.Params :=
            { events := config.eventsPerWorker
              sizes
              seed := if config.seed = 0 then fallbackSeed else config.seed
              pace := .ofMicros config.paceUs.toNat
              overflowCapacity := config.overflowCapacity
              duplicateInterval := config.duplicateInterval }
          let stride := widenStride config.idStride scenarios params
          if stride.toNat * config.workers.toNat ≤ maxWord then
            .ok {
              workers := config.workers
              poolSize := config.poolSize
              poolSize_ne_zero := hpool
              scenarios
              scenarios_ne_nil := hscenarios
              params
              idStride := stride
              deadline := .ofSecs config.timeoutSecs.toNat
              backoff := .ofMillis config.backoffMs.toNat
              ioTimeout := .ofMillis config.ioTimeoutMs.toNat }
          else .error (.idSpaceOverflow stride config.workers)

/-- The time that opening a stream may take. -/
def connectTimeout : Duration := .ofSecs 5

theorem scenarios_length_pos (settings : Settings) : 0 < settings.scenarios.length :=
  List.length_pos_iff.2 settings.scenarios_ne_nil

/-- The entry that `worker` takes: the workers take `scenarios` in turn. -/
def scenarioOf (settings : Settings) (worker : Nat) : Scenario.Entry :=
  settings.scenarios.get
    ⟨worker % settings.scenarios.length, Nat.mod_lt _ settings.scenarios_length_pos⟩

/-- What `worker` sends: the spec that `scenarioOf` builds, with a `seed` and an `idBase` of its
own. -/
def spec (settings : Settings) (worker : Nat) : Scenario.Spec :=
  let entry := settings.scenarioOf worker
  let params := { settings.params with seed := settings.params.seed + UInt64.ofNat worker }
  { entry.build entry.name params with
    idBase := saturate (worker * settings.idStride.toNat) }

/-- One `Job` for each worker, with the given addresses and the `spec` of the worker. -/
def jobs (settings : Settings) (stream datagram : Address) : List Job :=
  (List.range settings.workers.toNat).map fun worker =>
    { workerId := UInt64.ofNat worker
      spec := settings.spec worker
      target :=
        { stream
          datagram
          connectTimeout
          ioTimeout := settings.ioTimeout
          backoff := settings.backoff } }

end Settings

end Volley
