import Volley.CommandLine.Invocation
import Volley.Network
import Volley.Pool.Schedule

/-!
# Execution

What carrying out an invocation comes to: what is printed, the fault that ended it if there was one,
and otherwise whether every worker kept its connection. From these follows the exit status.
-/

namespace Volley.CommandLine

/-- What an execution finds around it. -/
structure Environs where
  network : Network
  /-- The times that events are stamped with. -/
  timestamps : Nat → Int
  /-- The seed of a run that has none. -/
  fallbackSeed : UInt64

/-- The addresses of a receiver. -/
structure Receiver where
  stream : Address
  datagram : Address
  deriving DecidableEq, Repr

/-- The receiver that `config` names, one host with a port for streams and one for datagrams. -/
def Receiver.ofConfig (config : Config) : Receiver :=
  ⟨s!"{config.host}:{config.tcpPort}", s!"{config.host}:{config.udpPort}"⟩

/-- Why an execution came to nothing. -/
inductive Fault where
  /-- The environment cannot be read. -/
  | environment
  /-- The configuration cannot be loaded. -/
  | configuration
  /-- The configuration cannot be run. -/
  | settings (cause : Settings.Error)
  /-- The run has no totals. -/
  | pool (cause : Pool.Failure)
  deriving DecidableEq, Repr

/-- The wording of a fault. -/
def Fault.message : Fault → String
  | environment => "a variable of the environment is cut inside a character"
  | configuration => Invocation.configurationFault
  | settings cause => cause.message
  | pool cause => cause.message

/-- What an execution comes to. -/
structure Execution where
  /-- What is printed. -/
  output : String
  /-- Whether every worker kept its connection. -/
  held : Except Fault Bool
  /-- The workers as the run left them. -/
  workers : List (Worker Session)

namespace Execution

/-- An `Execution` that a fault ends before anything is done. -/
def ofFault (fault : Fault) : Execution :=
  ⟨"", .error fault, []⟩

/-- The exit status of an `Execution`: 0 if every connection was `held`, 101 for a torn environment,
which aborts the program, else 1. -/
def status (execution : Execution) : Nat :=
  match execution.held with
  | .ok true => 0
  | .ok false => 1
  | .error .environment => 101
  | .error _ => 1

/-- A load run: `Pool.run` with the jobs of `settings`, over sessions that `Network.dial` opens. -/
def ofSettings (environs : Environs) (receiver : Receiver) (settings : Settings) : Execution :=
  let deadline := settings.deadline.timerMillis
  let policy : Pool.Policy := { size := settings.poolSize.toNat, deadline }
  let surroundings : Surroundings Session :=
    ⟨environs.network.dial deadline, environs.timestamps⟩
  let jobs := settings.jobs receiver.stream receiver.datagram
  let (totals, _, pool) := Pool.run policy surroundings .zero jobs
  { output := ""
    held := match totals with
      | .ok tally => .ok tally.connectionsHeld
      | .error cause => .error (.pool cause)
    workers := pool.workers }

/-- Carries out an `invocation`: `Scenario.Catalog.listing` is printed, or the configuration becomes
`Settings` and is run by `ofSettings`. -/
def ofInvocation (environs : Environs) (receiver : Receiver) (invocation : Invocation) :
    Execution :=
  match invocation.command with
  | some .list => ⟨Scenario.Catalog.listing, .ok true, []⟩
  | none =>
    match Settings.ofConfig invocation.config environs.fallbackSeed with
    | .error cause => ofFault (.settings cause)
    | .ok settings => ofSettings environs receiver settings

end Execution

/-- What the program prints when it is asked for its version. -/
def versionText : String := "cli-defs 0.1.0\n"

/-- The exit status and the `Execution` of the program: `Invocation.load` reads what is to be done,
and `ofInvocation` does it. Arguments that end the program leave nothing to execute. -/
def runProgram (environs : Environs) (receiver : Config → Receiver) (arguments : List String)
    (environment : List (String × String)) (file : Option String) : Nat × Execution :=
  let carriedOut (execution : Execution) : Nat × Execution := (execution.status, execution)
  match Invocation.load arguments environment file with
  | .error (.arguments halt) =>
    (halt.status, ⟨if halt = .versionRequested then versionText else "", .ok true, []⟩)
  | .error .environment => carriedOut (.ofFault .environment)
  | .error .configuration => carriedOut (.ofFault .configuration)
  | .ok invocation =>
    carriedOut (.ofInvocation environs (receiver invocation.config) invocation)

end Volley.CommandLine
