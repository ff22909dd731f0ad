import Volley.CommandLine.Arguments
import Volley.CommandLine.Environment
import Volley.Toml.Document
import Volley.Toml.Reserved

/-!
# Invocation

What a user wants, from all the places where it can be said: the options of the command line count
most, then the environment, then the configuration file, then the defaults. A command is carried out
with the options alone.
-/

namespace Volley.CommandLine

/-- The name of the configuration file. -/
def fileName : String := ".evstress.toml"

/-- The `Config.Value` that a field can make of an entry of a configuration file. -/
def entryValue (value : Toml.Value) : Config.Value :=
  match value.content with
  | .text content => .text content
  | .integer n => .integer n
  | _ => .foreign

/-- The key of the entry in which a file names another one that it continues. -/
def extendsKey : String := "extends"

/-- The layer of a configuration file; `none` if the file is malformed. Entries that are no fields
do not count, but they have to be sound. No other file is ever read, so a file that continues
another cannot be taken either, whatever it says of the other. -/
def fileLayer? (text : String) : Option Config.Layer := do
  let entries ← Toml.parse text
  match entries.lookup extendsKey, entries.isSound with
  | none, true =>
    some (entries.filterMap fun (name, value) =>
      (Config.Key.ofName? name).map (·, entryValue value))
  | _, _ => none

/-- What a user wants. -/
structure Invocation where
  config : Config
  command : Option Command
  deriving DecidableEq, Repr

namespace Invocation

/-- Why it is not known what the user wants. -/
inductive Failure where
  /-- The arguments end the program, or are at fault. -/
  | arguments (halt : Halt)
  /-- A variable of the environment is torn. -/
  | environment
  /-- The configuration file cannot be taken, or a field does not take its value. -/
  | configuration
  deriving DecidableEq, Repr

/-- The wording of the failure `.configuration`. -/
def configurationFault : String := "failed to load configuration"

/-- The configuration that `Config.ofLayers` makes of these layers, or the failure `.configuration`.
-/
def ofLayers (layers : List Config.Layer) : Except Failure Config :=
  match Config.ofLayers layers with
  | some config => .ok config
  | none => .error .configuration

/-- The configuration of the `options`, the `environment` and the `file`, of which the first count
most. All of the environment is read before a fault of the file tells. -/
def configuration (options : Config.Layer) (environment : List (String × String))
    (file : Option String) : Except Failure Config :=
  match Environment.layer? environment, file.map fileLayer? with
  | none, _ => .error .environment
  | some _, some none => .error .configuration
  | some layer, some (some fileLayer) => ofLayers [options, layer, fileLayer]
  | some layer, none => ofLayers [options, layer]

/-- Finds out what the user wants: `Arguments.parse` reads the arguments, and without a command
`configuration` reads the rest. -/
def load (arguments : List String) (environment : List (String × String)) (file : Option String) :
    Except Failure Invocation :=
  match Arguments.parse arguments with
  | .error halt => .error (.arguments halt)
  | .ok parsed =>
    match parsed.command with
    | some command => (ofLayers [parsed.options]).map (⟨·, some command⟩)
    | none => (configuration parsed.options environment file).map (⟨·, none⟩)

end Invocation

end Volley.CommandLine
