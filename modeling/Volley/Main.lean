import Std.Time.DateTime.Timestamp
import Volley.CommandLine.Execution

/-!
# The command line

Gathers the arguments, the environment and the configuration file, and carries out what they say.
A load run is rehearsed on a network in which the receiver takes everything.
-/

open Volley Volley.CommandLine

/-- The variables of the environment that set a field. -/
def settingVariables : IO (List (String × String)) := do
  let names := Config.Key.all.map fun key => (Environment.namesStart ++ key.name).toUpper
  names.filterMapM fun name => do
    let content ← IO.getEnv name
    return content.map (name, ·)

/-- The text of the configuration file, in the working directory or else in the home directory. -/
def configurationText : IO (Option String) := do
  let home := (← IO.getEnv "HOME").getD ""
  try
    return some (← IO.FS.readFile fileName)
  catch _ =>
    try
      return some (← IO.FS.readFile (home ++ "/" ++ fileName))
    catch _ => return none

def main (arguments : List String) : IO UInt32 := do
  let now := (← Std.Time.Timestamp.now).toMillisecondsSinceUnixEpoch.val
  let environs : Environs :=
    { network := { peer := fun _ => .receiving }
      timestamps := fun _ => now
      fallbackSeed := UInt64.ofNat now.natAbs }
  let (status, execution) :=
    runProgram environs .ofConfig arguments (← settingVariables) (← configurationText)
  IO.print execution.output
  match execution.held with
  | .error fault => IO.eprintln s!"Error: {fault.message}"
  | .ok _ => pure ()
  return UInt32.ofNat status
