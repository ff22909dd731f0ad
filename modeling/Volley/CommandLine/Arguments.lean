import Volley.Config
import Volley.Text.Unsigned

/-!
# Arguments

The arguments of the command line, read from left to right: options with their values, and a command
after them. An option's value is looked at only when the next option begins or the arguments end, so
of two faults it is not always the first one that is reported.
-/

namespace Volley.CommandLine

/-- What can be asked for other than a load run. -/
inductive Command where
  /-- To list the scenarios of the catalogue. -/
  | list
  deriving DecidableEq, Repr

/-- Why reading the arguments ends before anything is done. -/
inductive Halt where
  | helpRequested
  | versionRequested
  /-- There is no such option, or nothing may stand there. -/
  | unknownArgument
  /-- There is no such command. -/
  | unknownCommand
  /-- An option's value is not what it takes. -/
  | invalidValue
  /-- An option has no value. -/
  | missingValue
  /-- An option that takes no value has one. -/
  | needlessValue
  /-- An option is given twice. -/
  | repeatedOption
  deriving DecidableEq, Repr

/-- The exit status after such an end: 0 if the user asked for help or the version, else 2. -/
def Halt.status : Halt → Nat
  | helpRequested => 0
  | versionRequested => 0
  | _ => 2

/-- The value that the option of `key` takes from `text`. A number of less than 64 bits may have a
sign of either kind, as long as it is in range; one of 64 bits may have a plus sign only. -/
def optionValue? (key : Config.Key) (text : String) : Option Config.Value :=
  match key.bound? with
  | none => some (.text text)
  | some bound =>
    if bound < UInt64.size then
      match Text.signed? (bound - 1) text.toList with
      | some n => if 0 ≤ n then some (.integer n) else none
      | none => none
    else (Text.unsigned? (bound - 1) text.toList).map fun n => .integer n

/-- What the arguments say. -/
structure Arguments where
  /-- The options, each at most once. -/
  options : Config.Layer
  command : Option Command
  deriving DecidableEq, Repr

namespace Arguments

/-- What an argument looks like. -/
inductive Shape where
  /-- Two dashes, after which everything is taken as it is. -/
  | separator
  /-- The name of an option, and the value behind an equals sign. -/
  | long (name : String) (value : Option String)
  /-- The letters of options. -/
  | short (letters : List Char)
  | plain
  deriving DecidableEq, Repr

/-- Looks at the dashes at the start of an `argument`. -/
def shape (argument : String) : Shape :=
  match argument.toList with
  | ['-', '-'] => .separator
  | '-' :: '-' :: text =>
    let name := String.ofList (text.takeWhile (· ≠ '='))
    match text.dropWhile (· ≠ '=') with
    | [] => .long name none
    | _ :: value => .long name (some (String.ofList value))
  | ['-'] => .plain
  | '-' :: letters => .short letters
  | _ => .plain

/-- The options read so far. -/
structure Reading where
  options : Config.Layer
  /-- The option read last and its value, if it has been read, before they are looked at. -/
  pending : Option (Config.Key × Option String)

namespace Reading

/-- Takes the option of `key` with its value, unless that is missing, repeated or one that
`optionValue?` refuses. -/
def take (options : Config.Layer) (key : Config.Key) (text : Option String) :
    Except Halt Config.Layer :=
  match text with
  | none => .error .missingValue
  | some text =>
    match options.lookup key with
    | some _ => .error .repeatedOption
    | none =>
      match optionValue? key text with
      | none => .error .invalidValue
      | some value => .ok (options ++ [(key, value)])

/-- The `options`, once the one that is `pending` has been looked at. -/
def settle (reading : Reading) : Except Halt Config.Layer :=
  match reading.pending with
  | none => .ok reading.options
  | some (key, text) => take reading.options key text

/-- What the arguments say once all have been read and the last option has been `settle`d. -/
def finish (reading : Reading) (command : Option Command) : Except Halt Arguments :=
  match reading.settle with
  | .error fault => .error fault
  | .ok options => .ok ⟨options, command⟩

/-- Whether the next argument can only be the value of the option that is `pending`. -/
def awaitsValue (reading : Reading) : Bool :=
  match reading.pending with
  | some (_, none) => true
  | _ => false

/-- Ends the reading for a `reason` that counts only if all options before it `settle`. -/
def halt (reading : Reading) (reason : Halt) : Halt :=
  match reading.settle with
  | .ok _ => reason
  | .error fault => fault

/-- Reads an option by its `name`, which is that of a `Config.Key` or of a request for help or the
version. -/
def long (reading : Reading) (name : String) (value : Option String) : Except Halt Reading :=
  match Config.Key.ofOption? name with
  | some key =>
    match reading.settle with
    | .error fault => .error fault
    | .ok options =>
      match value with
      | none => .ok ⟨options, some (key, none)⟩
      | some text =>
        match take options key (some text) with
        | .error fault => .error fault
        | .ok options => .ok ⟨options, none⟩
  | none =>
    if name = "help" ∨ name = "version" then
      match value with
      | some _ => .error .needlessValue
      | none =>
        .error (reading.halt (if name = "help" then .helpRequested else .versionRequested))
    else .error .unknownArgument

/-- Reads options by their `letters`, of which only those for help and the version are known. -/
def short (reading : Reading) (letters : List Char) : Halt :=
  match letters with
  | 'h' :: _ => reading.halt .helpRequested
  | 'V' :: _ => reading.halt .versionRequested
  | _ => .unknownArgument

end Reading

/-- Reads what follows the command `list`, which takes nothing but a request for help. -/
def afterList : List String → Except Halt Unit
  | [] => .ok ()
  | argument :: rest =>
    match shape argument with
    | .separator => if rest = [] then .ok () else .error .unknownArgument
    | .long "help" none => .error .helpRequested
    | .long "help" (some _) => .error .needlessValue
    | .short ('h' :: _) => .error .helpRequested
    | _ => .error .unknownArgument

/-- What is wrong with an `argument` after two dashes: it is taken as it is, and nothing takes it.
The name of a command is out of place there, anything else names no command. -/
def afterSeparator (argument : String) : Halt :=
  if argument = "help" ∨ argument = "list" then .unknownArgument else .unknownCommand

/-- Reads what follows the command `help`, which may name one command. -/
def afterHelp : List String → Halt
  | [] => .helpRequested
  | ["list"] => .helpRequested
  | ["help"] => .helpRequested
  | _ => .unknownCommand

/-- Reads arguments from left to right, each by its `shape`. -/
def read (reading : Reading) : List String → Except Halt Arguments
  | [] => reading.finish none
  | argument :: rest =>
    match shape argument with
    | .separator =>
      match rest with
      | [] => reading.finish none
      | argument :: _ => .error (afterSeparator argument)
    | .long name value =>
      match reading.long name value with
      | .error fault => .error fault
      | .ok reading => read reading rest
    | .short letters => .error (reading.short letters)
    | .plain =>
      -- A value is only kept here; it is looked at when the next option begins.
      match reading.awaitsValue, reading.pending with
      | true, some (key, _) => read { reading with pending := some (key, some argument) } rest
      | _, _ =>
        if argument = "help" then .error (afterHelp rest)
        else if argument = "list" then
          match afterList rest with
          | .error fault => .error fault
          | .ok () => reading.finish (some .list)
        else .error .unknownCommand

/-- Reads the arguments of a command line with `read`, from no options at all. -/
def parse (arguments : List String) : Except Halt Arguments :=
  read ⟨[], none⟩ arguments

end Arguments

end Volley.CommandLine
