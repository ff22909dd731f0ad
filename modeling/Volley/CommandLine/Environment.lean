import Volley.CommandLine.Environment.Meaning

/-!
# Environment variables

A field can be set by an environment variable that is named after it. Every variable with the start
that all have in common is read, whether it names a field or not.
-/

namespace Volley.CommandLine.Environment

/-- What the names of all variables start with. -/
def namesStart : String := "evstress_"

/-- A text with a point in the place of every pair of underscores. -/
def pointPairs : List Char → List Char
  | [] => []
  | '_' :: '_' :: rest => '.' :: pointPairs rest
  | c :: rest => c :: pointPairs rest

/-- The parts of a variable's `name` behind `namesStart`, if it starts so and no part is empty.
Upper and lower case count the same, and so does a point and a pair of underscores, which part a
name; blanks around the name and around what is behind its start do not count. -/
def nameParts? (name : String) : Option (List (List Char)) :=
  let name := (Text.trim name.toList).map Char.toLower
  let start := namesStart.toList
  let parts := Text.splitAt '.' (Text.trim (pointPairs (name.drop start.length)))
  if name.take start.length = start ∧ parts.all (· ≠ []) then some parts else none

/-- The `Config.Key` and value that a variable sets whose name has these `parts`, if it sets
anything. One with several parts sets a part of a field, which no field takes. -/
def assignment? (parts : List (List Char)) (value : Config.Value) :
    Option (Config.Key × Config.Value) :=
  match parts with
  | [] => none
  | [part] => (Config.Key.ofName? (String.ofList part)).map (·, value)
  | part :: _ => (Config.Key.ofName? (String.ofList part)).map (·, .foreign)

/-- The layer of all variables, of which a later one counts more; `none` if one of them is torn. -/
def layer? (environment : List (String × String)) : Option Config.Layer := do
  let named := environment.filterMap fun (name, content) => (nameParts? name).map (·, content)
  let read ← named.mapM fun (parts, content) => (meaning? content).map (parts, ·)
  some (read.filterMap fun (parts, value) => assignment? parts value).reverse

end Volley.CommandLine.Environment
