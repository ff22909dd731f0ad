import Volley.Toml.Scalar

/-!
# Values of TOML

The values of a configuration file, and readers for those that stand on the right of an equals sign.
A table remembers how it came about, because that decides what may still be added to it. How deeply
values may nest, and how many parts a key may have, is limited.
-/

namespace Volley.Toml

/-- How a table came about. -/
inductive Origin where
  /-- It is written between braces, and complete. -/
  | inline
  /-- It has a header of its own. -/
  | header
  /-- It stands on the way to another table's header. -/
  | implied
  /-- It stands on the way of a dotted key. -/
  | dotted
  deriving DecidableEq, Repr

/-- A value of a configuration file. -/
inductive Value where
  | text (content : String)
  | integer (n : Int)
  | float (spelling : String)
  | boolean (value : Bool)
  | moment (spelling : String)
  | array (items : List Value)
  | table (origin : Origin) (entries : List (String × Value))
  /-- Tables with the same header, the latest first. -/
  | tables (elements : List (List (String × Value)))

/-- The entries of a table, in the order in which they were made. -/
abbrev Entries := List (String × Value)

/-- Puts `value` in the place of the one under `key`. -/
def Entries.replace (entries : Entries) (key : String) (value : Value) : Entries :=
  entries.map fun (name, old) => if name = key then (name, value) else (name, old)

/-- Adds `value` under a new `key`. -/
def Entries.insert? (entries : Entries) (key : String) (value : Value) : Option Entries :=
  match entries.lookup key with
  | none => some (entries ++ [(key, value)])
  | some _ => none

/-- What leads on to a table: the keys of headers, or the keys before the last of a dotted key. -/
inductive Way where
  | header
  | dotted
  deriving DecidableEq, Repr

/-- The `Origin` of a table that is first met on a way. -/
def Way.origin : Way → Origin
  | header => .implied
  | dotted => .dotted

/-- Whether a way may lead through a table of this `origin`. -/
def Way.enters (way : Way) (origin : Origin) : Bool :=
  match way, origin with
  | _, .inline => false
  | header, _ => true
  | dotted, .header => false
  | dotted, _ => true

/-- Whether what is at the end of a way may go into a table of this `origin`. A dotted key fills
only tables that such keys have made. -/
def Way.fills (way : Way) (origin : Origin) : Bool :=
  match way with
  | header => true
  | dotted => origin = .dotted

/-- Changes the table at the end of a path, making the tables that are missing on the way, which
starts at a table that came about as `origin` says. Of tables with the same header the latest is
meant. -/
def Entries.within (way : Way) (change : Entries → Option Entries) (path : List String)
    (origin : Origin) (entries : Entries) : Option Entries :=
  match path with
  | [] => if way.fills origin then change entries else none
  | key :: path =>
    match entries.lookup key with
    | none => do
      let inner ← within way change path way.origin []
      some (entries ++ [(key, .table way.origin inner)])
    | some (.table origin inner) =>
      if way.enters origin then do
        let inner ← within way change path origin inner
        some (entries.replace key (.table origin inner))
      else none
    | some (.tables (latest :: earlier)) => do
      let latest ← within way change path .header latest
      some (entries.replace key (.tables (latest :: earlier)))
    | some _ => none

/-- Adds `value` under the dotted key `path`. The table that the key starts from takes whatever is
new. -/
def Entries.assign? (entries : Entries) (path : List String) (value : Value) : Option Entries :=
  match path.reverse with
  | [] => none
  | last :: way => entries.within .dotted (·.insert? last value) way.reverse .dotted

/-! ### Readers -/

/-- A text without the blanks at its start. -/
def dropBlanks (text : List Char) : List Char :=
  text.dropWhile fun c => c = ' ' || c = '\t'

/-- A text without a comment at its start. -/
def dropComment : List Char → List Char
  | '#' :: rest => rest.dropWhile (· ≠ '\n')
  | text => text

/-- A text without the blanks, comments and line ends at its start. -/
def dropLines (inComment : Bool) : List Char → List Char
  | [] => []
  | '\n' :: rest => dropLines false rest
  | c :: rest =>
    if inComment then dropLines true rest
    else if c = '#' then dropLines true rest
    else if c = ' ' || c = '\t' then dropLines false rest
    else c :: rest

/-- Whether a character may stand in a key without quotes. -/
def isBareKeyChar (c : Char) : Bool :=
  c.isAlphanum || c = '_' || c = '-'

/-- Reads one part of a key, in quotes or of characters for which `isBareKeyChar`. -/
def simpleKey (text : List Char) : Option (String × List Char) :=
  match text with
  | '"' :: rest => (basicText rest).map fun (key, rest) => (String.ofList key, rest)
  | '\'' :: rest => (literalText rest).map fun (key, rest) => (String.ofList key, rest)
  | _ =>
    match text.takeWhile isBareKeyChar with
    | [] => none
    | key => some (String.ofList key, text.dropWhile isBareKeyChar)

/-- Reads a key of at most so many parts, each by `simpleKey`, and the blanks behind it. -/
def dottedKey : Nat → List Char → Option (List String × List Char)
  | 0, _ => none
  | parts + 1, text => do
    let (part, rest) ← simpleKey (dropBlanks text)
    match dropBlanks rest with
    | '.' :: rest =>
      let (others, rest) ← dottedKey parts rest
      some (part :: others, rest)
    | rest => some ([part], rest)

/-- The most parts that a key may have, and the most brackets and braces that may stand around a
value. -/
def depthLimit : Nat := 79

/-- Reads a key of at most `depthLimit` parts, and the blanks behind it. -/
def key (text : List Char) : Option (List String × List Char) :=
  dottedKey depthLimit text

/-- Whether a character may stand in a value without quotes. -/
def isBareValueChar (c : Char) : Bool :=
  c.isAlphanum || c = '_' || c = '-' || c = '+' || c = '.' || c = ':'

/-- The value that characters without quotes write: a boolean, an `integer?`, or what `isFloat` or
`isMoment`. -/
def bare? (word : List Char) : Option Value :=
  if word = ['t', 'r', 'u', 'e'] then some (.boolean true)
  else if word = ['f', 'a', 'l', 's', 'e'] then some (.boolean false)
  else
    match integer? word with
    | some n => some (.integer n)
    | none =>
      if isFloat word then some (.float (String.ofList word))
      else if isMoment .required word then some (.moment (String.ofList word))
      else none

/-- Reads a value of characters for which `isBareValueChar`. Between a date and a time may be a
single space. -/
def bareValue (text : List Char) : Option (Value × List Char) :=
  let word := text.takeWhile isBareValueChar
  let rest := text.dropWhile isBareValueChar
  let time := (rest.drop 1).takeWhile isBareValueChar
  if rest.head? = some ' ' ∧ date word = some [] ∧ isTimeAfterDate .required time then
    some (.moment (String.ofList (word ++ ' ' :: time)), (rest.drop 1).dropWhile isBareValueChar)
  else (bare? word).map (·, rest)

mutual

/-- Reads a value that stands in `depth` brackets and braces. -/
def value (depth : Nat) : Nat → List Char → Option (Value × List Char)
  | 0, _ => none
  | fuel + 1, text =>
    match text with
    | '"' :: _ => (quotedText text).map fun (content, rest) => (.text (String.ofList content), rest)
    | '\'' :: _ =>
      (quotedText text).map fun (content, rest) => (.text (String.ofList content), rest)
    | '[' :: rest =>
      if depth < depthLimit then
        (items (depth + 1) fuel (dropLines false rest)).map fun (xs, rest) => (.array xs, rest)
      else none
    | '\x7b' :: rest =>
      if depth < depthLimit then
        match dropBlanks rest with
        | '\x7d' :: rest => some (.table .inline [], rest)
        | rest => do
          let (entries, rest) ← fields (depth + 1) fuel [] rest
          some (.table .inline entries, rest)
      else none
    | _ => bareValue text

/-- Reads the items of an array, each by `value`, up to its closing bracket. -/
def items (depth : Nat) : Nat → List Char → Option (List Value × List Char)
  | 0, _ => none
  | fuel + 1, text =>
    match text with
    | ']' :: rest => some ([], rest)
    | _ => do
      let (item, rest) ← value depth fuel text
      match dropLines false rest with
      | ']' :: rest => some ([item], rest)
      | ',' :: rest =>
        let (others, rest) ← items depth fuel (dropLines false rest)
        some (item :: others, rest)
      | _ => none

/-- Reads the entries of an inline table, each a `key` and a `value`, up to its closing brace. -/
def fields (depth : Nat) : Nat → Entries → List Char → Option (Entries × List Char)
  | 0, _, _ => none
  | fuel + 1, entries, text => do
    let (path, rest) ← key text
    match rest with
    | '=' :: rest =>
      let (content, rest) ← value depth fuel (dropBlanks rest)
      let entries ← entries.assign? path content
      match dropBlanks rest with
      | '\x7d' :: rest => some (entries, rest)
      | ',' :: rest => fields depth fuel entries rest
      | _ => none
    | _ => none

end

end Volley.Toml
