import Volley.Toml.Value

/-!
# Documents of TOML

A configuration file is a sequence of lines: entries, headers of tables, and headers of tables that
may occur again. Reading one yields its entries, or nothing at all if there is a fault anywhere.
-/

namespace Volley.Toml

/-- A text with plain line ends; `none` if it holds a control character that no file may hold. -/
def plainLines : List Char → Option (List Char)
  | [] => some []
  | '\r' :: '\n' :: rest => (plainLines rest).map ('\n' :: ·)
  | c :: rest =>
    if isControl c && c ≠ '\n' then none
    else (plainLines rest).map (c :: ·)

/-- Gives the table called `name` its header: a new one, or one that was `implied`. -/
def open? (name : String) (entries : Entries) : Option Entries :=
  match entries.lookup name with
  | none => some (entries ++ [(name, .table .header [])])
  | some (.table .implied inner) => some (entries.replace name (.table .header inner))
  | some _ => none

/-- Begins another of the `tables` with the header `name`. -/
def openAnother? (name : String) (entries : Entries) : Option Entries :=
  match entries.lookup name with
  | none => some (entries ++ [(name, .tables [[]])])
  | some (.tables elements) => some (entries.replace name (.tables ([] :: elements)))
  | some _ => none

/-- Makes a `change` at the last part of a header, behind the tables that the other parts of `path`
name. -/
def atHeader (change : String → Entries → Option Entries) (path : List String)
    (entries : Entries) : Option Entries :=
  match path.reverse with
  | [] => none
  | last :: way => entries.within .header (change last) way.reverse .header

/-- A document as far as it has been read. -/
structure Document where
  entries : Entries
  /-- The path of the table that entries now go to. -/
  current : List String

/-- Reads one line that is not empty: an entry or a header. The `fuel` is for the entry's value. -/
def line (fuel : Nat) (document : Document) (text : List Char) : Option (Document × List Char) :=
  match text with
  | '[' :: '[' :: rest => do
    match ← key rest with
    | (path, ']' :: ']' :: rest) =>
      some (⟨← atHeader openAnother? path document.entries, path⟩, rest)
    | _ => none
  | '[' :: rest => do
    match ← key rest with
    | (path, ']' :: rest) => some (⟨← atHeader open? path document.entries, path⟩, rest)
    | _ => none
  | _ => do
    match ← key text with
    | (path, '=' :: rest) =>
      let (content, rest) ← value 0 fuel (dropBlanks rest)
      let entries ←
        document.entries.within .header (·.assign? path content) document.current .header
      some ({ document with entries }, rest)
    | _ => none

/-- Reads each `line`, as many as `fuel` allows. -/
def lines : Nat → Document → List Char → Option Entries
  | 0, _, _ => none
  | fuel + 1, document, text =>
    match dropLines false text with
    | [] => some document.entries
    | text => do
      let (document, rest) ← line fuel document text
      match dropComment (dropBlanks rest) with
      | [] => some document.entries
      | '\n' :: rest => lines fuel document rest
      | _ => none

/-- The entries of a document; `none` if it is not well formed. A byte order mark at its start does
not count. -/
def parse (text : String) : Option Entries := do
  let characters := match text.toList with
    | '\ufeff' :: rest => rest
    | characters => characters
  let characters ← plainLines characters
  lines (characters.length + 1) ⟨[], []⟩ characters

end Volley.Toml
