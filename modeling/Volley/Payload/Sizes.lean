import Volley.Random
import Volley.Saturate
import Volley.Text.Blank
import Volley.Text.Quoted
import Volley.Text.Unsigned

/-!
# Payload sizes

A scenario takes the sizes of its payloads from a list that is never empty, either in turn or at
random. The list can be read from text.
-/

namespace Volley

/-- The payload sizes of a scenario, of which there is at least one. -/
structure PayloadSizes where
  toList : List UInt64
  ne_nil : toList ≠ []
  deriving DecidableEq

namespace PayloadSizes

/-- Why there is no size list. -/
inductive Error where
  /-- There is no size in it. -/
  | empty
  /-- A part of the text is not a size. -/
  | invalid (part : String)
  deriving DecidableEq, Repr

/-- The wording of a size list failure. -/
def Error.message : Error → String
  | .empty => "payload size list is empty"
  | .invalid part => s!"invalid payload size {Text.quoted part}"

/-- The `PayloadSizes` with these `sizes`, unless there are none. -/
def ofList (sizes : List UInt64) : Except Error PayloadSizes :=
  if h : sizes = [] then .error .empty else .ok ⟨sizes, h⟩

/-- The list of one size. -/
def single (size : UInt64) : PayloadSizes :=
  ⟨[size], by simp⟩

/-- One size, written as an unsigned number that is at most `maxWord`. -/
def parsePart (part : List Char) : Except Error UInt64 :=
  match Text.unsigned? maxWord part with
  | some size => .ok (UInt64.ofNat size)
  | none => .error (.invalid (String.ofList part))

/-- Reads parts in order by `parsePart`, up to the first that is not a size. -/
def parseParts : List (List Char) → Except Error (List UInt64)
  | [] => .ok []
  | part :: rest =>
    match parsePart part with
    | .error e => .error e
    | .ok size =>
      match parseParts rest with
      | .error e => .error e
      | .ok sizes => .ok (size :: sizes)

/-- By `parseParts`, parts are read exactly when `parsePart` reads each of them, and give these
`sizes`. -/
theorem parseParts_eq_ok_iff {parts : List (List Char)} {sizes : List UInt64} :
    parseParts parts = .ok sizes ↔ parts.map parsePart = sizes.map .ok := by
  induction parts generalizing sizes with
  | nil => cases sizes <;> simp [parseParts]
  | cons part rest ih =>
    cases hp : parsePart part with
    | error => cases sizes <;> simp [parseParts, hp]
    | ok size =>
      cases sizes with
      | nil => cases hr : parseParts rest <;> simp [parseParts, hp, hr]
      | cons first others =>
        rw [List.map_cons, List.map_cons, List.cons.injEq, hp, ← ih]
        cases hr : parseParts rest <;> simp [parseParts, hp, hr]

/-- Reads a comma-separated list of sizes, the `Text.listItems` of which are its parts. -/
def parse (text : String) : Except Error PayloadSizes :=
  match parseParts (Text.listItems text.toList) with
  | .error e => .error e
  | .ok sizes => ofList sizes

/-- The largest size. -/
def largest (sizes : PayloadSizes) : UInt64 :=
  sizes.toList.foldl max 0

theorem length_pos (sizes : PayloadSizes) : 0 < sizes.toList.length :=
  List.length_pos_iff.2 sizes.ne_nil

/-- The size at a place, `index`, counted round and round through the list. -/
def cycle (sizes : PayloadSizes) (index : Nat) : UInt64 :=
  sizes.toList.get ⟨index % sizes.toList.length, Nat.mod_lt _ sizes.length_pos⟩

/-- A size at random, by `Random.choose?`. -/
def pick (sizes : PayloadSizes) (r : Random) : UInt64 × Random :=
  let (size, r) := r.choose? sizes.toList
  (size.getD 256, r)

/-- Sizes at random, `count` of them. -/
def picks (sizes : PayloadSizes) : (count : Nat) → Random → List UInt64
  | 0, _ => []
  | count + 1, r =>
    let (size, r) := sizes.pick r
    size :: sizes.picks count r

end PayloadSizes

end Volley
