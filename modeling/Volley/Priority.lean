/-!
# Priority tiers

Every event belongs to one of five tiers. On the wire a tier is the number of its place in
`Priority.all`.
-/

namespace Volley

/-- The tier of an event, from the least urgent to the most urgent. -/
inductive Priority where
  | batch
  | low
  | medium
  | high
  | critical
  deriving DecidableEq, Repr, Inhabited

namespace Priority

/-- Every tier, the least urgent first. -/
def all : List Priority :=
  [batch, low, medium, high, critical]

/-- The byte that stands for a tier in a frame, by its place in `all`. -/
def wire : Priority → UInt8
  | batch => 0
  | low => 1
  | medium => 2
  | high => 3
  | critical => 4

/-- The tier that `wire` takes to this byte, if there is one. -/
def ofWire? (value : UInt8) : Option Priority :=
  if value = 0 then some batch
  else if value = 1 then some low
  else if value = 2 then some medium
  else if value = 3 then some high
  else if value = 4 then some critical
  else none

/-- The tier at a place counted round and round through `all`. -/
def rotating (index : Nat) : Priority :=
  match index % 5 with
  | 0 => batch
  | 1 => low
  | 2 => medium
  | 3 => high
  | _ => critical

/-- The name under which a tier appears in payloads and reports. -/
def name : Priority → String
  | batch => "BATCH"
  | low => "LOW"
  | medium => "MEDIUM"
  | high => "HIGH"
  | critical => "CRITICAL"

@[simp]
theorem ofWire?_wire (priority : Priority) : ofWire? priority.wire = some priority := by
  cases priority <;> rfl

theorem wire_of_ofWire? {value : UInt8} {priority : Priority} (h : ofWire? value = some priority) :
    priority.wire = value := by
  unfold ofWire? at h
  repeat' split at h
  all_goals first | cases h; simp_all [wire] | cases h

end Priority

end Volley
