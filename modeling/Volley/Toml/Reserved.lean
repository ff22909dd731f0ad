import Volley.Toml.Value

/-!
# Reserved keys

Three keys say of the table that holds them what it is. One makes the table stand for the value
under it, one must not be used at all, and one, where it comes first, makes the table a moment,
written as text. The first two mean nothing in the document itself, which is not the value of any
entry.
-/

namespace Volley.Toml

/-- The key of the value that a table stands for. -/
def contentKey : String := "___figment_value_value"

/-- The key that no table may have. -/
def tagKey : String := "___figment_value_id"

/-- The key of the text that makes a table a moment. -/
def momentKey : String := "$__toml_private_datetime"

mutual

/-- What a value stands for: itself, or what the value under `contentKey` stands for. The other
entries of such a table do not count. -/
def Value.content : Value → Value
  | .table origin entries => (contentIn? entries).getD (.table origin entries)
  | value => value

/-- What the value under `contentKey` stands for, if there is one. -/
def contentIn? : List (String × Value) → Option Value
  | [] => none
  | (key, value) :: rest => if key = contentKey then some value.content else contentIn? rest

end

mutual

/-- Whether no table in a value has the key `tagKey`. -/
def Value.isUntagged : Value → Bool
  | .array items => itemsUntagged items
  | .table _ entries => entriesUntagged entries
  | .tables elements => tablesUntagged elements
  | _ => true

/-- Whether no table among the items of an array has the key `tagKey`. -/
def itemsUntagged : List Value → Bool
  | [] => true
  | item :: rest => item.isUntagged && itemsUntagged rest

/-- Whether neither a table with these entries nor any table in them has the key `tagKey`. -/
def entriesUntagged : List (String × Value) → Bool
  | [] => true
  | (key, value) :: rest => key ≠ tagKey && value.isUntagged && entriesUntagged rest

/-- Whether no table with the same header has the key `tagKey`. -/
def tablesUntagged : List (List (String × Value)) → Bool
  | [] => true
  | entries :: rest => entriesUntagged entries && tablesUntagged rest

end

/-- Whether `momentKey` comes first among the keys of a table, in ascending order. -/
def isMomentTable (entries : Entries) : Bool :=
  entries.any (·.1 = momentKey) && entries.all fun (key, _) => ¬key < momentKey

/-- Whether the text under `momentKey` is one that `isMoment`, in which a time may be without its
seconds. -/
def hasMoment (entries : Entries) : Bool :=
  match entries.lookup momentKey with
  | some (.text content) => isMoment .optional content.toList
  | _ => false

mutual

/-- Whether every `isMomentTable` in a value `hasMoment`, and no number in it `overflows`. What else
a moment holds is not looked at. -/
def Value.isSound : Value → Bool
  | .float spelling => !overflows spelling.toList
  | .array items => itemsSound items
  | .table _ entries =>
    if isMomentTable entries then hasMoment entries else entriesSound entries
  | .tables elements => tablesSound elements
  | _ => true

/-- Whether every item of an array `isSound`. -/
def itemsSound : List Value → Bool
  | [] => true
  | item :: rest => item.isSound && itemsSound rest

/-- Whether every value `isSound` in a table that is no moment. -/
def entriesSound : List (String × Value) → Bool
  | [] => true
  | (_, value) :: rest => value.isSound && entriesSound rest

/-- Whether all tables with the same header are sound, each as in `Value.isSound`. -/
def tablesSound : List (List (String × Value)) → Bool
  | [] => true
  | entries :: rest =>
    (if isMomentTable entries then hasMoment entries else entriesSound entries) &&
      tablesSound rest

end

/-- Whether `tagKey` is used nowhere below the document itself, and the document and the values in
it are sound. -/
def Entries.isSound (document : Entries) : Bool :=
  (Value.table .header document).isSound && document.all fun (_, value) => value.isUntagged

end Volley.Toml
