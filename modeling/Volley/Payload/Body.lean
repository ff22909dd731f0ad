import Volley.Bytes
import Volley.Priority

/-!
# Payload bodies

A payload is a JSON object that says which event it belongs to, brought to an exact size: a field
of letters pads it, and an object that is too long is cut off. Cutting keeps the size exact at the
price of a body that is no longer JSON.
-/

namespace Volley

namespace Payload

/-- A payload so large that memory cannot hold its padding. -/
structure TooLarge where
  /-- The size that was asked for. -/
  size : Nat
  deriving DecidableEq, Repr

/-- The object with `padding` letters in its padding field. -/
def object (id : UInt64) (timestamp : Int) (priority : Priority) (padding : Nat) : Bytes :=
  Bytes.ofText
      s!"\x7b\"id\":{id},\"ts\":{timestamp},\"priority\":\"{priority.name}\",\"data\":\"" ++
    List.replicate padding (UInt8.ofNat 'x'.toNat) ++ Bytes.ofText "\"\x7d"

/-- The largest `padding` of an `object` that memory can hold, in bytes. -/
def maxPadding : Nat := 0x7FFFFFFFFFFFFFFF

/-- The body of an event, of exactly the given `size`: the `object` with as much padding as it
takes, or the beginning of the object without padding, if that is longer. -/
def body (id : UInt64) (timestamp : Int) (priority : Priority) (size : Nat) :
    Except TooLarge Bytes :=
  let bare := object id timestamp priority 0
  if size ≤ bare.length then .ok (bare.take size)
  else if size - bare.length > maxPadding then .error ⟨size⟩
  else .ok (object id timestamp priority (size - bare.length))

end Payload

end Volley
