import Volley.Text.Unshown

/-!
# Quoted text

How a message shows a text that came from outside: between double quotes, on one line, with every
character that could not be read there written as an escape.
-/

namespace Volley.Text

/-- The digits of `n` by `Nat.toDigits 16`: in lower case, without leading zeros. -/
def hex (n : Nat) : List Char :=
  Nat.toDigits 16 n

/-- One character of a quoted text: escaped if it is a quote, a backslash or one that `isUnshown`.
-/
def quoteChar (c : Char) : List Char :=
  if c = '"' then ['\\', '"']
  else if c = '\\' then ['\\', '\\']
  else if c = '\t' then ['\\', 't']
  else if c = '\r' then ['\\', 'r']
  else if c = '\n' then ['\\', 'n']
  else if c = '\x00' then ['\\', '0']
  else if isUnshown c then ['\\', 'u', '\x7b'] ++ hex c.toNat ++ ['\x7d']
  else [c]

/-- The text between double quotes, with `quoteChar` of each character. -/
def quoted (text : String) : String :=
  String.ofList ('"' :: text.toList.flatMap quoteChar ++ ['"'])

end Volley.Text
