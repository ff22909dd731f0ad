import Volley.Config
import Volley.Text.Blank
import Volley.Toml.Scalar

/-!
# What a variable means

The value of an environment variable is looked at before the field is known, so what it means
depends on its spelling alone: a number is a number, a text with a comma is a list, and a text of
digits or with commas has to stand in quotes.

In double quotes, what stands before the first escape is kept for as many bytes as it has
characters. Nothing is lost if all of it is ASCII; else it is cut short, and if the cut falls inside
a character the text is torn, which makes the whole environment unreadable.
-/

namespace Volley.CommandLine.Environment

/-- Why a text is not read as a value. -/
inductive Flaw where
  /-- It does not fit its own quotes or brackets. -/
  | unfit
  /-- It is cut inside a character. -/
  | torn
  deriving DecidableEq, Repr

/-- Whether a trimmed text is a plain list: it has a comma, and neither a bracket nor a quote at its
start that could enclose it. -/
def isPlainList (text : List Char) : Bool :=
  text.contains ',' &&
    !text.head?.any fun c => c = '[' || c = '\x7b' || c = '"' || c = '\''

/-! ### Words -/

/-- Whether a text is one or more digits. -/
def isDigits (text : List Char) : Bool :=
  text ≠ [] && text.all Char.isDigit

/-- Whether a text is a decimal number with a point. -/
def isDecimal (text : List Char) : Bool :=
  let number := (Toml.sign text).2
  let whole := number.takeWhile Char.isDigit
  match number.dropWhile Char.isDigit with
  | '.' :: rest =>
    let fraction := rest.takeWhile Char.isDigit
    let exponent := match rest.dropWhile Char.isDigit with
      | [] => true
      | 'e' :: digits => isDigits (Toml.sign digits).2
      | 'E' :: digits => isDigits (Toml.sign digits).2
      | _ => false
    (whole ≠ [] || fraction ≠ []) && exponent
  | _ => false

/-- What a word without quotes means: `.foreign` if it `isDecimal`, an `.integer` if it is one in
range, else `.text`. -/
def word (text : List Char) : Config.Value :=
  if isDecimal text then .foreign
  else
    match Text.signed? 0xFFFFFFFFFFFFFFFF text with
    | some n => if -0x8000000000000000 ≤ n then .integer n else .text (String.ofList text)
    | none => .text (String.ofList text)

/-! ### Quotes -/

/-- The first characters of a text that make up so many bytes; `none` if a character reaches across
the end of them. A text with fewer bytes is taken whole. -/
def takeBytes? : List Char → Nat → Option (List Char)
  | [], _ => some []
  | c :: rest, count =>
    if count = 0 then some []
    else if c.utf8Size ≤ count then (takeBytes? rest (count - c.utf8Size)).map (c :: ·)
    else none

/-- If every character of a text is one byte, `takeBytes?` takes all of it. -/
theorem takeBytes?_length {text : List Char} (h : ∀ c ∈ text, c.utf8Size = 1) :
    takeBytes? text text.length = some text := by
  induction text with
  | nil => rfl
  | cons c rest ih =>
    have hc : c.utf8Size = 1 := h c List.mem_cons_self
    have hrest := ih fun d hd => h d (List.mem_cons_of_mem c hd)
    simp only [takeBytes?, List.length_cons, hc, Nat.add_sub_cancel, hrest]
    rw [if_neg (Nat.succ_ne_zero _), if_pos (Nat.le_add_left 1 _), Option.map_some]

/-- Whether a quote ends the text somewhere. A character behind a backslash does not. -/
def isClosed : List Char → Bool
  | [] => false
  | '"' :: _ => true
  | '\\' :: _ :: rest => isClosed rest
  | _ :: rest => isClosed rest

/-- Reads the rest of a text in double quotes, up to the one that `isClosed` finds. -/
def quoted (text : List Char) : Except Flaw (List Char × List Char) :=
  let isPlain (c : Char) : Bool := c ≠ '"' && c ≠ '\\'
  let start := text.takeWhile isPlain
  let rest := text.dropWhile isPlain
  if !isClosed text || start.any Toml.isControl then .error .unfit
  else if rest.head? = some '"' then .ok (start, rest.drop 1)
  else
    match takeBytes? start start.length with
    | none => .error .torn
    | some kept =>
      match Toml.basicText rest with
      | some (content, rest) => .ok (kept ++ content, rest)
      | none => .error .unfit

/-! ### Values -/

/-- Whether a character ends a word. -/
def isSeparator (c : Char) : Bool :=
  c = ',' || c = '[' || c = ']' || c = '\x7b' || c = '\x7d'

/-- A text without the ASCII blanks at its start. -/
def dropBlanks (text : List Char) : List Char :=
  text.dropWhile Text.isAsciiBlank

/-- Reads the key of a field between braces, and the blanks around it. -/
def fieldKey (text : List Char) : Except Flaw (List Char) :=
  let isKeyChar (c : Char) : Bool := c.isAlphanum || c = '_' || c = '-'
  match dropBlanks text with
  | '"' :: rest => (quoted rest).map fun (_, rest) => dropBlanks rest
  | text =>
    if (text.takeWhile isKeyChar).isEmpty then .error .unfit
    else .ok (dropBlanks (text.dropWhile isKeyChar))

mutual

/-- Reads a value that nests no deeper than `fuel`, and the blanks around it. -/
def value : Nat → List Char → Except Flaw (Config.Value × List Char)
  | 0, _ => .error .unfit
  | fuel + 1, text => do
    let (found, rest) ← match dropBlanks text with
      | 't' :: 'r' :: 'u' :: 'e' :: rest => .ok (.foreign, rest)
      | 'f' :: 'a' :: 'l' :: 's' :: 'e' :: rest => .ok (.foreign, rest)
      | '[' :: rest => (items fuel rest).map (.foreign, ·)
      | '\x7b' :: rest => (fields fuel rest).map (.foreign, ·)
      | '"' :: rest =>
        (quoted rest).map fun (content, rest) => (.text (String.ofList content), rest)
      | '\'' :: c :: '\'' :: rest => .ok (.text (String.ofList [c]), rest)
      | '\'' :: _ => .error .unfit
      | text =>
        let content := text.takeWhile (!isSeparator ·)
        .ok (word (Text.trim content), text.dropWhile (!isSeparator ·))
    .ok (found, dropBlanks rest)

/-- Reads each `value` up to a closing bracket. -/
def items : Nat → List Char → Except Flaw (List Char)
  | 0, _ => .error .unfit
  | fuel + 1, text =>
    match text with
    | ']' :: rest => .ok rest
    | _ => do
      match ← value fuel text with
      | (_, ',' :: rest) => items fuel rest
      | (_, ']' :: rest) => .ok rest
      | _ => .error .unfit

/-- Reads each `fieldKey` and `value` up to a closing brace. No blanks may stand between a comma and
that brace, nor in empty braces. -/
def fields : Nat → List Char → Except Flaw (List Char)
  | 0, _ => .error .unfit
  | fuel + 1, text =>
    match text with
    | '\x7d' :: rest => .ok rest
    | _ => do
      match ← fieldKey text with
      | '=' :: rest =>
        match ← value fuel rest with
        | (_, ',' :: rest) => fields fuel rest
        | (_, '\x7d' :: rest) => .ok rest
        | _ => .error .unfit
      | _ => .error .unfit

end

/-- What the value of a variable means; `none` if it is torn. A text that does not fit its own
quotes or brackets is taken as it is. -/
def meaning? (text : String) : Option Config.Value :=
  let text := Text.trim text.toList
  if isPlainList text then some .foreign
  else
    match value (text.length + 1) text with
    | .ok (found, []) => some found
    | .ok (_, _ :: _) => some (.text (String.ofList text))
    | .error .unfit => some (.text (String.ofList text))
    | .error .torn => none

end Volley.CommandLine.Environment
