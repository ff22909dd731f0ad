import Volley.Text.Unsigned

/-!
# Scalars of TOML

The spellings of single values in a configuration file: texts in their four kinds of quotes, whole
numbers, and what a file may hold beside them, floating numbers, truth values and dates. A reader
takes characters off the front of a text and returns what they mean with the rest of the text.
-/

namespace Volley.Toml

/-! ### Texts -/

/-- Whether a character may not stand as itself in a text on one line. -/
def isControl (c : Char) : Bool :=
  (c.toNat < 0x20 && c ≠ '\t') || c.toNat = 0x7F

/-- The value of a hexadecimal digit. -/
def hexValue? (c : Char) : Option Nat :=
  if '0' ≤ c ∧ c ≤ '9' then some (c.toNat - '0'.toNat)
  else if 'a' ≤ c ∧ c ≤ 'f' then some (c.toNat - 'a'.toNat + 10)
  else if 'A' ≤ c ∧ c ≤ 'F' then some (c.toNat - 'A'.toNat + 10)
  else none

/-- The number that `digits` write in a base. -/
def inBase (base : Nat) (digits : List Nat) : Nat :=
  digits.foldl (fun value digit => value * base + digit) 0

/-- The number that digits write in a base, or `cap` if it is greater. It is as good as the number
itself where only numbers below the cap are told apart, and it is found without writing out long
ones. -/
def inBaseUpTo (cap base : Nat) (digits : List Nat) : Nat :=
  digits.foldl (fun value digit => min (value * base + digit) cap) 0

theorem inBaseUpTo_eq {cap base : Nat} (hb : 0 < base) (digits : List Nat) :
    inBaseUpTo cap base digits = min (inBase base digits) cap := by
  suffices h : ∀ value, digits.foldl (fun value digit => min (value * base + digit) cap)
      (min value cap) = min (digits.foldl (fun value digit => value * base + digit) value) cap by
    simpa only [inBaseUpTo, inBase, Nat.zero_min] using h 0
  induction digits with
  | nil => intro value; rfl
  | cons digit rest ih =>
    intro value
    have step : min (min value cap * base + digit) cap = min (value * base + digit) cap := by
      rcases Nat.le_total value cap with hle | hle
      · rw [Nat.min_eq_left hle]
      · have hc : cap * 1 ≤ cap * base := Nat.mul_le_mul_left cap hb
        have hv : cap * base ≤ value * base := Nat.mul_le_mul_right base hle
        rw [Nat.min_eq_right hle, Nat.min_eq_right (by omega), Nat.min_eq_right (by omega)]
    rw [List.foldl_cons, List.foldl_cons, step, ih]

/-- The character with a hexadecimal code point of these `digits`, which must not be a surrogate. -/
def codePoint? (digits : List Char) : Option Char := do
  let point := inBase 16 (← digits.mapM hexValue?)
  if point.isValidChar then some (Char.ofNat point) else none

/-- The character that a letter stands for after a backslash. -/
def escaped? : Char → Option Char
  | 'b' => some '\x08'
  | 't' => some '\t'
  | 'n' => some '\n'
  | 'f' => some '\x0c'
  | 'r' => some '\r'
  | '"' => some '"'
  | '\\' => some '\\'
  | _ => none

/-- Reads the rest of a text in double quotes, with what is `escaped?` in it. -/
def basicText : List Char → Option (List Char × List Char)
  | [] => none
  | '"' :: rest => some ([], rest)
  | '\\' :: 'u' :: a :: b :: c :: d :: rest => do
    let point ← codePoint? [a, b, c, d]
    let (content, rest) ← basicText rest
    some (point :: content, rest)
  | '\\' :: 'U' :: a :: b :: c :: d :: e :: f :: g :: h :: rest => do
    let point ← codePoint? [a, b, c, d, e, f, g, h]
    let (content, rest) ← basicText rest
    some (point :: content, rest)
  | '\\' :: c :: rest => do
    let escaped ← escaped? c
    let (content, rest) ← basicText rest
    some (escaped :: content, rest)
  | c :: rest =>
    if isControl c then none
    else do
      let (content, rest) ← basicText rest
      some (c :: content, rest)

/-- Reads the rest of a text in single quotes, in which nothing is escaped. -/
def literalText : List Char → Option (List Char × List Char)
  | [] => none
  | '\'' :: rest => some ([], rest)
  | c :: rest =>
    if isControl c then none
    else do
      let (content, rest) ← literalText rest
      some (c :: content, rest)

/-- Whether nothing but blanks is before the end of the line. -/
def endsLine (text : List Char) : Bool :=
  match text.dropWhile (fun c => c = ' ' || c = '\t') with
  | '\n' :: _ => true
  | _ => false

/-- Reads the rest of a text in three double quotes. A backslash at the end of a line joins it with
the next: while `joining`, blanks and line ends are dropped. -/
def longText (joining : Bool) : List Char → Option (List Char × List Char)
  | [] => none
  | '"' :: '"' :: '"' :: '"' :: '"' :: rest => some (['"', '"'], rest)
  | '"' :: '"' :: '"' :: '"' :: rest => some (['"'], rest)
  | '"' :: '"' :: '"' :: rest => some ([], rest)
  | '\\' :: 'u' :: a :: b :: c :: d :: rest => do
    let point ← codePoint? [a, b, c, d]
    let (content, rest) ← longText false rest
    some (point :: content, rest)
  | '\\' :: 'U' :: a :: b :: c :: d :: e :: f :: g :: h :: rest => do
    let point ← codePoint? [a, b, c, d, e, f, g, h]
    let (content, rest) ← longText false rest
    some (point :: content, rest)
  | '\\' :: c :: rest =>
    if endsLine (c :: rest) then longText true rest
    else do
      let escaped ← escaped? c
      let (content, rest) ← longText false rest
      some (escaped :: content, rest)
  | c :: rest =>
    if joining && (c = ' ' || c = '\t' || c = '\n') then longText true rest
    else do
      let (content, rest) ← longText false rest
      some (c :: content, rest)

/-- Reads the rest of a text in three single quotes. -/
def longLiteralText : List Char → Option (List Char × List Char)
  | [] => none
  | '\'' :: '\'' :: '\'' :: '\'' :: '\'' :: rest => some (['\'', '\''], rest)
  | '\'' :: '\'' :: '\'' :: '\'' :: rest => some (['\''], rest)
  | '\'' :: '\'' :: '\'' :: rest => some ([], rest)
  | c :: rest => do
    let (content, rest) ← longLiteralText rest
    some (c :: content, rest)

/-- The text without the line end that may follow its opening quotes. -/
def dropLineEnd : List Char → List Char
  | '\n' :: rest => rest
  | text => text

/-- Reads a text in any kind of quotes: `longText`, `longLiteralText`, `basicText` or `literalText`.
-/
def quotedText : List Char → Option (List Char × List Char)
  | '"' :: '"' :: '"' :: rest => longText false (dropLineEnd rest)
  | '\'' :: '\'' :: '\'' :: rest => longLiteralText (dropLineEnd rest)
  | '"' :: rest => basicText rest
  | '\'' :: rest => literalText rest
  | _ => none

/-! ### Numbers -/

/-- The digits of a number, each by `value?`, in which single underscores may be between two digits.
-/
def ungroup? (value? : Char → Option Nat) : List Char → Option (List Nat)
  | [] => none
  | [c] => (value? c).map ([·])
  | c :: '_' :: rest => do some ((← value? c) :: (← ungroup? value? rest))
  | c :: rest => do some ((← value? c) :: (← ungroup? value? rest))

/-- The value of a digit of a `base` up to sixteen. -/
def digitIn? (base : Nat) (c : Char) : Option Nat :=
  match hexValue? c with
  | some digit => if digit < base then some digit else none
  | none => none

/-- The digits of a decimal number without a sign, by `ungroup?`; it has no leading zeros. -/
def naturalDigits? (text : List Char) : Option (List Nat) :=
  match text with
  | '0' :: _ :: _ => none
  | _ => ungroup? Text.digitValue? text

/-- A sign, and the text behind it. -/
def sign : List Char → Int × List Char
  | '+' :: rest => (1, rest)
  | '-' :: rest => (-1, rest)
  | text => (1, text)

/-- What numbers are told apart up to by `inBaseUpTo`: it is greater than any number of 64 bits. -/
def numberCap : Nat := 0x10000000000000000

/-- A whole number of 64 bits, in base ten with a `sign`, or in base 16, 8 or 2. -/
def integer? (text : List Char) : Option Int := do
  let written (base : Nat) (digits : List Char) : Option Int :=
    (ungroup? (digitIn? base) digits).map fun ds => (inBaseUpTo numberCap base ds : Int)
  let value ← match text with
    | '0' :: 'x' :: digits => written 16 digits
    | '0' :: 'o' :: digits => written 8 digits
    | '0' :: 'b' :: digits => written 2 digits
    | _ =>
      let (sign, digits) := sign text
      (naturalDigits? digits).map fun ds => sign * inBaseUpTo numberCap 10 ds
  if -0x8000000000000000 ≤ value ∧ value ≤ 0x7FFFFFFFFFFFFFFF then some value else none

/-- The digits of a floating number and the power of ten that goes with it. -/
structure Decimal where
  /-- The digits before the point. -/
  whole : List Nat
  /-- The digits behind the point. -/
  fraction : List Nat
  exponent : Int
  deriving DecidableEq, Repr

/-- The least number that is rounded to infinity: it lies halfway between the greatest floating
number of 64 bits and the next one, if there were one. -/
def Decimal.limit : Nat := 0x3FFFFFFFFFFFFF <<< 970

/-- The number of decimal digits of `Decimal.limit`. -/
def Decimal.limitDigits : Nat := 309

/-- Whether a number is rounded to infinity. Only one with as many digits before its point as
`limit` has to be compared with it. -/
def Decimal.overflows (number : Decimal) : Bool :=
  let digits := (number.whole ++ number.fraction).dropWhile (· = 0)
  let wholeDigits : Int := digits.length - number.fraction.length + number.exponent
  let padding := List.replicate limitDigits 0
  digits ≠ [] &&
    (wholeDigits > limitDigits ||
      wholeDigits = limitDigits && limit ≤ inBase 10 ((digits ++ padding).take limitDigits))

/-- The exponent that a text writes. One beyond `numberCap` is taken for the cap itself, which
outweighs the digits of any text. -/
def exponent? (text : List Char) : Option Int :=
  let power (text : List Char) : Option Int :=
    (ungroup? Text.digitValue? (sign text).2).map fun ds =>
      (sign text).1 * inBaseUpTo numberCap 10 ds
  match text with
  | 'e' :: rest => power rest
  | 'E' :: rest => power rest
  | _ => none

/-- The floating number that a text without a sign writes: it has a `fraction`, an `exponent`, or
both. -/
def decimal? (text : List Char) : Option Decimal := do
  let inNumber (c : Char) : Bool := c.isDigit || c = '_'
  let whole ← naturalDigits? (text.takeWhile inNumber)
  match text.dropWhile inNumber with
  | '.' :: rest =>
    let fraction ← ungroup? Text.digitValue? (rest.takeWhile inNumber)
    match rest.dropWhile inNumber with
    | [] => some { whole, fraction, exponent := 0 }
    | rest => some { whole, fraction, exponent := ← exponent? rest }
  | rest => some { whole, fraction := [], exponent := ← exponent? rest }

/-- Whether a text writes out a number that `Decimal.overflows`. -/
def overflows (text : List Char) : Bool :=
  (decimal? (sign text).2).any Decimal.overflows

/-- Whether a text is a floating number. A positive one that is infinite has to be written as such,
so it must not be one that `overflows`. -/
def isFloat (text : List Char) : Bool :=
  let (sign, number) := sign text
  if number = ['i', 'n', 'f'] || number = ['n', 'a', 'n'] then true
  else
    match decimal? number with
    | some number => sign < 0 || !number.overflows
    | none => false

/-! ### Dates and times -/

/-- The number that two digits write. -/
def twoDigits? (a b : Char) : Option Nat :=
  Text.decimal? 99 [a, b]

/-- The number of days of `month` in `year`. -/
def daysIn (year month : Nat) : Nat :=
  if month = 2 then
    if year % 4 = 0 ∧ (year % 100 ≠ 0 ∨ year % 400 = 0) then 29 else 28
  else if month = 4 ∨ month = 6 ∨ month = 9 ∨ month = 11 then 30
  else 31

/-- Takes a date off the front of a text. -/
def date : List Char → Option (List Char)
  | y₁ :: y₂ :: y₃ :: y₄ :: '-' :: m₁ :: m₂ :: '-' :: d₁ :: d₂ :: rest => do
    let year ← Text.decimal? 9999 [y₁, y₂, y₃, y₄]
    let month ← twoDigits? m₁ m₂
    let day ← twoDigits? d₁ d₂
    if 1 ≤ month ∧ month ≤ 12 ∧ 1 ≤ day ∧ day ≤ daysIn year month then some rest else none
  | _ => none

/-- Whether a time of day may be without its seconds. -/
inductive Seconds where
  | required
  | optional
  deriving DecidableEq, Repr

/-- Takes the seconds of a `timeOfDay` off the front of a text, with the colon before them. -/
def secondsOfTime : List Char → Option (List Char)
  | ':' :: s₁ :: s₂ :: rest => do
    if (← twoDigits? s₁ s₂) ≤ 60 then
      match rest with
      | '.' :: fraction =>
        if (fraction.takeWhile Char.isDigit).isEmpty then none
        else some (fraction.dropWhile Char.isDigit)
      | _ => some rest
    else none
  | _ => none

/-- Takes a time of day off the front of a text. -/
def timeOfDay (seconds : Seconds) : List Char → Option (List Char)
  | h₁ :: h₂ :: ':' :: m₁ :: m₂ :: rest => do
    if (← twoDigits? h₁ h₂) ≤ 23 ∧ (← twoDigits? m₁ m₂) ≤ 59 then
      if seconds = .optional ∧ rest.head? ≠ some ':' then some rest else secondsOfTime rest
    else none
  | _ => none

/-- Whether a text is a distance from universal time. -/
def isOffset : List Char → Bool
  | ['Z'] => true
  | ['z'] => true
  | [sign, h₁, h₂, ':', m₁, m₂] =>
    (sign = '+' || sign = '-') &&
      (twoDigits? h₁ h₂).any (· ≤ 23) && (twoDigits? m₁ m₂).any (· ≤ 59)
  | _ => false

/-- Whether a text is a `timeOfDay` that may follow a `date`, with or without an offset. -/
def isTimeAfterDate (seconds : Seconds) (text : List Char) : Bool :=
  match timeOfDay seconds text with
  | some [] => true
  | some offset => isOffset offset
  | none => false

/-- Whether a text is a `date`, a `timeOfDay`, or both. -/
def isMoment (seconds : Seconds) (text : List Char) : Bool :=
  match date text with
  | some [] => true
  | some (separator :: time) =>
    (separator = 'T' || separator = 't' || separator = ' ') && isTimeAfterDate seconds time
  | none => timeOfDay seconds text = some []

end Volley.Toml
