import Mathlib.Data.List.Infix
import Volley.Bytes
import Volley.Toml.Scalar

/-!
# JSON

The grammar of JSON texts, as a relation between a text, a value that is read off its front, and
what is left of the text (`Json.Reads`). Blanks may stand around every token. The first character
of a value says of which kind it is, so a text is read in one way at most, and an object ends with
a brace of its own.

## Main definitions

* `Json.Value`: what a JSON text can say.
* `Json.Reads`: a value is read off the front of a text.
* `Json.Denotes`: bytes are the JSON text of a value.

## Main results

* `Json.Reads.unique`, `Json.Denotes.unique`: a text says one thing at most.
* `Json.Reads.mem_of_object`: an object is closed.
-/

namespace Volley.Json

/-- What a JSON text says. The `fields` of an `object` are in the order of the text. -/
inductive Value where
  | null
  | bool (value : Bool)
  /-- The number `mantissa * 10 ^ exponent`, as it is written. -/
  | number (mantissa exponent : Int)
  | string (text : String)
  | array (items : List Value)
  | object (fields : List (String × Value))

/-! ## Tokens -/

/-- A character that may stand between tokens. -/
def isBlank (c : Char) : Bool :=
  c = ' ' || c = '\t' || c = '\n' || c = '\r'

/-- What comes after the characters at the front for which `isBlank` holds. -/
def skip (input : List Char) : List Char :=
  input.dropWhile isBlank

/-- The digits at the front, at least one, and what follows them. -/
def digits? (input : List Char) : Option (List Char × List Char) :=
  if input.takeWhile Char.isDigit = [] then none
  else some (input.takeWhile Char.isDigit, input.dropWhile Char.isDigit)

/-- The digits before a point, by `digits?`, which have no leading zeros. -/
def whole? (input : List Char) : Option (List Char × List Char) :=
  match digits? input with
  | some ('0' :: _ :: _, _) => none
  | found => found

/-- The digits behind a point, by `digits?`, if there is a point. -/
def fraction? : List Char → Option (List Char × List Char)
  | '.' :: input => digits? input
  | input => some ([], input)

/-- The number that digits write. -/
def decimal (digits : List Char) : Int :=
  Nat.ofDigitChars 10 digits 0

/-- The digits of an exponent, with an optional sign. -/
def power? : List Char → Option (Int × List Char)
  | '-' :: input => (digits? input).map fun (digits, rest) => (-decimal digits, rest)
  | '+' :: input => (digits? input).map fun (digits, rest) => (decimal digits, rest)
  | input => (digits? input).map fun (digits, rest) => (decimal digits, rest)

/-- The exponent behind the digits of a number, by `power?`; zero if there is none. -/
def exponent? : List Char → Option (Int × List Char)
  | 'e' :: input => power? input
  | 'E' :: input => power? input
  | input => some (0, input)

/-- The mantissa and the exponent of a number without a sign, by `whole?`, `fraction?` and
`exponent?`. -/
def magnitude? (input : List Char) : Option ((Int × Int) × List Char) := do
  let (whole, input) ← whole? input
  let (fraction, input) ← fraction? input
  let (exponent, rest) ← exponent? input
  some ((decimal (whole ++ fraction), exponent - fraction.length), rest)

/-- The mantissa and the exponent of the number at the front, by `magnitude?` behind an optional
sign. -/
def number? : List Char → Option ((Int × Int) × List Char)
  | '-' :: input => (magnitude? input).map fun ((mantissa, exponent), rest) =>
    ((-mantissa, exponent), rest)
  | input => magnitude? input

example : number? "-12.50e+3,".toList = some ((-1250, 1), [',']) := by decide

/-- The number that four hexadecimal digits write. -/
def unit? : List Char → Option (Nat × List Char)
  | a :: b :: c :: d :: rest =>
    ([a, b, c, d].mapM Toml.hexValue?).map fun digits => (Toml.inBase 16 digits, rest)
  | _ => none

/-- The character beyond the first plane with the first half `high`, whose second half is escaped at
the front. -/
def lowHalf? (high : Nat) : List Char → Option (Char × List Char)
  | '\\' :: 'u' :: input => do
    let (low, rest) ← unit? input
    if high < 0xDC00 ∧ 0xDC00 ≤ low ∧ low < 0xE000 then
      some (Char.ofNat (0x10000 + (high - 0xD800) * 0x400 + (low - 0xDC00)), rest)
    else none
  | _ => none

/-- The character whose code unit, by `unit?`, is escaped at the front, or both its halves. -/
def unicode? (input : List Char) : Option (Char × List Char) := do
  let (point, rest) ← unit? input
  if point.isValidChar then some (Char.ofNat point, rest) else lowHalf? point rest

/-- The character that a letter stands for behind a backslash. -/
def escaped? : Char → Option Char
  | '"' => some '"'
  | '\\' => some '\\'
  | '/' => some '/'
  | 'b' => some '\x08'
  | 'f' => some '\x0c'
  | 'n' => some '\n'
  | 'r' => some '\r'
  | 't' => some '\t'
  | _ => none

/-- Whether a character stands for itself inside quotes. -/
def isPlain (c : Char) : Bool :=
  c ≠ '"' && c ≠ '\\' && 0x20 ≤ c.toNat

/-- The character at the front of what stands inside quotes: one that `isPlain`, or one that is
escaped. -/
def character? : List Char → Option (Char × List Char)
  | [] => none
  | '\\' :: 'u' :: input => unicode? input
  | '\\' :: letter :: input => (escaped? letter).map (·, input)
  | c :: input => if isPlain c then some (c, input) else none

example : character? "\\uD834\\uDD1E!".toList = some ('𝄞', ['!']) := by decide

/-- The characters up to the closing quote are read off the front of a text, each by `character?`.
-/
inductive ReadsString : List Char → List Char → List Char → Prop
  | close {rest : List Char} : ReadsString ('"' :: rest) [] rest
  | character {input after rest content : List Char} {c : Char}
      (first : character? input = some (c, after)) (others : ReadsString after content rest) :
      ReadsString input (c :: content) rest

/-! ## Values -/

mutual

/-- A value is read off the front of a text. -/
inductive Reads : List Char → Value → List Char → Prop
  | null {rest : List Char} : Reads ('n' :: 'u' :: 'l' :: 'l' :: rest) .null rest
  | true {rest : List Char} : Reads ('t' :: 'r' :: 'u' :: 'e' :: rest) (.bool true) rest
  | false {rest : List Char} : Reads ('f' :: 'a' :: 'l' :: 's' :: 'e' :: rest) (.bool false) rest
  | number {input rest : List Char} {mantissa exponent : Int}
      (digits : number? input = some ((mantissa, exponent), rest)) :
      Reads input (.number mantissa exponent) rest
  | string {input content rest : List Char} (characters : ReadsString input content rest) :
      Reads ('"' :: input) (.string (String.ofList content)) rest
  | emptyArray {input rest : List Char} (close : skip input = ']' :: rest) :
      Reads ('[' :: input) (.array []) rest
  | array {input after rest : List Char} {item : Value} {items : List Value}
      (first : Reads (skip input) item after) (others : ReadsItems (skip after) items rest) :
      Reads ('[' :: input) (.array (item :: items)) rest
  | emptyObject {input rest : List Char} (close : skip input = '}' :: rest) :
      Reads ('{' :: input) (.object []) rest
  | object {input after rest : List Char} {field : String × Value}
      {fields : List (String × Value)} (first : ReadsField (skip input) field after)
      (others : ReadsFields (skip after) fields rest) :
      Reads ('{' :: input) (.object (field :: fields)) rest

/-- What comes behind an item of an array is read, up to the closing bracket: a comma and one item
more by `Reads`, each time. -/
inductive ReadsItems : List Char → List Value → List Char → Prop
  | close {rest : List Char} : ReadsItems (']' :: rest) [] rest
  | item {input after rest : List Char} {item : Value} {items : List Value}
      (first : Reads (skip input) item after) (others : ReadsItems (skip after) items rest) :
      ReadsItems (',' :: input) (item :: items) rest

/-- A field of an object is read: its name by `ReadsString`, a colon, and its value by `Reads`. -/
inductive ReadsField : List Char → String × Value → List Char → Prop
  | field {input content named colon rest : List Char} {value : Value}
      (name : ReadsString input content named) (separator : skip named = ':' :: colon)
      (meaning : Reads (skip colon) value rest) :
      ReadsField ('"' :: input) (String.ofList content, value) rest

/-- What comes behind a field of an object is read, up to the closing brace: a comma and one field
more by `ReadsField`, each time. -/
inductive ReadsFields : List Char → List (String × Value) → List Char → Prop
  | close {rest : List Char} : ReadsFields ('}' :: rest) [] rest
  | field {input after rest : List Char} {field : String × Value}
      {fields : List (String × Value)} (first : ReadsField (skip input) field after)
      (others : ReadsFields (skip after) fields rest) :
      ReadsFields (',' :: input) (field :: fields) rest

end

/-- The whole of `bytes` is the text of one `value`, by `Reads`, with blanks around it or without.
-/
def Denotes (bytes : Bytes) (value : Value) : Prop :=
  ∃ text rest, Bytes.text? bytes = some text ∧ Reads (skip text.toList) value rest ∧ skip rest = []

/-! ## One reading -/

/-- What `ReadsString` reads is unique: a closing quote is not one of the characters. -/
theorem ReadsString.unique {input content content' rest rest' : List Char}
    (h : ReadsString input content rest) (h' : ReadsString input content' rest') :
    content = content' ∧ rest = rest' := by
  induction h generalizing content' with
  | close =>
    cases h' with
    | close => exact ⟨rfl, rfl⟩
    | character first => simp [character?, isPlain] at first
  | character first others ih =>
    cases h' with
    | close => simp [character?, isPlain] at first
    | character first' others' =>
      rw [first] at first'
      cases first'
      obtain ⟨rfl, rfl⟩ := ih others'
      exact ⟨rfl, rfl⟩

/-- A number begins with a digit or a sign, or `number?` finds none. -/
theorem number?_eq_none {c : Char} (hsign : c ≠ '-') (hdigit : c.isDigit = false)
    (input : List Char) : number? (c :: input) = none := by
  simp [number?, magnitude?, whole?, digits?, hsign, hdigit]

/-- No value that `Reads` reads begins with the bracket that closes an array. -/
theorem not_reads_bracket {input rest : List Char} {value : Value} :
    ¬ Reads (']' :: input) value rest := by
  intro h
  cases h with
  | number digits => simp [number?_eq_none] at digits

mutual

/-- What `Reads` reads off the front of a text is one value at most, and it ends at one place. -/
theorem Reads.unique {input rest rest' : List Char} {value value' : Value}
    (h : Reads input value rest) (h' : Reads input value' rest') :
    value = value' ∧ rest = rest' := by
  -- Both readings begin with one character, which says of which kind the value is. Only a number
  -- is not known by one character alone.
  cases h with
  | null =>
    cases h' with
    | null => exact ⟨rfl, rfl⟩
    | number digits => simp [number?_eq_none] at digits
  | true =>
    cases h' with
    | true => exact ⟨rfl, rfl⟩
    | number digits => simp [number?_eq_none] at digits
  | false =>
    cases h' with
    | false => exact ⟨rfl, rfl⟩
    | number digits => simp [number?_eq_none] at digits
  | number digits =>
    cases h' with
    | number digits' =>
      rw [digits] at digits'
      cases digits'
      exact ⟨rfl, rfl⟩
    | _ => simp [number?_eq_none] at digits
  | string characters =>
    cases h' with
    | number digits => simp [number?_eq_none] at digits
    | string characters' =>
      obtain ⟨rfl, rfl⟩ := characters.unique characters'
      exact ⟨rfl, rfl⟩
  | emptyArray close =>
    cases h' with
    | number digits => simp [number?_eq_none] at digits
    | emptyArray close' =>
      rw [close] at close'
      cases close'
      exact ⟨rfl, rfl⟩
    | array first others =>
      rw [close] at first
      exact absurd first not_reads_bracket
  | array first others =>
    cases h' with
    | number digits => simp [number?_eq_none] at digits
    | emptyArray close' =>
      rw [close'] at first
      exact absurd first not_reads_bracket
    | array first' others' =>
      obtain ⟨rfl, rfl⟩ := first.unique first'
      obtain ⟨rfl, rfl⟩ := others.unique others'
      exact ⟨rfl, rfl⟩
  | emptyObject close =>
    cases h' with
    | number digits => simp [number?_eq_none] at digits
    | emptyObject close' =>
      rw [close] at close'
      cases close'
      exact ⟨rfl, rfl⟩
    | object first others =>
      rw [close] at first
      cases first
  | object first others =>
    cases h' with
    | number digits => simp [number?_eq_none] at digits
    | emptyObject close' =>
      rw [close'] at first
      cases first
    | object first' others' =>
      obtain ⟨rfl, rfl⟩ := first.unique first'
      obtain ⟨rfl, rfl⟩ := others.unique others'
      exact ⟨rfl, rfl⟩

theorem ReadsItems.unique {input rest rest' : List Char} {items items' : List Value}
    (h : ReadsItems input items rest) (h' : ReadsItems input items' rest') :
    items = items' ∧ rest = rest' := by
  cases h with
  | close =>
    cases h' with
    | close => exact ⟨rfl, rfl⟩
  | item first others =>
    cases h' with
    | item first' others' =>
      obtain ⟨rfl, rfl⟩ := first.unique first'
      obtain ⟨rfl, rfl⟩ := others.unique others'
      exact ⟨rfl, rfl⟩

theorem ReadsField.unique {input rest rest' : List Char} {field field' : String × Value}
    (h : ReadsField input field rest) (h' : ReadsField input field' rest') :
    field = field' ∧ rest = rest' := by
  cases h with
  | field name separator meaning =>
    cases h' with
    | field name' separator' meaning' =>
      obtain ⟨rfl, rfl⟩ := name.unique name'
      rw [separator] at separator'
      cases separator'
      obtain ⟨rfl, rfl⟩ := meaning.unique meaning'
      exact ⟨rfl, rfl⟩

theorem ReadsFields.unique {input rest rest' : List Char} {fields fields' : List (String × Value)}
    (h : ReadsFields input fields rest) (h' : ReadsFields input fields' rest') :
    fields = fields' ∧ rest = rest' := by
  cases h with
  | close =>
    cases h' with
    | close => exact ⟨rfl, rfl⟩
  | field first others =>
    cases h' with
    | field first' others' =>
      obtain ⟨rfl, rfl⟩ := first.unique first'
      obtain ⟨rfl, rfl⟩ := others.unique others'
      exact ⟨rfl, rfl⟩

end

theorem Denotes.unique {bytes : Bytes} {value value' : Value} (h : Denotes bytes value)
    (h' : Denotes bytes value') : value = value' := by
  obtain ⟨text, rest, htext, hreads, -⟩ := h
  obtain ⟨text', rest', htext', hreads', -⟩ := h'
  rw [htext] at htext'
  cases htext'
  exact (hreads.unique hreads').1

/-! ## What is left -/

theorem skip_suffix (input : List Char) : skip input <:+ input :=
  List.dropWhile_suffix _

theorem digits?_suffix {input digits rest : List Char} (h : digits? input = some (digits, rest)) :
    rest <:+ input := by
  unfold digits? at h
  split at h
  · cases h
  · cases h
    exact List.dropWhile_suffix _

theorem whole?_suffix {input whole rest : List Char} (h : whole? input = some (whole, rest)) :
    rest <:+ input := by
  unfold whole? at h
  split at h
  · cases h
  · exact digits?_suffix h

theorem fraction?_suffix {input fraction rest : List Char}
    (h : fraction? input = some (fraction, rest)) : rest <:+ input := by
  unfold fraction? at h
  split at h
  · exact (digits?_suffix h).trans (List.suffix_cons _ _)
  · cases h
    exact List.suffix_refl _

theorem power?_suffix {input rest : List Char} {exponent : Int}
    (h : power? input = some (exponent, rest)) : rest <:+ input := by
  unfold power? at h
  split at h
  all_goals
    obtain ⟨⟨digits, rest'⟩, hdigits, heq⟩ := Option.map_eq_some_iff.mp h
    cases heq
  · exact (digits?_suffix hdigits).trans (List.suffix_cons _ _)
  · exact (digits?_suffix hdigits).trans (List.suffix_cons _ _)
  · exact digits?_suffix hdigits

theorem exponent?_suffix {input rest : List Char} {exponent : Int}
    (h : exponent? input = some (exponent, rest)) : rest <:+ input := by
  unfold exponent? at h
  split at h
  · exact (power?_suffix h).trans (List.suffix_cons _ _)
  · exact (power?_suffix h).trans (List.suffix_cons _ _)
  · cases h
    exact List.suffix_refl _

theorem magnitude?_suffix {input rest : List Char} {parts : Int × Int}
    (h : magnitude? input = some (parts, rest)) : rest <:+ input := by
  simp only [magnitude?, Option.bind_eq_bind, Option.bind_eq_some_iff, Option.some.injEq,
    Prod.mk.injEq, Prod.exists] at h
  obtain ⟨whole, afterWhole, hwhole, fraction, afterFraction, hfraction, exponent, last,
    hexponent, -, rfl⟩ := h
  exact (exponent?_suffix hexponent).trans
    ((fraction?_suffix hfraction).trans (whole?_suffix hwhole))

theorem number?_suffix {input rest : List Char} {parts : Int × Int}
    (h : number? input = some (parts, rest)) : rest <:+ input := by
  unfold number? at h
  split at h
  · obtain ⟨⟨parts, rest'⟩, hmagnitude, heq⟩ := Option.map_eq_some_iff.mp h
    cases heq
    exact (magnitude?_suffix hmagnitude).trans (List.suffix_cons _ _)
  · exact magnitude?_suffix h

theorem unit?_suffix {input rest : List Char} {point : Nat} (h : unit? input = some (point, rest)) :
    rest <:+ input := by
  unfold unit? at h
  split at h
  · next a b c d tail =>
    obtain ⟨digits, -, heq⟩ := Option.map_eq_some_iff.mp h
    cases heq
    exact List.suffix_append [a, b, c, d] _
  · cases h

theorem lowHalf?_suffix {high : Nat} {input rest : List Char} {c : Char}
    (h : lowHalf? high input = some (c, rest)) : rest <:+ input := by
  unfold lowHalf? at h
  split at h
  · simp only [Option.bind_eq_bind, Option.bind_eq_some_iff, Prod.exists,
      Option.ite_none_right_eq_some, Option.some.injEq, Prod.mk.injEq] at h
    obtain ⟨low, last, hunit, -, -, rfl⟩ := h
    exact (unit?_suffix hunit).trans (List.suffix_append ['\\', 'u'] _)
  · cases h

theorem unicode?_suffix {input rest : List Char} {c : Char}
    (h : unicode? input = some (c, rest)) : rest <:+ input := by
  simp only [unicode?, Option.bind_eq_bind, Option.bind_eq_some_iff, Prod.exists] at h
  obtain ⟨point, after, hunit, h⟩ := h
  split at h
  · cases h
    exact unit?_suffix hunit
  · exact (lowHalf?_suffix h).trans (unit?_suffix hunit)

theorem character?_suffix {input rest : List Char} {c : Char}
    (h : character? input = some (c, rest)) : rest <:+ input := by
  unfold character? at h
  split at h
  · cases h
  · exact (unicode?_suffix h).trans (List.suffix_append ['\\', 'u'] _)
  · next letter tail _ =>
    obtain ⟨escaped, -, heq⟩ := Option.map_eq_some_iff.mp h
    cases heq
    exact List.suffix_append ['\\', letter] _
  · split at h
    · cases h
      exact List.suffix_cons _ _
    · cases h

theorem ReadsString.suffix {input content rest : List Char} (h : ReadsString input content rest) :
    rest <:+ input := by
  induction h with
  | close => exact List.suffix_cons _ _
  | character first others ih => exact ih.trans (character?_suffix first)

/-- What is left behind a bracket and blanks before it. -/
theorem suffix_of_skip {input rest : List Char} {c : Char} (h : skip input = c :: rest) :
    rest <:+ input := by
  have hrest : rest <:+ skip input := by
    rw [h]
    exact List.suffix_cons c rest
  exact hrest.trans (skip_suffix input)

/-- What is left behind two parts that follow a bracket or a comma. -/
theorem suffix_of_parts {input after rest : List Char} (hfirst : after <:+ skip input)
    (hothers : rest <:+ skip after) (c : Char) : rest <:+ c :: input :=
  calc
    rest <:+ skip after := hothers
    _ <:+ after := skip_suffix after
    _ <:+ skip input := hfirst
    _ <:+ input := skip_suffix input
    _ <:+ c :: input := List.suffix_cons c input

mutual

/-- What `Reads` leaves behind a value is the end of the text. -/
theorem Reads.suffix {input rest : List Char} {value : Value} (h : Reads input value rest) :
    rest <:+ input := by
  cases h with
  | null => exact List.suffix_append ['n', 'u', 'l', 'l'] _
  | true => exact List.suffix_append ['t', 'r', 'u', 'e'] _
  | false => exact List.suffix_append ['f', 'a', 'l', 's', 'e'] _
  | number digits => exact number?_suffix digits
  | string characters => exact characters.suffix.trans (List.suffix_cons _ _)
  | emptyArray close => exact (suffix_of_skip close).trans (List.suffix_cons _ _)
  | array first others => exact suffix_of_parts first.suffix others.suffix _
  | emptyObject close => exact (suffix_of_skip close).trans (List.suffix_cons _ _)
  | object first others => exact suffix_of_parts first.suffix others.suffix _

theorem ReadsItems.suffix {input rest : List Char} {items : List Value}
    (h : ReadsItems input items rest) : rest <:+ input := by
  cases h with
  | close => exact List.suffix_cons _ _
  | item first others => exact suffix_of_parts first.suffix others.suffix _

theorem ReadsField.suffix {input rest : List Char} {field : String × Value}
    (h : ReadsField input field rest) : rest <:+ input := by
  cases h with
  | @field _ _ named colon _ _ name separator meaning =>
    have hmeaning : rest <:+ colon := meaning.suffix.trans (skip_suffix colon)
    have hname : colon <:+ named := suffix_of_skip separator
    exact hmeaning.trans (hname.trans (name.suffix.trans (List.suffix_cons _ _)))

theorem ReadsFields.suffix {input rest : List Char} {fields : List (String × Value)}
    (h : ReadsFields input fields rest) : rest <:+ input := by
  cases h with
  | close => exact List.suffix_cons _ _
  | field first others => exact suffix_of_parts first.suffix others.suffix _

end

/-- The fields that `ReadsFields` reads are followed by the brace of the object. -/
theorem ReadsFields.mem : ∀ {input rest : List Char} {fields : List (String × Value)},
    ReadsFields input fields rest → '}' ∈ input
  | _, _, _, .close => List.mem_cons_self
  | _, _, _, .field first others =>
    (suffix_of_parts first.suffix (List.suffix_refl _) _).mem others.mem

theorem Reads.ne_nil {input rest : List Char} {value : Value} (h : Reads input value rest) :
    input ≠ [] := by
  rintro rfl
  cases h with
  | number digits => cases digits

/-- What begins like an object is not read by `Reads` without the brace that closes it. -/
theorem Reads.mem_of_object {input rest : List Char} {value : Value}
    (h : Reads ('{' :: input) value rest) : '}' ∈ input := by
  cases h with
  | number digits => simp [number?_eq_none] at digits
  | emptyObject close =>
    refine (skip_suffix input).mem ?_
    rw [close]
    exact List.mem_cons_self
  | object first others =>
    have hafter := first.suffix.trans (skip_suffix input)
    exact ((skip_suffix _).trans hafter).mem others.mem

/-! ## Spellings that can be read -/

@[simp]
theorem skip_cons {c : Char} (h : isBlank c = false) (input : List Char) :
    skip (c :: input) = c :: input := by
  simp [skip, h]

theorem toNat_of_isAlphanum {c : Char} (h : c.isAlphanum = true) :
    48 ≤ c.toNat ∧ c.toNat ≤ 122 := by
  have hval : c.toNat = c.val.toNat := rfl
  -- Upper case, lower case and digits.
  have hranges : ((decide (65 ≤ c.val ∧ c.val ≤ 90) || (decide (97 ≤ c.val) &&
      decide (c.val ≤ 122))) || (decide (48 ≤ c.val) && decide (c.val ≤ 57))) = true := h
  simp only [Bool.or_eq_true, Bool.and_eq_true, decide_eq_true_eq, UInt32.le_iff_toNat_le,
    UInt32.reduceToNat] at hranges
  omega

theorem isPlain_of_isAlpha {c : Char} (h : c.isAlpha = true) : isPlain c = true := by
  have hquote : c ≠ '"' := by
    rintro rfl
    simp at h
  have hbackslash : c ≠ '\\' := by
    rintro rfl
    simp at h
  have hlower : 0x20 ≤ c.toNat := by
    have hbounds := toNat_of_isAlphanum (c := c) (by simp [Char.isAlphanum, h])
    omega
  simp [isPlain, hquote, hbackslash, hlower]

theorem character?_of_isPlain {c : Char} (h : isPlain c = true) (input : List Char) :
    character? (c :: input) = some (c, input) := by
  have hbackslash : c ≠ '\\' := by
    rintro rfl
    simp [isPlain] at h
  simp [character?, hbackslash, h]

/-- Letters stand for themselves in `ReadsString`. -/
theorem readsString_of_isAlpha {content : List Char} (h : ∀ c ∈ content, c.isAlpha = true)
    (rest : List Char) : ReadsString (content ++ '"' :: rest) content rest := by
  induction content with
  | nil => exact .close
  | cons c content ih =>
    have hc := isPlain_of_isAlpha (h c List.mem_cons_self)
    have hothers := ih fun other hother => h other (List.mem_cons_of_mem c hother)
    exact .character (character?_of_isPlain hc _) hothers

/-- Characters in quotes. -/
def quoted (content : List Char) : List Char :=
  '"' :: (content ++ ['"'])

theorem reads_quoted {content : List Char} (h : ∀ c ∈ content, c.isAlpha = true)
    (rest : List Char) : Reads (quoted content ++ rest) (.string (String.ofList content)) rest := by
  have hcontent := readsString_of_isAlpha h rest
  simpa [quoted] using Reads.string hcontent

@[simp]
theorem skip_quoted (content rest : List Char) :
    skip (quoted content ++ rest) = quoted content ++ rest :=
  skip_cons rfl _

/-- The name of a field, in front of its value. -/
def label (name : String) : List Char :=
  quoted name.toList ++ [':']

theorem readsField_label {name : String} (h : ∀ c ∈ name.toList, c.isAlpha = true)
    {input rest : List Char} {value : Value} (hvalue : Reads (skip input) value rest) :
    ReadsField (label name ++ input) (name, value) rest := by
  have hname := readsString_of_isAlpha h (':' :: input)
  have hfield := ReadsField.field hname (skip_cons rfl input) hvalue
  simpa [label, quoted] using hfield

/-- The digits of a positive number do not begin with a zero. -/
theorem head?_toDigits_ne {n : Nat} (h : 0 < n) : (Nat.toDigits 10 n).head? ≠ some '0' := by
  induction n using Nat.strongRecOn with
  | ind n ih =>
    by_cases hn : n < 10
    · have hne : n ≠ 0 := Nat.ne_of_gt h
      simpa [Nat.toDigits_of_lt_base hn] using hne
    · have hle : 10 ≤ n := Nat.le_of_not_lt hn
      rw [Nat.toDigits_of_base_le (by decide) hle,
        List.head?_append_of_ne_nil _ Nat.toDigits_ne_nil]
      exact ih _ (Nat.div_lt_self h (by decide)) (by omega)

/-- By `digits?`, the digits of a number are read up to a comma. -/
theorem digits?_toDigits (n : Nat) (rest : List Char) :
    digits? (Nat.toDigits 10 n ++ ',' :: rest) = some (Nat.toDigits 10 n, ',' :: rest) := by
  have hdigits : ∀ c ∈ Nat.toDigits 10 n, c.isDigit = true := fun c hc =>
    Nat.isDigit_of_mem_toDigits (by decide) (by decide) hc
  simp [digits?, List.takeWhile_append_of_pos hdigits, List.dropWhile_append_of_pos hdigits,
    Nat.toDigits_ne_nil]

theorem whole?_toDigits (n : Nat) (rest : List Char) :
    whole? (Nat.toDigits 10 n ++ ',' :: rest) = some (Nat.toDigits 10 n, ',' :: rest) := by
  unfold whole?
  rw [digits?_toDigits]
  split
  · next heq =>
    -- Only zero begins with a zero, and it has no second digit.
    simp only [Option.some.injEq, Prod.mk.injEq] at heq
    rcases Nat.eq_zero_or_pos n with rfl | hpos
    · simp at heq
    · exact absurd (by rw [heq.1]; rfl) (head?_toDigits_ne hpos)
  · rfl

theorem magnitude?_toDigits (n : Nat) (rest : List Char) :
    magnitude? (Nat.toDigits 10 n ++ ',' :: rest) = some (((n : Int), 0), ',' :: rest) := by
  simp [magnitude?, whole?_toDigits, fraction?, exponent?, decimal, Nat.ofDigitChars_ten_toDigits]

theorem number?_toDigits (n : Nat) (rest : List Char) :
    number? (Nat.toDigits 10 n ++ ',' :: rest) = some (((n : Int), 0), ',' :: rest) := by
  -- The first digit is no sign.
  obtain ⟨c, cs, hdigits⟩ := List.exists_cons_of_ne_nil (Nat.toDigits_ne_nil (n := n) (b := 10))
  have hdigit : c.isDigit = true :=
    Nat.isDigit_of_mem_toDigits (by decide) (by decide) (hdigits ▸ List.mem_cons_self)
  have hsign : c ≠ '-' := by
    rintro rfl
    simp at hdigit
  rw [← magnitude?_toDigits, hdigits]
  simp [number?, hsign]

theorem number?_toString (n : Int) (rest : List Char) :
    number? ((toString n).toList ++ ',' :: rest) = some ((n, 0), ',' :: rest) := by
  rw [Int.toString_eq_repr, Int.repr_eq_if]
  by_cases hn : 0 ≤ n
  · have hself : ((n.toNat : Nat) : Int) = n := Int.toNat_of_nonneg hn
    simp [hn, number?_toDigits, hself]
  · simp only [hn, if_false, String.toList_append, Nat.toList_repr]
    have hself : -(max (-n) 0) = n := by omega
    -- The sign is taken off, and put back in front of the number.
    show (magnitude? (Nat.toDigits 10 (-n).toNat ++ ',' :: rest)).map _ = _
    simpa [magnitude?_toDigits] using hself

theorem mem_toString {n : Int} {c : Char} (h : c ∈ (toString n).toList) :
    c.isDigit = true ∨ c = '-' := by
  have hdigits : ∀ m : Nat, c ∈ m.repr.toList → c.isDigit = true := by
    intro m hc
    rw [Nat.toList_repr] at hc
    exact Nat.isDigit_of_mem_toDigits (by decide) (by decide) hc
  rw [Int.toString_eq_repr, Int.repr_eq_if] at h
  split at h
  · exact Or.inl (hdigits _ h)
  · rw [String.toList_append, List.mem_append] at h
    rcases h with hsign | hdigit
    · exact Or.inr (by simpa using hsign)
    · exact Or.inl (hdigits _ hdigit)

/-- By `Reads`, a whole number is read as it is written, up to a comma. -/
theorem reads_toString (n : Int) (rest : List Char) :
    Reads (skip ((toString n).toList ++ ',' :: rest)) (.number n 0) (',' :: rest) := by
  -- What the number begins with is no blank.
  have hskip : skip ((toString n).toList ++ ',' :: rest) = (toString n).toList ++ ',' :: rest := by
    cases htext : (toString n).toList with
    | nil => rfl
    | cons c cs =>
      have hc : c ∈ (toString n).toList := htext ▸ List.mem_cons_self
      have hblank : isBlank c = false := by
        rcases mem_toString hc with hdigit | rfl
        · simp only [isBlank, Bool.or_eq_false_iff, decide_eq_false_iff_not]
          refine ⟨⟨⟨?_, ?_⟩, ?_⟩, ?_⟩ <;> rintro rfl <;> simp at hdigit
        · rfl
      exact skip_cons hblank _
  rw [hskip]
  exact .number (number?_toString n rest)

/-- By `ReadsField`, a `label` and a whole number are read as a field. -/
theorem readsField_toString (name : String) (h : ∀ c ∈ name.toList, c.isAlpha = true) (n : Int)
    (rest : List Char) :
    ReadsField (label name ++ ((toString n).toList ++ ',' :: rest)) (name, .number n 0)
      (',' :: rest) :=
  readsField_label h (reads_toString n rest)

/-- By `ReadsField`, a `label` and letters in quotes are read as a field. -/
theorem readsField_quoted (name : String) (h : ∀ c ∈ name.toList, c.isAlpha = true)
    {content : List Char} (hcontent : ∀ c ∈ content, c.isAlpha = true) (rest : List Char) :
    ReadsField (label name ++ (quoted content ++ rest)) (name, .string (String.ofList content))
      rest := by
  refine readsField_label h ?_
  rw [skip_quoted]
  exact reads_quoted hcontent rest

end Volley.Json
