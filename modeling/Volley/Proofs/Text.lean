import Mathlib.Data.List.DropRight
import Volley.Text.Blank
import Volley.Text.Unsigned

/-!
# Numbers and lists in text

What the readers of numbers and of comma-separated lists accept, in terms of the text alone: which
texts are unsigned numbers, and which parts a list has.

## Main definitions

* `Text.Decimal`: a text of digits that is a number.
* `Text.Unsigned`: a text of digits, after an optional plus sign, that is a number.
* `Text.commaParts`: the parts of a comma-separated list.

## Main results

* `Text.unsigned?_eq_some_iff`: an unsigned number is read exactly if it is not above the limit.
* `Text.listItems_eq_commaParts`: the parts that are read are those between the commas.
* `Text.trim_padded`: the white space around a word does not count.
-/

namespace Volley.Text

/-! ## Numbers -/

/-- One or more digits whose value is `n`. -/
structure Decimal (digits : List Char) (n : Nat) : Prop where
  ne_nil : digits ≠ []
  isDigit : ∀ c ∈ digits, c.isDigit = true
  value : Nat.ofDigitChars 10 digits 0 = n

/-- One or more digits whose value is `n`, with or without a plus sign before them. -/
def Unsigned (text : List Char) (n : Nat) : Prop :=
  ∃ digits, (text = digits ∨ text = '+' :: digits) ∧ Decimal digits n

theorem digitValue?_eq (c : Char) :
    digitValue? c = if c.isDigit = true then some (c.toNat - '0'.toNat) else none := by
  have hdigit : ('0' ≤ c ∧ c ≤ '9') ↔ c.isDigit = true := by
    rw [Char.isDigit, Bool.and_eq_true, decide_eq_true_eq, decide_eq_true_eq]
    exact Iff.rfl
  rw [digitValue?, if_congr hdigit rfl rfl]

/-- More digits do not make a number smaller: `Nat.ofDigitChars` is at least the `value` it starts
from. -/
theorem le_ofDigitChars (digits : List Char) (value : Nat) :
    value ≤ Nat.ofDigitChars 10 digits value := by
  induction digits generalizing value with
  | nil => exact Nat.le_refl value
  | cons c rest ih =>
    rw [Nat.ofDigitChars_cons]
    exact Nat.le_trans (by omega) (ih _)

/-- From a `value` up to the limit, `digitsValue?` reads `n` exactly if the text consists of digits,
`Nat.ofDigitChars` makes `n` of them, and `n` is at most `limit`. -/
theorem digitsValue?_eq_some_iff {limit value n : Nat} {text : List Char} (hv : value ≤ limit) :
    digitsValue? limit value text = some n ↔
      (∀ c ∈ text, c.isDigit = true) ∧ Nat.ofDigitChars 10 text value = n ∧ n ≤ limit := by
  induction text generalizing value with
  | nil =>
    simp only [digitsValue?, List.not_mem_nil, false_implies, implies_true, true_and]
    constructor
    · rintro ⟨rfl⟩
      exact ⟨rfl, hv⟩
    · rintro ⟨rfl, -⟩
      rfl
  | cons c rest ih =>
    rw [List.forall_mem_cons, Nat.ofDigitChars_cons, digitsValue?, digitValue?_eq,
      Nat.mul_comm 10 value]
    by_cases hdigit : c.isDigit = true
    · rw [if_pos hdigit]
      dsimp only
      split
      · next hle =>
        rw [ih hle, and_iff_right hdigit]
      · next hgt =>
        -- What follows does not bring the number back below the limit.
        have hle := le_ofDigitChars rest (value * 10 + (c.toNat - '0'.toNat))
        refine iff_of_false (Option.some_ne_none n).symm ?_
        rintro ⟨-, rfl, hn⟩
        exact hgt (Nat.le_trans hle hn)
    · rw [if_neg hdigit]
      exact iff_of_false (Option.some_ne_none n).symm fun h => hdigit h.1.1

theorem decimal?_eq_some_iff {limit n : Nat} {text : List Char} :
    decimal? limit text = some n ↔ Decimal text n ∧ n ≤ limit := by
  cases text with
  | nil => exact iff_of_false (Option.some_ne_none n).symm fun h => h.1.ne_nil rfl
  | cons c rest =>
    rw [decimal?, digitsValue?_eq_some_iff (Nat.zero_le limit)]
    · constructor
      · rintro ⟨hdigits, hvalue, hle⟩
        exact ⟨⟨List.cons_ne_nil c rest, hdigits, hvalue⟩, hle⟩
      · rintro ⟨⟨-, hdigits, hvalue⟩, hle⟩
        exact ⟨hdigits, hvalue, hle⟩
    · exact List.cons_ne_nil c rest

/-- What `unsigned?` reads is exactly a text that is `Unsigned` with a number up to `limit`. -/
theorem unsigned?_eq_some_iff {limit n : Nat} {text : List Char} :
    unsigned? limit text = some n ↔ Unsigned text n ∧ n ≤ limit := by
  unfold unsigned?
  split
  · next digits =>
    rw [decimal?_eq_some_iff]
    constructor
    · rintro ⟨hdecimal, hle⟩
      exact ⟨⟨digits, .inr rfl, hdecimal⟩, hle⟩
    · rintro ⟨⟨others, rfl | hothers, hdecimal⟩, hle⟩
      · -- The plus sign is not a digit.
        exact absurd (hdecimal.isDigit '+' List.mem_cons_self) (by decide)
      · rw [List.cons.inj hothers |>.2]
        exact ⟨hdecimal, hle⟩
  · next hplus =>
    rw [decimal?_eq_some_iff]
    constructor
    · rintro ⟨hdecimal, hle⟩
      exact ⟨⟨text, .inl rfl, hdecimal⟩, hle⟩
    · rintro ⟨⟨digits, rfl | rfl, hdecimal⟩, hle⟩
      · exact ⟨hdecimal, hle⟩
      · exact absurd rfl (hplus digits)

/-- The text that `Nat.toDigits` writes of `n` is `Unsigned` with `n`. -/
theorem unsigned_toDigits (n : Nat) : Unsigned (Nat.toDigits 10 n) n :=
  ⟨_, .inl rfl, Nat.toDigits_ne_nil, fun _ => Nat.isDigit_of_mem_toDigits (by decide) (by decide),
    Nat.ofDigitChars_ten_toDigits⟩

/-! ## Lists -/

/-- The parts of a text between its commas, without the characters around them for which `isBlank`,
and without the parts of which nothing is left. -/
def commaParts (text : List Char) : List (List Char) :=
  ((text.splitOn ',').map fun part => (part.dropWhile isBlank).rdropWhile isBlank).filter (· ≠ [])

theorem splitAt_eq_splitOn (separator : Char) (text : List Char) :
    splitAt separator text = text.splitOn separator := by
  induction text with
  | nil => rfl
  | cons c rest ih =>
    rw [splitAt, List.splitOn, List.splitOnP_cons_eq_if_modifyHead, ih]
    by_cases heq : c = separator
    · rw [if_pos heq, if_pos (beq_iff_eq.mpr heq)]
      rfl
    · rw [if_neg heq, if_neg (by simpa using heq)]
      cases hsplit : rest.splitOn separator with
      | nil => exact absurd hsplit (List.splitOn_ne_nil separator rest)
      | cons first others =>
        rw [List.splitOn] at hsplit
        rw [hsplit]
        rfl

/-- The items that `listItems` reads are the `commaParts`. -/
theorem listItems_eq_commaParts (text : List Char) : listItems text = commaParts text := by
  rw [listItems, commaParts, splitAt_eq_splitOn]
  rfl

/-- Blanks `before` a text are dropped, up to the first character that is none. -/
theorem dropWhile_padded {before text : List Char} (hbefore : ∀ c ∈ before, isBlank c = true)
    (htext : ∀ c ∈ text.head?, isBlank c = false) :
    (before ++ text).dropWhile isBlank = text := by
  rw [List.dropWhile_append_of_pos hbefore]
  cases text with
  | nil => rfl
  | cons c rest => exact List.dropWhile_cons_of_neg (Bool.eq_false_iff.mp (htext c rfl))

/-- By `trim` the blanks around a `word` without blanks are taken off. -/
theorem trim_padded {before word after : List Char} (hbefore : ∀ c ∈ before, isBlank c = true)
    (hword : ∀ c ∈ word, isBlank c = false) (hafter : ∀ c ∈ after, isBlank c = true) :
    trim (before ++ word ++ after) = word := by
  cases word with
  | nil =>
    have hblank : ∀ c ∈ before ++ [] ++ after, isBlank c = true := by
      intro c hc
      rw [List.append_nil] at hc
      exact (List.mem_append.mp hc).elim (hbefore c) (hafter c)
    rw [trim, List.dropWhile_eq_nil_iff.mpr hblank]
    rfl
  | cons first rest =>
    have hstart :
        (before ++ first :: rest ++ after).dropWhile isBlank = first :: rest ++ after := by
      rw [List.append_assoc]
      refine dropWhile_padded hbefore fun c hc => hword c ?_
      exact Option.some.inj hc ▸ List.mem_cons_self
    have hend : (first :: rest ++ after).reverse.dropWhile isBlank = (first :: rest).reverse := by
      rw [List.reverse_append]
      refine dropWhile_padded (fun c hc => hafter c (List.mem_reverse.mp hc)) fun c hc => ?_
      exact hword c (List.mem_reverse.mp (List.mem_of_mem_head? hc))
    rw [trim, hstart, hend, List.reverse_reverse]

/-- A digit is not a blank. -/
theorem isBlank_of_isDigit {c : Char} (h : c.isDigit = true) : isBlank c = false := by
  obtain ⟨hlow, hhigh⟩ : 48 ≤ c.toNat ∧ c.toNat ≤ 57 := by
    simpa [Char.isDigit, UInt32.le_iff_toNat_le] using h
  simp only [isBlank, Bool.or_eq_false_iff, Bool.and_eq_false_iff, decide_eq_false_iff_not,
    beq_eq_false_iff_ne]
  omega

end Volley.Text
