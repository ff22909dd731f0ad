/-!
# Whole numbers in text

The decimal form that options, size lists and settings share: one or more ASCII digits, after an
optional sign. Leading zeros are allowed, blanks are not.
-/

namespace Volley.Text

/-- The value of an ASCII digit. -/
def digitValue? (c : Char) : Option Nat :=
  if '0' ≤ c ∧ c ≤ '9' then some (c.toNat - '0'.toNat) else none

/-- Continues a decimal number that is at most `limit`, and whose first digits have the value
`value`. -/
def digitsValue? (limit value : Nat) : List Char → Option Nat
  | [] => some value
  | c :: rest =>
    match digitValue? c with
    | none => none
    | some digit =>
      let longer := value * 10 + digit
      if longer ≤ limit then digitsValue? limit longer rest else none

/-- The value of a text of one or more digits that is at most `limit`. -/
def decimal? (limit : Nat) : List Char → Option Nat
  | [] => none
  | digits => digitsValue? limit 0 digits

/-- The value of an unsigned number that is at most `limit`. -/
def unsigned? (limit : Nat) (text : List Char) : Option Nat :=
  match text with
  | '+' :: digits => decimal? limit digits
  | digits => decimal? limit digits

/-- The value of a number with an optional sign of either kind, `limit` away from zero at most. -/
def signed? (limit : Nat) : List Char → Option Int
  | '-' :: digits => (decimal? limit digits).map fun value => -(value : Int)
  | '+' :: digits => (decimal? limit digits).map fun value => (value : Int)
  | digits => (decimal? limit digits).map fun value => (value : Int)

theorem le_of_digitsValue? {limit value n : Nat} {text : List Char} (hv : value ≤ limit)
    (h : digitsValue? limit value text = some n) : n ≤ limit := by
  fun_induction digitsValue? limit value text with
  | case1 => exact Option.some.inj h ▸ hv
  | case2 => cases h
  | case3 _ _ _ _ _ longer hl ih => exact ih hl h
  | case4 => cases h

theorem le_of_decimal? {limit n : Nat} {text : List Char} (h : decimal? limit text = some n) :
    n ≤ limit := by
  cases text with
  | nil => cases h
  | cons => exact le_of_digitsValue? (Nat.zero_le _) h

theorem le_of_unsigned? {limit n : Nat} {text : List Char} (h : unsigned? limit text = some n) :
    n ≤ limit := by
  unfold unsigned? at h
  split at h <;> exact le_of_decimal? h

end Volley.Text
