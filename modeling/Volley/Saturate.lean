/-!
# Numbers that stop at the top of a word

Ids and planned counts are 64-bit words. A computation on them that would leave the range stops at
its end instead of starting over.
-/

namespace Volley

/-- The largest number that a 64-bit word can be. -/
def maxWord : Nat := 0xFFFFFFFFFFFFFFFF

/-- Every word is at most `maxWord`. -/
theorem toNat_le_maxWord (word : UInt64) : word.toNat ≤ maxWord := by
  have hlt := word.toNat_lt
  unfold maxWord
  omega

/-- A number up to `maxWord` is the value of its word. -/
theorem toNat_ofNat_of_le {n : Nat} (h : n ≤ maxWord) : (UInt64.ofNat n).toNat = n := by
  unfold maxWord at h
  rw [UInt64.toNat_ofNat', Nat.mod_eq_of_lt (by omega)]

/-- The word nearest to `n`: `n` itself, or `maxWord`. -/
def saturate (n : Nat) : UInt64 :=
  UInt64.ofNat (min n maxWord)

theorem toNat_saturate (n : Nat) : (saturate n).toNat = min n maxWord := by
  simp only [saturate, maxWord, UInt64.toNat_ofNat']
  omega

end Volley
