import Volley.Random

/-!
# Bounds of random draws

A draw below a bound stays below it, whatever the words are from which it is made, and a choice from
a list is a member of the list.
-/

namespace Volley.Random

/-- The high half of a product of a `word` and a `bound` is below the `bound`. -/
private theorem high_lt {width word bound : Nat} (hword : word < 1 <<< width) (hbound : 0 < bound) :
    (word * bound) >>> width < bound := by
  rw [Nat.one_shiftLeft] at hword
  rw [Nat.shiftRight_eq_div_pow, Nat.div_lt_iff_lt_mul (Nat.two_pow_pos width), Nat.mul_comm bound]
  exact Nat.mul_lt_mul_of_pos_right hword hbound

/-- The result of `below` is less than its `bound`, however many words it refuses. -/
theorem below_lt {width bound : Nat} {draw : Random → Nat × Random}
    (hdraw : ∀ r, (draw r).1 < 1 <<< width) (hbound : 0 < bound) (refusals : Nat) (r : Random) :
    (below width bound draw refusals r).1 < bound := by
  induction refusals generalizing r with
  | zero => exact high_lt (hdraw r) hbound
  | succ refusals ih =>
    rw [below]
    simp only
    split
    · exact high_lt (hdraw r) hbound
    · exact ih _

theorem below32_lt {bound : Nat} (hbound : 0 < bound) (r : Random) :
    (r.below32 bound).1 < bound := by
  refine below_lt (fun r => ?_) hbound 1024 r
  exact r.next32.1.toNat_lt

theorem below64_lt {bound : Nat} (hbound : 0 < bound) (r : Random) :
    (r.below64 bound).1 < bound := by
  refine below_lt (fun r => ?_) hbound 1024 r
  exact r.next64.1.toNat_lt

/-- From a list that is not empty, `choose?` returns one of its members. -/
theorem choose?_mem {α : Type} {xs : List α} (hne : xs ≠ []) (r : Random) :
    ∃ x ∈ xs, (r.choose? xs).1 = some x := by
  have hpos : 0 < xs.length := List.length_pos_iff.mpr hne
  have hlt := below32_lt hpos r
  have hempty : xs.isEmpty = false := by simpa using hne
  refine ⟨xs[(r.below32 xs.length).1], List.getElem_mem hlt, ?_⟩
  simp only [choose?, hempty, Bool.false_eq_true, if_false]
  exact List.getElem?_eq_getElem hlt

end Volley.Random
