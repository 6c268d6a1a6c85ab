/-!
# Rounding a quotient

A quotient of natural numbers becomes a whole number in one of two ways, which differ only at a
half.

* `roundHalfEven` : a half goes to the even neighbour;
* `roundHalfUp` : a half goes up.
-/

namespace Rowlang

/-- The whole number nearest to `num / den`, the even one of two. -/
def roundHalfEven (num den : Nat) : Nat :=
  let q := num / den
  let r := num % den
  if 2 * r < den then q else if den < 2 * r then q + 1 else q + q % 2

/-- The whole number nearest to `num / den`, the greater one of two. -/
def roundHalfUp (num den : Nat) : Nat :=
  let q := num / den
  let r := num % den
  if 2 * r < den then q else q + 1

theorem roundHalfEven_le (num den : Nat) : roundHalfEven num den ≤ num / den + 1 := by
  unfold roundHalfEven
  have := Nat.mod_lt (num / den) (by decide : 2 > 0)
  dsimp only
  split <;> (try split) <;> omega

theorem roundHalfEven_mul (q : Nat) {den : Nat} (h : 0 < den) : roundHalfEven (q * den) den = q := by
  simp [roundHalfEven, Nat.mul_div_cancel _ h, h]

theorem roundHalfUp_le (num den : Nat) : roundHalfUp num den ≤ num / den + 1 := by
  unfold roundHalfUp
  dsimp only
  split <;> omega

example : roundHalfEven 5 2 = 2 ∧ roundHalfEven 7 2 = 4 ∧ roundHalfEven 11 4 = 3 := by decide

example : roundHalfUp 5 2 = 3 ∧ roundHalfUp 7 2 = 4 ∧ roundHalfUp 9 4 = 2 := by decide

end Rowlang
