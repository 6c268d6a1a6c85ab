import Mathlib.Algebra.Order.Ring.Int
import Rowlang.Number.Basic

/-!
# Decimals without places

A decimal without places is a whole number of 96 bits with a sign, and arithmetic on such decimals is that of
the whole numbers, as long as the result is in range. A whole number of 64 bits is one of them.

* `Decimal.ofInt?_whole`, `Decimal.ofInt?_eq_none_iff` : the decimal of a whole number;
* `Decimal.add?_whole`, `Decimal.mul?_whole` : sums and products are those of the values;
* `Decimal.ofInt?_eq_none_of_dvd` : what is out of range has no multiple in range but zero;
* `Number.ofInt_whole` : a whole number of 64 bits is a decimal that has its value.
-/

namespace Rowlang

namespace Decimal

/-! ## Whole numbers in range -/

theorem natAbs_signedCoefficient (d : Decimal) : d.signedCoefficient.natAbs = d.coefficient := by
  unfold signedCoefficient
  split <;> omega

theorem isZero_iff {d : Decimal} : d.isZero = true ↔ d.signedCoefficient = 0 := by
  rw [← Int.natAbs_eq_zero, natAbs_signedCoefficient]
  exact beq_iff_eq

/-- A whole number in range is itself a decimal. -/
theorem ofInt?_whole {k : Int} (small : k.natAbs < 2 ^ 96) :
    ∃ d, ofInt? k = some d ∧ d.scale = 0 ∧ d.signedCoefficient = k := by
  refine ⟨_, dif_pos ⟨small, by decide⟩, rfl, ?_⟩
  simp only [signedCoefficient, Bool.and_eq_true, decide_eq_true_eq, bne_iff_ne]
  split <;> omega

theorem ofInt?_eq_none_iff {k : Int} : ofInt? k = none ↔ 2 ^ 96 ≤ k.natAbs := by
  by_cases small : k.natAbs < 2 ^ 96
  · obtain ⟨d, made, -⟩ := ofInt?_whole small
    simp [made, small]
  · exact iff_of_true (dif_neg fun fits => small fits.1) (Nat.le_of_not_lt small)

theorem whole_of_ofInt? {k : Int} {d : Decimal} (made : ofInt? k = some d) :
    d.scale = 0 ∧ d.signedCoefficient = k := by
  have small : k.natAbs < 2 ^ 96 := by
    by_contra large
    rw [ofInt?_eq_none_iff.2 (not_lt.1 large)] at made
    cases made
  obtain ⟨d', made', whole⟩ := ofInt?_whole small
  cases made.symm.trans made'
  exact whole

/-- What is out of range has no multiple in range but zero. -/
theorem ofInt?_eq_none_of_dvd {j k : Int} (refused : ofInt? j = none) (divides : j ∣ k) (nonzero : k ≠ 0) :
    ofInt? k = none := by
  rw [ofInt?_eq_none_iff] at refused ⊢
  exact refused.trans (Nat.le_of_dvd (Int.natAbs_pos.2 nonzero) (Int.natAbs_dvd_natAbs.2 divides))

/-! ## Sums and products -/

theorem fit?_whole (k : Int) : fit? (k < 0) k.natAbs 0 = ofInt? k := by
  have rounded : roundHalfEven k.natAbs 1 = k.natAbs := by simpa using roundHalfEven_mul k.natAbs Nat.one_pos
  by_cases small : k.natAbs < 2 ^ 96
  · simp [fit?, List.range_succ, small, rounded, ofRounded?, ofInt?]
  · rw [ofInt?_eq_none_iff.2 (not_lt.1 small)]
    simp [fit?, List.range_succ, small]

theorem add?_whole {a b : Decimal} (ha : a.scale = 0) (hb : b.scale = 0)
    (small : (a.signedCoefficient + b.signedCoefficient).natAbs < 2 ^ 96) :
    ∃ d, a.add? b = some d ∧ d.scale = 0 ∧
      d.signedCoefficient = a.signedCoefficient + b.signedCoefficient := by
  unfold add?
  split
  · rename_i zero
    exact ⟨b, rfl, hb, by rw [isZero_iff.1 zero, Int.zero_add]⟩
  · split
    · rename_i zero
      exact ⟨a, rfl, ha, by rw [isZero_iff.1 zero, Int.add_zero]⟩
    · have exact : a.addExact? b = fit? (a.signedCoefficient + b.signedCoefficient < 0)
          (a.signedCoefficient + b.signedCoefficient).natAbs 0 := by
        simp [addExact?, ha, hb]
      rw [exact, fit?_whole]
      exact ofInt?_whole small

theorem negative_eq {d : Decimal} (nonzero : d.signedCoefficient ≠ 0) :
    d.negative = decide (d.signedCoefficient < 0) := by
  have positive : 0 < d.coefficient := by
    rw [← natAbs_signedCoefficient]
    exact Int.natAbs_pos.2 nonzero
  cases sign : d.negative <;> simp [signedCoefficient, sign, positive]

/-- A product is below zero if one of its factors is, and not the other. -/
theorem negative_mul {a b : Decimal} (ha : a.signedCoefficient ≠ 0) (hb : b.signedCoefficient ≠ 0) :
    (a.negative != b.negative) = decide (a.signedCoefficient * b.signedCoefficient < 0) := by
  rw [negative_eq ha, negative_eq hb, Bool.eq_iff_iff, bne_iff_ne, decide_eq_true_iff, Ne, decide_eq_decide,
    mul_neg_iff]
  omega

theorem mul?_whole {a b : Decimal} (ha : a.scale = 0) (hb : b.scale = 0) :
    a.mul? b = ofInt? (a.signedCoefficient * b.signedCoefficient) := by
  unfold mul?
  by_cases zero : a.signedCoefficient = 0 ∨ b.signedCoefficient = 0
  · rw [if_pos (by simpa [isZero_iff] using zero), mul_eq_zero.2 zero]
    rfl
  · obtain ⟨hj, hk⟩ := not_or.1 zero
    rw [if_neg (by simpa [isZero_iff] using zero), negative_mul hj hk, ha, hb, ← fit?_whole, Int.natAbs_mul,
      natAbs_signedCoefficient, natAbs_signedCoefficient]

theorem toInt_whole {d : Decimal} (places : d.scale = 0) : d.toInt = d.signedCoefficient := by
  simp only [toInt, truncate, signedCoefficient, places, Nat.pow_zero, Nat.div_one]

end Decimal

/-! ## Whole numbers of 64 bits -/

namespace Number

theorem isInt64_iff {n : Int} : isInt64 n = true ↔ -2 ^ 63 ≤ n ∧ n < 2 ^ 63 := by
  rw [isInt64, Bool.and_eq_true, decide_eq_true_iff, decide_eq_true_iff]

theorem ofInt_whole {n : Int} (inside : isInt64 n = true) :
    ∃ d, ofInt n = .decimal d ∧ d.scale = 0 ∧ d.signedCoefficient = n := by
  have bounds := isInt64_iff.1 inside
  obtain ⟨d, made, places, value⟩ := Decimal.ofInt?_whole (k := n) (by omega)
  exact ⟨d, by rw [ofInt, made], places, value⟩

end Number

end Rowlang
