import Mathlib.Tactic.NormNum
import Rowlang.Decimal.Arithmetic
import Rowlang.Proofs.Number.Digits
import Rowlang.Proofs.Number.Whole

/-!
# Values and reciprocals of decimals

A decimal has one value, and a value may have several decimals or none. One divided by a whole number has as
many places as a decimal can hold, which are rounded unless some decimal has the value of the reciprocal.

* `Decimal.Representable` : some decimal has the value;
* `Decimal.representable_intCast_iff` : whole numbers are values of decimals if they are in range;
* `Decimal.toRat_normalize` : zeros at the end do not change the value;
* `Decimal.div?_one`, `Decimal.div?_one_exact` : what one divided by a whole number is, and where it is exact.
-/

namespace Rowlang.Decimal

/-! ## Values -/

/-- Some decimal, with whatever places, has the value. -/
def Representable (q : ℚ) : Prop := ∃ d : Decimal, d.toRat = q

/-- A whole number is the value of a decimal only if it is one itself. -/
theorem representable_intCast_iff {k : Int} : Representable k ↔ k.natAbs < 2 ^ 96 := by
  constructor
  · rintro ⟨d, value⟩
    have magnitude : (k.natAbs : ℚ) = d.coefficient / 10 ^ d.scale := by
      rw [← abs_toRat, value, Nat.cast_natAbs, Int.cast_abs]
    have below : (k.natAbs : ℚ) ≤ d.coefficient := by
      rw [magnitude]
      exact div_le_self (Nat.cast_nonneg _) (one_le_pow₀ (by norm_num))
    exact lt_of_le_of_lt (by exact_mod_cast below) d.coefficient_lt
  · intro small
    obtain ⟨d, -, places, value⟩ := ofInt?_whole small
    exact ⟨d, by rw [toRat_whole places, value]⟩

theorem inv_signFactor (negative : Bool) : (signFactor negative)⁻¹ = signFactor negative := by
  cases negative <;> simp [signFactor]

theorem toRat_eq_zero_iff {d : Decimal} : d.toRat = 0 ↔ d.coefficient = 0 := by
  have power : (10 : ℚ) ^ d.scale ≠ 0 := by positivity
  rw [← abs_eq_zero, abs_toRat, div_eq_zero_iff, or_iff_left power, Nat.cast_eq_zero]

/-- Removing zeros behind the point keeps the value. -/
theorem toRat_normalize (d : Decimal) : d.normalize.toRat = d.toRat := by
  unfold normalize
  by_cases zero : d.coefficient = 0
  · rw [if_pos zero, toRat_eq, toRat_eq, zero]
    simp [Decimal.zero]
  · rw [if_neg zero, toRat_eq, toRat_eq]
    have kept := stripZeros_mul d.scale d.coefficient
    have few := stripZeros_count_le d.scale d.coefficient
    set r := stripZeros d.scale d.coefficient
    have parts : (10 : ℚ) ^ d.scale = 10 ^ (d.scale - r.2) * 10 ^ r.2 := by
      rw [← pow_add, Nat.sub_add_cancel few]
    show signFactor d.negative * ((r.1 : ℚ) / 10 ^ (d.scale - r.2)) = _
    have whole : (d.coefficient : ℚ) = r.1 * 10 ^ r.2 := by exact_mod_cast kept.symm
    rw [whole, parts, mul_div_mul_right _ _ (by positivity)]

/-! ## Reciprocals -/

/-- A quotient of one has as many places as a decimal can hold. -/
theorem find?_places (c : Nat) :
    ((List.range (maxScale + 1)).reverse).find? (fun p => decide (10 ^ p / c < 2 ^ 96)) = some maxScale := by
  have small : decide (10 ^ maxScale / c < 2 ^ 96) = true :=
    decide_eq_true (lt_of_le_of_lt (Nat.div_le_self _ _) (by decide))
  rw [List.range_succ, List.reverse_append, List.reverse_singleton, List.singleton_append, List.find?_cons, small]

theorem sign_one (p : Decimal) : (one.negative != p.negative) = p.negative := by
  cases p.negative <;> rfl

/-- One divided by a whole number, in units of the last place that a decimal can hold. -/
def reciprocalUnits (p : Decimal) : Nat := roundHalfEven (10 ^ maxScale) p.coefficient

theorem reciprocalUnits_lt (p : Decimal) : p.reciprocalUnits < 2 ^ 96 := by
  have rounded : p.reciprocalUnits ≤ 10 ^ maxScale / p.coefficient + 1 := roundHalfEven_le _ _
  have least : 10 ^ maxScale / p.coefficient ≤ 10 ^ maxScale := Nat.div_le_self _ _
  have room : 10 ^ maxScale + 1 < 2 ^ 96 := by decide
  omega

/-- A whole number whose reciprocal is the value of a decimal divides the power of ten of the last place that a
decimal can hold. -/
theorem divides_of_representable_inv {k : Int} (nonzero : k ≠ 0) (held : Representable (k : ℚ)⁻¹) :
    ∃ m, m * k.natAbs = 10 ^ maxScale := by
  obtain ⟨d, value⟩ := held
  have few : d.scale ≤ maxScale := d.scale_le
  have magnitude : (d.coefficient : ℚ) / 10 ^ d.scale = (k.natAbs : ℚ)⁻¹ := by
    rw [← abs_toRat, value, abs_inv, Nat.cast_natAbs, Int.cast_abs]
  have some_units : (k.natAbs : ℚ) ≠ 0 := by exact_mod_cast Int.natAbs_ne_zero.2 nonzero
  rw [inv_eq_one_div, div_eq_div_iff (by positivity) some_units, one_mul] at magnitude
  have units : d.coefficient * k.natAbs = 10 ^ d.scale := by exact_mod_cast magnitude
  refine ⟨d.coefficient * 10 ^ (maxScale - d.scale), ?_⟩
  rw [mul_right_comm, units, ← pow_add, Nat.add_sub_cancel' few]

/-- If the reciprocal of a whole number is the value of a decimal, then so is the number. -/
theorem representable_of_inv {k : Int} (nonzero : k ≠ 0) (held : Representable (k : ℚ)⁻¹) : Representable k := by
  obtain ⟨m, divides⟩ := divides_of_representable_inv nonzero held
  have least : k.natAbs ≤ 10 ^ maxScale :=
    Nat.le_of_dvd (Nat.pow_pos (by decide)) (Dvd.intro_left m divides)
  exact representable_intCast_iff.2 (lt_of_le_of_lt least (by decide))

section
variable {p : Decimal} (places : p.scale = 0)
include places

theorem divRounded?_one : one.divRounded? p = (make? p.negative p.reciprocalUnits maxScale).map normalize := by
  unfold divRounded?
  rw [places, sign_one]
  simp only [one, pow_zero, mul_one, one_mul, find?_places]
  rw [Option.bind_eq_bind, Option.bind_some, ofRounded?, ← reciprocalUnits, if_pos p.reciprocalUnits_lt]
  cases make? p.negative p.reciprocalUnits maxScale <;> rfl

/-- One divided by a whole number is rounded to the places that a decimal can hold. -/
theorem div?_one (nonzero : p.coefficient ≠ 0) : ∃ r, one.div? p = some r ∧
    r.toRat = signFactor p.negative * (p.reciprocalUnits / 10 ^ maxScale) := by
  have some_unit : p.isZero = false := beq_eq_false_iff_ne.2 nonzero
  rw [div?, some_unit, if_neg Bool.false_ne_true, if_neg (by decide)]
  by_cases unit : one.coefficient % p.coefficient = 0
  · have single : p.coefficient = 1 := Nat.dvd_one.1 (Nat.dvd_of_mod_eq_zero unit)
    have units : p.reciprocalUnits = 10 ^ maxScale := by
      rw [reciprocalUnits, single]
      exact roundHalfEven_mul (10 ^ maxScale) Nat.one_pos
    have exact : one.divExact? p = make? p.negative 1 0 := by
      rw [divExact?, sign_one, single, places]
      rfl
    have made : make? p.negative 1 0 = some _ := dif_pos (by decide)
    rw [if_pos unit, exact, made]
    refine ⟨_, rfl, ?_⟩
    rw [toRat_of_make? made, units]
    simp
  · have made : make? p.negative p.reciprocalUnits maxScale = some _ := dif_pos ⟨p.reciprocalUnits_lt, le_rfl⟩
    rw [if_neg unit, divRounded?_one places, made]
    refine ⟨_, rfl, ?_⟩
    rw [toRat_normalize, toRat_of_make? made]

/-- The reciprocal is exact if it is the value of a decimal. -/
theorem div?_one_exact (nonzero : p.coefficient ≠ 0) (held : Representable p.toRat⁻¹) :
    ∃ r, one.div? p = some r ∧ r.toRat = p.toRat⁻¹ := by
  obtain ⟨r, made, value⟩ := div?_one places nonzero
  refine ⟨r, made, ?_⟩
  have some_units : p.signedCoefficient ≠ 0 := by rwa [← Int.natAbs_ne_zero, natAbs_signedCoefficient]
  rw [toRat_whole places] at held
  obtain ⟨m, divides⟩ := divides_of_representable_inv some_units held
  rw [natAbs_signedCoefficient] at divides
  have units : p.reciprocalUnits = m := by
    rw [reciprocalUnits, ← divides, roundHalfEven_mul m (Nat.pos_of_ne_zero nonzero)]
  have power : (10 : ℚ) ^ maxScale = m * p.coefficient := by exact_mod_cast divides.symm
  have some_part : (m : ℚ) ≠ 0 := by
    intro zero
    rw [zero, zero_mul] at power
    exact absurd power (by positivity)
  rw [value, units, toRat_eq, places, pow_zero, div_one, mul_inv, inv_signFactor, power,
    div_mul_cancel_left₀ some_part]

end

end Rowlang.Decimal
