import Rowlang.Functions.Number
import Rowlang.Proofs.Number.Reciprocal

/-!
# Powers of whole numbers

The power of a decimal without places by a whole number is computed by repeated squaring. It is exact as long
as it is in range: a product on the way is then in range, too, because it divides the power.

* `Decimal.powerFrom?_succ`, `Decimal.powerFrom?_whole` : one round, and all of them;
* `Decimal.ofInt?_pow_eq_none_of_square` : no square is out of range unless the power is;
* `Decimal.IsPower` : what a power comes to, by the sign of the exponent;
* `Decimal.exists_power?` : a power that is the value of a decimal is that decimal;
* `Functions.pow_exact` : the function answers with a double only where no decimal has the value.
-/

namespace Rowlang

namespace Decimal

/-! ## Repeated squaring -/

/-- One round: the product takes in the factor if the last bit is set, and the factor is squared if there are
more bits. -/
theorem powerFrom?_succ {acc factor : Decimal} {j : Int} (made : ofInt? j = some acc) (places : factor.scale = 0)
    {n : Nat} (some_bit : n ≠ 0) (fuel : Nat) :
    powerFrom? acc factor n (fuel + 1) =
      (ofInt? (j * factor.signedCoefficient ^ (n % 2))).bind fun product =>
        if n / 2 = 0 then some product
        else (ofInt? (factor.signedCoefficient * factor.signedCoefficient)).bind fun square =>
          powerFrom? product square (n / 2) fuel := by
  obtain ⟨scale, value⟩ := whole_of_ofInt? made
  rw [← mul?_whole places places, powerFrom?, if_neg some_bit]
  rcases Nat.mod_two_eq_zero_or_one n with even | odd
  · rw [even, pow_zero, mul_one, made]
    rfl
  · rw [odd, pow_one, ← value, ← mul?_whole scale places]
    rfl

/-- Taking in a bit and squaring the factor for the rest of the bits changes nothing. -/
theorem mul_pow_bits (j k : Int) (n : Nat) : j * k ^ (n % 2) * (k * k) ^ (n / 2) = j * k ^ n := by
  rw [← pow_two, ← pow_mul, mul_assoc, ← pow_add, Nat.mod_add_div]

section
variable {j k : Int} (nonzero : j = 0 → k = 0) {n : Nat}
include nonzero

theorem ofInt?_pow_eq_none_of_dvd {x : Int} (out : ofInt? x = none) (divides : x ∣ j * k ^ n)
    (some_factor : k ≠ 0) : ofInt? (j * k ^ n) = none :=
  ofInt?_eq_none_of_dvd out divides (mul_ne_zero (mt nonzero some_factor) (pow_ne_zero n some_factor))

/-- A product that takes in the factor is out of range only if the result is. -/
theorem ofInt?_pow_eq_none_of_bit {acc : Decimal} (made : ofInt? j = some acc)
    (out : ofInt? (j * k ^ (n % 2)) = none) : ofInt? (j * k ^ n) = none := by
  apply ofInt?_pow_eq_none_of_dvd nonzero out ⟨_, (mul_pow_bits j k n).symm⟩
  intro zero
  rcases Nat.mod_two_eq_zero_or_one n with even | odd
  · rw [even, pow_zero, mul_one, made] at out
    cases out
  · rw [zero, odd, pow_one, mul_zero] at out
    cases out

/-- A square is out of range only if the result is, since it is taken for more bits. -/
theorem ofInt?_pow_eq_none_of_square (more : n / 2 ≠ 0) (out : ofInt? (k * k) = none) :
    ofInt? (j * k ^ n) = none := by
  have twice : k * k ∣ k ^ n := by
    rw [← pow_two]
    exact pow_dvd_pow k (by omega)
  apply ofInt?_pow_eq_none_of_dvd nonzero out (twice.mul_left j)
  intro zero
  rw [zero] at out
  cases out

end

/-- **Repeated squaring is exact**. What a round computes divides the result: so if it is out of range, then so is
the result, unless that is zero. The invariant is that zero is multiplied by powers of zero only. -/
theorem powerFrom?_whole {acc factor : Decimal} {j : Int} (made : ofInt? j = some acc) (places : factor.scale = 0)
    (nonzero : j = 0 → factor.signedCoefficient = 0) {n fuel : Nat} (enough : n < 2 ^ fuel) :
    powerFrom? acc factor n fuel = ofInt? (j * factor.signedCoefficient ^ n) := by
  induction fuel generalizing acc factor j n with
  | zero =>
    obtain rfl : n = 0 := by simpa using enough
    rw [powerFrom?, pow_zero, mul_one, made]
  | succ fuel ih =>
    by_cases done : n = 0
    · rw [powerFrom?, if_pos done, done, pow_zero, mul_one, made]
    rw [powerFrom?_succ made places done]
    set k := factor.signedCoefficient
    cases product : ofInt? (j * k ^ (n % 2)) with
    | none => exact (ofInt?_pow_eq_none_of_bit nonzero made product).symm
    | some acc' =>
      rw [Option.bind_some]
      by_cases last : n / 2 = 0
      · rw [if_pos last, ← product, ← mul_pow_bits j k n, last, pow_zero, mul_one]
      rw [if_neg last]
      cases square : ofInt? (k * k) with
      | none => exact (ofInt?_pow_eq_none_of_square nonzero last square).symm
      | some factor' =>
        obtain ⟨places', value'⟩ := whole_of_ofInt? square
        have kept : j * k ^ (n % 2) = 0 → factor'.signedCoefficient = 0 := by
          intro zero
          have none : k = 0 := (mul_eq_zero.1 zero).elim nonzero eq_zero_of_pow_eq_zero
          rw [value', none, mul_zero]
        rw [Option.bind_some, ih product places' kept (by omega), value', mul_pow_bits]

theorem power?_whole {b : Decimal} (places : b.scale = 0) {e : Int} (inside : Number.isInt64 e = true) :
    b.power? e = (ofInt? (b.signedCoefficient ^ e.natAbs)).bind fun p =>
      if e < 0 then one.div? p else some p := by
  have bounds := Number.isInt64_iff.1 inside
  have enough : e.natAbs < 2 ^ 64 := by omega
  have unit : ofInt? 1 = some one := rfl
  rw [power?, powerFrom?_whole unit places (by simp) enough, one_mul]
  rfl

/-! ## Powers -/

/-- What the power of a decimal by a whole number comes to. -/
structure IsPower (b : Decimal) (e : Int) (result : Option Decimal) : Prop where
  /-- a power in range is exact, and has no places -/
  exact : 0 ≤ e → |b.toRat ^ e.natAbs| < 2 ^ 96 →
    ∃ r, result = some r ∧ r.scale = 0 ∧ r.toRat = b.toRat ^ e.natAbs
  /-- there is no other -/
  overflow : 0 ≤ e → 2 ^ 96 ≤ |b.toRat ^ e.natAbs| → result = none
  /-- with a negative exponent one is divided by the power, where that is a decimal other than zero -/
  reciprocal : e < 0 → Representable (b.toRat ^ e.natAbs) → b.toRat ^ e.natAbs ≠ 0 →
    ∃ p, p.scale = 0 ∧ p.toRat = b.toRat ^ e.natAbs ∧ result = one.div? p ∧ (one.div? p).isSome
  /-- and nowhere else -/
  refused : e < 0 → ¬ Representable (b.toRat ^ e.natAbs) ∨ b.toRat ^ e.natAbs = 0 → result = none

theorem zpow_of_nonneg (q : ℚ) {e : Int} (nonneg : 0 ≤ e) : q ^ e = q ^ e.natAbs := by
  rw [← zpow_natCast, Int.natCast_natAbs, abs_of_nonneg nonneg]

theorem zpow_of_neg (q : ℚ) {e : Int} (negative : e < 0) : q ^ e = (q ^ e.natAbs)⁻¹ := by
  rw [← zpow_natCast, ← zpow_neg, Int.natCast_natAbs, abs_of_neg negative, neg_neg]

section
variable {b : Decimal} (places : b.scale = 0) {e : Int} (inside : Number.isInt64 e = true)
include places

theorem toRat_pow (n : Nat) : b.toRat ^ n = (b.signedCoefficient ^ n : Int) := by
  rw [toRat_whole places, Int.cast_pow]

theorem representable_pow_iff (n : Nat) : Representable (b.toRat ^ n) ↔ |b.toRat ^ n| < 2 ^ 96 := by
  rw [toRat_pow places, representable_intCast_iff, ← Int.cast_abs, Int.abs_eq_natAbs]
  norm_cast

include inside

theorem power?_of_representable (held : Representable (b.toRat ^ e.natAbs)) : ∃ p, p.scale = 0 ∧
    p.toRat = b.toRat ^ e.natAbs ∧ b.power? e = if e < 0 then one.div? p else some p := by
  rw [toRat_pow places] at held ⊢
  obtain ⟨p, made, whole, value⟩ := ofInt?_whole (representable_intCast_iff.1 held)
  refine ⟨p, whole, by rw [toRat_whole whole, value], ?_⟩
  rw [power?_whole places inside, made, Option.bind_some]

theorem power?_eq_none (beyond : ¬ Representable (b.toRat ^ e.natAbs)) : b.power? e = none := by
  rw [toRat_pow places, representable_intCast_iff, not_lt] at beyond
  rw [power?_whole places inside, ofInt?_eq_none_iff.2 beyond, Option.bind_none]

theorem isPower_power? : b.IsPower e (b.power? e) := by
  constructor
  case exact =>
    intro nonneg small
    obtain ⟨p, whole, value, result⟩ :=
      power?_of_representable places inside ((representable_pow_iff places _).2 small)
    exact ⟨p, by rw [result, if_neg (not_lt.2 nonneg)], whole, value⟩
  case overflow =>
    intro _ large
    apply power?_eq_none places inside
    rwa [representable_pow_iff places, not_lt]
  case reciprocal =>
    intro negative held nonzero
    obtain ⟨p, whole, value, result⟩ := power?_of_representable places inside held
    rw [← value, Ne, toRat_eq_zero_iff] at nonzero
    obtain ⟨r, made, -⟩ := div?_one whole nonzero
    exact ⟨p, whole, value, by rw [result, if_pos negative], by rw [made]; rfl⟩
  case refused =>
    rintro negative (beyond | zero)
    · exact power?_eq_none places inside beyond
    · have held : Representable (b.toRat ^ e.natAbs) := ⟨.zero, by rw [zero, toRat_eq_zero_iff]; rfl⟩
      obtain ⟨p, -, value, result⟩ := power?_of_representable places inside held
      have nothing : p.isZero = true := beq_iff_eq.2 (toRat_eq_zero_iff.1 (value.trans zero))
      rw [result, if_pos negative, div?, if_pos nothing]

/-- **A power that is the value of a decimal is exact**, that of a negative exponent too. -/
theorem exists_power? (defined : 0 ≤ e ∨ b.toRat ≠ 0) (held : Representable (b.toRat ^ e)) :
    ∃ r, b.power? e = some r ∧ r.toRat = b.toRat ^ e := by
  rcases lt_or_ge e 0 with negative | nonneg
  · have nonzero : b.toRat ^ e.natAbs ≠ 0 := pow_ne_zero _ (defined.resolve_left (not_le.2 negative))
    rw [zpow_of_neg _ negative] at held ⊢
    have inner : Representable (b.toRat ^ e.natAbs) := by
      rw [toRat_pow places] at held nonzero ⊢
      exact representable_of_inv (by exact_mod_cast nonzero) held
    obtain ⟨p, whole, value, result⟩ := power?_of_representable places inside inner
    rw [← value] at held nonzero ⊢
    rw [result, if_pos negative]
    exact div?_one_exact whole (mt toRat_eq_zero_iff.2 nonzero) held
  · rw [zpow_of_nonneg _ nonneg] at held ⊢
    obtain ⟨p, -, value, result⟩ := power?_of_representable places inside held
    exact ⟨p, by rw [result, if_neg (not_lt.2 nonneg)], value⟩

end

end Decimal

namespace Functions
open Decimal

/-- The function is asked for the power of a decimal by a whole number. -/
structure AsksPower (b : Decimal) (exponent : Number) (e : Int) (subject : Value) (args : List Value) : Prop where
  base : numberOf subject = .ok (.decimal b)
  given : (argument args 0).bind numberOf = .ok exponent
  whole : exponent.isWhole = true
  value : exponent.toInt? = some e

/-- What the function answers when it is asked for a power. -/
structure AnswersPower (b : Decimal) (exponent : Number) (e : Int) (answer : Except String Value) : Prop where
  /-- a power that is the value of a decimal, of whatever sign its exponent, is answered exactly -/
  exact : 0 ≤ e ∨ b.toRat ≠ 0 → Representable (b.toRat ^ e) →
    ∃ r, answer = .ok (.number (.decimal r)) ∧ r.toRat = b.toRat ^ e
  /-- any other, if its exponent is not negative, with a double -/
  doubles : 0 ≤ e → ¬ Representable (b.toRat ^ e) →
    answer = .ok (.number (.onDoubles Float.pow (.decimal b) exponent))

variable {b : Decimal} {exponent : Number} {e : Int} {subject : Value} {args : List Value}

theorem pow_eq (asks : AsksPower b exponent e subject args) : pow subject args =
    .ok (.number (((b.power? e).map .decimal).getD (.onDoubles Float.pow (.decimal b) exponent))) := by
  obtain ⟨base, given, whole, value⟩ := asks
  have exact : exactPower? (.decimal b) exponent = (b.power? e).map .decimal := by
    unfold exactPower?
    rw [whole, value]
    cases power : b.power? e <;> simp [power]
  unfold pow
  rw [base]
  cases found : argument args 0 with
  | error message =>
    rw [found] at given
    cases given
  | ok v =>
    rw [found] at given
    have number : numberOf v = .ok exponent := given
    simp only [bind, Except.bind, number, exact]
    rfl

/-- **Powers of whole numbers are exact**: for an exponent that is not negative as long as the power is in range,
and for a negative one up to the quotient of one by the power. The function answers with a double only where no
decimal has the value. -/
theorem pow_exact (places : b.scale = 0) (inside : Number.isInt64 e = true) :
    b.IsPower e (b.power? e) ∧ ∀ exponent subject args, AsksPower b exponent e subject args →
      AnswersPower b exponent e (pow subject args) := by
  refine ⟨isPower_power? places inside, fun exponent subject args asks => ?_⟩
  rw [pow_eq asks]
  constructor
  case exact =>
    intro defined held
    obtain ⟨r, result, value⟩ := exists_power? places inside defined held
    exact ⟨r, by rw [result]; rfl, value⟩
  case doubles =>
    intro nonneg beyond
    rw [zpow_of_nonneg _ nonneg] at beyond
    rw [power?_eq_none places inside beyond]
    rfl

/-- The sixtieth power of minus three, where one more square would be out of range, and the power of the same
base by the least exponent. -/
theorem pow_exact_sixty :
    Decimal.scale ⟨true, 3, 0, by decide, by decide⟩ = 0 ∧ Number.isInt64 60 = true ∧
      Number.isInt64 (-2 ^ 63) = true ∧ Decimal.ofInt? (3 ^ 64) = none ∧
      (∃ r, Decimal.power? ⟨true, 3, 0, by decide, by decide⟩ 60 = some r ∧ r.scale = 0 ∧ r.toRat = (-3) ^ 60) ∧
      IsPower ⟨true, 3, 0, by decide, by decide⟩ (-2 ^ 63)
        (Decimal.power? ⟨true, 3, 0, by decide, by decide⟩ (-2 ^ 63)) ∧
      AnswersPower ⟨true, 3, 0, by decide, by decide⟩ (.decimal ⟨false, 600, 1, by decide, by decide⟩) 60
        (pow (.number (.decimal ⟨true, 3, 0, by decide, by decide⟩))
          [.number (.decimal ⟨false, 600, 1, by decide, by decide⟩)]) := by
  have sixty : Number.isInt64 60 = true := by decide
  have least : Number.isInt64 (-2 ^ 63) = true := by decide
  have value : Decimal.toRat ⟨true, 3, 0, by decide, by decide⟩ = -3 := by
    rw [toRat_whole rfl]
    rfl
  have powers := pow_exact (b := ⟨true, 3, 0, by decide, by decide⟩) rfl sixty
  have exact := powers.1.exact (by decide)
  rw [value] at exact
  refine ⟨rfl, sixty, least, ?_, exact ?_, (pow_exact rfl least).1, powers.2 _ _ _ ⟨rfl, rfl, ?_, ?_⟩⟩
  · decide
  · norm_num
  · decide
  · decide

end Functions

end Rowlang
