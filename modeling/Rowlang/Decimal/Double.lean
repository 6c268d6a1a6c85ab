import Rowlang.Decimal.Basic
import Rowlang.Number.Double

/-!
# Decimals and doubles

* `Decimal.toDouble` : the double of a decimal, computed from its whole and fractional parts;
* `Decimal.ofDouble?` : the decimal of a finite double, to about sixteen digits.

The way from a double trades its halves for tenths: one half is five tenths. While the coefficient
has room it is multiplied by five; once it would exceed 96 bits it is divided by two instead, and
loses its last bits.
-/

namespace Rowlang.Decimal

/-! ## To a double -/

/-- The nearest double of a decimal without places. Otherwise the doubles of the whole part and of
the fraction are added, and the sum is rounded to the places of the decimal. -/
def toDouble (d : Decimal) : Float :=
  let sign (x : Float) := if d.negative then -x else x
  if d.scale = 0 then Double.ofInt d.signedCoefficient
  else
    let unit := 10 ^ d.scale
    let whole := Double.ofInt (d.coefficient / unit : Nat)
    let fraction := Double.ofInt (d.coefficient % unit : Nat) / Double.ofInt unit
    if d.coefficient % unit = 0 then sign whole
    else
      let factor := Double.power 10 d.scale
      sign (Double.round ((whole + fraction) * factor) / factor)

/-! ## From a double -/

/-- A coefficient with a power of ten. -/
structure Scaled where
  coefficient : Nat
  exponent : Int

namespace Scaled

/-- The value divided by `2 ^ k`. -/
def divideByTwos : Nat → Scaled → Scaled
  | 0, x => x
  | k + 1, ⟨m, e⟩ =>
    if m % 2 = 0 then divideByTwos k ⟨m / 2, e⟩
    else if m * 5 < 2 ^ 96 then divideByTwos k ⟨m * 5, e - 1⟩
    else divideByTwos k ⟨m / 2, e⟩

/-- Drops the last digit, rounding half up. -/
def dropDigit (x : Scaled) : Scaled := ⟨roundHalfUp x.coefficient 10, x.exponent + 1⟩

/-- Drops `k` digits, each time rounding half up; zero is kept once it is reached. -/
def dropDigits : Nat → Scaled → Scaled
  | 0, x => x
  | k + 1, x =>
    if x.coefficient < 10 then ⟨0, 0⟩ else dropDigits k x.dropDigit

/-- Drops digits behind the point until the coefficient has at most 53 bits. -/
def limitBits : Nat → Scaled → Scaled
  | 0, x => x
  | k + 1, x =>
    if x.exponent < 0 ∧ 2 ^ 53 ≤ x.coefficient then limitBits k x.dropDigit else x

end Scaled

/-- The decimal of a finite double; none if it is out of range. A whole number is kept exactly. -/
def ofDouble? (x : Float) : Option Decimal :=
  match Double.value x with
  | .finite negative m =>
    if m.significand = 0 then some { zero with negative }
    else if 0 ≤ m.exponent then make? negative (m.significand * 2 ^ m.exponent.toNat) 0
    else
      let s := Scaled.divideByTwos m.exponent.natAbs ⟨m.significand, 0⟩
      let s := s.dropDigits (-28 - s.exponent).toNat
      let s := s.limitBits (-s.exponent).toNat
      (make? negative s.coefficient (-s.exponent).toNat).map fun d => { d.normalize with negative }
  | _ => none

end Rowlang.Decimal
