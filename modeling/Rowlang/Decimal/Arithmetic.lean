import Rowlang.Decimal.Basic

/-!
# Arithmetic of decimals

The exact result of an operation, rounded to what a decimal holds. An operation has no result if
the whole part of the exact one is out of range, or on division by zero.

* `Decimal.add?`, `Decimal.sub?`, `Decimal.mul?`, `Decimal.div?`, `Decimal.rem?` : the operations;
* `Decimal.power?` : powers with a whole exponent, by repeated squaring.
-/

namespace Rowlang.Decimal

/-! ## Sums -/

/-- The sum of two decimals that are not zero, at the greater of their scales. -/
def addExact? (a b : Decimal) : Option Decimal :=
  let scale := max a.scale b.scale
  let sum := a.signedCoefficient * 10 ^ (scale - a.scale)
    + b.signedCoefficient * 10 ^ (scale - b.scale)
  fit? (sum < 0) sum.natAbs scale

/-- The sum. Adding zero changes nothing. -/
def add? (a b : Decimal) : Option Decimal :=
  if a.isZero then some b else if b.isZero then some a else addExact? a b

/-- The difference. Subtracting zero changes nothing. -/
def sub? (a b : Decimal) : Option Decimal :=
  if a.isZero then some (if b.isZero then b else b.neg)
  else if b.isZero then some a
  else addExact? a b.neg

/-! ## Products -/

def mul? (a b : Decimal) : Option Decimal :=
  if a.isZero || b.isZero then some zero
  else fit? (a.negative != b.negative) (a.coefficient * b.coefficient) (a.scale + b.scale)

/-! ## Quotients -/

/-- The quotient of two decimals that are not zero, if it has no more places than `a` has beyond
those of `b`. -/
def divExact? (a b : Decimal) : Option Decimal :=
  make? (a.negative != b.negative)
    (a.coefficient / b.coefficient * 10 ^ (b.scale - a.scale)) (a.scale - b.scale)

/-- The quotient of two decimals that are not zero, with as many places as a decimal can hold. -/
def divRounded? (a b : Decimal) : Option Decimal := do
  let num := a.coefficient * 10 ^ b.scale
  let den := b.coefficient * 10 ^ a.scale
  let places ← ((List.range (maxScale + 1)).reverse).find? fun p =>
    decide (num * 10 ^ p / den < 2 ^ 96)
  let d ← ofRounded? (a.negative != b.negative) (roundHalfEven (num * 10 ^ places) den) places
  return d.normalize

def div? (a b : Decimal) : Option Decimal :=
  if b.isZero then none
  else if a.isZero then some zero
  else if a.coefficient % b.coefficient = 0 then divExact? a b
  else divRounded? a b

/-- The remainder of a division whose quotient is rounded towards zero. It has the sign of `a`. -/
def rem? (a b : Decimal) : Option Decimal :=
  if b.isZero then none
  else if a.isZero then some zero
  else
    let scale := max a.scale b.scale
    let m := a.coefficient * 10 ^ (scale - a.scale)
    let n := b.coefficient * 10 ^ (scale - b.scale)
    if m < n then some a
    else if m = n then some zero
    else make? a.negative (m % n) scale

/-! ## Powers -/

/-- The product of `acc` and `factor ^ n`, for `n` below `2 ^ fuel`, by repeated squaring. -/
def powerFrom? (acc factor : Decimal) (n : Nat) : Nat → Option Decimal
  | 0 => some acc
  | fuel + 1 =>
    if n = 0 then some acc
    else do
      let acc ← if n % 2 = 1 then acc.mul? factor else some acc
      if n / 2 = 0 then some acc
      else
        let square ← factor.mul? factor
        powerFrom? acc square (n / 2) fuel

/-- A power with a whole exponent. A negative exponent gives the quotient of one by the power. -/
def power? (base : Decimal) (exponent : Int) : Option Decimal := do
  let result ← powerFrom? one base exponent.natAbs 64
  if exponent < 0 then one.div? result else some result

end Rowlang.Decimal
