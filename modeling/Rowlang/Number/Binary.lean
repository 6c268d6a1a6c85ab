import Rowlang.Number.Notation
import Rowlang.Number.Rounding

/-!
# Binary floating-point formats

A finite number of such a format is a natural number times a power of two. The functions here work
on it in exact arithmetic.

* `BinaryFormat.nearest` : the number of a format that is nearest to a quotient;
* `BinaryFormat.shortest` : the fewest decimal digits that no other number of the format is nearer
  to, and of those the digits nearest to the number.
-/

namespace Rowlang

/-- The number `significand * 2 ^ exponent`. -/
structure Binary where
  significand : Nat
  exponent : Int
deriving DecidableEq, Repr

/-- A format is given by the bits of a significand and the exponents that a number may have. -/
structure BinaryFormat where
  precision : Nat
  minExponent : Int
  maxExponent : Int

namespace BinaryFormat

def double : BinaryFormat := ⟨53, -1074, 971⟩

def single : BinaryFormat := ⟨24, -149, 104⟩

end BinaryFormat

/-- The quotient `num / den / 2 ^ e`, as a numerator and a denominator. -/
def scaleByTwo (num den : Nat) (e : Int) : Nat × Nat :=
  if 0 ≤ e then (num, den * 2 ^ e.toNat) else (num * 2 ^ (-e).toNat, den)

/-- The quotient `num / den / 10 ^ e`, as a numerator and a denominator. -/
def scaleByTen (num den : Nat) (e : Int) : Nat × Nat :=
  if 0 ≤ e then (num, den * 10 ^ e.toNat) else (num * 10 ^ (-e).toNat, den)

def Binary.toQuotient (x : Binary) : Nat × Nat := scaleByTwo x.significand 1 (-x.exponent)

/-! ## The nearest number -/

namespace BinaryFormat

/-- The exponent at which `num / den` has as many bits before the point as a significand, or the
least exponent of the format if that is greater. -/
def exponentFor (f : BinaryFormat) (num den : Nat) : Int :=
  let e : Int := (num.log2 : Int) - den.log2 - (f.precision - 1)
  let (n, d) := scaleByTwo num den e
  max f.minExponent (if n / d < 2 ^ (f.precision - 1) then e - 1 else e)

/-- The number of the format nearest to `num / den`, the even one of two; none if the greatest
number is exceeded. -/
def nearest (f : BinaryFormat) (num den : Nat) : Option Binary :=
  if num = 0 then some ⟨0, f.minExponent⟩
  else
    let e := f.exponentFor num den
    let (n, d) := scaleByTwo num den e
    let m := roundHalfEven n d
    let x : Binary := if m = 2 ^ f.precision then ⟨2 ^ (f.precision - 1), e + 1⟩ else ⟨m, e⟩
    if x.exponent ≤ f.maxExponent then some x else none

/-! ## The shortest digits -/

/-- The power of ten of the first digit of `num / den`. -/
def leadingPower (num den : Nat) : Int :=
  if den ≤ num then ((digitsOf (num / den)).length : Int) - 1
  else -((digitsOf ((den - 1) / num)).length : Int)

/-- Whether the decimal number `digits * 10 ^ exponent` rounds to the number `x` of the format. The
ends of the interval of such numbers are included if the significand is even; below a power of two
the interval is half as wide. -/
def readsBack (f : BinaryFormat) (x : Binary) (digits : Nat) (exponent : Int) : Bool :=
  let below :=
    if x.significand = 2 ^ (f.precision - 1) ∧ f.minExponent < x.exponent then 1 else 2
  let (n, d) := scaleByTwo digits 1 (x.exponent - 2)
  let (n, d) := scaleByTen n d (-exponent)
  let low := (4 * x.significand - below) * d
  let high := (4 * x.significand + 2) * d
  if x.significand % 2 = 0 then low ≤ n && n ≤ high else low < n && n < high

/-- The decimal number with `count` digits nearest to `x` that rounds to `x`, the greater one of
two, if there is one. -/
def withDigits? (f : BinaryFormat) (x : Binary) (count : Nat) : Option (Nat × Int) :=
  let (num, den) := x.toQuotient
  let e := leadingPower num den - (count - 1)
  let (n, d) := scaleByTen num den e
  let down := n / d
  let nearer := roundHalfUp n d
  let farther := if nearer = down then down + 1 else down
  if f.readsBack x nearer e then some (nearer, e)
  else if f.readsBack x farther e then some (farther, e)
  else none

/-- The fewest decimal digits that round to `x`, with the power of ten of the last one. -/
def shortest (f : BinaryFormat) (x : Binary) : Nat × Int :=
  match (List.range 17).findSome? fun i => f.withDigits? x (i + 1) with
  | some (digits, e) =>
    let (digits, zeros) := stripZeros 17 digits
    (digits, e + zeros)
  | none => (0, 0)

/-- A number of the format in positional notation, by its shortest digits. -/
def positional (f : BinaryFormat) (negative : Bool) (x : Binary) : List Char :=
  let (digits, e) := if x.significand = 0 then (0, 0) else f.shortest x
  signed negative (Rowlang.positional digits e)

/-- A number of the format with one digit before the point, and an exponent. -/
def scientific (f : BinaryFormat) (negative : Bool) (x : Binary) : List Char :=
  let (digits, e) := if x.significand = 0 then (0, 0) else f.shortest x
  let cs := digitsOf digits
  let power := e + cs.length - 1
  let mantissa := match cs with
    | first :: second :: rest => first :: '.' :: second :: rest
    | cs => cs
  let sign := if power < 0 then '-' else '+'
  signed negative (mantissa ++ 'e' :: sign :: digitsOf power.natAbs)

end BinaryFormat

example : BinaryFormat.double.nearest 1 10 = some ⟨0x1999999999999a, -56⟩ := by decide +kernel

example : BinaryFormat.double.shortest ⟨0x1999999999999a, -56⟩ = (1, -1) := by decide +kernel

example : BinaryFormat.double.shortest ⟨1, -1074⟩ = (5, -324) := by decide +kernel

end Rowlang
