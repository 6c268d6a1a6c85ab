import Rowlang.Number.Notation
import Rowlang.Number.Rounding

/-!
# Decimal numbers

A decimal number is a sign, a coefficient of 96 bits and a scale, the number of its places behind
the point. The value is `± coefficient / 10 ^ scale`; two decimals of one value may differ in their
scales, and zero may have a sign.

* `Decimal.make?` : the decimal of a coefficient, if it is in range;
* `Decimal.fit?` : the decimal nearest to a number with more digits than a decimal holds;
* `Decimal.compare` : the numeric order;
* `Decimal.normalize` : the decimal of the same value with the least scale.
-/

namespace Rowlang

/-- A decimal number. -/
structure Decimal where
  negative : Bool
  coefficient : Nat
  scale : Nat
  coefficient_lt : coefficient < 2 ^ 96
  scale_le : scale ≤ 28
deriving DecidableEq, Repr

namespace Decimal

def maxScale : Nat := 28

def zero : Decimal := ⟨false, 0, 0, by decide, by decide⟩

def one : Decimal := ⟨false, 1, 0, by decide, by decide⟩

instance : Inhabited Decimal := ⟨zero⟩

def isZero (d : Decimal) : Bool := d.coefficient == 0

/-- The decimal `± coefficient / 10 ^ scale`, zero without a sign; none if a part is out of range. -/
def make? (negative : Bool) (coefficient scale : Nat) : Option Decimal :=
  if h : coefficient < 2 ^ 96 ∧ scale ≤ maxScale then
    some ⟨negative && coefficient != 0, coefficient, scale, h.1, h.2⟩
  else none

def ofInt? (n : Int) : Option Decimal := make? (n < 0) n.natAbs 0

/-! ## Sign -/

def neg (d : Decimal) : Decimal := { d with negative := !d.negative }

def abs (d : Decimal) : Decimal := { d with negative := false }

/-- A whole number of units of the last place. -/
def signedCoefficient (d : Decimal) : Int :=
  if d.negative then -d.coefficient else d.coefficient

/-! ## Rounding to 96 bits -/

/-- What stands for `2 ^ 96` once a last place has been given up. -/
def carried : Nat := 7922816251426433759354395034

/-- The decimal of a coefficient that has been rounded and may have reached `2 ^ 96`. -/
def ofRounded? (negative : Bool) (coefficient scale : Nat) : Option Decimal :=
  if coefficient < 2 ^ 96 then make? negative coefficient scale
  else if scale = 0 then none
  else make? negative carried (scale - 1)

/-- The decimal nearest to `± n / 10 ^ scale`: as many last places are dropped as a decimal cannot
hold, and what is left is rounded, a half to the even neighbour. None if the whole part is too
great. -/
def fit? (negative : Bool) (n scale : Nat) : Option Decimal := do
  let dropped ← (List.range (scale + 1)).find? fun k =>
    decide (scale - k ≤ maxScale ∧ n / 10 ^ k < 2 ^ 96)
  ofRounded? negative (roundHalfEven n (10 ^ dropped)) (scale - dropped)

/-! ## Order -/

def compare (a b : Decimal) : Ordering :=
  Ord.compare (a.signedCoefficient * 10 ^ b.scale) (b.signedCoefficient * 10 ^ a.scale)

/-! ## Places behind the point -/

/-- The decimal of the same value with the least scale; zero has no sign. -/
def normalize (d : Decimal) : Decimal :=
  if d.coefficient = 0 then zero
  else
    let r := stripZeros d.scale d.coefficient
    ⟨d.negative, r.1, d.scale - r.2,
      Nat.lt_of_le_of_lt (stripZeros_le _ _) d.coefficient_lt,
      Nat.le_trans (Nat.sub_le _ _) d.scale_le⟩

def truncate (d : Decimal) : Decimal :=
  ⟨d.negative, d.coefficient / 10 ^ d.scale, 0,
    Nat.lt_of_le_of_lt (Nat.div_le_self _ _) d.coefficient_lt, by decide⟩

def isWhole (d : Decimal) : Bool := d.coefficient % 10 ^ d.scale == 0

def toInt (d : Decimal) : Int := d.truncate.signedCoefficient

/-- The whole number next to the whole part, away from zero. -/
def awayFromZero (d : Decimal) : Decimal :=
  (make? d.negative (d.coefficient / 10 ^ d.scale + 1) 0).getD d.truncate

def floor (d : Decimal) : Decimal :=
  if d.isWhole || !d.negative then d.truncate else d.awayFromZero

def ceil (d : Decimal) : Decimal :=
  if d.isWhole || d.negative then d.truncate else d.awayFromZero

/-- The decimal with at most `places` places, rounded half away from zero. -/
def roundTo (d : Decimal) (places : Nat) : Decimal :=
  if d.scale ≤ places then d
  else (make? d.negative (roundHalfUp d.coefficient (10 ^ (d.scale - places))) places).getD d

/-! ## Text -/

/-- A decimal without an exponent and without needless zeros. -/
def text (d : Decimal) : String :=
  let n := d.normalize
  String.ofList (signed n.negative (fixedPlaces n.coefficient n.scale))

/-- The magnitude of a decimal of at most `places` places, with that many of them. -/
def textWithPlaces (d : Decimal) (places : Nat) : List Char :=
  fixedPlaces (d.coefficient * 10 ^ (places - d.scale)) places

end Decimal

end Rowlang
