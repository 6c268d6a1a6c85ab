import Rowlang.Json.Basic

/-!
# Numbers in JSON

A numeral is a sign, digits without a leading zero, and then perhaps a fraction and an exponent.
Without these it is an integer, as long as 64 bits hold it. Otherwise it is a double, which is the
product or quotient of two doubles: of the digits that 64 bits hold, and of a power of ten.

* `Numeral.read?` : the numeral at the start of a text;
* `keepDigits` : the digits that 64 bits hold;
* `Numeral.toNumber?` : the number of a numeral, unless it is beyond the doubles.
-/

namespace Rowlang

/-- A written number. -/
structure Numeral where
  negative : Bool
  whole : List Char
  fraction : Option (List Char)
  exponent : Option Int

namespace Numeral

/-! ## Reading -/

/-- The fraction at the start of a text, if there is one, and how many characters it has. -/
def readFraction? (cs : List Char) : Option (Option (List Char) × Nat) :=
  match cs with
  | '.' :: rest =>
    let digits := rest.takeWhile Char.isDigit
    if digits.isEmpty then none else some (some digits, digits.length + 1)
  | _ => some (none, 0)

/-- The exponent at the start of a text, if there is one, and how many characters it has. -/
def readExponent? (cs : List Char) : Option (Option Int × Nat) :=
  let unsigned (cs : List Char) : Option (Nat × Nat) :=
    let digits := cs.takeWhile Char.isDigit
    if digits.isEmpty then none else some (digitValue digits, digits.length)
  match cs with
  | [] => some (none, 0)
  | e :: rest =>
    if e == 'e' || e == 'E' then
      match rest with
      | '-' :: rest => (unsigned rest).map fun (n, k) => (some (-n), k + 2)
      | '+' :: rest => (unsigned rest).map fun (n, k) => (some n, k + 2)
      | rest => (unsigned rest).map fun (n, k) => (some n, k + 1)
    else some (none, 0)

def read? (cs : List Char) : Option (Numeral × Nat) := do
  let negative := cs.head? == some '-'
  let mark := if negative then 1 else 0
  let cs := cs.drop mark
  let whole := cs.takeWhile Char.isDigit
  if whole.isEmpty || (whole.head? == some '0' && whole.length ≠ 1) then none
  else
    let cs := cs.drop whole.length
    let (fraction, n) ← readFraction? cs
    let (exponent, k) ← readExponent? (cs.drop n)
    return (⟨negative, whole, fraction, exponent⟩, mark + whole.length + n + k)

/-! ## The value -/

/-- The number that `acc` and the digits behind it stand for, up to the first digit with which it
would not be of 64 bits, and how many digits are left over. -/
def keepDigits (acc : Nat) : List Char → Nat × Nat
  | [] => (acc, 0)
  | c :: rest =>
    let next := digitValueFrom acc [c]
    if next < 2 ^ 64 then keepDigits next rest else (acc, rest.length + 1)

/-- The double `x * 10 ^ exponent`, unless it is infinite. -/
def scale? (x : Float) (exponent : Int) : Option Float :=
  if 0 ≤ exponent then
    if exponent ≤ 308 then
      let y := x * Double.ofScientific false 1 exponent
      if Double.isFinite y then some y else none
    else if x == 0 then some x
    else none
  else if -308 ≤ exponent then some (x / Double.ofScientific false 1 (-exponent))
  else if x == 0 then some x
  else scale? (x / Double.ofScientific false 1 308) (exponent + 308)
termination_by exponent.natAbs
decreasing_by omega

def toDouble? (n : Numeral) : Option Float :=
  let fraction := n.fraction.getD []
  let (kept, dropped) := keepDigits 0 n.whole
  let (kept, ignored) := keepDigits kept fraction
  let exponent : Int := dropped - (fraction.length - ignored : Nat) + n.exponent.getD 0
  (scale? (Double.ofInt kept) exponent).map fun x => if n.negative then -x else x

/-- The number of a numeral. Zero with a minus sign is a double, as no integer keeps the sign. -/
def toNumber? (n : Numeral) : Option JsonNumber :=
  let value := digitValue n.whole
  match n.fraction, n.exponent with
  | none, none =>
    if n.negative then
      if 0 < value ∧ value ≤ 2 ^ 63 then some (.integer (-value)) else n.toDouble?.map .double
    else if value < 2 ^ 64 then some (.integer value)
    else n.toDouble?.map .double
  | _, _ => n.toDouble?.map .double

end Numeral

end Rowlang
