import Rowlang.Number.Binary

/-!
# Doubles

Floating-point numbers of 64 bits. Sums, products and quotients are those of `Float`; what else is
needed goes through the exact value of a double.

* `Double.value` : what a double stands for;
* `Double.ofQuotient` : the double nearest to a quotient;
* `Double.floor`, `Double.ceil`, `Double.truncate`, `Double.round` : whole numbers near a double;
* `Double.remainder` : the remainder of a division, with the sign of the dividend;
* `Double.compare` : the numeric order, in which the value that is no number is the greatest;
* `Double.text`, `Double.ofText?` : the written form, and its reading.
-/

namespace Rowlang

/-- What a double stands for. -/
inductive DoubleValue where
  | nan
  | infinite (negative : Bool)
  | finite (negative : Bool) (magnitude : Binary)
deriving DecidableEq, Repr

namespace Double

/-! ## Decoding and encoding -/

def value (x : Float) : DoubleValue :=
  let bits := x.toBits.toNat
  let negative := decide (2 ^ 63 ≤ bits)
  let field : Nat := bits / 2 ^ 52 % 2 ^ 11
  let fraction : Nat := bits % 2 ^ 52
  if field = 2047 then if fraction = 0 then .infinite negative else .nan
  else if field = 0 then .finite negative ⟨fraction, -1074⟩
  else .finite negative ⟨2 ^ 52 + fraction, (field : Int) - 1075⟩

/-- The double with the given bits, behind a sign bit. -/
def withSign (negative : Bool) (bits : Nat) : Float :=
  Float.ofBits (UInt64.ofNat (bits + if negative then 2 ^ 63 else 0))

/-- The double of a binary number of the format of 64 bits. A significand with a bit before the
fraction raises the exponent field by one, which is how such a number is stored. -/
def ofBinary (negative : Bool) (x : Binary) : Float :=
  withSign negative ((x.exponent + 1074).toNat * 2 ^ 52 + x.significand)

def infinity (negative : Bool) : Float := withSign negative (2047 * 2 ^ 52)

def nan : Float := Float.ofBits 0x7ff8000000000000

/-- The double nearest to `num / den`; infinite beyond the greatest double. -/
def ofQuotient (negative : Bool) (num den : Nat) : Float :=
  match BinaryFormat.double.nearest num den with
  | some x => ofBinary negative x
  | none => infinity negative

def ofInt (n : Int) : Float := ofQuotient (n < 0) n.natAbs 1

/-- The double nearest to `digits * 10 ^ exponent`. Numbers far outside the range are recognised by
their first digit. -/
def ofScientific (negative : Bool) (digits : Nat) (exponent : Int) : Float :=
  let first := exponent + (digitsOf digits).length
  if digits = 0 ∨ first < -400 then ofQuotient negative 0 1
  else if 400 < first then infinity negative
  else
    let (n, d) := scaleByTen digits 1 (-exponent)
    ofQuotient negative n d

/-! ## Classes -/

def isFinite (x : Float) : Bool :=
  match value x with
  | .finite .. => true
  | _ => false

def isWhole (x : Float) : Bool :=
  match value x with
  | .finite _ m => let (n, d) := m.toQuotient; n % d == 0
  | _ => false

def abs (x : Float) : Float :=
  match value x with
  | .nan => nan
  | .infinite _ => infinity false
  | .finite _ m => ofBinary false m

/-! ## Whole numbers near a double -/

/-- A finite double whose magnitude is made whole by `f`, which is given the sign and the magnitude
as a quotient; any other double as it is. -/
def mapQuotient (f : Bool → Nat → Nat → Nat) (x : Float) : Float :=
  match value x with
  | .finite negative m => let (n, d) := m.toQuotient; ofQuotient negative (f negative n d) 1
  | _ => x

def truncate : Float → Float := mapQuotient fun _ n d => n / d

def floor : Float → Float :=
  mapQuotient fun negative n d => if negative then (n + d - 1) / d else n / d

def ceil : Float → Float :=
  mapQuotient fun negative n d => if negative then n / d else (n + d - 1) / d

/-- The whole number nearest to a double, the one farther from zero of two. -/
def round : Float → Float := mapQuotient fun _ n d => roundHalfUp n d

/-- The whole part of a double whose magnitude is below `2 ^ 63`. -/
def toInt? (x : Float) : Option Int :=
  match value x with
  | .finite negative m =>
    let (n, d) := m.toQuotient
    if n < d * 2 ^ 63 then some (if negative then -(n / d : Nat) else (n / d : Nat)) else none
  | _ => none

/-! ## Arithmetic -/

/-- The remainder of a division whose quotient is rounded towards zero. -/
def remainder (x y : Float) : Float :=
  match value x, value y with
  | .finite negative a, .finite _ b =>
    let e := min a.exponent b.exponent
    let m := a.significand * 2 ^ (a.exponent - e).toNat
    let n := b.significand * 2 ^ (b.exponent - e).toNat
    if n = 0 then nan
    else
      let (num, den) := (Binary.mk (m % n) e).toQuotient
      ofQuotient negative num den
  | .finite .., .infinite _ => x
  | _, _ => nan

/-- A power with a natural exponent, by repeated squaring. -/
def power (x : Float) (n : Nat) : Float :=
  go x 1 n n
where
  /-- The product of `acc` and `x ^ n`, for `n` at most `fuel`. -/
  go (x acc : Float) (n : Nat) : Nat → Float
    | 0 => acc
    | fuel + 1 =>
      let acc := if n % 2 = 1 then acc * x else acc
      if n / 2 = 0 then acc else go (x * x) acc (n / 2) fuel

/-! ## Order -/

/-- The numeric order. The two zeros are equal, and what is no number comes last. -/
def compare (x y : Float) : Ordering :=
  match value x, value y with
  | .nan, .nan => .eq
  | .nan, _ => .gt
  | _, .nan => .lt
  | _, _ => if x < y then .lt else if x == y then .eq else .gt

/-! ## Text -/

def text (x : Float) : String :=
  match value x with
  | .nan => "NaN"
  | .infinite negative => String.ofList (signed negative "inf".toList)
  | .finite negative m => String.ofList (BinaryFormat.double.positional negative m)

/-- The number of 32 bits nearest to a double, in positional notation. -/
def singleText (x : Float) : String :=
  match value x with
  | .finite negative m =>
    let (n, d) := m.toQuotient
    match BinaryFormat.single.nearest n d with
    | some s => String.ofList (BinaryFormat.single.positional negative s)
    | none => String.ofList (signed negative "inf".toList)
  | _ => text x

/-- The exponent part of a number: none, or `e` or `E` with a whole number. -/
def exponentOf? : List Char → Option Int
  | [] => some 0
  | e :: cs =>
    let (negative, digits) := match cs with
      | '-' :: rest => (true, rest)
      | '+' :: rest => (false, rest)
      | rest => (false, rest)
    if (e == 'e' || e == 'E') && !digits.isEmpty && digits.all Char.isDigit then
      some (if negative then -(digitValue digits : Int) else digitValue digits)
    else none

/-- The number in digits, with an optional point and an optional exponent. -/
def ofDigits? (negative : Bool) (cs : List Char) : Option Float :=
  let whole := cs.takeWhile Char.isDigit
  let rest := cs.dropWhile Char.isDigit
  let (fraction, rest) := match rest with
    | '.' :: rest => (rest.takeWhile Char.isDigit, rest.dropWhile Char.isDigit)
    | rest => ([], rest)
  if whole.isEmpty && fraction.isEmpty then none
  else do
    let e ← exponentOf? rest
    return ofScientific negative (digitValue (whole ++ fraction)) (e - fraction.length)

/-- The number without its sign. Infinity and the value that is no number are written in letters of
either case. -/
def unsignedOfText? (negative : Bool) (cs : List Char) : Option Float :=
  let word := String.ofList (cs.map Char.toLower)
  if word == "inf" || word == "infinity" then some (infinity negative)
  else if word == "nan" then some nan
  else ofDigits? negative cs

/-- Reads a double: an optional sign, and a number or the name of one. -/
def ofText? (s : String) : Option Float :=
  match s.toList with
  | '-' :: cs => unsignedOfText? true cs
  | '+' :: cs => unsignedOfText? false cs
  | cs => unsignedOfText? false cs

end Double

end Rowlang
