import Rowlang.Decimal.Arithmetic
import Rowlang.Decimal.Double
import Rowlang.Decimal.Reading
import Rowlang.Text.Blank
import Rowlang.Text.Quoted

/-!
# Numbers

The numbers of expressions are exact decimals as long as an operation has an exact result in range,
and doubles otherwise; so a division by zero gives an infinite number. An operation on doubles without
a result, such as zero divided by zero, gives an undefined number.

* `Number.add`, `Number.sub`, `Number.mul`, `Number.div`, `Number.rem` : the operations;
* `Number.compare` : the numeric order, with undefined numbers before or behind all others;
* `Number.ofText?`, `Number.text` : reading and writing.
-/

namespace Rowlang
open Rowlang.Text

/-- A number: a decimal, or a double that an operation has left the decimals for. An undefined number
has a sign, as doubles do; that of a result is negative unless an operand was undefined already. -/
inductive Number where
  | decimal (value : Decimal)
  | double (value : Float)
  | undefined (negative : Bool)

namespace Number

def zero : Number := .decimal .zero

/-- A whole number; a double beyond the decimals. -/
def ofInt (n : Int) : Number :=
  match Decimal.ofInt? n with
  | some d => .decimal d
  | none => .double (Double.ofInt n)

def ofNat (n : Nat) : Number := ofInt n

/-- The number of a double; an undefined one gets the given sign. -/
def ofDouble (negative : Bool) (x : Float) : Number :=
  match Double.value x with
  | .nan => .undefined negative
  | _ => .double x

/-! ## Readings -/

def toDouble : Number → Float
  | .decimal d => d.toDouble
  | .double x => x
  | .undefined _ => Double.nan

/-- The number as a decimal, if it can be one. -/
def toDecimal? : Number → Option Decimal
  | .decimal d => some d
  | .double x => Decimal.ofDouble? x
  | .undefined _ => none

/-- The number as a decimal if it can be one, and otherwise as it is. -/
def simplify (n : Number) : Number := (n.toDecimal?.map .decimal).getD n

/-- The sign of an undefined number. -/
def undefinedSign? : Number → Option Bool
  | .undefined negative => some negative
  | _ => none

/-- Whether a number is of 64 bits with a sign. -/
def isInt64 (n : Int) : Bool := -2 ^ 63 ≤ n && n < 2 ^ 63

/-- The whole part, if it is of 64 bits. -/
def toInt? : Number → Option Int
  | .decimal d => if isInt64 d.toInt then some d.toInt else none
  | .double x => Double.toInt? x
  | .undefined _ => none

def isZero : Number → Bool
  | .decimal d => d.isZero
  | .double x => x == 0
  | .undefined _ => false

def isWhole : Number → Bool
  | .decimal d => d.isWhole
  | .double x => Double.isWhole x
  | .undefined _ => false

/-! ## Operations -/

def abs : Number → Number
  | .decimal d => .decimal d.abs
  | .double x => .double (Double.abs x)
  | .undefined _ => .undefined false

def neg : Number → Number
  | .decimal d => .decimal d.neg
  | .double x => .double (-x)
  | .undefined negative => .undefined !negative

/-- The result of an operation on doubles. -/
def onDoubles (rounded : Float → Float → Float) (a b : Number) : Number :=
  let sign := (a.undefinedSign?.or b.undefinedSign?).getD true
  ofDouble sign (rounded a.toDouble b.toDouble)

/-- The exact result of an operation on two decimals, or else the result on doubles. -/
def combine (exact : Decimal → Decimal → Option Decimal) (rounded : Float → Float → Float)
    (a b : Number) : Number :=
  let fallback := onDoubles rounded a b
  match a, b with
  | .decimal x, .decimal y => ((exact x y).map .decimal).getD fallback
  | _, _ => fallback

def add : Number → Number → Number := combine Decimal.add? (· + ·)

def sub : Number → Number → Number := combine Decimal.sub? (· - ·)

def mul : Number → Number → Number := combine Decimal.mul? (· * ·)

def div : Number → Number → Number := combine Decimal.div? (· / ·)

/-- The remainder. -/
def rem : Number → Number → Number := combine Decimal.rem? Double.remainder

/-- Where a number stands: before all that are defined, among them, or behind them. -/
def rank : Number → Nat
  | .undefined true => 0
  | .undefined false => 2
  | _ => 1

/-- The numeric order: two decimals exactly, otherwise by their doubles. -/
def compare : Number → Number → Ordering
  | .decimal a, .decimal b => a.compare b
  | a, b => (Ord.compare a.rank b.rank).then (Double.compare a.toDouble b.toDouble)

/-! ## Text -/

def text : Number → String
  | .decimal d => d.text
  | .double x =>
    match Double.value x with
    | .infinite negative => String.ofList (signed negative "Infinity".toList)
    | _ => Double.text x
  | .undefined _ => "NaN"

/-- Reads a number as a double. -/
def ofDoubleText? (s : String) : Option Number :=
  (Double.ofText? s).map (ofDouble (s.toList.head? == some '-'))

/-- Reads a number: a decimal if it is in range, otherwise a double. -/
def ofText? (s : String) : Option Number :=
  let cs := trim s.toList
  match Decimal.ofChars? cs with
  | some d => some (.decimal d)
  | none =>
    match Decimal.ofScientific? cs with
    | some d => some (.decimal d)
    | none => ofDoubleText? (String.ofList cs)

def malformed (s : String) : String := "invalid number: " ++ quote (trimString s)

end Number

end Rowlang
