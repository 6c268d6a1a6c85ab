import Rowlang.Functions.Provider

/-!
# Functions of numbers

Each takes its subject and its other arguments, and fails with a message.
-/

namespace Rowlang.Functions

/-- A built-in function of a subject and of its other arguments. -/
abbrev Builtin := Value → List Value → Except String Value

/-! ## Arguments -/

def numberOf (v : Value) : Except String Number :=
  match v.toNumber? with
  | some n => .ok n
  | none => .error ("expected a number, found " ++ v.typeName)

def argument (args : List Value) (i : Nat) : Except String Value :=
  match args[i]? with
  | some v => .ok v
  | none => .error ("missing argument " ++ toString (i + 1))

def intArgument (args : List Value) (i : Nat) : Except String Int := do
  let v ← argument args i
  match v.toInt? with
  | some n => .ok n
  | none =>
    .error ("argument " ++ toString (i + 1) ++ " must be an integer, found " ++ v.typeName)

/-! ## Rounding -/

/-- A function of decimals and of doubles, as a function of a subject. -/
def onNumber (exact : Decimal → Decimal) (rounded : Float → Float) : Builtin := fun subject _ => do
  match ← numberOf subject with
  | .decimal d => return .number (.decimal (exact d))
  | .double x => return .number (.double (rounded x))
  | .undefined negative => return .number (.undefined negative)

def abs : Builtin := fun subject _ => return .number (← numberOf subject).abs

def ceil : Builtin := onNumber Decimal.ceil Double.ceil

def floor : Builtin := onNumber Decimal.floor Double.floor

/-- A double at so many places, of which at most 300 count. -/
def roundDouble (x : Float) (places : Nat) : Float :=
  let factor := Double.power 10 (min places 300)
  Double.round (x * factor) / factor

/-- The subject at so many places, or at none, rounded half away from zero. -/
def round : Builtin := fun subject args => do
  let places ← if args.isEmpty then pure 0 else intArgument args 0
  if places < 0 ∨ 2 ^ 32 ≤ places then throw "decimal places must not be negative"
  match ← numberOf subject with
  | .decimal d => return .number (.decimal (d.roundTo places.toNat))
  | .double x => return .number (.double (roundDouble x places.toNat))
  | .undefined negative => return .number (.undefined negative)

/-! ## Powers -/

/-- The exact power of a decimal by a whole number, if there is one. -/
def exactPower? (base exponent : Number) : Option Number := do
  match base with
  | .decimal b =>
    guard exponent.isWhole
    return .decimal (← b.power? (← exponent.toInt?))
  | _ => none

/-- A power: exact if it can be, and otherwise of doubles. -/
def pow : Builtin := fun subject args => do
  let base ← numberOf subject
  let exponent ← numberOf (← argument args 0)
  return .number ((exactPower? base exponent).getD (.onDoubles Float.pow base exponent))

/-! ## Roman numerals -/

/-- The values of numerals, from the greatest. -/
def numerals : List (Nat × String) :=
  [(1000, "M"), (900, "CM"), (500, "D"), (400, "CD"), (100, "C"), (90, "XC"), (50, "L"),
    (40, "XL"), (10, "X"), (9, "IX"), (5, "V"), (4, "IV"), (1, "I")]

/-- The numerals of a number: each as often as its value goes into what is left. -/
def romanFrom (n : Nat) : List (Nat × String) → String
  | [] => ""
  | (value, numeral) :: rest =>
    String.join (List.replicate (n / value) numeral) ++ romanFrom (n % value) rest

/-- The roman numerals of a number from 1 to 3999. -/
def roman : Builtin := fun subject _ =>
  match subject.toInt? with
  | some n =>
    if 1 ≤ n ∧ n ≤ 3999 then .ok (.text (romanFrom n.toNat numerals))
    else .error (subject.render ++ " has no roman numeral")
  | none => .error (subject.render ++ " has no roman numeral")

example : romanFrom 1994 numerals = "MCMXCIV" := by decide +kernel

end Rowlang.Functions
