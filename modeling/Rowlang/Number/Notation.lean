/-!
# Decimal notation

How a number that is given by decimal digits and a power of ten is written and read.

* `positional` : with a decimal point and without an exponent;
* `fixedPlaces` : with a given number of digits behind the point;
* `digitValue` : the number that a run of digits stands for.
-/

-- Powers are those of the core library, whatever else is imported beside it.
attribute [instance(2000), default_instance 20000] instPowNat

namespace Rowlang

def digitsOf (n : Nat) : List Char := Nat.toDigits 10 n

/-- The number that a run of digits stands for, `acc` being the digits before it. -/
def digitValueFrom (acc : Nat) (cs : List Char) : Nat :=
  cs.foldl (fun acc c => 10 * acc + (c.toNat - '0'.toNat)) acc

def digitValue (cs : List Char) : Nat := digitValueFrom 0 cs

def hexDigit? (c : Char) : Option Nat :=
  if c.isDigit then some (c.toNat - '0'.toNat)
  else if 'a' ≤ c ∧ c ≤ 'f' then some (c.toNat - 'a'.toNat + 10)
  else if 'A' ≤ c ∧ c ≤ 'F' then some (c.toNat - 'A'.toNat + 10)
  else none

/-- Zeros in front of a run of digits, up to the given length. -/
def padZeros (length : Nat) (cs : List Char) : List Char :=
  List.replicate (length - cs.length) '0' ++ cs

/-- The number `n` divided by `10 ^ places`, with that many digits behind the point. -/
def fixedPlaces (n places : Nat) : List Char :=
  let cs := padZeros (places + 1) (digitsOf n)
  if places == 0 then cs
  else cs.take (cs.length - places) ++ '.' :: cs.drop (cs.length - places)

/-- The number `n * 10 ^ exponent`, without an exponent. -/
def positional (n : Nat) (exponent : Int) : List Char :=
  if 0 ≤ exponent then digitsOf n ++ List.replicate exponent.toNat '0'
  else fixedPlaces n (-exponent).toNat

/-- A text behind a minus sign, if one is called for. -/
def signed (negative : Bool) (cs : List Char) : List Char :=
  if negative then '-' :: cs else cs

theorem length_padZeros (length : Nat) (cs : List Char) :
    (padZeros length cs).length = max length cs.length := by
  simp only [padZeros, List.length_append, List.length_replicate]
  omega

example : positional 125 (-2) = "1.25".toList := by decide

example : positional 5 (-3) = "0.005".toList := by decide

example : positional 12 2 = "1200".toList := by decide

/-! ## Trailing zeros -/

/-- Divides `n` by ten as long as it is divisible, at most `fuel` times, and counts. -/
def stripZeros : Nat → Nat → Nat × Nat
  | 0, n => (n, 0)
  | fuel + 1, n =>
    if n % 10 = 0 then
      let (m, k) := stripZeros fuel (n / 10)
      (m, k + 1)
    else (n, 0)

theorem stripZeros_mul (fuel n : Nat) : (stripZeros fuel n).1 * 10 ^ (stripZeros fuel n).2 = n := by
  induction fuel generalizing n with
  | zero => simp [stripZeros]
  | succ fuel ih =>
    unfold stripZeros
    split
    · rename_i h
      have := ih (n / 10)
      dsimp only
      rw [Nat.pow_succ, ← Nat.mul_assoc, this]
      omega
    · simp

theorem stripZeros_le (fuel n : Nat) : (stripZeros fuel n).1 ≤ n := by
  induction fuel generalizing n with
  | zero => simp [stripZeros]
  | succ fuel ih =>
    unfold stripZeros
    split
    · have := ih (n / 10)
      dsimp only
      omega
    · simp

theorem stripZeros_count_le (fuel n : Nat) : (stripZeros fuel n).2 ≤ fuel := by
  induction fuel generalizing n with
  | zero => simp [stripZeros]
  | succ fuel ih =>
    unfold stripZeros
    split
    · have := ih (n / 10)
      dsimp only
      omega
    · simp

end Rowlang
