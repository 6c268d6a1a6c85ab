import Mathlib.Tactic.Linarith
import Mathlib.Tactic.Ring
import Rowlang.Number.Double

/-!
# The shortest digits of whole numbers

A whole number that a binary format holds with its units is written by its own digits: no other whole number
rounds to it, so the fewest digits that do are those of the number, but for zeros at their end.

* `Binary.IsNat` : a binary number that is a natural number;
* `BinaryFormat.eq_of_readsBack` : the whole numbers that round to it;
* `BinaryFormat.shortest_whole` : its shortest digits make it up.
-/

namespace Rowlang

theorem length_digitsOf_pos (n : Nat) : 0 < (digitsOf n).length := Nat.length_toDigits_pos

theorem isDigit_of_mem_digitsOf {n : Nat} {c : Char} (listed : c ∈ digitsOf n) : c.isDigit = true :=
  Nat.isDigit_of_mem_toDigits (by decide) (by decide) listed

theorem digitValue_digitsOf (n : Nat) : digitValue (digitsOf n) = n := by
  rw [digitValue, digitValueFrom, ← Nat.ofDigitChars_eq_foldl]
  exact Nat.ofDigitChars_toDigits (by decide) (by decide)

/-- The binary number is the natural number. -/
def Binary.IsNat (x : Binary) (k : Nat) : Prop := x.toQuotient.1 = k * x.toQuotient.2

namespace BinaryFormat

variable {f : BinaryFormat} {x : Binary} {k : Nat}

theorem toQuotient_units (units : x.exponent ≤ 0) :
    x.toQuotient = (x.significand, 2 ^ (-x.exponent).toNat) := by
  rw [Binary.toQuotient, scaleByTwo, if_pos (by omega), Nat.one_mul]

theorem significand_units (units : x.exponent ≤ 0) (whole : x.IsNat k) :
    x.significand = k * 2 ^ (-x.exponent).toNat := by
  rwa [Binary.IsNat, toQuotient_units units] at whole

theorem scaleByTwo_units (units : x.exponent ≤ 0) (digits : Nat) :
    scaleByTwo digits 1 (x.exponent - 2) = (digits * (4 * 2 ^ (-x.exponent).toNat), 1) := by
  have quarters : (-(x.exponent - 2)).toNat = (-x.exponent).toNat + 2 := by omega
  rw [scaleByTwo, if_neg (by omega), quarters, Nat.pow_add, Nat.mul_comm 4]

theorem scaleByTen_neg (n e : Nat) : scaleByTen n 1 (-e) = (n * 10 ^ e, 1) := by
  unfold scaleByTen
  split
  · obtain rfl : e = 0 := by omega
    simp
  · rw [Int.neg_neg, Int.toNat_natCast]

/-- A whole decimal number that rounds to the number is no more than half a unit from it, and so equal. -/
theorem eq_of_readsBack (units : x.exponent ≤ 0) (whole : x.IsNat k) {digits e : Nat}
    (back : f.readsBack x digits e = true) : digits * 10 ^ e = k := by
  have unit : 0 < 2 ^ (-x.exponent).toNat := Nat.two_pow_pos _
  simp only [readsBack, scaleByTwo_units units, scaleByTen_neg, significand_units units whole] at back
  generalize 2 ^ (-x.exponent).toNat = p at back unit
  have near : 4 * (k * p) ≤ 4 * (digits * 10 ^ e * p) + 2 ∧ 4 * (digits * 10 ^ e * p) ≤ 4 * (k * p) + 2 := by
    have scaled : digits * (4 * p) * 10 ^ e = 4 * (digits * 10 ^ e * p) := by ring
    rw [scaled] at back
    split at back <;> simp only [Bool.and_eq_true, decide_eq_true_eq] at back <;> split at back <;> omega
  generalize digits * 10 ^ e = n at near
  rcases Nat.lt_trichotomy n k with less | same | more
  · have := Nat.mul_le_mul_right p (Nat.succ_le_of_lt less)
    rw [Nat.succ_mul] at this
    omega
  · exact same
  · have := Nat.mul_le_mul_right p (Nat.succ_le_of_lt more)
    rw [Nat.succ_mul] at this
    omega

theorem readsBack_self (units : x.exponent ≤ 0) (whole : x.IsNat k) : f.readsBack x k 0 = true := by
  have scaled := scaleByTen_neg (k * (4 * 2 ^ (-x.exponent).toNat)) 0
  rw [Int.natCast_zero] at scaled
  simp only [readsBack, scaleByTwo_units units, scaled, significand_units units whole]
  generalize 2 ^ (-x.exponent).toNat = p
  have same : k * (4 * p) * 10 ^ 0 = 4 * (k * p) := by ring
  rw [same]
  split <;> simp only [Bool.and_eq_true, decide_eq_true_eq] <;> split <;> omega

/-- Of a decimal number with given digits, what is found reads back. -/
theorem readsBack_of_withDigits? {count digits : Nat} {e : Int}
    (found : f.withDigits? x count = some (digits, e)) :
    f.readsBack x digits e = true ∧
      e = leadingPower x.toQuotient.1 x.toQuotient.2 - (count - 1) := by
  unfold withDigits? at found
  dsimp only at found
  generalize (if roundHalfUp _ _ = _ then _ else _ : Nat) = farther at found
  split at found
  · cases found
    exact ⟨‹_›, rfl⟩
  · split at found
    · cases found
      exact ⟨‹_›, rfl⟩
    · cases found

theorem leadingPower_whole (units : x.exponent ≤ 0) (whole : x.IsNat k) (positive : 0 < k) :
    leadingPower x.toQuotient.1 x.toQuotient.2 = ((digitsOf k).length : Int) - 1 := by
  have unit : 0 < 2 ^ (-x.exponent).toNat := Nat.two_pow_pos _
  rw [toQuotient_units units, significand_units units whole, leadingPower,
    if_pos (Nat.le_mul_of_pos_left _ positive), Nat.mul_div_cancel _ unit]

/-- With as many digits as it has, the whole number itself is found. -/
theorem withDigits?_whole (units : x.exponent ≤ 0) (whole : x.IsNat k) (positive : 0 < k) :
    f.withDigits? x (digitsOf k).length = some (k, 0) := by
  have unit : 0 < 2 ^ (-x.exponent).toNat := Nat.two_pow_pos _
  have rounded : roundHalfUp (k * 2 ^ (-x.exponent).toNat) (2 ^ (-x.exponent).toNat) = k := by
    rw [roundHalfUp, Nat.mul_mod_left, Nat.mul_div_cancel _ unit, if_pos (by omega)]
  have power := leadingPower_whole units whole positive
  have same : scaleByTen (k * 2 ^ (-x.exponent).toNat) (2 ^ (-x.exponent).toNat) 0 =
      (k * 2 ^ (-x.exponent).toNat, 2 ^ (-x.exponent).toNat) := by
    simp [scaleByTen]
  unfold withDigits?
  rw [toQuotient_units units, significand_units units whole] at *
  dsimp only at *
  rw [power, Int.sub_self, same]
  dsimp only
  rw [rounded, if_pos (readsBack_self units whole)]

theorem findSome?_range {α : Type} {g : Nat → Option α} {n : Nat} {y : α}
    (found : (List.range n).findSome? g = some y) : ∃ i < n, g i = some y ∧ ∀ j < i, g j = none := by
  induction n with
  | zero => cases found
  | succ n ih =>
    rw [List.range_succ, List.findSome?_append] at found
    cases earlier : (List.range n).findSome? g with
    | some z =>
      rw [earlier, Option.some_or] at found
      obtain ⟨i, inside, first⟩ := ih (earlier.trans found)
      exact ⟨i, by omega, first⟩
    | none =>
      rw [earlier, Option.none_or] at found
      refine ⟨n, by omega, by simpa using found, fun j before => ?_⟩
      exact List.findSome?_eq_none_iff.1 earlier j (List.mem_range.2 before)

/-- The shortest digits of a whole number make it up. -/
theorem shortest_whole (units : x.exponent ≤ 0) (whole : x.IsNat k) (positive : 0 < k) (small : k < 10 ^ 17) :
    ∃ e : Nat, (f.shortest x).2 = e ∧ (f.shortest x).1 * 10 ^ e = k := by
  have length : (digitsOf k).length ≤ 17 := (Nat.length_toDigits_le_iff (by decide) (by decide)).2 small
  have length_pos := length_digitsOf_pos k
  have whole_found : f.withDigits? x ((digitsOf k).length - 1 + 1) = some (k, 0) := by
    rw [Nat.sub_add_cancel length_pos, withDigits?_whole units whole positive]
  unfold shortest
  cases found : (List.range 17).findSome? fun i => f.withDigits? x (i + 1) with
  | none =>
    have listed : (digitsOf k).length - 1 ∈ List.range 17 := List.mem_range.2 (by omega)
    cases whole_found.symm.trans (List.findSome?_eq_none_iff.1 found _ listed)
  | some result =>
    obtain ⟨digits, power⟩ := result
    obtain ⟨i, -, here, earlier⟩ := findSome?_range found
    -- with fewer digits than the number has, the power of ten is not negative
    have few : i < (digitsOf k).length := by
      by_contra more
      cases whole_found.symm.trans (earlier ((digitsOf k).length - 1) (by omega))
    obtain ⟨back, power_eq⟩ := readsBack_of_withDigits? here
    obtain ⟨e, rfl⟩ : ∃ e : Nat, power = e := ⟨(digitsOf k).length - 1 - i, by
      rw [power_eq, leadingPower_whole units whole positive]
      omega⟩
    have stripped := stripZeros_mul 17 digits
    refine ⟨e + (stripZeros 17 digits).2, by simp, ?_⟩
    rw [Nat.add_comm, Nat.pow_add, ← Nat.mul_assoc]
    dsimp only
    rw [stripped]
    exact eq_of_readsBack units whole back

end BinaryFormat

end Rowlang
