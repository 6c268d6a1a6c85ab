import Rowlang.Json.Values
import Rowlang.Proofs.Number.Reading
import Rowlang.Proofs.Number.Shortest
import Rowlang.Proofs.Number.Whole

/-!
# Numbers in documents

A number of a document is read by its digits, and they are read exactly if a decimal holds them. A whole number is
then written as an integer of the same value. Any other number is written as the double of the decimal.

* `Binary.digits` : the digits that a double is written by;
* `JsonNumber.IsDecimal` : the decimal values of numbers;
* `JsonNumber.reread_isDecimal` : what is read and written again is a decimal of this value;
* `JsonNumber.IsWhole` : the whole numbers of 64 bits with a sign, as integers, and of 53 bits, as doubles;
* `JsonNumber.reread_whole` : a whole number comes back.
-/

namespace Rowlang

/-- A number that is read as a value and written again. -/
def JsonNumber.reread (n : JsonNumber) : Json := n.toValue.toJson .empty

/-- The number is the whole number: an integer of 64 bits with a sign, or a double of 53 bits. -/
def JsonNumber.IsWhole (n : JsonNumber) (k : Int) : Prop :=
  match n with
  | .integer n => n = k ∧ Number.isInt64 k = true
  | .double x => ∃ negative m magnitude, Double.value x = .finite negative m ∧ m.IsNat magnitude ∧
      magnitude < 2 ^ 53 ∧ k = if negative then -(magnitude : Int) else magnitude

/-- The digits of a double, and the power of ten of the last one. -/
def Binary.digits (m : Binary) : Nat × Int :=
  if m.significand = 0 then (0, 0) else BinaryFormat.double.shortest m

/-- The digits of the number are those of a decimal, and this is their value: for a double, its shortest digits. -/
def JsonNumber.IsDecimal (n : JsonNumber) (q : ℚ) : Prop :=
  match n with
  | .integer k => k.natAbs < 2 ^ 96 ∧ q = k
  | .double x => ∃ negative m, Double.value x = .finite negative m ∧ m.digits.2.natAbs ≤ 28 ∧
      m.digits.1 * 10 ^ m.digits.2.toNat < 2 ^ 96 ∧
      q = Decimal.signFactor negative * (m.digits.1 * 10 ^ m.digits.2)

/-! ## The text of a double -/

theorem lt_pow_length_digitsOf (n : Nat) : n < 10 ^ (digitsOf n).length :=
  (Nat.length_toDigits_le_iff (by decide) (length_digitsOf_pos n)).1 (Nat.le_refl _)

theorem pow_le_of_digitsOf {n : Nat} {first : Char} {rest : List Char} (digits : digitsOf n = first :: rest)
    (more : rest ≠ []) : 10 ^ rest.length ≤ n := by
  have longer : ¬ (digitsOf n).length ≤ rest.length := by simp [digits]
  rwa [digitsOf, Nat.length_toDigits_le_iff (by decide) (List.length_pos_iff.2 more), not_lt] at longer

/-- Digits behind the point are read exactly. -/
theorem ofText?_places (negative : Bool) {n k : Nat} (some_place : 0 < k) (held : k ≤ 28) (small : n < 2 ^ 96) :
    ∃ d, Number.ofText? (String.ofList (signed negative (positional n (-k)))) = some (.decimal d) ∧
      d.toRat = Decimal.signFactor negative * (n * 10 ^ (-k : Int)) := by
  obtain ⟨ws, fs, text, length, digits, value⟩ := fixedPlaces_parts n k
  have some_fraction : fs ≠ [] := List.ne_nil_of_length_pos (by omega)
  have written : positional n (-k) = pointed ws fs := by
    rw [positional, if_neg (by omega), Int.neg_neg, Int.toNat_natCast, text, if_neg (by omega)]
    cases fs <;> [exact absurd rfl some_fraction; rfl]
  obtain ⟨d, read, exact⟩ := Number.ofText?_pointed (List.append_ne_nil_of_right_ne_nil ws some_fraction) digits
    (by rw [length]; exact held) (by rwa [value]) negative
  refine ⟨d, by rw [written, read], exact.trans ?_⟩
  rw [value, length, ten_zpow_of_nonpos (by omega), Int.neg_neg, Int.toNat_natCast, div_eq_mul_inv]

/-- Digits with zeros behind them, and with one more behind a point, are read exactly. -/
theorem ofText?_units (negative : Bool) {n k : Nat} (few : k + (digitsOf n).length ≤ 16) :
    ∃ d, Number.ofText? (String.ofList (signed negative (positional n k) ++ ['.', '0'])) = some (.decimal d) ∧
      d.toRat = Decimal.signFactor negative * (n * 10 ^ (k : Int)) := by
  have zeros : List.replicate k '0' ++ ['0'] = List.replicate (k + 1) '0' := List.replicate_succ'.symm
  have value : digitValue ((digitsOf n ++ List.replicate k '0') ++ ['0']) = n * 10 ^ (k + 1) := by
    rw [List.append_assoc, zeros, digitValue_zeros, digitValue_digitsOf]
  have digits : ∀ c ∈ (digitsOf n ++ List.replicate k '0') ++ ['0'], c.isDigit = true := by
    rw [List.append_assoc, zeros]
    refine List.forall_mem_append.2 ⟨fun c => isDigit_of_mem_digitsOf, fun c listed => ?_⟩
    rw [List.eq_of_mem_replicate listed]
    rfl
  have within : digitValue ((digitsOf n ++ List.replicate k '0') ++ ['0']) < 2 ^ 96 := by
    rw [value]
    calc n * 10 ^ (k + 1) < 10 ^ (digitsOf n).length * 10 ^ (k + 1) :=
          Nat.mul_lt_mul_of_pos_right (lt_pow_length_digitsOf n) (Nat.pow_pos (by decide))
      _ = 10 ^ ((digitsOf n).length + (k + 1)) := (Nat.pow_add ..).symm
      _ ≤ 10 ^ 17 := Nat.pow_le_pow_right (by decide) (by omega)
      _ < 2 ^ 96 := by decide
  obtain ⟨d, read, exact⟩ := Number.ofText?_pointed (by simp) digits (by decide) within negative
  refine ⟨d, ?_, exact.trans ?_⟩
  · rw [← read, positional, if_pos (Int.natCast_nonneg k)]
    cases negative <;> simp [signed, pointed]
  · rw [value, List.length_singleton, pow_one, zpow_natCast]
    push_cast
    rw [pow_succ, ← mul_assoc, mul_div_cancel_right₀ _ (by norm_num)]

section
variable (negative : Bool) {n : Nat} {e : Int} (held : e.natAbs ≤ 28) (small : n * 10 ^ e.toNat < 2 ^ 96)
include held small

/-- Without an exponent, and with a zero behind the point if nothing else is there, digits are read exactly. -/
theorem ofText?_positional (few : e + (digitsOf n).length ≤ 16) : ∃ d, Number.ofText? (String.ofList
      (signed negative (positional n e) ++ if 0 ≤ e then ['.', '0'] else [])) = some (.decimal d) ∧
    d.toRat = Decimal.signFactor negative * (n * 10 ^ e) := by
  rcases lt_or_ge e 0 with places | units
  · obtain ⟨k, rfl⟩ : ∃ k : Nat, e = -k := ⟨(-e).toNat, by omega⟩
    rw [if_neg (by omega), List.append_nil]
    refine ofText?_places negative (by omega) (by omega) ?_
    exact (Nat.le_mul_of_pos_right n (Nat.pow_pos (by decide))).trans_lt small
  · obtain ⟨k, rfl⟩ := Int.eq_ofNat_of_zero_le units
    rw [if_pos units]
    exact ofText?_units negative (by omega)

theorem ofText?_scientific : ∃ d, Number.ofText? (String.ofList (signed negative
      ((match digitsOf n with
        | first :: second :: rest => first :: '.' :: second :: rest
        | cs => cs) ++ 'e' :: (if e + (digitsOf n).length - 1 < 0 then '-' else '+') ::
          digitsOf (e + (digitsOf n).length - 1).natAbs))) = some (.decimal d) ∧
    d.toRat = Decimal.signFactor negative * (n * 10 ^ e) := by
  obtain ⟨first, rest, text⟩ := List.exists_cons_of_length_pos (length_digitsOf_pos n)
  have digits : ∀ c ∈ [first] ++ rest, c.isDigit = true := fun c listed =>
    isDigit_of_mem_digitsOf (n := n) (by rwa [text])
  have value : digitValue ([first] ++ rest) = n := by rw [List.singleton_append, ← text, digitValue_digitsOf]
  have most : e.toNat + rest.length ≤ 28 := by
    by_cases more : rest = []
    · subst more
      rw [List.length_nil]
      omega
    · have := calc 10 ^ (e.toNat + rest.length) = 10 ^ rest.length * 10 ^ e.toNat := by rw [Nat.pow_add, Nat.mul_comm]
        _ ≤ n * 10 ^ e.toNat := Nat.mul_le_mul_right _ (pow_le_of_digitsOf text more)
        _ < 2 ^ 96 := small
        _ < 10 ^ 29 := by decide
      have := (Nat.pow_lt_pow_iff_right (by decide)).1 this
      omega
  obtain ⟨d, read, exact⟩ := Number.ofText?_scientific (by simp) digits (by show _ ≤ 28; omega) negative (e := e)
    (by omega) (by omega) (value.symm ▸ small)
  have power : e + (digitsOf n).length - 1 = e + rest.length := by
    rw [text, List.length_cons]
    omega
  refine ⟨d, ?_, value ▸ exact⟩
  rw [← read, power, text]
  cases rest <;> rfl

end

theorem ofText?_doubleText {m : Binary} (held : m.digits.2.natAbs ≤ 28)
    (small : m.digits.1 * 10 ^ m.digits.2.toNat < 2 ^ 96) (negative : Bool) :
    ∃ d, Number.ofText? (String.ofList (doubleText negative m)) = some (.decimal d) ∧
      d.toRat = Decimal.signFactor negative * (m.digits.1 * 10 ^ m.digits.2) := by
  have digits : (if m.significand = 0 then (0, 0) else BinaryFormat.double.shortest m) = m.digits := rfl
  unfold doubleText BinaryFormat.positional BinaryFormat.scientific
  rw [digits]
  dsimp only
  split
  · exact ofText?_positional negative held small (by omega)
  · exact ofText?_scientific negative held small

/-! ## Reading and writing again -/

namespace JsonNumber

theorem reread_of_toValue {n : JsonNumber} {m : Number} (read : n.toValue = .number m) : n.reread = m.toJson := by
  rw [reread, read, Value.toJson, Value.toJsonWithin]

/-- A number whose digits a decimal holds is read exactly, and written as this decimal. -/
theorem reread_isDecimal {n : JsonNumber} {q : ℚ} (h : n.IsDecimal q) :
    ∃ d : Decimal, d.toRat = q ∧ n.reread = (Number.decimal d).toJson := by
  cases n with
  | integer k =>
    obtain ⟨small, rfl⟩ := h
    obtain ⟨d, made, places, value⟩ := Decimal.ofInt?_whole small
    have read : (JsonNumber.integer k).toValue = .number (.decimal d) :=
      congrArg Value.number (by rw [Number.ofInt, made])
    exact ⟨d, by rw [Decimal.toRat_whole places, value], reread_of_toValue read⟩
  | double x =>
    obtain ⟨negative, m, given, held, small, rfl⟩ := h
    obtain ⟨d, read, value⟩ := ofText?_doubleText held small negative
    refine ⟨d, value, reread_of_toValue ?_⟩
    rw [toValue, text, given]
    dsimp only
    rw [read]
    rfl

end JsonNumber

/-! ## Whole numbers -/

theorem Number.toJson_whole {d : Decimal} {k : Int} (value : d.toRat = k) (inside : isInt64 k = true) :
    (Number.decimal d).toJson = .number (.integer k) := by
  have unit : 0 < 10 ^ d.scale := Nat.pow_pos (by decide)
  have signed : d.signedCoefficient = k * (10 ^ d.scale : Nat) := by
    rw [Decimal.toRat, div_eq_iff (by positivity)] at value
    exact_mod_cast value
  have coefficient : d.coefficient = k.natAbs * 10 ^ d.scale := by
    rw [← d.natAbs_signedCoefficient, signed, Int.natAbs_mul, Int.natAbs_natCast]
  have whole : d.isWhole = true := by
    rw [Decimal.isWhole, coefficient, Nat.mul_mod_left]
    rfl
  have part : d.toInt = k := by
    have magnitude : d.coefficient / 10 ^ d.scale = k.natAbs := by rw [coefficient, Nat.mul_div_cancel _ unit]
    show (if d.negative then -((d.coefficient / 10 ^ d.scale : Nat) : Int)
      else (d.coefficient / 10 ^ d.scale : Nat)) = k
    refine Int.eq_of_mul_eq_mul_right (Int.natCast_ne_zero.2 unit.ne') (Eq.trans ?_ signed)
    rw [magnitude, Decimal.signedCoefficient, coefficient]
    split <;> push_cast <;> ring
  have known : (Number.decimal d).toInt? = some k := by rw [toInt?, part, if_pos inside]
  rw [toJson, known]
  exact if_pos whole

theorem Double.exponent_nonpos {x : Float} {negative : Bool} {m : Binary} {k : Nat}
    (given : Double.value x = .finite negative m) (whole : m.IsNat k) (small : k < 2 ^ 53) : m.exponent ≤ 0 := by
  by_contra beyond
  have normal : 2 ^ 52 ≤ m.significand := by
    unfold Double.value at given
    dsimp only at given
    split at given
    · split at given <;> cases given
    · split at given
      · cases given
        exact absurd (by simp) beyond
      · cases given
        exact Nat.le_add_right _ _
  rw [Binary.IsNat, Binary.toQuotient, scaleByTwo, if_neg (by omega), Int.neg_neg, Nat.mul_one] at whole
  have shifted : 2 ^ 1 ≤ 2 ^ m.exponent.toNat := Nat.pow_le_pow_right (by decide) (by omega)
  have := Nat.mul_le_mul normal shifted
  omega

theorem digits_whole {m : Binary} {k : Nat} (units : m.exponent ≤ 0) (whole : m.IsNat k) (small : k < 2 ^ 53) :
    ∃ e : Nat, m.digits.2 = e ∧ e ≤ 28 ∧ m.digits.1 * 10 ^ e = k := by
  have unit : 0 < 2 ^ (-m.exponent).toNat := Nat.two_pow_pos _
  have significand := BinaryFormat.significand_units units whole
  unfold Binary.digits
  rcases Nat.eq_zero_or_pos k with rfl | positive
  · rw [if_pos (by simpa using significand)]
    exact ⟨0, rfl, by decide, rfl⟩
  · rw [if_neg (by rw [significand]; exact (Nat.mul_pos positive unit).ne')]
    obtain ⟨e, power, made⟩ := BinaryFormat.double.shortest_whole units whole positive (by omega)
    refine ⟨e, power, ?_, made⟩
    have some_digit : 0 < (BinaryFormat.double.shortest m).1 := Nat.pos_of_mul_pos_right (made ▸ positive)
    have below : 10 ^ e < 10 ^ 29 := calc 10 ^ e
      _ ≤ k := made ▸ Nat.le_mul_of_pos_left _ some_digit
      _ < 2 ^ 53 := small
      _ < 10 ^ 29 := by decide
    have := (Nat.pow_lt_pow_iff_right (by decide)).1 below
    omega

theorem JsonNumber.IsWhole.isDecimal {n : JsonNumber} {k : Int} (h : n.IsWhole k) :
    n.IsDecimal k ∧ Number.isInt64 k = true := by
  cases n with
  | integer n =>
    obtain ⟨rfl, inside⟩ := h
    have bounds := Number.isInt64_iff.1 inside
    exact ⟨⟨by omega, rfl⟩, inside⟩
  | double x =>
    obtain ⟨negative, m, magnitude, given, whole, small, rfl⟩ := h
    obtain ⟨e, power, few, made⟩ := digits_whole (Double.exponent_nonpos given whole small) whole small
    refine ⟨⟨negative, m, given, ?_, ?_, ?_⟩, ?_⟩
    · omega
    · rw [power, Int.toNat_natCast, made]
      omega
    · rw [power, zpow_natCast]
      have := congrArg (Nat.cast (R := ℚ)) made
      push_cast at this
      rw [this, Decimal.signFactor]
      split <;> simp
    · rw [Number.isInt64_iff]
      split <;> omega

/-- **Whole numbers come back**: integers of 64 bits with a sign, and doubles of 53 bits, as the integer of
their value. -/
theorem JsonNumber.reread_whole {n : JsonNumber} {k : Int} (h : n.IsWhole k) : n.reread = .number (.integer k) := by
  obtain ⟨decimal, inside⟩ := h.isDecimal
  obtain ⟨d, value, same⟩ := reread_isDecimal decimal
  rw [same, Number.toJson_whole value inside]

end Rowlang
