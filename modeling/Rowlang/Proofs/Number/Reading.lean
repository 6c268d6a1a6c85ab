import Mathlib.Tactic.FieldSimp
import Mathlib.Tactic.NormNum
import Rowlang.Proofs.Number.Digits
import Rowlang.Proofs.Number.Numeral

/-!
# Decimals read from their text

Digits with a point among them are read as the decimal of their value, and so are those with a power of ten behind
them, as long as a decimal holds this value: nothing is rounded.

* `pointed` : digits with a point among them;
* `Decimal.ofChars?_pointed`, `Decimal.ofScientific?_pointed` : what they are read as, by themselves and with a power
  of ten;
* `Number.ofText?_pointed`, `Number.ofText?_scientific` : that is a decimal of their value.
-/

namespace Rowlang
open Rowlang.Text

/-- Digits before a point and behind it. Without digits behind it there is none. -/
def pointed (ws fs : List Char) : List Char :=
  match fs with
  | [] => ws
  | _ :: _ => ws ++ '.' :: fs

theorem ten_zpow_of_nonpos {e : Int} (h : e ≤ 0) : (10 : ℚ) ^ e = (10 ^ (-e).toNat)⁻¹ := by
  rw [← zpow_natCast, ← zpow_neg, Int.toNat_of_nonneg (by omega), Int.neg_neg]

theorem le_digitValueFrom (acc : Nat) (cs : List Char) : acc ≤ digitValueFrom acc cs := by
  rw [digitValueFrom_eq]
  exact (Nat.le_mul_of_pos_right acc (Nat.pow_pos (by decide))).trans (Nat.le_add_right _ _)

theorem isDigit_or_point_of_mem_pointed {ws fs : List Char} (digits : ∀ c ∈ ws ++ fs, c.isDigit = true) :
    ∀ c ∈ pointed ws fs, c.isDigit = true ∨ c = '.' := by
  intro c listed
  cases fs with
  | nil => exact .inl (digits c (List.mem_append_left _ listed))
  | cons f fs =>
    rcases List.mem_append.1 listed with before | behind
    · exact .inl (digits c (List.mem_append_left _ before))
    · rcases List.mem_cons.1 behind with rfl | behind
      · exact .inr rfl
      · exact .inl (digits c (List.mem_append_right _ behind))

theorem not_isBlank_of_pointed {c : Char} (h : c.isDigit = true ∨ c = '.') : isBlank c = false := by
  rcases h with digit | rfl
  · exact not_isBlank_of_visible (visible_of_isDigit digit)
  · decide

namespace Decimal

/-! ## Digit by digit -/

theorem readWhole?_digits (negative : Bool) {cs : List Char} (digits : ∀ c ∈ cs, c.isDigit = true) (acc : Nat)
    (started : Bool) (small : digitValueFrom acc cs < 2 ^ 96) (rest : List Char) :
    readWhole? negative acc started (cs ++ rest) =
      readWhole? negative (digitValueFrom acc cs) (started || !cs.isEmpty) rest := by
  induction cs generalizing acc started with
  | nil => simp [digitValueFrom]
  | cons c cs ih =>
    obtain ⟨here, later⟩ := List.forall_mem_cons.1 digits
    have next : 10 * acc + (c.toNat - '0'.toNat) < 2 ^ 96 := (le_digitValueFrom _ cs).trans_lt small
    rw [List.cons_append, readWhole?, if_pos here, if_pos next]
    refine (ih later _ _ small).trans ?_
    simp [digitValueFrom]

theorem readPlaces?_digits (negative : Bool) {cs : List Char} (digits : ∀ c ∈ cs, c.isDigit = true) (acc scale : Nat)
    (held : scale + cs.length ≤ maxScale) (small : digitValueFrom acc cs < 2 ^ 96) (rest : List Char) :
    readPlaces? negative acc scale (cs ++ rest) =
      readPlaces? negative (digitValueFrom acc cs) (scale + cs.length) rest := by
  induction cs generalizing acc scale with
  | nil => rfl
  | cons c cs ih =>
    obtain ⟨here, later⟩ := List.forall_mem_cons.1 digits
    have next : 10 * acc + (c.toNat - '0'.toNat) < 2 ^ 96 := (le_digitValueFrom _ cs).trans_lt small
    rw [List.length_cons] at held ⊢
    rw [List.cons_append, readPlaces?, if_neg (by omega), if_pos here]
    dsimp only
    rw [if_pos next, ih later _ _ (by omega) small, Nat.add_right_comm, Nat.add_assoc]
    rfl

section
variable {ws fs : List Char} (some_digit : ws ++ fs ≠ []) (digits : ∀ c ∈ ws ++ fs, c.isDigit = true)
  (held : fs.length ≤ maxScale) (small : digitValue (ws ++ fs) < 2 ^ 96)
include some_digit digits held small

theorem readWhole?_pointed (negative : Bool) (rest : List Char) :
    readWhole? negative 0 false (pointed ws fs ++ rest) =
      if fs = [] then readWhole? negative (digitValue (ws ++ fs)) true rest
      else readPlaces? negative (digitValue (ws ++ fs)) fs.length rest := by
  obtain ⟨whole, places⟩ := List.forall_mem_append.1 digits
  have split : digitValue (ws ++ fs) = digitValueFrom (digitValue ws) fs := by
    rw [digitValue, digitValueFrom, List.foldl_append]
    rfl
  have before : digitValueFrom 0 ws < 2 ^ 96 := ((le_digitValueFrom _ fs).trans split.ge).trans_lt small
  cases fs with
  | nil =>
    have started : (false || !ws.isEmpty) = true := by simpa using some_digit
    rw [pointed, readWhole?_digits negative whole 0 false before, started, if_pos rfl, List.append_nil]
    rfl
  | cons f fs =>
    have head : f.isDigit = true := places f List.mem_cons_self
    rw [pointed, List.append_assoc, readWhole?_digits negative whole 0 false before, List.cons_append, readWhole?,
      if_neg (by decide), if_pos (by decide), if_pos (by simp [head]), if_neg (List.cons_ne_nil _ _), split]
    rw [readPlaces?_digits negative places _ 0 (by simpa using held) (split ▸ small), Nat.zero_add]
    rfl
end

theorem ofChars?_signed (negative : Bool) {cs : List Char} (unsigned : ∀ c ∈ cs.head?, c ≠ '-' ∧ c ≠ '+') :
    ofChars? (signed negative cs) = readWhole? negative 0 false cs := by
  cases negative with
  | true => rfl
  | false =>
    show ofChars? cs = _
    unfold ofChars?
    split
    · exact absurd rfl (unsigned '-' rfl).1
    · exact absurd rfl (unsigned '+' rfl).2
    · rfl

theorem unsigned_pointed {ws fs : List Char} (some_digit : ws ++ fs ≠ []) (digits : ∀ c ∈ ws ++ fs, c.isDigit = true)
    (rest : List Char) : ∀ c ∈ (pointed ws fs ++ rest).head?, c ≠ '-' ∧ c ≠ '+' := by
  have some_sign : pointed ws fs ≠ [] := by cases fs <;> simp_all [pointed]
  rw [List.head?_append_of_ne_nil _ some_sign]
  intro c first
  rcases isDigit_or_point_of_mem_pointed digits c (List.mem_of_mem_head? first) with digit | rfl
  · constructor <;> · rintro rfl; cases digit
  · decide

/-! ## Powers of ten -/

theorem exponentOf?_digits {p : Nat} (within : p < 2 ^ 32) :
    exponentOf? (digitsOf p) = some p ∧ exponentOf? ('+' :: digitsOf p) = some p := by
  have all : (digitsOf p).all Char.isDigit = true :=
    List.all_eq_true.2 fun c listed => isDigit_of_mem_digitsOf listed
  have some_digit : (digitsOf p).isEmpty = false := by
    rw [List.isEmpty_eq_false_iff]
    exact List.ne_nil_of_length_pos (length_digitsOf_pos p)
  have unsigned : exponentOf? ('+' :: digitsOf p) = some p := by
    simp [exponentOf?, all, some_digit, digitValue_digitsOf, within]
  refine ⟨?_, unsigned⟩
  rw [← unsigned]
  unfold exponentOf?
  split
  · rename_i same
    have := isDigit_of_mem_digitsOf (same ▸ List.mem_cons_self : '+' ∈ digitsOf p)
    cases this
  · rfl

/-- Digits with a point among them end in front of the letter of an exponent. -/
theorem takeWhile_pointed {ws fs : List Char} (digits : ∀ c ∈ ws ++ fs, c.isDigit = true) (negative : Bool)
    (tail : List Char) : (signed negative (pointed ws fs) ++ 'e' :: tail).takeWhile (fun c => c != 'e' && c != 'E') =
      signed negative (pointed ws fs) := by
  have inside : ∀ c ∈ pointed ws fs, (c != 'e' && c != 'E') = true := by
    intro c listed
    rcases isDigit_or_point_of_mem_pointed digits c listed with digit | rfl
    · rw [Bool.and_eq_true, bne_iff_ne, bne_iff_ne]
      constructor <;> · rintro rfl; cases digit
    · rfl
  have plain : ∀ c ∈ signed negative (pointed ws fs), (c != 'e' && c != 'E') = true := by
    cases negative
    · exact inside
    · exact List.forall_mem_cons.2 ⟨rfl, inside⟩
  rw [List.takeWhile_append_of_pos plain, List.takeWhile_cons_of_neg (by decide), List.append_nil]

/-! ## The decimal -/

section
variable {ws fs : List Char} (some_digit : ws ++ fs ≠ []) (digits : ∀ c ∈ ws ++ fs, c.isDigit = true)
  (held : fs.length ≤ maxScale) (small : digitValue (ws ++ fs) < 2 ^ 96) (negative : Bool)
include some_digit digits held small

/-- Digits with a point among them are read as the decimal of the digits with as many places. -/
theorem ofChars?_pointed :
    ofChars? (signed negative (pointed ws fs)) = make? negative (digitValue (ws ++ fs)) fs.length := by
  have first := unsigned_pointed some_digit digits []
  have read := readWhole?_pointed some_digit digits held small negative []
  rw [List.append_nil] at first read
  rw [ofChars?_signed negative first, read]
  split
  · rename_i none
    subst none
    rfl
  · rfl

theorem ofChars?_exponent (tail : List Char) : ofChars? (signed negative (pointed ws fs ++ 'e' :: tail)) = none := by
  rw [ofChars?_signed negative (unsigned_pointed some_digit digits _),
    readWhole?_pointed some_digit digits held small negative]
  split
  · rw [readWhole?]
    rfl
  · rw [readPlaces?]
    split <;> rfl

/-- A power of ten behind them moves the point. -/
theorem ofScientific?_pointed (down : Bool) {p : Nat} (within : p < 2 ^ 32) :
    ofScientific? (signed negative (pointed ws fs ++ 'e' :: (if down then '-' else '+') :: digitsOf p)) =
      (make? negative (digitValue (ws ++ fs)) fs.length).bind fun d =>
        if down then if maxScale < p then none else some (d.shiftRight p) else d.shiftLeft? p := by
  have apart : signed negative (pointed ws fs ++ 'e' :: (if down then '-' else '+') :: digitsOf p) =
      signed negative (pointed ws fs) ++ 'e' :: (if down then '-' else '+') :: digitsOf p := by
    cases negative <;> rfl
  obtain ⟨bare, plus⟩ := exponentOf?_digits within
  unfold ofScientific?
  dsimp only
  rw [apart, takeWhile_pointed digits, List.drop_left, ofChars?_pointed some_digit digits held small]
  cases down with
  | true =>
    show ((make? negative _ _).bind fun d => (exponentOf? (digitsOf p)).bind fun e =>
      if maxScale < e then none else some (d.shiftRight e)) = _
    rw [bare]
    rfl
  | false =>
    show ((make? negative _ _).bind fun d => (exponentOf? ('+' :: digitsOf p)).bind fun e => d.shiftLeft? e) = _
    rw [plus]
    rfl

end

/-! ## Its value -/

theorem toRat_shiftRight (d : Decimal) {p : Nat} (held : d.scale + p ≤ 28) :
    (d.shiftRight p).toRat = d.toRat / 10 ^ p := by
  rw [shiftRight, dif_pos held, toRat, toRat, div_div, ← pow_add]
  rfl

/-- The point moves to the right as long as the digits with the zeros are in range. -/
theorem exists_shiftLeft? (d : Decimal) {p : Nat} (held : p ≤ maxScale)
    (small : d.coefficient * 10 ^ (p - d.scale) < 2 ^ 96) :
    ∃ d', d.shiftLeft? p = some d' ∧ d'.toRat = d.toRat * 10 ^ p := by
  unfold shiftLeft?
  by_cases few : p ≤ d.scale
  · refine ⟨_, if_pos few, ?_⟩
    rw [toRat, toRat, div_mul_eq_mul_div, div_eq_div_iff (by positivity) (by positivity), mul_assoc, ← pow_add,
      Nat.add_sub_cancel' few]
    rfl
  · rw [if_neg few, if_neg (Nat.not_lt.2 held)]
    have made : make? d.negative (d.coefficient * 10 ^ (p - d.scale)) 0 = some _ := dif_pos ⟨small, Nat.zero_le _⟩
    have power : (10 : ℚ) ^ p = 10 ^ (p - d.scale) * 10 ^ d.scale := by
      rw [← pow_add, Nat.sub_add_cancel (by omega)]
    refine ⟨_, made, (toRat_of_make? made).trans ?_⟩
    rw [toRat_eq, power]
    push_cast
    field_simp

end Decimal

/-! ## Numbers -/

namespace Number

theorem ofText?_decimal {cs : List Char} (visible : ∀ c ∈ cs, isBlank c = false) {d : Decimal}
    (read : Decimal.ofChars? cs = some d ∨ Decimal.ofChars? cs = none ∧ Decimal.ofScientific? cs = some d) :
    ofText? (String.ofList cs) = some (.decimal d) := by
  unfold ofText?
  rw [String.toList_ofList, trim_eq_self visible]
  dsimp only
  rcases read with read | ⟨other, read⟩
  · rw [read]
  · rw [other, read]

theorem visible_signed (negative : Bool) {cs : List Char} (visible : ∀ c ∈ cs, isBlank c = false) :
    ∀ c ∈ signed negative cs, isBlank c = false := by
  cases negative
  · exact visible
  · exact List.forall_mem_cons.2 ⟨by decide, visible⟩

section
variable {ws fs : List Char} (some_digit : ws ++ fs ≠ []) (digits : ∀ c ∈ ws ++ fs, c.isDigit = true)
  (held : fs.length ≤ Decimal.maxScale)
include some_digit digits held

theorem ofText?_pointed (small : digitValue (ws ++ fs) < 2 ^ 96) (negative : Bool) :
    ∃ d, ofText? (String.ofList (signed negative (pointed ws fs))) = some (.decimal d) ∧
      d.toRat = Decimal.signFactor negative * (digitValue (ws ++ fs) / 10 ^ fs.length) := by
  have made : Decimal.make? negative (digitValue (ws ++ fs)) fs.length = some _ := dif_pos ⟨small, held⟩
  refine ⟨_, ofText?_decimal (visible_signed negative ?_) (.inl ?_), Decimal.toRat_of_make? made⟩
  · exact fun c listed => not_isBlank_of_pointed (isDigit_or_point_of_mem_pointed digits c listed)
  · rw [Decimal.ofChars?_pointed some_digit digits held small, made]

/-- A text with a power of ten behind the digits is no decimal by itself, so the power moves the point. -/
theorem ofText?_exponent (small : digitValue (ws ++ fs) < 2 ^ 96) (negative down : Bool) {p : Nat}
    (within : p < 2 ^ 32) {d : Decimal}
    (read : ((Decimal.make? negative (digitValue (ws ++ fs)) fs.length).bind fun d =>
      if down then if Decimal.maxScale < p then none else some (d.shiftRight p) else d.shiftLeft? p) = some d) :
    ofText? (String.ofList (signed negative (pointed ws fs ++
      'e' :: (if down then '-' else '+') :: digitsOf p))) = some (.decimal d) := by
  refine ofText?_decimal (visible_signed negative ?_) (.inr
    ⟨Decimal.ofChars?_exponent some_digit digits held small negative _,
      (Decimal.ofScientific?_pointed some_digit digits held small negative down within).trans read⟩)
  refine List.forall_mem_append.2 ⟨fun c listed => ?_, List.forall_mem_cons.2 ⟨by decide, ?_⟩⟩
  · exact not_isBlank_of_pointed (isDigit_or_point_of_mem_pointed digits c listed)
  · refine List.forall_mem_cons.2 ⟨by split <;> decide, fun c listed => ?_⟩
    exact not_isBlank_of_pointed (.inl (isDigit_of_mem_digitsOf listed))

/-- With a power of ten of the last digit, that of the first one is written. -/
theorem ofText?_scientific (negative : Bool) {e : Int} (least : -28 ≤ e) (most : e + fs.length ≤ 28)
    (small : digitValue (ws ++ fs) * 10 ^ e.toNat < 2 ^ 96) :
    ∃ d, ofText? (String.ofList (signed negative (pointed ws fs ++
        'e' :: (if e + fs.length < 0 then '-' else '+') :: digitsOf (e + fs.length).natAbs))) = some (.decimal d) ∧
      d.toRat = Decimal.signFactor negative * (digitValue (ws ++ fs) * 10 ^ e) := by
  have digits_small : digitValue (ws ++ fs) < 2 ^ 96 :=
    (Nat.le_mul_of_pos_right _ (Nat.pow_pos (by decide))).trans_lt small
  obtain ⟨base, made, scale, coefficient⟩ : ∃ d, Decimal.make? negative (digitValue (ws ++ fs)) fs.length = some d ∧
      d.scale = fs.length ∧ d.coefficient = digitValue (ws ++ fs) := ⟨_, dif_pos ⟨digits_small, held⟩, rfl, rfl⟩
  have value := Decimal.toRat_of_make? made
  have read (down : Bool) {d : Decimal} := ofText?_exponent some_digit digits held digits_small negative down
    (p := (e + fs.length).natAbs) (by omega) (d := d)
  rw [made] at read
  by_cases down : e + fs.length < 0
  · -- the last digit has at most 28 places
    have places : fs.length + (e + fs.length).natAbs = (-e).toNat := by omega
    have few : ¬ Decimal.maxScale < (e + fs.length).natAbs := by unfold Decimal.maxScale; omega
    rw [if_pos down]
    refine ⟨_, read true (by rw [Option.bind_some, if_pos rfl, if_neg few]), ?_⟩
    rw [Decimal.toRat_shiftRight _ (by omega), value, mul_div_assoc, div_div, ← pow_add, places,
      ten_zpow_of_nonpos (by omega), div_eq_mul_inv]
  · have zeros : (e + fs.length).natAbs - fs.length = e.toNat := by omega
    obtain ⟨d, shifted, moved⟩ := base.exists_shiftLeft? (p := (e + fs.length).natAbs)
      (by unfold Decimal.maxScale; omega) (by rwa [scale, coefficient, zeros])
    have power : (10 : ℚ) ^ (e + fs.length).natAbs = 10 ^ e * 10 ^ fs.length := by
      rw [← zpow_natCast, ← zpow_natCast, ← zpow_add₀ (by norm_num), Int.natAbs_of_nonneg (by omega)]
    rw [if_neg down]
    refine ⟨d, read false (by rw [Option.bind_some, if_neg Bool.false_ne_true, shifted]), ?_⟩
    rw [moved, value, power]
    field_simp

end

end Number

end Rowlang
