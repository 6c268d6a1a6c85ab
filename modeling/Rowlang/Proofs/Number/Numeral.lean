import Mathlib.Data.List.TakeWhile
import Rowlang.Number.Basic
import Rowlang.Pattern.Reading
import Rowlang.Proofs.Pattern.Language

/-!
# Numerals

* `IsNumeral` : digits, or digits with a point;
* `Number.isSome_ofText?` : every numeral is read as a number;
* `isNumeral_of_integer`, `isNumeral_of_decimal` : the words of the lexical patterns of numbers are
  numerals.
-/

namespace Rowlang
open Rowlang.Text Rowlang.Pattern

/-! ## Reading -/

theorem trim_eq_self {cs : List Char} (h : ∀ c ∈ cs, isBlank c = false) : trim cs = cs := by
  have start {ds : List Char} (h : ∀ c ∈ ds, isBlank c = false) : ds.dropWhile isBlank = ds := by
    cases ds with
    | nil => rfl
    | cons d ds => rw [List.dropWhile_cons_of_neg (by simp [h d List.mem_cons_self])]
  rw [trim, trimStart, trimEnd, start h, start (by simpa using h), List.reverse_reverse]

theorem not_isBlank_of_visible {c : Char} (h : '!' ≤ c ∧ c ≤ '~') : isBlank c = false := by
  rw [Bool.eq_false_iff]
  intro blank
  obtain ⟨r, listed, low, high⟩ := CodeRanges.has_iff.1 blank
  have visible : 33 ≤ c.toNat ∧ c.toNat ≤ 126 := h
  simp only [blankRanges, List.mem_cons, List.not_mem_nil, or_false] at listed
  rcases listed with rfl | rfl | rfl | rfl | rfl | rfl | rfl | rfl | rfl | rfl <;>
    simp only at low high <;> omega

theorem visible_of_isDigit {c : Char} (h : c.isDigit = true) : '!' ≤ c ∧ c ≤ '~' := by
  simp only [Char.isDigit, Bool.and_eq_true, decide_eq_true_eq] at h
  have digit : 48 ≤ c.toNat ∧ c.toNat ≤ 57 := h
  have visible : 33 ≤ c.toNat ∧ c.toNat ≤ 126 := by omega
  exact visible

theorem toLower_of_isDigit {c : Char} (h : c.isDigit = true) : c.toLower = c := by
  have checked : ∀ n < 58, 48 ≤ n → (Char.ofNat n).toLower = Char.ofNat n := by decide
  simp only [Char.isDigit, Bool.and_eq_true, decide_eq_true_eq] at h
  have digit : 48 ≤ c.toNat ∧ c.toNat ≤ 57 := h
  have known := checked c.toNat (by omega) digit.1
  rwa [Char.ofNat_toNat] at known

/-- Digits, or a point with digits behind it and perhaps before it. -/
inductive IsNumeral : List Char → Prop
  | whole {cs : List Char} (nonempty : cs ≠ []) (digits : ∀ c ∈ cs, c.isDigit = true) : IsNumeral cs
  | point {ws fs : List Char} (whole : ∀ c ∈ ws, c.isDigit = true) (nonempty : fs ≠ [])
      (places : ∀ c ∈ fs, c.isDigit = true) : IsNumeral (ws ++ '.' :: fs)

/-- The number that the digits of a numeral make up. -/
def numeralDigits (cs : List Char) : Nat := digitValue (cs.filter Char.isDigit)

/-- The number of digits behind the point of a numeral. -/
def numeralPlaces (cs : List Char) : Nat := (cs.dropWhile Char.isDigit).length - 1

namespace IsNumeral
variable {cs : List Char}

theorem isDigit_or_point (h : IsNumeral cs) : ∀ c ∈ cs, c.isDigit = true ∨ c = '.' := by
  cases h with
  | whole _ digits => exact fun c hc => .inl (digits c hc)
  | point whole _ places =>
    intro c hc
    rcases List.mem_append.1 hc with hc | hc
    · exact .inl (whole c hc)
    · rcases List.mem_cons.1 hc with rfl | hc
      · exact .inr rfl
      · exact .inl (places c hc)

theorem not_isBlank (h : IsNumeral cs) : ∀ c ∈ cs, isBlank c = false := by
  intro c hc
  rcases h.isDigit_or_point c hc with digit | rfl
  · exact not_isBlank_of_visible (visible_of_isDigit digit)
  · decide

theorem digits_whole (digits : ∀ c ∈ cs, c.isDigit = true) :
    numeralDigits cs = digitValue cs ∧ numeralPlaces cs = 0 := by
  rw [numeralDigits, numeralPlaces, List.filter_eq_self.2 digits, List.dropWhile_eq_nil_iff.2 digits]
  exact ⟨rfl, rfl⟩

theorem digits_point {ws fs : List Char} (whole : ∀ c ∈ ws, c.isDigit = true)
    (places : ∀ c ∈ fs, c.isDigit = true) :
    numeralDigits (ws ++ '.' :: fs) = digitValue (ws ++ fs) ∧
      numeralPlaces (ws ++ '.' :: fs) = fs.length := by
  rw [numeralDigits, numeralPlaces, List.filter_append, List.filter_cons_of_neg (by decide),
    List.filter_eq_self.2 whole, List.filter_eq_self.2 places, List.dropWhile_append_of_pos whole,
    List.dropWhile_cons_of_neg (by decide)]
  exact ⟨rfl, rfl⟩

theorem ofDigits?_eq (h : IsNumeral cs) (negative : Bool) : Double.ofDigits? negative cs =
    some (Double.ofScientific negative (numeralDigits cs) (-numeralPlaces cs)) := by
  cases h with
  | whole nonempty digits =>
    have all : cs.takeWhile Char.isDigit = cs := List.takeWhile_eq_self_iff.2 digits
    have none : cs.dropWhile Char.isDigit = [] := List.dropWhile_eq_nil_iff.2 digits
    obtain ⟨value, length⟩ := digits_whole digits
    simp [Double.ofDigits?, value, length, all, none, nonempty, Double.exponentOf?]
  | @point ws fs whole nonempty places =>
    have all : fs.takeWhile Char.isDigit = fs := List.takeWhile_eq_self_iff.2 places
    have none : fs.dropWhile Char.isDigit = [] := List.dropWhile_eq_nil_iff.2 places
    have before : (ws ++ '.' :: fs).takeWhile Char.isDigit = ws := by
      rw [List.takeWhile_append_of_pos whole, List.takeWhile_cons_of_neg (by decide), List.append_nil]
    have behind : (ws ++ '.' :: fs).dropWhile Char.isDigit = '.' :: fs := by
      rw [List.dropWhile_append_of_pos whole, List.dropWhile_cons_of_neg (by decide)]
    obtain ⟨value, length⟩ := digits_point whole places
    simp [Double.ofDigits?, value, length, before, behind, all, none, nonempty, Double.exponentOf?]

theorem ne_word (h : IsNumeral cs) : ∀ s ∈ ["inf", "infinity", "nan"],
    String.ofList (cs.map Char.toLower) ≠ s := by
  have first : ∀ s ∈ ["inf", "infinity", "nan"],
      (s.toList.any fun c => !c.isDigit && c != '.') = true := by
    decide
  have same : cs.map Char.toLower = cs := by
    rw [List.map_congr_left (g := id) fun c hc => ?_, List.map_id]
    rcases h.isDigit_or_point c hc with digit | rfl
    · exact toLower_of_isDigit digit
    · rfl
  rintro s listed rfl
  obtain ⟨c, inside, other⟩ := List.any_eq_true.1 (first _ listed)
  rw [String.toList_ofList, same] at inside
  simp only [Bool.and_eq_true, Bool.not_eq_true', bne_iff_ne] at other
  rcases h.isDigit_or_point c inside with digit | point
  · rw [other.1] at digit
    cases digit
  · exact other.2 point

end IsNumeral

theorem Double.ofText?_numeral {cs : List Char} (h : IsNumeral cs) :
    Double.ofText? (String.ofList cs) =
      some (Double.ofScientific false (numeralDigits cs) (-numeralPlaces cs)) := by
  have unsigned : unsignedOfText? false cs =
      some (Double.ofScientific false (numeralDigits cs) (-numeralPlaces cs)) := by
    have other (s : String) (listed : s ∈ ["inf", "infinity", "nan"]) :
        (String.ofList (cs.map Char.toLower) == s) = false := by
      rw [beq_eq_false_iff_ne]
      exact h.ne_word s listed
    rw [unsignedOfText?, other "inf" (by simp), other "infinity" (by simp), other "nan" (by simp)]
    exact h.ofDigits?_eq false
  unfold ofText?
  rw [String.toList_ofList]
  split
  · exact absurd (h.isDigit_or_point '-' List.mem_cons_self) (by decide)
  · exact absurd (h.isDigit_or_point '+' List.mem_cons_self) (by decide)
  · exact unsigned

/-- A numeral is read as a decimal, or else as a double. -/
theorem Number.ofText?_numeral {cs : List Char} (h : IsNumeral cs) :
    Number.ofText? (String.ofList cs) = match Decimal.ofChars? cs with
      | some d => some (.decimal d)
      | none => some (.ofDouble false
          (Double.ofScientific false (numeralDigits cs) (-numeralPlaces cs))) := by
  have plain : cs.takeWhile (fun c => c != 'e' && c != 'E') = cs := by
    refine List.takeWhile_eq_self_iff.2 fun c hc => ?_
    rcases h.isDigit_or_point c hc with digit | rfl
    · rw [Bool.and_eq_true, bne_iff_ne, bne_iff_ne]
      constructor <;> · rintro rfl; cases digit
    · decide
  have whole : Decimal.ofScientific? cs = none := by
    rw [Decimal.ofScientific?, plain, List.drop_length]
  have sign : (cs.head? == some '-') = false := by
    rw [beq_eq_false_iff_ne]
    intro signed
    exact absurd (h.isDigit_or_point '-' (List.mem_of_mem_head? signed)) (by decide)
  unfold ofText?
  rw [String.toList_ofList, trim_eq_self h.not_isBlank]
  dsimp only
  rw [whole]
  cases Decimal.ofChars? cs with
  | some d => rfl
  | none =>
    dsimp only
    rw [ofDoubleText?, Double.ofText?_numeral h, String.toList_ofList, sign, Option.map_some]

/-- Every numeral is read as a number. -/
theorem Number.isSome_ofText? {s : String} (h : IsNumeral s.toList) :
    (Number.ofText? s).isSome = true := by
  rw [← String.ofList_toList (s := s), ofText?_numeral h]
  cases Decimal.ofChars? s.toList <;> rfl

/-! ## The expressions of numerals -/

open Regex

def digitSet : CharSet := .union .none (.range '0' '9')

theorem digitSet_has {c : Char} : digitSet.has c = c.isDigit := by
  rw [Bool.eq_iff_iff]
  simp [digitSet, CharSet.has, Char.isDigit, Char.le_def]

def integerRegex : Regex := seq (plus true (one digitSet)) .empty

def decimalRegex : Regex :=
  seq (opt true (plus true (one digitSet)))
    (seq (one (.single '.')) (seq (plus true (one digitSet)) .empty))

theorem ofText?_integer : ofText? "[0-9]+" = some integerRegex := by decide +kernel

theorem ofText?_decimal : ofText? "[0-9]*\\.[0-9]+" = some decimalRegex := by decide +kernel

theorem digits_of_plus {w : List Char} (word : (plus true (one digitSet)).Denotes w) :
    w ≠ [] ∧ ∀ c ∈ w, c.isDigit = true :=
  ⟨word.of_plus_one.1, fun c hc => digitSet_has ▸ word.of_plus_one.2 c hc⟩

theorem digits_of_integer {w : List Char} (word : integerRegex.Denotes w) :
    w ≠ [] ∧ ∀ c ∈ w, c.isDigit = true :=
  digits_of_plus word.of_seq_empty

theorem digits_of_decimal {w : List Char} (word : decimalRegex.Denotes w) :
    ∃ ws fs, w = ws ++ '.' :: fs ∧ (∀ c ∈ ws, c.isDigit = true) ∧ fs ≠ [] ∧
      ∀ c ∈ fs, c.isDigit = true := by
  cases word with
  | @seq _ _ ws _ whole more =>
    obtain ⟨c, fs, rfl, point, places⟩ := more.of_seq_one
    obtain rfl := (CharSet.has_single _ _).1 point
    exact ⟨ws, fs, rfl, fun c hc => digitSet_has ▸ Denotes.of_star_one whole c hc,
      digits_of_plus places.of_seq_empty⟩

theorem isNumeral_of_integer {r : Regex} {w : List Char} (h : ofText? "[0-9]+" = some r)
    (word : r.Denotes w) : IsNumeral w := by
  cases ofText?_integer.symm.trans h
  exact .whole (digits_of_integer word).1 (digits_of_integer word).2

theorem isNumeral_of_decimal {r : Regex} {w : List Char}
    (h : ofText? "[0-9]*\\.[0-9]+" = some r) (word : r.Denotes w) : IsNumeral w := by
  cases ofText?_decimal.symm.trans h
  obtain ⟨ws, fs, rfl, whole, nonempty, places⟩ := digits_of_decimal word
  exact .point whole nonempty places

end Rowlang
