import Mathlib.Data.List.Infix
import Mathlib.Order.Bounds.Basic
import Rowlang.Functions.Text
import Rowlang.Proofs.Number.Whole

/-!
# Places in a text

A place in a text is the number of characters before it, for the function that finds one as for those that
cut a text there. The first occurrence of a text is the least place that the text stands at, and the parts
between two places are the text, put together again.

* `cut?_eq_none_iff`, `isLeast_of_cut?` : the search for the first occurrence;
* `intercalate_splitOn`, `not_infix_of_mem_splitOn` : the parts between all occurrences;
* `substring_between`, `substring_from` : the characters between places that lie within the text;
* `IsPlace` : what the place of a text in another one is;
* `indexOf_places` : finding, cutting and counting agree on the places.
-/

namespace Rowlang
open Rowlang.Text

namespace Text

variable {sep cs a b : List Char}

/-! ## The first occurrence -/

/-- Nothing is found if and only if there is no occurrence. -/
theorem cut?_eq_none_iff : cut? sep cs = none ↔ ¬ sep <:+: cs := by
  induction cs with
  | nil =>
    rw [cut?, List.infix_nil]
    cases sep <;> simp
  | cons c cs ih =>
    rw [cut?, List.infix_cons_iff, ← List.isPrefixOf_iff_prefix]
    by_cases here : sep.isPrefixOf (c :: cs) = true
    · simp [here]
    · rw [if_neg here, Option.map_eq_none_iff, ih]
      simp [here]

theorem not_prefix_of_cut? (h : cut? sep cs = some (a, b)) :
    ∀ k < a.length, ¬ sep <+: cs.drop k := by
  induction cs generalizing a with
  | nil =>
    rw [cut?] at h
    split at h <;> cases h
    exact fun k before => absurd before (Nat.not_lt_zero k)
  | cons c cs ih =>
    rw [cut?] at h
    split at h
    · cases h
      exact fun k before => absurd before (Nat.not_lt_zero k)
    · rename_i apart
      obtain ⟨⟨a', b'⟩, later, same⟩ := Option.map_eq_some_iff.1 h
      cases same
      intro k before
      cases k with
      | zero => rwa [List.drop_zero, ← List.isPrefixOf_iff_prefix]
      | succ k =>
        rw [List.drop_succ_cons]
        exact ih later k (Nat.lt_of_succ_lt_succ before)

/-- The first occurrence is at the least place that the text stands at. -/
theorem isLeast_of_cut? (h : cut? sep cs = some (a, b)) :
    IsLeast {k : Nat | sep <+: cs.drop k} a.length := by
  constructor
  · show sep <+: cs.drop a.length
    rw [eq_append_of_cut? h, List.append_assoc, List.drop_left]
    exact List.prefix_append sep b
  · intro k stands
    by_contra before
    exact not_prefix_of_cut? h k (Nat.lt_of_not_le before) stands

theorem not_infix_of_cut? (some_sep : sep ≠ []) (h : cut? sep cs = some (a, b)) : ¬ sep <:+: a := by
  rintro ⟨front, back, whole⟩
  have before : front.length < a.length := by
    have := List.length_pos_iff.2 some_sep
    rw [← whole, List.length_append, List.length_append]
    omega
  refine not_prefix_of_cut? h front.length before ?_
  rw [eq_append_of_cut? h, ← whole]
  simp only [List.append_assoc, List.drop_left]
  exact List.prefix_append sep _

/-! ## All occurrences -/

theorem splitOn_of_none {some_sep : sep ≠ []} (h : cut? sep cs = none) : splitOn sep some_sep cs = [cs] := by
  rw [splitOn]
  split
  · rfl
  · rename_i found
    cases h.symm.trans found

theorem splitOn_of_some {some_sep : sep ≠ []} (h : cut? sep cs = some (a, b)) :
    splitOn sep some_sep cs = a :: splitOn sep some_sep b := by
  rw [splitOn]
  split
  · rename_i none
    cases h.symm.trans none
  · rename_i found
    cases h.symm.trans found
    rfl

theorem splitOn_ne_nil (some_sep : sep ≠ []) (cs : List Char) : splitOn sep some_sep cs ≠ [] := by
  cases h : cut? sep cs with
  | none => simp [splitOn_of_none h]
  | some cut => simp [splitOn_of_some h]

/-- The parts of a text are the text, put together with the separator between them. -/
theorem intercalate_splitOn (some_sep : sep ≠ []) (cs : List Char) :
    sep.intercalate (splitOn sep some_sep cs) = cs := by
  fun_induction splitOn sep some_sep cs with
  | case1 cs none => exact List.intercalate_singleton
  | case2 cs a b found _ ih =>
    rw [List.intercalate_cons_of_ne_nil (splitOn_ne_nil some_sep b), ih, ← eq_append_of_cut? found]

/-- The separator occurs in none of the parts. -/
theorem not_infix_of_mem_splitOn (some_sep : sep ≠ []) (cs : List Char) :
    ∀ part ∈ splitOn sep some_sep cs, ¬ sep <:+: part := by
  fun_induction splitOn sep some_sep cs with
  | case1 cs none => exact List.forall_mem_singleton.2 (cut?_eq_none_iff.1 none)
  | case2 cs a b found _ ih => exact List.forall_mem_cons.2 ⟨not_infix_of_cut? some_sep found, ih⟩

theorem intercalate_singles (cs : List Char) : ([] : List Char).intercalate (cs.map fun c => [c]) = cs := by
  induction cs with
  | nil => rfl
  | cons c cs ih =>
    cases cs with
    | nil => rfl
    | cons d cs =>
      rw [List.map_cons, List.intercalate_cons_of_ne_nil (by simp), ih]
      rfl

end Text

namespace Functions

/-! ## Whole numbers as arguments -/

theorem toInt?_ofInt {n : Int} (fits : Number.isInt64 n = true) : (Value.ofInt n).toInt? = some n := by
  obtain ⟨d, made, places, value⟩ := Number.ofInt_whole fits
  show (Number.ofInt n).toInt? = some n
  rw [made, Number.toInt?, Decimal.toInt_whole places, value, if_pos fits]

/-- A number of characters is a whole number of 64 bits, and an argument that is one is taken as it is. -/
theorem intArgument_place {args : List Value} {k slot : Nat} (given : args[slot]? = some (.ofInt k))
    (held : k < 2 ^ 63) : intArgument args slot = .ok (k : Int) := by
  have fits : Number.isInt64 k = true := Number.isInt64_iff.2 (by omega)
  have found : argument args slot = .ok (.ofInt k) := by rw [argument, given]
  simp only [intArgument, found, bind, Except.bind, toInt?_ofInt fits]

/-! ## Characters between places -/

section
variable {t : String} {i j : Nat}

/-- The characters from a place of the text on. -/
theorem substring_from (held : t.length < 2 ^ 63) (within : i ≤ t.length) :
    substring (.text t) [.ofInt i] = .ok (ofChars (t.toList.drop i)) := by
  have start : intArgument [.ofInt i] 0 = .ok (i : Int) := intArgument_place rfl (by omega)
  unfold substring
  rw [start]
  show Except.ok (ofChars (slice (charsOf (.text t)) (clamp _ i) _)) = _
  have chars : charsOf (.text t) = t.toList := rfl
  have place : clamp t.toList.length i = i := by
    rw [clamp, String.length_toList, Int.toNat_natCast, Nat.min_eq_left within]
  rw [chars, place, slice, List.take_length]

/-- The characters from a place of the text up to another. -/
theorem substring_between (held : t.length < 2 ^ 63) (ordered : i ≤ j) (within : j ≤ t.length) :
    substring (.text t) [.ofInt i, .ofInt j] = .ok (ofChars ((t.toList.take j).drop i)) := by
  have start : intArgument [.ofInt i, .ofInt j] 0 = .ok (i : Int) := intArgument_place rfl (by omega)
  have stop : intArgument [.ofInt i, .ofInt j] 1 = .ok (j : Int) := intArgument_place rfl (by omega)
  unfold substring
  rw [start, stop]
  show Except.ok (ofChars (slice (charsOf (.text t)) (clamp _ i) (clamp _ j))) = _
  have chars : charsOf (.text t) = t.toList := rfl
  have place {k : Nat} (inside : k ≤ t.length) : clamp t.toList.length k = k := by
    rw [clamp, String.length_toList, Int.toNat_natCast, Nat.min_eq_left inside]
  rw [chars, place (ordered.trans within), place within, slice]

end

/-! ## Places of occurrences -/

/-- What is found is the number of characters before the first occurrence, or -1 if there is none. -/
theorem indexOf_eq (t n : String) : indexOf (.text t) [.text n] =
    .ok (.ofInt (match cut? n.toList t.toList with | some (before, _) => before.length | none => -1)) := by
  show (match cut? n.toList t.toList with | some (before, _) => _ | none => _) = _
  cases cut? n.toList t.toList <;> rfl

/-- `i` is the place of `n` in `t`: the least place that `n` stands at, or -1 if it does not occur. The
characters from there on, as many as `n` has, are `n`, and cut there `t` is its two parts. -/
structure IsPlace (t n : String) (i : Int) : Prop where
  absent : i = -1 ↔ ¬ n.toList <:+: t.toList
  least : i ≠ -1 → ∃ k : Nat, i = k ∧ IsLeast {k : Nat | n.toList <+: t.toList.drop k} k
  within : i ≠ -1 → substring (.text t) [.ofInt i, .ofInt (i + n.length)] = .ok (.text n)
  parts : i ≠ -1 → ∃ front back, substring (.text t) [.ofInt 0, .ofInt i] = .ok (.text front) ∧
    substring (.text t) [.ofInt i] = .ok (.text back) ∧ front ++ back = t

theorem isPlace_absent {t n : String} (absent : ¬ n.toList <:+: t.toList) : IsPlace t n (-1) where
  absent := iff_of_true rfl absent
  least other := absurd rfl other
  within other := absurd rfl other
  parts other := absurd rfl other

theorem isPlace_first {t n : String} {before behind : List Char} (held : t.length < 2 ^ 63)
    (found : cut? n.toList t.toList = some (before, behind)) : IsPlace t n before.length := by
  have whole := eq_append_of_cut? found
  have occurs : n.toList <:+: t.toList := ⟨before, behind, whole.symm⟩
  have size : t.length = before.length + n.length + behind.length := by
    rw [← String.length_toList, whole, List.length_append, List.length_append, String.length_toList]
  refine ⟨iff_of_false (by omega) (not_not_intro occurs), fun _ => ⟨_, rfl, isLeast_of_cut? found⟩, ?_, ?_⟩
  · intro _
    have taken : t.toList.take (before.length + n.length) = before ++ n.toList := by
      rw [whole, ← String.length_toList, ← List.length_append, List.take_left]
    rw [← Int.natCast_add, substring_between held (by omega) (by omega), taken, List.drop_left, ofChars,
      String.ofList_toList]
  · intro _
    have front := substring_between (i := 0) held (Nat.zero_le _) (by omega : before.length ≤ t.length)
    have back := substring_from held (by omega : before.length ≤ t.length)
    refine ⟨_, _, front, back, ?_⟩
    rw [List.drop_zero, ← String.ofList_append, List.take_append_drop, String.ofList_toList]

/-- **Finding, cutting and counting agree on places**, in every text whose length is of 64 bits, as that of any
text in a memory is. -/
theorem indexOf_places (t n : String) (held : t.length < 2 ^ 63) :
    length (.text n) [] = .ok (.ofInt n.length) ∧
      ∃ i : Int, indexOf (.text t) [.text n] = .ok (.ofInt i) ∧ IsPlace t n i := by
  have counted : length (.text n) [] = .ok (.ofInt n.length) := by
    rw [← String.length_toList]
    rfl
  refine ⟨counted, _, indexOf_eq t n, ?_⟩
  cases found : cut? n.toList t.toList with
  | none => exact isPlace_absent (cut?_eq_none_iff.1 found)
  | some cut => exact isPlace_first held found

/-- Characters of one, two and four bytes; what is sought stands at places 1 and 3. -/
theorem indexOf_places_wide :
    ("ñ😀b😀" : String).length < 2 ^ 63 ∧ length (.text "😀") [] = .ok (.ofInt ("😀" : String).length) ∧
      ∃ i : Int, indexOf (.text "ñ😀b😀") [.text "😀"] = .ok (.ofInt i) ∧ IsPlace "ñ😀b😀" "😀" i := by
  have held : ("ñ😀b😀" : String).length < 2 ^ 63 := by decide
  exact ⟨held, indexOf_places _ _ held⟩

end Functions

end Rowlang
