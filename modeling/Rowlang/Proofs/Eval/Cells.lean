import Mathlib.Data.List.Pairwise
import Mathlib.Data.List.Range
import Rowlang.Proofs.Value.Classes

/-!
# Rows with equivalent values

Rows are grouped by putting each into the first class whose first value is equivalent to its own. This is
described by the places of the rows: the classes are cells of places.

* `addToCell`, `cellsOf` : the cells of the places of values, found as the classes of rows are;
* `classes_eq` : the classes of rows are the rows at the places of the cells;
* `Cells` : cells that part the places, each in order, and in the order of their first places;
* `cells_cellsOf` : so do the cells that are found;
* `Cells.mem_iff` : of exact values, two are in one cell if they are equivalent;
* `Cells.transversal` : the first values of the cells are one of each class.
-/

namespace Rowlang
open Value

def valueAt (values : List Value) (i : Nat) : Value := values.getD i .null

def firstOf (values : List Value) (cell : List Nat) : Value := valueAt values (cell.headD 0)

/-- Adds a place to the cell whose first value is equivalent, or as a new cell behind all. -/
def addToCell (values : List Value) (n : Nat) : List (List Nat) → List (List Nat)
  | [] => [[n]]
  | c :: rest =>
    if (firstOf values c).isEquivalent (valueAt values n) then (c ++ [n]) :: rest
    else c :: addToCell values n rest

def cellsOf (values : List Value) : List (List Nat) :=
  (List.range values.length).foldl (fun cells n => addToCell values n cells) []

/-- The values at the places of a cell. -/
def rowsAt (rows : List Value) (cell : List Nat) : List Value := cell.map (valueAt rows)

section
variable {values rows : List Value} {cells : List (List Nat)} {n : Nat}

theorem valueAt_eq {i : Nat} (inside : i < values.length) : valueAt values i = values[i] := by
  rw [valueAt, List.getD_eq_getElem?_getD, List.getElem?_eq_getElem inside, Option.getD_some]

theorem valueAt_mem {i : Nat} (inside : i < values.length) : valueAt values i ∈ values := by
  rw [valueAt_eq inside]
  exact List.getElem_mem inside

theorem map_range_valueAt (same : rows.length = n) : (List.range n).map (valueAt rows) = rows := by
  refine List.ext_getElem (by simp [same]) fun i _ inside => ?_
  rw [List.getElem_map, List.getElem_range, valueAt_eq inside]

theorem firstOf_append {c : List Nat} (filled : c ≠ []) (d : List Nat) :
    firstOf values (c ++ d) = firstOf values c := by
  cases c with
  | nil => exact absurd rfl filled
  | cons i rest => rfl

/-- A place is added to the first cell that takes it, or behind all. -/
theorem addToCell_cases (values : List Value) (n : Nat) (cells : List (List Nat)) :
    (∃ before c after, cells = before ++ c :: after ∧
      (firstOf values c).isEquivalent (valueAt values n) = true ∧
      addToCell values n cells = before ++ (c ++ [n]) :: after) ∨
    (∀ c ∈ cells, ¬ (firstOf values c).isEquivalent (valueAt values n) = true) ∧
      addToCell values n cells = cells ++ [[n]] := by
  induction cells with
  | nil => exact .inr ⟨by simp, rfl⟩
  | cons c rest ih =>
    rw [addToCell]
    by_cases here : (firstOf values c).isEquivalent (valueAt values n) = true
    · rw [if_pos here]
      exact .inl ⟨[], c, rest, rfl, here, rfl⟩
    · rw [if_neg here]
      rcases ih with ⟨before, d, after, rfl, found, added⟩ | ⟨none, added⟩
      · exact .inl ⟨c :: before, d, after, rfl, found, by rw [added]; rfl⟩
      · exact .inr ⟨List.forall_mem_cons.2 ⟨here, none⟩, by rw [added]; rfl⟩

/-! ## One element of a list for another -/

section
variable {α : Type} {before after : List α} {c c' : α}

theorem forall_mem_replace {P : α → Prop} (each : ∀ d ∈ before ++ c :: after, P d) (here : P c') :
    ∀ d ∈ before ++ c' :: after, P d := by
  rw [List.forall_mem_append, List.forall_mem_cons] at each ⊢
  exact ⟨each.1, here, each.2.2⟩

theorem pairwise_replace {R : α → α → Prop} (each : (before ++ c :: after).Pairwise R)
    (left : ∀ d, R c d → R c' d) (right : ∀ d, R d c → R d c') :
    (before ++ c' :: after).Pairwise R := by
  rw [List.pairwise_append, List.pairwise_cons] at each ⊢
  obtain ⟨first, ⟨behind, later⟩, across⟩ := each
  refine ⟨first, ⟨fun d hd => left d (behind d hd), later⟩,
    fun d hd => List.forall_mem_cons.2 ⟨?_, fun e he => ?_⟩⟩
  · exact right d (across d hd c List.mem_cons_self)
  · exact across d hd e (List.mem_cons_of_mem _ he)

end

/-! ## Classes of rows -/

def classOf (values rows : List Value) (cell : List Nat) : Value × List Value :=
  (firstOf values cell, rowsAt rows cell)

theorem addToClass_classOf (filled : ∀ c ∈ cells, c ≠ []) :
    addToClass (valueAt values n) (valueAt rows n) (cells.map (classOf values rows)) =
      (addToCell values n cells).map (classOf values rows) := by
  induction cells with
  | nil => rfl
  | cons c rest ih =>
    obtain ⟨here, later⟩ := List.forall_mem_cons.1 filled
    rw [List.map_cons, classOf, addToClass, addToCell]
    split
    · rw [List.map_cons, classOf, firstOf_append here, rowsAt, rowsAt, List.map_append]
      rfl
    · rw [List.map_cons, ih later, classOf]

theorem filled_addToCell (filled : ∀ c ∈ cells, c ≠ []) : ∀ c ∈ addToCell values n cells, c ≠ [] := by
  rcases addToCell_cases values n cells with ⟨before, c, after, rfl, -, added⟩ | ⟨-, added⟩ <;> rw [added]
  · exact forall_mem_replace filled (by simp)
  · exact List.forall_mem_append.2 ⟨filled, by simp⟩

theorem zip_eq_map (same : rows.length = values.length) :
    values.zip rows = (List.range values.length).map fun i => (valueAt values i, valueAt rows i) := by
  refine List.ext_getElem (by simp [same]) fun i h _ => ?_
  simp only [List.length_zip, same, Nat.min_self] at h
  simp [valueAt, List.getD_eq_getElem?_getD, h, same]

/-- The classes of rows are the rows at the places of the cells. -/
theorem classes_eq (same : rows.length = values.length) :
    classes values rows = (cellsOf values).map (rowsAt rows) := by
  have together (is : List Nat) : ∀ cells : List (List Nat), (∀ c ∈ cells, c ≠ []) →
      is.foldl (fun acc i => addToClass (valueAt values i) (valueAt rows i) acc) (cells.map (classOf values rows)) =
        (is.foldl (fun cells i => addToCell values i cells) cells).map (classOf values rows) := by
    induction is with
    | nil => exact fun _ _ => rfl
    | cons i is ih =>
      intro cells filled
      rw [List.foldl_cons, List.foldl_cons, addToClass_classOf filled]
      exact ih _ (filled_addToCell filled)
  rw [classes, zip_eq_map same, List.foldl_map]
  have := together (List.range values.length) [] (List.forall_mem_nil _)
  rw [List.map_nil] at this
  rw [this, List.map_map]
  rfl

/-! ## What cells are -/

/-- The places below `n` in cells: each place is in one cell, at its place in order, and the cells are in
the order of their first places. A cell takes the values that are equivalent to its first. -/
structure Cells (values : List Value) (n : Nat) (cells : List (List Nat)) : Prop where
  filled : ∀ c ∈ cells, c ≠ []
  rising : ∀ c ∈ cells, c.Pairwise (· < ·)
  firsts : cells.Pairwise fun c d => c.headD 0 < d.headD 0
  parts : cells.flatten.Perm (List.range n)
  alike : ∀ c ∈ cells, ∀ i ∈ c, (firstOf values c).isEquivalent (valueAt values i) = true
  apart : cells.Pairwise fun c d => ¬ (firstOf values c).isEquivalent (firstOf values d) = true

namespace Cells

theorem mem_lt (h : Cells values n cells) {c : List Nat} (hc : c ∈ cells) {i : Nat} (hi : i ∈ c) : i < n :=
  List.mem_range.1 (h.parts.subset (List.mem_flatten.2 ⟨c, hc, hi⟩))

theorem headD_mem (h : Cells values n cells) {c : List Nat} (hc : c ∈ cells) : c.headD 0 ∈ c := by
  cases c with
  | nil => exact absurd rfl (h.filled [] hc)
  | cons i rest => exact List.mem_cons_self

theorem add (h : Cells values n cells) : Cells values (n + 1) (addToCell values n cells) := by
  have places : (cells.flatten ++ [n]).Perm (List.range (n + 1)) := by
    rw [List.range_succ]
    exact h.parts.append_right [n]
  rcases addToCell_cases values n cells with ⟨before, c, after, rfl, found, added⟩ | ⟨new, added⟩
  · have hc : c ∈ before ++ c :: after := by simp
    have head : (c ++ [n]).headD 0 = c.headD 0 := by
      cases c with
      | nil => exact absurd rfl (h.filled [] hc)
      | cons i rest => rfl
    have first : firstOf values (c ++ [n]) = firstOf values c := firstOf_append (h.filled c hc) [n]
    rw [added]
    refine ⟨forall_mem_replace h.filled (by simp), forall_mem_replace h.rising ?_,
      pairwise_replace h.firsts (fun d less => by rwa [head]) fun d less => by rwa [head], ?_,
      forall_mem_replace h.alike ?_,
      pairwise_replace h.apart (fun d apart => by rwa [first]) fun d apart => by rwa [first]⟩
    · refine List.pairwise_append.2 ⟨h.rising c hc, List.pairwise_singleton _ _, fun i hi j hj => ?_⟩
      rw [List.mem_singleton.1 hj]
      exact h.mem_lt hc hi
    · refine List.Perm.trans ?_ places
      simp only [List.flatten_append, List.flatten_cons, List.append_assoc]
      exact (List.perm_append_comm.append_left c).append_left _
    · rw [first]
      exact List.forall_mem_append.2 ⟨h.alike c hc, List.forall_mem_singleton.2 found⟩
  · rw [added]
    refine ⟨?_, ?_, ?_, ?_, ?_, ?_⟩
    · exact List.forall_mem_append.2 ⟨h.filled, by simp⟩
    · exact List.forall_mem_append.2 ⟨h.rising, by simp⟩
    · refine List.pairwise_append.2 ⟨h.firsts, List.pairwise_singleton _ _, fun c hc d hd => ?_⟩
      rw [List.mem_singleton.1 hd]
      exact h.mem_lt hc (h.headD_mem hc)
    · rw [List.flatten_append, List.flatten_singleton]
      exact places
    · refine List.forall_mem_append.2 ⟨h.alike, List.forall_mem_singleton.2 (List.forall_mem_singleton.2 ?_)⟩
      exact isEquivalent_iff.2 (compare_self _)
    · refine List.pairwise_append.2 ⟨h.apart, List.pairwise_singleton _ _, fun c hc d hd => ?_⟩
      rw [List.mem_singleton.1 hd]
      exact new c hc

end Cells

/-- The cells that are found part the places, in order. -/
theorem cells_cellsOf (values : List Value) : Cells values values.length (cellsOf values) := by
  have each (n : Nat) :
      Cells values n ((List.range n).foldl (fun cells n => addToCell values n cells) []) := by
    induction n with
    | zero => exact ⟨by simp, by simp, List.Pairwise.nil, List.Perm.refl _, by simp, List.Pairwise.nil⟩
    | succ n ih =>
      rw [List.range_succ, List.foldl_append]
      exact ih.add
  exact each values.length

namespace Cells

theorem rows_perm (h : Cells values n cells) (same : rows.length = n) :
    (cells.flatMap (rowsAt rows)).Perm rows := by
  have all : cells.flatMap (rowsAt rows) = cells.flatten.map (valueAt rows) := by
    rw [List.map_flatten, List.flatMap_def]
    rfl
  rw [all]
  refine (h.parts.map (valueAt rows)).trans ?_
  rw [map_range_valueAt same]

/-- The first values of the cells are one of each class. -/
theorem transversal (h : Cells values values.length cells) :
    Transversal (cells.map (firstOf values)) values := by
  refine ⟨List.forall_mem_map.2 fun c hc => ?_, List.pairwise_map.2 (h.apart.imp fun apart => ?_), fun v hv => ?_⟩
  · exact valueAt_mem (h.mem_lt hc (h.headD_mem hc))
  · exact fun same => apart (isEquivalent_iff.2 same)
  · obtain ⟨i, inside, rfl⟩ := List.getElem_of_mem hv
    obtain ⟨c, hc, hi⟩ := List.mem_flatten.1 (h.parts.symm.subset (List.mem_range.2 inside))
    have alike := isEquivalent_iff.1 (h.alike c hc i hi)
    rw [valueAt_eq inside] at alike
    exact ⟨_, List.mem_map_of_mem hc, alike⟩

section
variable (h : Cells values values.length cells) (exact : ∀ v ∈ values, v.Exact)
include h exact

/-- The places of a cell are those whose values are equivalent to its first. -/
theorem mem_iff_first {c : List Nat} (hc : c ∈ cells) {i : Nat} (inside : i < values.length) :
    i ∈ c ↔ (firstOf values c).compare (valueAt values i) = .eq := by
  have exactAt {i : Nat} (inside : i < values.length) : (valueAt values i).Exact :=
    exact _ (valueAt_mem inside)
  have exactFirst {c : List Nat} (hc : c ∈ cells) : (firstOf values c).Exact :=
    exactAt (h.mem_lt hc (h.headD_mem hc))
  refine ⟨fun hi => isEquivalent_iff.1 (h.alike c hc i hi), fun same => ?_⟩
  obtain ⟨d, hd, hi⟩ := List.mem_flatten.1 (h.parts.symm.subset (List.mem_range.2 inside))
  by_cases one : c = d
  · rw [one]
    exact hi
  · -- two cells have first values that are not equivalent
    have there := isEquivalent_iff.1 (h.alike d hd i hi)
    have firsts : (firstOf values c).compare (firstOf values d) = .eq :=
      eq_trans (exactFirst hc) (exactAt inside) (exactFirst hd) same (Std.OrientedCmp.eq_comm.1 there)
    have symm : Std.Symm fun c d => (firstOf values c).compare (firstOf values d) ≠ .eq :=
      ⟨fun _ _ apart same => apart (Std.OrientedCmp.eq_comm.1 same)⟩
    have apart : cells.Pairwise fun c d => (firstOf values c).compare (firstOf values d) ≠ .eq :=
      h.apart.imp fun apart same => apart (isEquivalent_iff.2 same)
    exact absurd firsts (apart.forall hc hd one)

/-- Two places are in one cell if their values are equivalent. -/
theorem mem_iff {c : List Nat} (hc : c ∈ cells) {i j : Nat} (hi : i ∈ c) (inside : j < values.length) :
    j ∈ c ↔ (valueAt values i).compare (valueAt values j) = .eq := by
  have within := h.mem_lt hc hi
  have first := (h.mem_iff_first exact hc within).1 hi
  have exactFirst : (firstOf values c).Exact := exact _ (valueAt_mem (h.mem_lt hc (h.headD_mem hc)))
  rw [h.mem_iff_first exact hc inside,
    compare_congr_left exactFirst (exact _ (valueAt_mem within)) (exact _ (valueAt_mem inside)) first]

theorem rowsAt_eq_filter {value : Value → Value} (map : values = rows.map value) {c : List Nat}
    (hc : c ∈ cells) :
    rowsAt rows c = rows.filter fun r => (firstOf values c).isEquivalent (value r) := by
  have places : c = (List.range values.length).filter
      fun i => (firstOf values c).isEquivalent (valueAt values i) := by
    have rising := h.rising c hc
    have sorted : ((List.range values.length).filter
        fun i => (firstOf values c).isEquivalent (valueAt values i)).Pairwise (· < ·) :=
      List.pairwise_lt_range.filter _
    refine List.Perm.eq_of_pairwise (fun i j _ _ less less' => absurd less (Nat.lt_asymm less')) rising sorted
      ((List.perm_ext_iff_of_nodup (rising.imp Nat.ne_of_lt) (sorted.imp Nat.ne_of_lt)).2 fun i => ?_)
    rw [List.mem_filter, List.mem_range, isEquivalent_iff]
    refine ⟨fun hi => ?_, fun ⟨inside, same⟩ => (h.mem_iff_first exact hc inside).2 same⟩
    have inside := h.mem_lt hc hi
    exact ⟨inside, (h.mem_iff_first exact hc inside).1 hi⟩
  have listed : (List.range values.length).map (valueAt rows) = rows :=
    map_range_valueAt (by rw [map, List.length_map])
  have valued : ∀ i ∈ List.range values.length, valueAt values i = value (valueAt rows i) := by
    intro i inside
    have within : i < rows.length := by simpa [map] using inside
    rw [valueAt_eq (List.mem_range.1 inside), valueAt_eq within]
    simp only [map, List.getElem_map]
  rw [rowsAt]
  calc c.map (valueAt rows)
      = ((List.range values.length).filter
          fun i => (firstOf values c).isEquivalent (valueAt values i)).map (valueAt rows) :=
        congrArg (List.map (valueAt rows)) places
    _ = ((List.range values.length).filter
          fun i => (firstOf values c).isEquivalent (value (valueAt rows i))).map (valueAt rows) := by
        rw [List.filter_congr fun i inside => by rw [valued i inside]]
    _ = ((List.range values.length).map (valueAt rows)).filter
          fun r => (firstOf values c).isEquivalent (value r) := by
        rw [List.filter_map]
        rfl
    _ = rows.filter fun r => (firstOf values c).isEquivalent (value r) := by rw [listed]

end

end Cells

end

end Rowlang
