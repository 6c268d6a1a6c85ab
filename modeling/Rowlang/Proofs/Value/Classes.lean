import Mathlib.Data.List.Perm.Subperm
import Rowlang.Eval.Aggregate
import Rowlang.Proofs.Value.Order
import Rowlang.Proofs.Value.References

/-!
# Classes of equivalent values

Values whose numbers are decimals are ordered totally, up to equivalence. How many classes of them there
are, and which are least and greatest, does not depend on their order in a list.

* `Value.Exact` : a value that is compared by decimals only;
* `Value.Transversal` : one value of each class;
* `Value.Transversal.matching` : two such choices are the same, up to equivalence and order;
* `Value.distinctCount_eq` : what is counted in a sorted list is the number of classes;
* `Value.least_perm`, `Value.greatest_perm` : the least and the greatest value of a permuted list.
-/

namespace Rowlang.Value
open Std

/-! ## Exact values -/

/-- All numbers that the value is compared by are decimals. -/
def Exact (v : Value) : Prop := ∀ x ∈ v.numbers, ∃ d, x = .decimal d

/-- The order of exact values. -/
def compareExact (a b : { v : Value // v.Exact }) : Ordering := a.1.compare b.1

theorem not_tear {a b c : Value} (ha : a.Exact) (hb : b.Exact) (hc : c.Exact) : ¬ Tear a b c := by
  rintro ⟨p, q, f, torn, place⟩
  have listed : f ∈ a.numbers ∨ f ∈ b.numbers ∨ f ∈ c.numbers := by
    rcases place with ⟨_, _, h⟩ | ⟨h, _, _⟩ | ⟨_, h, _⟩
    · exact .inr (.inr h)
    · exact .inl h
    · exact .inr (.inl h)
  obtain ⟨d, same⟩ : ∃ d, f = .decimal d := by
    rcases listed with h | h | h
    · exact ha f h
    · exact hb f h
    · exact hc f h
  exact torn.other d same

instance : TransCmp compareExact where
  eq_swap {a b} := compare_swap b.1 a.1
  isLE_trans {a b c} first second := by
    rw [Ordering.isLE_iff_ne_gt]
    intro behind
    have third : c.1.compare a.1 = .lt := by rw [compare_swap a.1 c.1, show a.1.compare c.1 = .gt from behind]; rfl
    refine not_tear a.2 b.2 c.2 (tear_of_circular ⟨first, second, by rw [third]; rfl, fun ⟨_, _, same⟩ => ?_⟩)
    cases third.symm.trans same

section
variable {a b c : Value}

theorem isEquivalent_iff : a.isEquivalent b = true ↔ a.compare b = .eq := by
  rw [isEquivalent, beq_iff_eq]

theorem compare_self (a : Value) : a.compare a = .eq := ReflCmp.compare_self

theorem compare_congr_left (ha : a.Exact) (hb : b.Exact) (hc : c.Exact) (h : a.compare b = .eq) :
    a.compare c = b.compare c :=
  @TransCmp.congr_left _ compareExact _ ⟨a, ha⟩ ⟨b, hb⟩ ⟨c, hc⟩ h

theorem eq_trans (ha : a.Exact) (hb : b.Exact) (hc : c.Exact) (h : a.compare b = .eq)
    (h' : b.compare c = .eq) : a.compare c = .eq :=
  (compare_congr_left ha hb hc h).trans h'

theorem isLE_trans (ha : a.Exact) (hb : b.Exact) (hc : c.Exact) (h : (a.compare b).isLE)
    (h' : (b.compare c).isLE) : (a.compare c).isLE :=
  @TransCmp.isLE_trans _ compareExact _ ⟨a, ha⟩ ⟨b, hb⟩ ⟨c, hc⟩ h h'

theorem lt_of_isLE_of_lt (ha : a.Exact) (hb : b.Exact) (hc : c.Exact) (h : (a.compare b).isLE)
    (h' : b.compare c = .lt) : a.compare c = .lt :=
  @TransCmp.lt_of_isLE_of_lt _ compareExact _ ⟨a, ha⟩ ⟨b, hb⟩ ⟨c, hc⟩ h h'

end

/-! ## One value of each class -/

/-- One value of each class of equivalent values. -/
structure Transversal (reps values : List Value) : Prop where
  member : ∀ r ∈ reps, r ∈ values
  apart : reps.Pairwise fun a b => a.compare b ≠ .eq
  covers : ∀ v ∈ values, ∃ r ∈ reps, r.compare v = .eq

namespace Transversal

variable {reps reps' values values' : List Value}

theorem perm (h : Transversal reps values) (same : values.Perm values') : Transversal reps values' :=
  ⟨fun r listed => same.subset (h.member r listed), h.apart,
    fun v listed => h.covers v (same.symm.subset listed)⟩

/-- The members of another choice that are equivalent to those of the first. -/
def partners (reps reps' : List Value) : List Value :=
  reps.map fun r => (reps'.find? fun r' => r'.isEquivalent r).getD r

section
variable (exact : ∀ v ∈ values, v.Exact) (h : Transversal reps values) (h' : Transversal reps' values)
include exact h h'

omit exact in
theorem partner {r : Value} (listed : r ∈ reps) :
    (reps'.find? fun r' => r'.isEquivalent r).getD r ∈ reps' ∧
      ((reps'.find? fun r' => r'.isEquivalent r).getD r).compare r = .eq := by
  cases found : reps'.find? fun r' => r'.isEquivalent r with
  | some r' =>
    have same : r'.isEquivalent r = true := by simpa using List.find?_some found
    exact ⟨List.mem_of_find?_eq_some found, isEquivalent_iff.1 same⟩
  | none =>
    obtain ⟨r', there, same⟩ := h'.covers r (h.member r listed)
    exact absurd (isEquivalent_iff.2 same) (by simpa using List.find?_eq_none.1 found r' there)

theorem subperm_partners : (partners reps reps').Subperm reps' := by
  refine List.Nodup.subperm ?_ ?_
  · refine List.pairwise_map.2 (h.apart.imp_of_mem fun {a b} ha hb apart same => apart ?_)
    -- two values with one partner are equivalent
    obtain ⟨there, first⟩ := partner h h' ha
    obtain ⟨-, second⟩ := partner h h' hb
    rw [← same] at second
    have ea := exact a (h.member a ha)
    have eb := exact b (h.member b hb)
    exact eq_trans ea (exact _ (h'.member _ there)) eb (OrientedCmp.eq_comm.1 first) second
  · intro r' listed
    obtain ⟨r, inside, rfl⟩ := List.mem_map.1 listed
    exact (partner h h' inside).1

theorem length_le : reps.length ≤ reps'.length := by
  have := (subperm_partners exact h h').length_le
  rwa [partners, List.length_map] at this

/-- Two choices of one value of each class have as many values. -/
theorem length_eq : reps.length = reps'.length :=
  Nat.le_antisymm (length_le exact h h') (length_le exact h' h)

/-- Two choices of one value of each class are the same, up to equivalence and order. -/
theorem matching : ∃ arranged, arranged.Perm reps' ∧
    List.Forall₂ (fun r r' => r ∈ values ∧ r' ∈ values ∧ r.compare r' = .eq) reps arranged := by
  refine ⟨partners reps reps', (subperm_partners exact h h').perm_of_length_le ?_, ?_⟩
  · rw [partners, List.length_map]
    exact length_le exact h' h
  · refine List.forall₂_map_right_iff.2 (List.forall₂_same.2 fun r listed => ?_)
    obtain ⟨there, same⟩ := partner h h' listed
    exact ⟨h.member r listed, h'.member _ there, OrientedCmp.eq_comm.1 same⟩

end

end Transversal

/-! ## Counting the classes -/

/-- In a sorted list the first value, and those that are left of the others, are one value of each class. -/
theorem transversal_withoutRepeats {kept : Value} {sorted : List Value} (exact : ∀ v ∈ kept :: sorted, v.Exact)
    (rising : (kept :: sorted).Pairwise fun a b => (a.compare b).isLE) :
    (∀ r ∈ withoutRepeats kept sorted, kept.compare r = .lt) ∧
      Transversal (kept :: withoutRepeats kept sorted) (kept :: sorted) := by
  induction sorted generalizing kept with
  | nil =>
    refine ⟨by simp [withoutRepeats], fun r listed => listed, by simp [withoutRepeats], fun v listed => ?_⟩
    exact ⟨v, listed, compare_self _⟩
  | cons v rest ih =>
    obtain ⟨here, later⟩ := List.forall_mem_cons.1 exact
    obtain ⟨ev, others⟩ := List.forall_mem_cons.1 later
    obtain ⟨below, behind⟩ := List.pairwise_cons.1 rising
    rw [withoutRepeats]
    by_cases same : v.isEquivalent kept = true
    · -- the value that is dropped is in the class of the one that is kept
      have equal : kept.compare v = .eq := OrientedCmp.eq_comm.1 (isEquivalent_iff.1 same)
      have first : (kept :: rest).Pairwise fun a b => (a.compare b).isLE :=
        List.pairwise_cons.2 ⟨(List.forall_mem_cons.1 below).2, (List.pairwise_cons.1 behind).2⟩
      obtain ⟨above, choice⟩ := ih (List.forall_mem_cons.2 ⟨here, others⟩) first
      rw [if_pos same]
      refine ⟨above, fun r listed => ?_, choice.apart, ?_⟩
      · exact List.cons_subset_cons _ (List.subset_cons_self _ _) (choice.member r listed)
      · obtain ⟨self, covered⟩ := List.forall_mem_cons.1 choice.covers
        exact List.forall_mem_cons.2 ⟨self, List.forall_mem_cons.2 ⟨⟨kept, List.mem_cons_self, equal⟩, covered⟩⟩
    · have atMost : (kept.compare v).isLE := below v List.mem_cons_self
      have less : kept.compare v = .lt := by
        cases order : kept.compare v with
        | lt => rfl
        | eq => exact absurd (isEquivalent_iff.2 (OrientedCmp.eq_comm.1 order)) same
        | gt => simp [order] at atMost
      obtain ⟨above, choice⟩ := ih later behind
      have beyond : ∀ r ∈ v :: withoutRepeats v rest, kept.compare r = .lt :=
        List.forall_mem_cons.2 ⟨less, fun r listed => lt_of_isLE_of_lt here ev
          (later r (choice.member r (List.mem_cons_of_mem _ listed))) atMost (above r listed)⟩
      have unequal {o : Ordering} (h : o = .lt) : o ≠ .eq := by rw [h]; decide
      rw [if_neg same]
      refine ⟨beyond, List.forall_mem_cons.2 ⟨List.mem_cons_self, fun r listed => ?_⟩,
        List.pairwise_cons.2 ⟨fun r listed => unequal (beyond r listed), choice.apart⟩,
        List.forall_mem_cons.2 ⟨⟨kept, List.mem_cons_self, compare_self kept⟩, fun w listed => ?_⟩⟩
      · exact List.mem_cons_of_mem _ (choice.member r listed)
      · obtain ⟨r, picked, found⟩ := choice.covers w listed
        exact ⟨r, List.mem_cons_of_mem _ picked, found⟩

/-- Exact values are sorted as they should be. -/
theorem pairwise_mergeSort {values : List Value} (exact : ∀ v ∈ values, v.Exact) :
    (values.mergeSort fun a b => a.compare b != .gt).Pairwise fun a b => (a.compare b).isLE := by
  have isLE {a b : Value} : (a.compare b != .gt) = (a.compare b).isLE := by cases a.compare b <;> rfl
  have trans (a b c : { v : Value // v.Exact }) : (compareExact a b).isLE → (compareExact b c).isLE →
      (compareExact a c).isLE := TransCmp.isLE_trans
  have total (a b : { v : Value // v.Exact }) :
      ((compareExact a b).isLE || (compareExact b a).isLE) = true := by
    rw [show compareExact b a = (compareExact a b).swap from compare_swap a.1 b.1]
    cases compareExact a b <;> rfl
  have sorted := List.pairwise_mergeSort trans total (values.attachWith Exact exact)
  have mapped := List.map_mergeSort (r := fun a b => (compareExact a b).isLE)
    (s := fun a b => a.compare b != .gt) (f := Subtype.val) (l := values.attachWith Exact exact)
    fun a _ b _ => show (a.1.compare b.1).isLE = _ from isLE.symm
  rw [List.attachWith_map_subtype_val] at mapped
  rw [← mapped, List.pairwise_map]
  exact sorted

/-- What is counted in a sorted list is the number of classes. -/
theorem distinctCount_eq {values reps : List Value} (exact : ∀ v ∈ values, v.Exact)
    (h : Transversal reps values) : distinctCount values = reps.length := by
  unfold distinctCount
  have same := List.mergeSort_perm values fun a b => a.compare b != .gt
  have rising := pairwise_mergeSort exact
  generalize values.mergeSort (fun a b => a.compare b != .gt) = sorted at same rising
  cases sorted with
  | nil =>
    rw [List.nil_perm.1 same] at h
    cases reps with
    | nil => rfl
    | cons r rest => simpa using h.member r List.mem_cons_self
  | cons v rest =>
    have choice := (transversal_withoutRepeats (fun w listed => exact w (same.subset listed)) rising).2
    exact Transversal.length_eq exact (choice.perm same) h

/-! ## The least and the greatest value -/

open Functions

/-- The value that is picked last is as good as any, if each pick is as good as the two values that it is
made from. -/
theorem foldl_pick (good : Value → Value → Prop) {pick : Value → Value → Value}
    {values : List Value} (refl : ∀ v, good v v)
    (trans : ∀ a ∈ values, ∀ b ∈ values, ∀ c ∈ values, good a b → good b c → good a c)
    (among : ∀ a b, pick a b = a ∨ pick a b = b) (best : ∀ a b, good (pick a b) a ∧ good (pick a b) b)
    {v : Value} {rest : List Value} (inside : ∀ w ∈ v :: rest, w ∈ values) :
    ∀ w ∈ v :: rest, good (rest.foldl pick v) w := by
  induction rest generalizing v with
  | nil =>
    intro w listed
    obtain rfl := List.mem_singleton.1 listed
    exact refl w
  | cons u rest ih =>
    obtain ⟨hv, hu, hrest⟩ : v ∈ values ∧ u ∈ values ∧ ∀ w ∈ rest, w ∈ values := by
      simpa using inside
    have picked : pick v u ∈ values := by rcases among v u with same | same <;> rw [same] <;> assumption
    have later := ih (v := pick v u) (List.forall_mem_cons.2 ⟨picked, hrest⟩)
    have first := later _ List.mem_cons_self
    have found : (u :: rest).foldl pick v ∈ values := by
      rcases List.mem_cons.1 (mem_of_foldl among (pick v u) rest) with same | listed
      · rw [List.foldl_cons, same]
        exact picked
      · exact hrest _ listed
    refine List.forall_mem_cons.2 ⟨?_, List.forall_mem_cons.2 ⟨?_, fun w listed => ?_⟩⟩
    · exact trans _ found _ picked _ hv first (best v u).1
    · exact trans _ found _ picked _ hu first (best v u).2
    · exact later w (List.mem_cons_of_mem _ listed)

theorem isLE_self (v : Value) : (v.compare v).isLE := by
  rw [compare_self]
  rfl

theorem isLE_of_gt {a b : Value} (h : a.compare b = .gt) : (b.compare a).isLE := by
  rw [compare_swap a b, h]
  rfl

theorem isLE_of_not_gt {a b : Value} (h : ¬ (a.compare b == .gt) = true) : (a.compare b).isLE := by
  rw [Ordering.isLE_iff_ne_gt]
  simpa using h

theorem least_le {values : List Value} (exact : ∀ v ∈ values, v.Exact) {m : Value}
    (h : least? values = some m) : ∀ v ∈ values, (m.compare v).isLE := by
  cases values with
  | nil => cases h
  | cons v rest =>
    cases h
    refine foldl_pick (fun a b => (a.compare b).isLE) isLE_self
      (fun a ha b hb c hc => isLE_trans (exact a ha) (exact b hb) (exact c hc))
      (fun a b => by split <;> simp) (fun a b => ?_) fun w listed => listed
    split
    · rename_i greater
      exact ⟨isLE_of_gt (beq_iff_eq.1 greater), isLE_self b⟩
    · exact ⟨isLE_self a, isLE_of_not_gt ‹_›⟩

theorem le_greatest {values : List Value} (exact : ∀ v ∈ values, v.Exact) {m : Value}
    (h : greatest? values = some m) : ∀ v ∈ values, (v.compare m).isLE := by
  cases values with
  | nil => cases h
  | cons v rest =>
    cases h
    refine foldl_pick (fun a b => (b.compare a).isLE) isLE_self
      (fun a ha b hb c hc first second => isLE_trans (exact c hc) (exact b hb) (exact a ha) second first)
      (fun a b => by split <;> simp) (fun a b => ?_) fun w listed => listed
    split
    · rename_i greater
      exact ⟨isLE_self a, isLE_of_gt (beq_iff_eq.1 greater)⟩
    · exact ⟨isLE_of_not_gt ‹_›, isLE_self b⟩

theorem eq_of_isLE {a b : Value} (h : (a.compare b).isLE) (h' : (b.compare a).isLE) :
    a.compare b = .eq := by
  rw [compare_swap a b] at h'
  cases order : a.compare b <;> simp_all

theorem compare_picked {pick : List Value → Option Value} {values values' : List Value}
    (same : values.Perm values') (some_of : ∀ {vs}, vs ≠ [] → ∃ m, pick vs = some m)
    (none_of : pick [] = none)
    (equal : ∀ {m m'}, pick values = some m → pick values' = some m' → m.compare m' = .eq) :
    ((pick values).getD .null).compare ((pick values').getD .null) = .eq := by
  by_cases empty : values = []
  · rw [empty] at same ⊢
    rw [List.nil_perm.1 same, none_of]
    exact compare_self _
  · obtain ⟨m, first⟩ := some_of empty
    have filled : values' ≠ [] := fun none => empty (List.perm_nil.1 (none ▸ same))
    obtain ⟨m', second⟩ := some_of filled
    rw [first, second]
    exact equal first second

/-- The least value of a permuted list is equivalent. -/
theorem least_perm {values values' : List Value} (exact : ∀ v ∈ values, v.Exact)
    (same : values.Perm values') :
    ((least? values).getD .null).compare ((least? values').getD .null) = .eq := by
  refine compare_picked same (fun {vs} some => ?_) rfl fun {m m'} first second => ?_
  · cases vs with
    | nil => exact absurd rfl some
    | cons v rest => exact ⟨_, rfl⟩
  · have exact' : ∀ v ∈ values', v.Exact := fun v listed => exact v (same.symm.subset listed)
    exact eq_of_isLE (least_le exact first m' (same.symm.subset (mem_of_least? second)))
      (least_le exact' second m (same.subset (mem_of_least? first)))

/-- The greatest value of a permuted list is equivalent. -/
theorem greatest_perm {values values' : List Value} (exact : ∀ v ∈ values, v.Exact)
    (same : values.Perm values') :
    ((greatest? values).getD .null).compare ((greatest? values').getD .null) = .eq := by
  refine compare_picked same (fun {vs} some => ?_) rfl fun {m m'} first second => ?_
  · cases vs with
    | nil => exact absurd rfl some
    | cons v rest => exact ⟨_, rfl⟩
  · have exact' : ∀ v ∈ values', v.Exact := fun v listed => exact v (same.symm.subset listed)
    exact eq_of_isLE (le_greatest exact' second m (same.subset (mem_of_greatest? first)))
      (le_greatest exact first m' (same.symm.subset (mem_of_greatest? second)))

end Rowlang.Value
