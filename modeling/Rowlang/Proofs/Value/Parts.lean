import Mathlib.Algebra.Order.BigOperators.Group.List
import Rowlang.Proofs.Number.Whole
import Rowlang.Proofs.Value.Classes

/-!
# Values in parts

Some values are divided into parts. Their sum is that of the sums of the parts, as long as it is exact: for
decimals without places whose magnitudes stay in range. Their least and greatest value is that of the least
and greatest values of the parts, nulls left out.

* `Value.Amounts` : nulls and decimals without places that can be added up exactly;
* `Number.add_isAmount`, `total_amounts` : their sum is exact;
* `Value.Amounts.totals` : the totals of the parts are amounts, too, with the same sum;
* `Value.Picks` : a way to pick an extreme value, as the least and the greatest are;
* `Value.Picks.extremeOf_parts` : an extreme value is that of the extreme values of the parts.
-/

namespace Rowlang
open Value

/-! ## Exact sums -/

/-- The number is a decimal without places that has the value. -/
def Number.IsAmount (n : Number) (k : Int) : Prop :=
  ∃ d : Decimal, n = .decimal d ∧ d.scale = 0 ∧ d.signedCoefficient = k

theorem Number.add_isAmount {a b : Number} {j k : Int} (ha : a.IsAmount j) (hb : b.IsAmount k)
    (small : (j + k).natAbs < 2 ^ 96) : (a.add b).IsAmount (j + k) := by
  obtain ⟨c, rfl, hc, rfl⟩ := ha
  obtain ⟨d, rfl, hd, rfl⟩ := hb
  obtain ⟨sum, added, places, value⟩ := Decimal.add?_whole hc hd small
  refine ⟨sum, ?_, places, value⟩
  simp [add, combine, added]

namespace Value

/-- Null, or a decimal without places. -/
def IsAmount (v : Value) : Prop := v = .null ∨ ∃ d : Decimal, v = .number (.decimal d) ∧ d.scale = 0

def amount : Value → Int
  | .number (.decimal d) => d.signedCoefficient
  | _ => 0

/-- Nulls and decimals without places, whose magnitudes together are those of a decimal. -/
structure Amounts (values : List Value) : Prop where
  each : ∀ v ∈ values, v.IsAmount
  small : (values.map fun v => v.amount.natAbs).sum < 2 ^ 96

theorem IsAmount.exact {v : Value} (h : v.IsAmount) : v.Exact := by
  rcases h with rfl | ⟨d, rfl, -⟩
  · exact List.forall_mem_nil _
  · exact List.forall_mem_singleton.2 ⟨d, rfl⟩

theorem Amounts.exact {values : List Value} (h : Amounts values) : ∀ v ∈ values, v.Exact :=
  fun v listed => (h.each v listed).exact

end Value

theorem natAbs_sum_le (ks : List Int) : ks.sum.natAbs ≤ (ks.map Int.natAbs).sum := by
  induction ks with
  | nil => exact Nat.le_refl 0
  | cons k rest ih =>
    rw [List.sum_cons, List.map_cons, List.sum_cons]
    exact (Int.natAbs_add_le k rest.sum).trans (Nat.add_le_add_left ih _)

/-- Amounts are added up one by one, and no sum on the way leaves the range. -/
theorem foldl_amounts {values : List Value} (each : ∀ v ∈ values, v.IsAmount) {n : Number} {k : Int}
    (start : n.IsAmount k) (small : k.natAbs + (values.map fun v => v.amount.natAbs).sum < 2 ^ 96) :
    ((values.filterMap Value.toNumber?).foldl Number.add n).IsAmount (k + (values.map amount).sum) := by
  induction values generalizing n k with
  | nil => simpa using start
  | cons v rest ih =>
    obtain ⟨here, later⟩ := List.forall_mem_cons.1 each
    rw [List.map_cons, List.sum_cons] at small ⊢
    rw [← Int.add_assoc]
    have sum := Int.natAbs_add_le k v.amount
    rcases here with rfl | ⟨d, rfl, places⟩
    · rw [List.filterMap_cons_none rfl]
      exact ih later (by simpa [amount] using start) (by omega)
    · have read : Value.toNumber? (.number (.decimal d)) = some (.decimal d) := rfl
      rw [List.filterMap_cons_some read, List.foldl_cons]
      refine ih later (Number.add_isAmount start ⟨d, rfl, places, rfl⟩ ?_) ?_
      · show (k + (Value.number (.decimal d)).amount).natAbs < _
        omega
      · show (k + (Value.number (.decimal d)).amount).natAbs + _ < _
        omega

/-- The total of amounts is exact. -/
theorem total_amounts {values : List Value} (h : Amounts values) :
    (total values).IsAmount (values.map amount).sum := by
  have zero : Number.zero.IsAmount 0 := ⟨.zero, rfl, rfl, rfl⟩
  have sum := foldl_amounts h.each zero (by simpa using h.small)
  rwa [Int.zero_add] at sum

/-! ## Totals of parts -/

section
variable {values : List Value} {parts : List (List Value)}

theorem sum_parts {α : Type} [AddCommMonoid α] (f : Value → α) (same : parts.flatten.Perm values) :
    (parts.map fun vs => (vs.map f).sum).sum = (values.map f).sum := by
  have flat : (parts.flatten.map f).sum = (parts.map fun vs => (vs.map f).sum).sum := by
    rw [List.map_flatten, List.sum_flatten, List.map_map]
    rfl
  rw [← flat]
  exact (same.map f).sum_eq

/-- The parts of amounts are amounts, and so are their totals. -/
theorem Value.Amounts.totals (h : Amounts values) (same : parts.flatten.Perm values) :
    (∀ vs ∈ parts, Amounts vs) ∧ Amounts (parts.map fun vs => .number (total vs)) ∧
      ((parts.map fun vs => Value.number (total vs)).map amount).sum = (values.map amount).sum := by
  have bounded := (sum_parts (fun v => v.amount.natAbs) same).trans_lt h.small
  have each : ∀ vs ∈ parts, Amounts vs := fun vs listed => by
    refine ⟨fun v inside => h.each v (same.subset (List.mem_flatten.2 ⟨vs, listed, inside⟩)), ?_⟩
    refine Nat.lt_of_le_of_lt (List.le_sum_of_mem ?_) bounded
    exact List.mem_map_of_mem (f := fun vs => (vs.map fun v => v.amount.natAbs).sum) listed
  have amounts : ∀ vs ∈ parts, (Value.number (total vs)).amount = (vs.map amount).sum := fun vs listed => by
    obtain ⟨d, exact, -, value⟩ := total_amounts (each vs listed)
    rw [exact]
    exact value
  refine ⟨each, ⟨List.forall_mem_map.2 fun vs listed => ?_, ?_⟩, ?_⟩
  · obtain ⟨d, exact, places, -⟩ := total_amounts (each vs listed)
    exact .inr ⟨d, congrArg Value.number exact, places⟩
  · refine Nat.lt_of_le_of_lt ?_ bounded
    rw [List.map_map]
    refine List.sum_le_sum fun vs listed => ?_
    rw [Function.comp_apply, amounts vs listed]
    refine (natAbs_sum_le _).trans (Nat.le_of_eq ?_)
    rw [List.map_map]
    rfl
  · rw [List.map_map, ← sum_parts amount same]
    exact congrArg List.sum (List.map_congr_left amounts)

end

/-! ## Extreme values of parts -/

open Functions

namespace Value

/-- A way to pick one of some values that is as good as any of them. -/
structure Picks (good : Value → Value → Prop) (pick : List Value → Option Value) : Prop where
  antisymm : ∀ {a b : Value}, good a b → good b a → a.compare b = .eq
  trans : ∀ {a b c : Value}, a.Exact → b.Exact → c.Exact → good a b → good b c → good a c
  none : pick [] = none
  some : ∀ v rest, ∃ m, pick (v :: rest) = some m
  mem : ∀ {values m}, pick values = .some m → m ∈ values
  best : ∀ {values m}, (∀ v ∈ values, v.Exact) → pick values = .some m → ∀ v ∈ values, good m v

/-- What is picked of the values that are not null; null if there is none. -/
def extremeOf (pick : List Value → Option Value) (values : List Value) : Value :=
  (pick (values.filter (!·.isNull))).getD .null

namespace Picks

variable {good : Value → Value → Prop} {pick : List Value → Option Value} {values : List Value}
  {parts : List (List Value)}

/-- Either all values are null, or one that is not is picked and is as good as all others. -/
theorem extremeOf_cases (h : Picks good pick) (exact : ∀ v ∈ values, v.Exact) :
    (extremeOf pick values = .null ∧ ∀ v ∈ values, v.isNull = true) ∨
      (extremeOf pick values ∈ values ∧ (extremeOf pick values).isNull = false ∧
        ∀ v ∈ values, v.isNull = false → good (extremeOf pick values) v) := by
  unfold extremeOf
  cases given : values.filter (!·.isNull) with
  | nil =>
    refine .inl ⟨by rw [h.none]; rfl, fun v listed => ?_⟩
    simpa using List.filter_eq_nil_iff.1 given v listed
  | cons v rest =>
    obtain ⟨m, picked⟩ := h.some v rest
    rw [picked, Option.getD_some]
    rw [← given] at picked
    have listed := List.mem_filter.1 (h.mem picked)
    have best := h.best (fun v inside => exact v (List.mem_of_mem_filter inside)) picked
    refine .inr ⟨listed.1, by simpa using listed.2, fun v inside given => ?_⟩
    exact best v (List.mem_filter.2 ⟨inside, by simpa using given⟩)

/-- The extreme value is that of the extreme values of the parts. -/
theorem extremeOf_parts (h : Picks good pick) (exact : ∀ v ∈ values, v.Exact)
    (same : parts.flatten.Perm values) :
    (extremeOf pick values).compare (extremeOf pick (parts.map (extremeOf pick))) = .eq := by
  have inside {vs : List Value} (listed : vs ∈ parts) : ∀ v ∈ vs, v ∈ values := fun v here =>
    same.subset (List.mem_flatten.2 ⟨vs, listed, here⟩)
  have cases {vs : List Value} (listed : vs ∈ parts) :=
    h.extremeOf_cases fun v here => exact v (inside listed v here)
  have exactParts : ∀ v ∈ parts.map (extremeOf pick), v.Exact := List.forall_mem_map.2 fun vs listed => by
    rcases cases listed with ⟨null, -⟩ | ⟨here, -⟩
    · rw [null]
      exact List.forall_mem_nil _
    · exact exact _ (inside listed _ here)
  rcases h.extremeOf_cases exact with ⟨null, all⟩ | ⟨here, given, best⟩
  · rcases h.extremeOf_cases exactParts with ⟨null', -⟩ | ⟨listed, given', -⟩
    · rw [null, null']
      exact compare_self _
    · -- an extreme value of a part is a value, and all values are null
      obtain ⟨vs, part, same⟩ := List.mem_map.1 listed
      rw [← same] at given'
      rcases cases part with ⟨null', -⟩ | ⟨here, -⟩
      · rw [null'] at given'
        cases given'
      · rw [all _ (inside part _ here)] at given'
        cases given'
  · obtain ⟨vs, part, among⟩ := List.mem_flatten.1 (same.symm.subset here)
    rcases cases part with ⟨-, all⟩ | ⟨picked, given', better⟩
    · rw [all _ among] at given
      cases given
    · have listed := List.mem_map_of_mem (f := extremeOf pick) part
      rcases h.extremeOf_cases exactParts with ⟨-, all⟩ | ⟨found, given'', best'⟩
      · rw [all _ listed] at given'
        cases given'
      · have within : extremeOf pick (parts.map (extremeOf pick)) ∈ values := by
          obtain ⟨ws, part', same⟩ := List.mem_map.1 found
          rw [← same] at given'' ⊢
          rcases cases part' with ⟨null', -⟩ | ⟨picked', -⟩
          · rw [null'] at given''
            cases given''
          · exact inside part' _ picked'
        refine h.antisymm (best _ within given'') ?_
        exact h.trans (exact _ within) (exact _ (inside part _ picked)) (exact _ here)
          (best' _ listed given') (better _ among given)

end Picks

theorem picks_least : Picks (fun a b => (a.compare b).isLE) least? where
  antisymm := eq_of_isLE
  trans := isLE_trans
  none := rfl
  some _ _ := ⟨_, rfl⟩
  mem := mem_of_least?
  best exact := least_le exact

theorem picks_greatest : Picks (fun a b => (b.compare a).isLE) greatest? where
  antisymm first second := eq_of_isLE second first
  trans ha hb hc first second := isLE_trans hc hb ha second first
  none := rfl
  some _ _ := ⟨_, rfl⟩
  mem := mem_of_greatest?
  best exact := le_greatest exact

end Value

end Rowlang
