import Rowlang.Proofs.Eval.Cells
import Rowlang.Proofs.Eval.Purity

/-!
# Grouping

Rows grouped by keys are all there, none twice, and each among the rows with an equivalent value of the key.

* `leafRows_lists`, `leafRows_flat` : the plain rows of groups, and of rows that are no groups;
* `Evaluator.keyValues` : the values of a key on some rows;
* `Evaluator.Grouped` : the lists that are some rows grouped by some keys;
* `Evaluator.group_grouped` : what grouping gives is such a list;
* `Evaluator.evaluate_group` : so is the value of the aggregate, with the plain rows of the list.
-/

namespace Rowlang
open Value

/-! ## The plain rows of groups -/

/-- A row that is no group. -/
def IsPlain (v : Value) : Prop := ∀ items key, v ≠ .list items key

/-- The plain rows of a row: those of a group, or itself. -/
def rowsOf : Value → List Value
  | .list items _ => leafRows items
  | v => [v]

theorem groupRows_eq (items : List Value) : groupRows items = items.flatMap rowsOf := by
  induction items with
  | nil => rw [groupRows, List.flatMap_nil]
  | cons v rest ih =>
    rw [List.flatMap_cons]
    cases v <;> rw [groupRows, ih] <;> first | rfl | simp

/-- The plain rows of a list of groups are those of the groups. -/
theorem leafRows_lists {items : List Value} (groups : ∀ g ∈ items, ¬ IsPlain g) :
    leafRows items = items.flatMap rowsOf := by
  cases items with
  | nil => rw [leafRows, List.flatMap_nil]
  | cons v rest =>
    rcases v.list_or_row with ⟨inner, key, rfl⟩ | plain
    · rw [leafRows, groupRows_eq, List.flatMap_cons]
      rfl
    · exact absurd plain (groups v List.mem_cons_self)

/-- Rows that are no groups are their own plain rows. -/
theorem leafRows_flat {rows : List Value} (plain : ∀ r ∈ rows, IsPlain r) : leafRows rows = rows := by
  cases rows with
  | nil => rw [leafRows]
  | cons v rest =>
    rw [leafRows]
    exact plain v List.mem_cons_self

theorem rowsOf_markGroup (key : String) (v : Value) : rowsOf (markGroup key v) = rowsOf v := by
  unfold markGroup
  split <;> rfl

theorem not_isPlain_markGroup {key : String} {v : Value} (h : ¬ IsPlain v) : ¬ IsPlain (markGroup key v) := by
  unfold markGroup
  split
  · exact fun plain => plain _ _ rfl
  · exact h

theorem leafRows_markGroup {groups : List Value} (key : String) (lists : ∀ g ∈ groups, ¬ IsPlain g) :
    leafRows (groups.map (markGroup key)) = groups.flatMap rowsOf := by
  rw [leafRows_lists (List.forall_mem_map.2 fun g listed => not_isPlain_markGroup (lists g listed)),
    List.flatMap_map]
  exact List.flatMap_congr fun g _ => rowsOf_markGroup key g

theorem isPlain_rowsAt {rows : List Value} {cell : List Nat} (plain : ∀ r ∈ rows, IsPlain r) :
    ∀ r ∈ rowsAt rows cell, IsPlain r := by
  refine List.forall_mem_map.2 fun i _ => ?_
  rw [valueAt, List.getD_eq_getElem?_getD]
  cases found : rows[i]? with
  | none =>
    rintro _ _ ⟨⟩
  | some r => exact plain r (List.mem_of_getElem? found)

theorem exists_of_forall₂ {α β : Type} {R : α → β → Prop} {l : List α} {l' : List β}
    (h : List.Forall₂ R l l') {b : β} (hb : b ∈ l') : ∃ a ∈ l, R a b := by
  induction h with
  | nil => cases hb
  | cons first _ ih =>
    rcases List.mem_cons.1 hb with rfl | hb
    · exact ⟨_, List.mem_cons_self, first⟩
    · obtain ⟨a, ha, related⟩ := ih hb
      exact ⟨a, List.mem_cons_of_mem _ ha, related⟩

theorem flatMap_rowsOf_perm {groups : List Value} {rows : List (List Value)}
    (each : List.Forall₂ (fun members g => (rowsOf g).Perm members) rows groups) :
    (groups.flatMap rowsOf).Perm rows.flatten := by
  induction each with
  | nil => exact .nil
  | cons first _ ih =>
    rw [List.flatMap_cons, List.flatten_cons]
    exact first.append ih

namespace Evaluator

variable {env : Evaluator} {s s' : EvalState}

/-! ## What grouping gives -/

def keyValues (env : Evaluator) (s : EvalState) (k : Expr) (rows : List Value) : List Value :=
  ((rows.mapM fun row => env.evaluate row k).run s).1

/-- The value is the rows grouped by the keys: a list of groups, none of them empty, one for each cell of
the places of the rows, and each of them the rows of its cell grouped by the other keys. The cells part the
places by the values of the first key. If these are exact, two places are in one cell if their values are
equivalent. The states agree in which the keys are evaluated. -/
def Grouped (env : Evaluator) : List Expr → EvalState → List Value → Value → Prop
  | [], _, rows, v => v = .ofList rows
  | k :: rest, s, rows, v => ∃ cells groups,
      let values := env.keyValues s k rows
      v = .list (groups.map (markGroup k.render)) (some k.render) ∧
      values.length = rows.length ∧ Cells values values.length cells ∧
      ((∀ w ∈ values, w.Exact) → ∀ c ∈ cells, ∀ i ∈ c, ∀ j < values.length,
        (j ∈ c ↔ (valueAt values i).compare (valueAt values j) = .eq)) ∧
      (∀ g ∈ groups, ∃ row more mark, g = .list (row :: more) mark) ∧
      List.Forall₂ (fun c g => ∃ s', s.Agrees s' ∧ Grouped env rest s' (rowsAt rows c) g) cells groups

theorem Grouped.list {keys : List Expr} {rows : List Value} {v : Value} (h : env.Grouped keys s rows v) :
    ∃ items mark, v = .list items mark ∧ (rows ≠ [] → items ≠ []) := by
  cases keys with
  | nil => exact ⟨rows, none, h, id⟩
  | cons k rest =>
    obtain ⟨cells, groups, rfl, same, parts, -, -, each⟩ := h
    refine ⟨_, _, rfl, fun some_row none => some_row ?_⟩
    have no_cell : cells = [] := by
      rw [← List.length_eq_zero_iff, each.length_eq]
      simpa using none
    have places := parts.parts
    rw [no_cell, List.flatten_nil, List.nil_perm, List.range_eq_nil, same] at places
    exact List.length_eq_zero_iff.1 places

/-- Grouped rows are all there, and none twice. -/
theorem Grouped.rows {keys : List Expr} {rows : List Value} {v : Value} (h : env.Grouped keys s rows v)
    (plain : ∀ r ∈ rows, IsPlain r) : (rowsOf v).Perm rows := by
  induction keys generalizing s rows v with
  | nil =>
    obtain rfl : v = .ofList rows := h
    show (leafRows rows).Perm rows
    rw [leafRows_flat plain]
  | cons k rest ih =>
    obtain ⟨cells, groups, rfl, same, parts, -, filled, each⟩ := h
    have lists : ∀ g ∈ groups, ¬ IsPlain g := fun g listed plain => by
      obtain ⟨row, more, mark, made⟩ := filled g listed
      exact plain _ _ made
    have inner : List.Forall₂ (fun members g => (rowsOf g).Perm members) (cells.map (rowsAt rows)) groups :=
      List.forall₂_map_left_iff.2 (each.imp fun c g ⟨s', _, grouped⟩ => ih grouped (isPlain_rowsAt plain))
    show (leafRows _).Perm rows
    rw [leafRows_markGroup _ lists]
    refine (flatMap_rowsOf_perm inner).trans ?_
    rw [← List.flatMap_def]
    exact parts.rows_perm same.symm

/-! ## Grouping -/

/-- Evaluations one after the other, each from a state that agrees with the first. -/
theorem run_mapM {α β : Type} {f : α → Eval β} {R : α → β → Prop} {l : List α}
    (each : ∀ a ∈ l, ∀ s', s.Agrees s' → ∃ b s'', (f a).run s' = (b, s'') ∧ s.Agrees s'' ∧ R a b)
    (agrees : s.Agrees s') :
    ∃ bs s'', (l.mapM f).run s' = (bs, s'') ∧ s.Agrees s'' ∧ List.Forall₂ R l bs := by
  induction l generalizing s' with
  | nil =>
    rw [List.mapM_nil]
    exact ⟨[], s', rfl, agrees, .nil⟩
  | cons a rest ih =>
    obtain ⟨first, later⟩ := List.forall_mem_cons.1 each
    obtain ⟨b, s₁, run, agrees₁, related⟩ := first s' agrees
    obtain ⟨bs, s₂, runs, agrees₂, others⟩ := ih later agrees₁
    rw [List.mapM_cons, Eval.run_bind run, Eval.run_bind runs]
    exact ⟨b :: bs, s₂, rfl, agrees₂, .cons related others⟩

/-- The values of a key are as many as the rows, and only what is remembered changes. -/
theorem run_keyValues {k : Expr} (free : k.AssignmentFree) (rows : List Value) (s : EvalState) :
    ∃ s', (rows.mapM fun row => env.evaluate row k).run s = (env.keyValues s k rows, s') ∧ s.Agrees s' ∧
      (env.keyValues s k rows).length = rows.length := by
  obtain ⟨values, s', run, agrees, related⟩ := run_mapM (f := fun row => env.evaluate row k)
    (R := fun _ _ => True) (l := rows)
    (fun row _ s' agrees => ⟨_, _, rfl, agrees.trans (agrees_evaluate free row s'), trivial⟩) (.refl s)
  refine ⟨s', ?_, agrees, ?_⟩
  · rw [keyValues, run]
  · rw [keyValues, run, related.length_eq]

/-- **Grouping** gives the rows grouped by the keys, and leaves the variables as they are. -/
theorem group_grouped {keys : List Expr} (free : ∀ k ∈ keys, k.AssignmentFree) (rows : List Value)
    (s : EvalState) :
    ∃ v s', (env.group rows keys).run s = (v, s') ∧ s.Agrees s' ∧ env.Grouped keys s rows v := by
  induction keys generalizing rows s with
  | nil =>
    rw [group]
    exact ⟨_, s, rfl, .refl s, rfl⟩
  | cons k rest ih =>
    obtain ⟨here, later⟩ := List.forall_mem_cons.1 free
    obtain ⟨s₁, run, agrees, same⟩ := env.run_keyValues here rows s
    have parts := cells_cellsOf (env.keyValues s k rows)
    obtain ⟨groups, s₂, runs, agrees₂, each⟩ := run_mapM (s := s)
      (R := fun members g => ∃ s', s.Agrees s' ∧ env.Grouped rest s' members g)
      (f := fun members => env.group members rest) (l := classes (env.keyValues s k rows) rows)
      (fun members _ s' agrees => by
        obtain ⟨g, s'', run, agrees', grouped⟩ := ih later members s'
        exact ⟨g, s'', run, agrees.trans agrees', s', agrees, grouped⟩) agrees
    rw [group, Eval.run_bind run, Eval.run_bind runs]
    rw [classes_eq same.symm, List.forall₂_map_left_iff] at each
    refine ⟨_, s₂, rfl, agrees₂, cellsOf (env.keyValues s k rows), groups, rfl, same, parts,
      fun exact c hc i hi j inside => parts.mem_iff exact hc hi inside, fun g listed => ?_, each⟩
    -- the rows of a cell are some, so there are groups of them
    obtain ⟨c, hc, s', -, grouped⟩ := exists_of_forall₂ each listed
    obtain ⟨items, mark, rfl, filled⟩ := grouped.list
    obtain ⟨row, more, rfl⟩ := List.exists_cons_of_ne_nil
      (filled fun none => parts.filled c hc (List.map_eq_nil_iff.1 none))
    exact ⟨row, more, mark, rfl⟩

theorem evaluate_group_eq {name : String} (named : Aggregate.ofName? name = some .group)
    {keys : List Expr} (some_key : keys ≠ []) (items : List Value) (key : Option String) :
    env.evaluate (.list items key) (.call name keys) = env.group (leafRows items) keys ∧
      env.evaluate (.list items key) (.chain (.key name :: keys)) = env.group (leafRows items) keys := by
  obtain ⟨k, rest, rfl⟩ := List.exists_cons_of_ne_nil some_key
  constructor
  · rw [evaluate_list rfl]
    show env.aggregate items key [.call name (k :: rest)] = _
    rw [aggregate_call named, applyAggregate.eq_def]
    simp only [evaluateSteps, bind_pure]
  · rw [evaluate_list rfl, Expr.steps, aggregate_named named, applyAggregate.eq_def]
    rfl

/-- **The aggregate `group`**, on a list whose plain rows are no lists: its value is a list of the same
plain rows, grouped by the keys, and it leaves the variables as they are. -/
theorem evaluate_group (env : Evaluator) {name : String} (named : Aggregate.ofName? name = some .group)
    {keys : List Expr} (some_key : keys ≠ []) (free : ∀ k ∈ keys, k.AssignmentFree) {items : List Value}
    (plain : ∀ r ∈ leafRows items, IsPlain r) (key : Option String) (s : EvalState) :
    ∃ groups mark s',
      (env.evaluate (.list items key) (.call name keys)).run s = (.list groups mark, s') ∧
      (env.evaluate (.list items key) (.chain (.key name :: keys))).run s = (.list groups mark, s') ∧
      (leafRows groups).Perm (leafRows items) ∧
      env.Grouped keys s (leafRows items) (.list groups mark) ∧ s.Agrees s' := by
  obtain ⟨v, s', run, agrees, grouped⟩ := env.group_grouped free (leafRows items) s
  obtain ⟨groups, mark, rfl, -⟩ := grouped.list
  obtain ⟨called, named⟩ := env.evaluate_group_eq named some_key items key
  rw [called, named]
  exact ⟨groups, mark, s', run, run, grouped.rows plain, grouped, agrees⟩

/-- Numbers and texts in two groups are grouped anew, by themselves and by a variable. -/
theorem evaluate_group_rows :
    let rows : List Value := [.ofNat 1, .text "b", .text "1"]
    let keys : List Expr := [.key "self", .key "x"]
    let s := stateOf [("x", .ofNat 2)]
    ∃ groups mark s',
      (orderEvaluator.evaluate (.list [.list [.ofNat 1, .text "b"] none, .list [.text "1"] none] none)
        (.call "group" keys)).run s = (.list groups mark, s') ∧
      (leafRows groups).Perm rows ∧ orderEvaluator.Grouped keys s rows (.list groups mark) := by
  intro rows keys s
  have named : Aggregate.ofName? "group" = some .group := by decide +kernel
  have free : ∀ k ∈ keys, k.AssignmentFree := by
    simp [keys, Expr.AssignmentFree, Expr.Throughout, Expr.subterms, Expr.isAssignment]
  have flat : leafRows [.list [.ofNat 1, .text "b"] none, .list [.text "1"] none] = rows := by
    simp [leafRows, groupRows, rows, Value.ofNat]
  have plain : ∀ r ∈ rows, IsPlain r := by simp [rows, IsPlain, Value.ofNat]
  obtain ⟨groups, mark, s', called, -, same, grouped, -⟩ :=
    orderEvaluator.evaluate_group named (by simp [keys]) free (by rwa [flat]) none s
  rw [flat] at same grouped
  exact ⟨groups, mark, s', called, same, grouped⟩

end Evaluator

end Rowlang
