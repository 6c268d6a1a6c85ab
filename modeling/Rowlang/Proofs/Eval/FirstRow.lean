import Rowlang.Proofs.Eval.Grouping

/-!
# Paths of keys on a list

A path of keys that are no variables is read from the first row of a list, below all levels of grouping. What
the list and its groups were grouped by makes no difference: where it bars the way into the first group, the
path is evaluated on the list itself, which has no attributes, and then on the first item after all.

* `firstRow?` : the first item of a list, of its first group and so on, that is no list;
* `Evaluator.run_evaluateSteps_null` : null has no attributes;
* `Evaluator.run_aggregate_keys` : one level of grouping after the other is passed;
* `Evaluator.evaluate_firstRow` : a path of keys on a list is that path on its first row.
-/

namespace Rowlang
open Value

/-- The row that is reached by taking the first item again and again until it is no list. -/
def firstRow? : List Value → Option Value
  | [] => none
  | .list items _ :: _ => firstRow? items
  | row :: _ => some row

theorem firstRow?_plain {row : Value} (plain : IsPlain row) (rest : List Value) :
    firstRow? (row :: rest) = some row := by
  rw [firstRow?]
  exact plain

theorem isPlain_firstRow {items : List Value} {row : Value} (first : firstRow? items = some row) :
    IsPlain row := by
  match items with
  | [] => simp [firstRow?] at first
  | .list inner _ :: _ =>
    rw [firstRow?] at first
    exact isPlain_firstRow first
  | .null :: _ | .boolean _ :: _ | .number _ :: _ | .text _ :: _ | .date _ :: _ | .object _ :: _ =>
    rw [firstRow?_plain (by simp [IsPlain])] at first
    cases first
    simp [IsPlain]

/-- The keys are no aggregates, not the value itself, and no variables. -/
structure PlainKeys (s : EvalState) (names : List String) : Prop where
  named : ∀ n ∈ names, Aggregate.ofName? n = none
  other : ∀ n ∈ names, n ≠ "self"
  unbound : ∀ n ∈ names, s.bindings.get? n = none

namespace PlainKeys

variable {s : EvalState} {name : String} {names : List String}

theorem head (h : PlainKeys s (name :: names)) :
    Aggregate.ofName? name = none ∧ name ≠ "self" ∧ s.bindings.get? name = none :=
  ⟨h.named _ List.mem_cons_self, h.other _ List.mem_cons_self, h.unbound _ List.mem_cons_self⟩

theorem tail (h : PlainKeys s (name :: names)) : PlainKeys s names where
  named n listed := h.named n (List.mem_cons_of_mem _ listed)
  other n listed := h.other n (List.mem_cons_of_mem _ listed)
  unbound n listed := h.unbound n (List.mem_cons_of_mem _ listed)

end PlainKeys

namespace Evaluator

variable {env : Evaluator} {s : EvalState} {name : String} {names : List String}

/-! ## What has no attributes -/

theorem run_lookupKey_null (plain : PlainKeys s (name :: names)) {v : Value} (other : ∀ ref, v ≠ .object ref)
    (head : Bool) : (env.lookupKey v name head).run s = (.null, s) := by
  obtain ⟨-, notSelf, unbound⟩ := plain.head
  refine Prod.ext ?_ (lookupKey_unchanged ..)
  cases v with
  | object ref => exact absurd rfl (other ref)
  | _ =>
    simp only [lookupKey, beq_iff_eq, notSelf, if_false]
    cases head with
    | false => rfl
    | true =>
      show (s.bindings.get? name).getD .null = .null
      rw [unbound, Option.getD_none]

theorem run_evaluateChain_null (plain : PlainKeys s names) (origin : Value) (head : Bool) :
    (env.evaluateChain origin .null head (names.map .key)).run s = (.null, s) := by
  induction names generalizing head with
  | nil =>
    rw [List.map_nil, evaluateChain]
    rfl
  | cons name names ih =>
    rw [List.map_cons, evaluateChain_key (by simp), Eval.run_bind (run_lookupKey_null plain (by simp) head)]
    exact ih plain.tail false

theorem run_evaluateSteps_null (plain : PlainKeys s names) :
    (env.evaluateSteps .null (names.map .key)).run s = (.null, s) := by
  cases names with
  | nil =>
    rw [List.map_nil, evaluateSteps]
    rfl
  | cons name names =>
    rw [List.map_cons, evaluateSteps_row (by simp), ← evaluateChain_key (by simp)]
    exact run_evaluateChain_null plain .null true

/-- The list itself has no attributes, so its first item is looked at. -/
theorem run_evaluateWhole (plain : PlainKeys s (name :: names)) (items : List Value) (key : Option String) :
    (env.evaluateWhole items key name (names.map .key)).run s =
      (match items with
        | [] => pure Value.null
        | row :: _ => env.evaluateSteps row ((name :: names).map .key)).run s := by
  rw [evaluateWhole, Eval.run_bind (run_lookupKey_null plain (by simp) true),
    Eval.run_bind (run_evaluateSteps_null plain.tail)]
  cases items <;> rfl

/-! ## The first row -/

/-- A path over a list is the path on its first row. -/
theorem run_aggregate_keys (plain : PlainKeys s (name :: names)) (items : List Value) (key : Option String) :
    (env.aggregate items key ((name :: names).map .key)).run s =
      match firstRow? items with
      | some row => (env.evaluateSteps row ((name :: names).map .key)).run s
      | none => (.null, s) := by
  have whole : (env.evaluateWhole items key name (names.map .key)).run s = _ :=
    run_evaluateWhole plain items key
  rw [List.map_cons] at whole ⊢
  rw [aggregate_key plain.head.1]
  match items with
  | [] =>
    rw [whole, firstRow?]
    rfl
  | .list group groupKey :: rest =>
    -- whether the way into the group is barred or not, the path is evaluated over the group
    have inner := run_aggregate_keys plain group groupKey
    rw [List.map_cons] at inner
    rw [firstRow?, ← inner]
    dsimp only
    split
    · rfl
    · rw [whole]
      dsimp only
      rw [evaluateSteps_list]
  | .null :: _ | .boolean _ :: _ | .number _ :: _ | .text _ :: _ | .date _ :: _ | .object _ :: _ =>
    rw [firstRow?_plain (by simp [IsPlain])]
    exact whole
termination_by sizeOf items

/-- **A path of keys on a list** reads the first row of the list, however nested it is. If none of the keys is
an aggregate, `self` or a variable, the path has the value that it has on the row that is reached by taking the
first item until it is no list, and ends in the same state; it is null if that ends at an empty list. So it
does not depend on what the list was grouped by. -/
theorem evaluate_firstRow (env : Evaluator) {s : EvalState} {names : List String} (some_key : names ≠ [])
    (plain : PlainKeys s names) (items : List Value) (key : Option String) :
    let path : Expr := .ofSteps (names.map .key)
    (∀ row, firstRow? items = some row → IsPlain row ∧
      (env.evaluate (.list items key) path).run s = (env.evaluate row path).run s) ∧
    (firstRow? items = none → (env.evaluate (.list items key) path).run s = (.null, s)) ∧
    ∀ items' key', firstRow? items' = firstRow? items →
      (env.evaluate (.list items' key') path).run s = (env.evaluate (.list items key) path).run s := by
  intro path
  obtain ⟨name, names, rfl⟩ := List.exists_cons_of_ne_nil some_key
  have reached (items : List Value) (key : Option String) :
      (env.evaluate (.list items key) path).run s = match firstRow? items with
        | some row => (env.evaluate row path).run s
        | none => (.null, s) := by
    rw [env.evaluate_ofSteps some_key, List.map_cons, evaluateSteps_list, ← List.map_cons,
      run_aggregate_keys plain]
    cases firstRow? items with
    | none => rfl
    | some row =>
      dsimp only
      rw [env.evaluate_ofSteps some_key]
  refine ⟨fun row first => ⟨isPlain_firstRow first, ?_⟩, fun none => ?_, fun items' key' same => ?_⟩
  · rw [reached, first]
  · rw [reached, none]
  · rw [reached, reached, same]

/-- An item in a group of a group, read by its attribute: the list is grouped by the key that is read. -/
theorem evaluate_firstRow_grouped :
    let item : Value := .object ⟨1, "Item"⟩
    let items : List Value := [.list [.list [item, .null] (some "b")] (some "a"), .ofNat 2]
    let value (row : Value) := orderEvaluator.evaluate row (.key "a")
    ["a"] ≠ [] ∧ PlainKeys (stateOf []) ["a"] ∧ firstRow? items = some item ∧
      (value (.list items (some "a"))).run (stateOf []) = (value item).run (stateOf []) := by
  intro item items value
  have plain : PlainKeys (stateOf []) ["a"] := by
    refine ⟨?_, ?_, ?_⟩ <;> intro n listed <;> obtain rfl := List.mem_singleton.1 listed <;> decide +kernel
  have first : firstRow? items = some item := by simp [items, item, firstRow?]
  obtain ⟨found, -, -⟩ := orderEvaluator.evaluate_firstRow (by simp) plain items (some "a")
  exact ⟨by simp, plain, first, (found item first).2⟩

end Evaluator

end Rowlang
