import Rowlang.Proofs.Eval.Selection
import Rowlang.Proofs.Value.Parts

/-!
# Subtotals

A list and its groups have the same plain rows, so that totals, counts over all levels, and extreme values of
the list are those of what the groups have. In one session a row has one value, so it does not matter which of
the list and its groups is evaluated first.

* `Evaluator.Subvalues` : the values of a call on some parts of a list, where rows have their values on the list;
* `Evaluator.AddsUp` : a list agrees with its parts;
* `Evaluator.addsUp` : so it does with lists that have its plain rows between them;
* `Evaluator.group_rows` : what grouping gives has the same plain rows, whatever the keys do;
* `Evaluator.subtotals_add_up` : a list agrees with its groups, and rows with the groups they are put into.
-/

namespace Rowlang
open Value

namespace Evaluator

variable {env : Evaluator} {e : Expr} {s : EvalState}

theorem valueOn_countDeep (env : Evaluator) {name : Aggregate → String}
    (spelled : ∀ a, Aggregate.ofName? (name a) = some a) (items : List Value) (key : Option String) (s : EvalState) :
    env.valueOn s (.call (name .countDeep) []) (.list items key) = .ofNat (leafRows items).length := by
  have counted : env.evaluate (.list items key) (.call (name .countDeep) []) =
      pure (.ofNat (leafRows items).length) := by
    rw [evaluate_list rfl]
    show env.aggregate items key [.call (name .countDeep) []] = _
    rw [aggregate_call (spelled .countDeep), applyAggregate.eq_def]
    simp only [evaluateSteps, bind_pure]
    rfl
  rw [valueOn, counted]
  rfl

/-! ## A list and its parts -/

/-- The values of a call on some parts of a list, each evaluated at a time of its own: in one session with the
evaluation on the list, or else where the expression that the call is about has the same values on the rows. -/
def Subvalues (env : Evaluator) (e call : Expr) (s : EvalState) (items : List Value) (key : Option String)
    (parts subs : List Value) : Prop :=
  List.Forall₂ (fun part v => ∃ s',
    (InSession (env.evaluate (.list items key) call) s (env.evaluate part call) s' ∨
      env.SameValues e s (leafRows items) s' (rowsOf part)) ∧
    env.valueOn s' call part = v) parts subs

/-- A list agrees with its parts, over the values of an expression that are amounts: its total is the exact sum of
the amounts, and so is the sum of the totals of the parts; its plain rows are as many as theirs together, and its
least and greatest value compare equal to the least and greatest of theirs. -/
structure AddsUp (env : Evaluator) (name : Aggregate → String) (e : Expr) (items : List Value)
    (key : Option String) (parts : List Value) : Prop where
  total : ∀ s subs, Amounts (env.keyValues s e (leafRows items)) →
    env.Subvalues e (.call (name .total) [e]) s items key parts subs →
    ∃ n k, env.valueOn s (.call (name .total) [e]) (.list items key) = .number n ∧ n.IsAmount k ∧
      ((env.keyValues s e (leafRows items)).map amount).sum = k ∧ Amounts subs ∧ (subs.map amount).sum = k
  least : ∀ s subs, Amounts (env.keyValues s e (leafRows items)) →
    env.Subvalues e (.call (name .min) [e]) s items key parts subs →
    (env.valueOn s (.call (name .min) [e]) (.list items key)).compare (extremeOf Functions.least? subs) = .eq
  greatest : ∀ s subs, Amounts (env.keyValues s e (leafRows items)) →
    env.Subvalues e (.call (name .max) [e]) s items key parts subs →
    (env.valueOn s (.call (name .max) [e]) (.list items key)).compare (extremeOf Functions.greatest? subs) = .eq
  countDeep : ∃ counts : List Nat,
    (∀ s, env.valueOn s (.call (name .countDeep) []) (.list items key) = .ofNat counts.sum) ∧
    List.Forall₂ (fun part n => ∀ s, env.valueOn s (.call (name .countDeep) []) part = .ofNat n) parts counts

/-- What a call gives on the parts of a list, by the values that the list has on its plain rows. -/
theorem Subvalues.eq_map {call : Expr} {summary : List Value → Value}
    (looks : ∀ items key, env.LooksThrough e (leafRows items) (env.evaluate (.list items key) call) summary)
    (free : e.AssignmentFree) {items : List Value} {key : Option String} {parts subs : List Value}
    (groups : ∀ g ∈ parts, ¬ IsPlain g) (inside : ∀ r ∈ parts.flatMap rowsOf, r ∈ leafRows items)
    (given : env.Subvalues e call s items key parts subs) :
    subs = (parts.map fun g => (rowsOf g).map (env.valueOn (env.stateAfter s e (leafRows items)) e)).map
      summary := by
  induction given with
  | nil => rfl
  | @cons part v parts subs first _ ih =>
    obtain ⟨here, later⟩ := List.forall_mem_cons.1 groups
    rw [List.flatMap_cons, List.forall_mem_append] at inside
    obtain ⟨s', seen, rfl⟩ := first
    rw [List.map_cons, List.map_cons, ← ih later inside.2]
    refine congrArg (· :: subs) ?_
    rcases part.list_or_row with ⟨inner, mark, rfl⟩ | plain
    · rcases seen with session | same
      · exact (looks inner mark).looksAt.inSession (looks items key) free inside.1 session
      · rw [valueOn, looks inner mark, ← same.eq_map free inside.1]
        rfl
    · exact absurd plain here

section
variable {name : Aggregate → String} (spelled : ∀ a, Aggregate.ofName? (name a) = some a)
  (free : e.AssignmentFree) {items parts : List Value} (groups : ∀ g ∈ parts, ¬ IsPlain g)
  (same : (parts.flatMap rowsOf).Perm (leafRows items)) (key : Option String)
include spelled free groups same

/-- A list agrees with lists that have its plain rows between them. -/
theorem addsUp : env.AddsUp name e items key parts := by
  -- the values on the rows of the parts, together those on the rows of the list
  have valued (s : EvalState) : (parts.map fun g => (rowsOf g).map
      (env.valueOn (env.stateAfter s e (leafRows items)) e)).flatten.Perm (env.keyValues s e (leafRows items)) := by
    rw [keyValues_eq_map free, ← List.flatMap_def, ← List.map_flatMap]
    exact same.map _
  have inside : ∀ r ∈ parts.flatMap rowsOf, r ∈ leafRows items := fun r listed => same.subset listed
  have sums (items : List Value) (key : Option String) :=
    env.looksThrough_total spelled items key e
  have least (items : List Value) (key : Option String) : env.LooksThrough e (leafRows items)
      (env.evaluate (.list items key) (.call (name .min) [e])) (extremeOf Functions.least?) :=
    env.looksThrough_overRows spelled items key e (by simp) fun _ => rfl
  have greatest (items : List Value) (key : Option String) : env.LooksThrough e (leafRows items)
      (env.evaluate (.list items key) (.call (name .max) [e])) (extremeOf Functions.greatest?) :=
    env.looksThrough_overRows spelled items key e (by simp) fun _ => rfl
  refine ⟨fun s subs amounts given => ?_, fun s subs amounts given => ?_, fun s subs amounts given => ?_, ?_⟩
  · obtain ⟨-, totals, sum⟩ := amounts.totals (valued s)
    rw [given.eq_map sums free groups inside, valueOn, sums]
    exact ⟨_, _, rfl, total_amounts amounts, rfl, totals, sum⟩
  · rw [given.eq_map least free groups inside, valueOn, least]
    exact picks_least.extremeOf_parts amounts.exact (valued s)
  · rw [given.eq_map greatest free groups inside, valueOn, greatest]
    exact picks_greatest.extremeOf_parts amounts.exact (valued s)
  · refine ⟨parts.map fun g => (rowsOf g).length, fun s => ?_, ?_⟩
    · rw [env.valueOn_countDeep spelled, ← same.length_eq, List.length_flatMap]
    · refine List.forall₂_map_right_iff.2 (List.forall₂_same.2 fun part listed s => ?_)
      rcases part.list_or_row with ⟨inner, mark, rfl⟩ | plain
      · exact env.valueOn_countDeep spelled inner mark s
      · exact absurd plain (groups part listed)

end

/-! ## Groups of rows -/

/-- What grouping gives is a list of the same plain rows, whatever the keys do, and with a key it is one of
groups. -/
theorem group_rows (env : Evaluator) (keys : List Expr) {rows : List Value} (plain : ∀ r ∈ rows, IsPlain r)
    (s : EvalState) :
    ∃ items mark, ((env.group rows keys).run s).1 = .list items mark ∧ (leafRows items).Perm rows ∧
      (keys ≠ [] → ∀ g ∈ items, ¬ IsPlain g) := by
  induction keys generalizing rows s with
  | nil =>
    rw [group]
    refine ⟨rows, none, rfl, ?_, fun some_key => absurd rfl some_key⟩
    rw [leafRows_flat plain]
  | cons k rest ih =>
    have keyed := env.runsTo_keyValues s k rows
    have cells := cells_cellsOf (env.keyValues s k rows)
    have parts : classes (env.keyValues s k rows) rows = (cellsOf (env.keyValues s k rows)).map (rowsAt rows) :=
      classes_eq keyed.length_eq.symm
    obtain ⟨groups, s', runs⟩ : ∃ groups s', RunsTo (fun members => env.group members rest)
        (env.stateAfter s k rows) (classes (env.keyValues s k rows) rows) groups s' :=
      ⟨_, _, .of_mapM _ _ _⟩
    have each := runs.forall₂ (R := fun members g => ¬ IsPlain g ∧ (rowsOf g).Perm members)
      fun members listed s => by
        rw [parts] at listed
        obtain ⟨cell, -, rfl⟩ := List.mem_map.1 listed
        obtain ⟨items, mark, given, same, -⟩ := ih (isPlain_rowsAt plain) s
        rw [given]
        exact ⟨fun plain => plain items mark rfl, same⟩
    have lists : ∀ g ∈ groups, ¬ IsPlain g := fun g listed => by
      obtain ⟨members, -, list, -⟩ := exists_of_forall₂ each listed
      exact list
    have same : (leafRows (groups.map (markGroup k.render))).Perm rows := by
      rw [leafRows_markGroup _ lists]
      refine (flatMap_rowsOf_perm (each.imp fun _ _ here => here.2)).trans ?_
      rw [parts, ← List.flatMap_def]
      exact cells.rows_perm keyed.length_eq.symm
    rw [group, Eval.run_bind keyed.mapM, Eval.run_bind runs.mapM]
    refine ⟨_, _, rfl, same, fun _ => List.forall_mem_map.2 fun g listed => ?_⟩
    exact not_isPlain_markGroup (lists g listed)

/-- **Subtotals add up.** A list of lists agrees with its elements; and a list of rows that are no lists agrees
with the groups that it is put into by any keys. -/
theorem subtotals_add_up (env : Evaluator) {name : Aggregate → String}
    (spelled : ∀ a, Aggregate.ofName? (name a) = some a) {e : Expr} (free : e.AssignmentFree)
    (items : List Value) (key : Option String) :
    ((∀ g ∈ items, ¬ IsPlain g) → env.AddsUp name e items key items) ∧
      ((∀ r ∈ items, IsPlain r) → ∀ keys ≠ [], ∀ s, ∃ groups mark,
        env.valueOn s (.call (name .group) keys) (.list items key) = .list groups mark ∧
        env.AddsUp name e items key groups) := by
  refine ⟨fun groups => ?_, fun plain keys some_key s => ?_⟩
  · refine addsUp spelled free groups ?_ key
    rw [leafRows_lists groups]
  · obtain ⟨groups, mark, given, same, lists⟩ := env.group_rows keys plain s
    refine ⟨groups, mark, ?_, addsUp spelled free (lists some_key) ?_ key⟩
    · rw [valueOn, (env.evaluate_group_eq (spelled .group) some_key items key).1, leafRows_flat plain, given]
    · rw [← leafRows_lists (lists some_key), leafRows_flat plain]
      exact same

/-- Groups of numbers and null of which one is empty: their totals, after that of the list, and the groups of
the same rows by themselves. -/
theorem subtotals_add_up_self :
    let groups : List Value := [.list [.ofNat 1, .null] none, .list [] none, .list [.ofNat 2] (some "k")]
    let rows : List Value := [.ofNat 1, .null, .ofNat 2]
    let total : Expr := .call "total" [.key "self"]
    let after := ((orderEvaluator.evaluate (.list groups none) total).run (stateOf [])).2
    (∀ a : Aggregate, Aggregate.ofName? a.name = some a) ∧ (Expr.key "self").AssignmentFree ∧
      (∀ g ∈ groups, ¬ IsPlain g) ∧ (∀ r ∈ rows, IsPlain r) ∧
      Amounts (orderEvaluator.keyValues (stateOf []) (.key "self") (leafRows groups)) ∧
      (∃ n, orderEvaluator.valueOn (stateOf []) total (.list groups none) = .number n ∧ n.IsAmount 3) ∧
      Amounts (groups.map (orderEvaluator.valueOn after total)) ∧
      ((groups.map (orderEvaluator.valueOn after total)).map amount).sum = 3 ∧
      ∃ parts mark, orderEvaluator.valueOn (stateOf []) (.call "group" [.key "self"]) (.list rows none) =
        .list parts mark ∧ orderEvaluator.AddsUp Aggregate.name (.key "self") rows none parts := by
  intro groups rows total after
  have free : (Expr.key "self").AssignmentFree := by
    simp [Expr.AssignmentFree, Expr.Throughout, Expr.subterms, Expr.isAssignment]
  have lists : ∀ g ∈ groups, ¬ IsPlain g := by simp [groups, IsPlain]
  have plain : ∀ r ∈ rows, IsPlain r ∧ ∀ ref, r ≠ .object ref := by simp [rows, IsPlain, Value.ofNat]
  have flat : leafRows groups = rows := by simp [groups, rows, leafRows, groupRows, Value.ofNat]
  have amounts : Amounts (orderEvaluator.keyValues (stateOf []) (.key "self") (leafRows groups)) := by
    rw [flat, keyValues_self plain]
    refine ⟨?_, by decide⟩
    have one : (Value.ofNat 1).IsAmount := .inr ⟨_, rfl, rfl⟩
    have two : (Value.ofNat 2).IsAmount := .inr ⟨_, rfl, rfl⟩
    have none : Value.null.IsAmount := .inl rfl
    simp [rows, one, two, none]
  obtain ⟨whole, -⟩ := orderEvaluator.subtotals_add_up Aggregate.ofName?_name free groups none
  obtain ⟨-, grouped⟩ := orderEvaluator.subtotals_add_up Aggregate.ofName?_name free rows none
  obtain ⟨n, k, value, exact, three, totals, sum⟩ := (whole lists).total _ _ amounts
    (List.forall₂_map_right_iff.2 (List.forall₂_same.2 fun g _ => ⟨after, .inl (.inl (.refl after)), rfl⟩))
  rw [flat, keyValues_self plain] at three
  obtain rfl : 3 = k := three
  refine ⟨Aggregate.ofName?_name, free, lists, fun r listed => (plain r listed).1, amounts, ⟨n, value, exact⟩,
    totals, sum, ?_⟩
  exact grouped (fun r listed => (plain r listed).1) [.key "self"] (by simp) (stateOf [])

end Evaluator

end Rowlang
