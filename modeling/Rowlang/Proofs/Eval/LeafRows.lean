import Rowlang.Proofs.Eval.Grouping

/-!
# Aggregates and the plain rows

An aggregate sees a list through its plain rows, however they are grouped. Three kinds of calls see more: a
bare `count`, a bare `group`, and `join` with a delimiter, which is evaluated on the list itself.

* `countDeep_eq` : what is counted over all levels are the plain rows;
* `isPlain_head_leafRows`, `leafRows_leafRows` : the first plain row is no list, so that plain rows are their
  own plain rows;
* `Aggregate.SeesGroups`, `SeesRows` : the calls that see more, and those that do not;
* `Evaluator.aggregate_leafRows` : the latter are evaluated over the plain rows as over the list.
-/

namespace Rowlang
open Value

/-! ## Plain rows -/

theorem leafRows_plain {v : Value} (plain : IsPlain v) (rest : List Value) :
    leafRows (v :: rest) = v :: rest := by
  rw [leafRows]
  exact plain

theorem groupRows_plain {v : Value} (plain : IsPlain v) (rest : List Value) :
    groupRows (v :: rest) = v :: groupRows rest := by
  rw [groupRows]
  exact plain

theorem countDeep_plain {v : Value} (plain : IsPlain v) (rest : List Value) :
    countDeep (v :: rest) = rest.length + 1 := by
  rw [countDeep]
  exact plain

theorem countGroups_plain {v : Value} (plain : IsPlain v) (rest : List Value) :
    countGroups (v :: rest) = countGroups rest + 1 := by
  rw [countGroups]
  exact plain

mutual

/-- What is counted over all levels are the plain rows. -/
theorem countDeep_eq (items : List Value) : countDeep items = (leafRows items).length := by
  match items with
  | [] => rw [countDeep, leafRows, List.length_nil]
  | .list inner _ :: rest =>
    rw [countDeep, leafRows, List.length_append, countDeep_eq inner, countGroups_eq rest]
  | .null :: rest | .boolean _ :: rest | .number _ :: rest | .text _ :: rest | .date _ :: rest
  | .object _ :: rest =>
    rw [countDeep_plain (by simp [IsPlain]), leafRows_plain (by simp [IsPlain]), List.length_cons]

theorem countGroups_eq (items : List Value) : countGroups items = (groupRows items).length := by
  match items with
  | [] => rw [countGroups, groupRows, List.length_nil]
  | .list inner _ :: rest =>
    rw [countGroups, groupRows, List.length_append, countDeep_eq inner, countGroups_eq rest]
  | .null :: rest | .boolean _ :: rest | .number _ :: rest | .text _ :: rest | .date _ :: rest
  | .object _ :: rest =>
    rw [countGroups_plain (by simp [IsPlain]), groupRows_plain (by simp [IsPlain]), List.length_cons,
      countGroups_eq rest]

end

mutual

/-- The first plain row is no list, though later ones may be: the first item alone decides whether the items
are rows. -/
theorem isPlain_head_leafRows (items : List Value) : ∀ v ∈ (leafRows items).head?, IsPlain v := by
  match items with
  | [] =>
    rw [leafRows]
    rintro _ ⟨⟩
  | .list inner _ :: rest =>
    rw [leafRows, List.head?_append]
    intro v first
    rcases Option.or_eq_some_iff.1 first with here | ⟨-, behind⟩
    · exact isPlain_head_leafRows inner v here
    · exact isPlain_head_groupRows rest v behind
  | .null :: rest | .boolean _ :: rest | .number _ :: rest | .text _ :: rest | .date _ :: rest
  | .object _ :: rest =>
    rw [leafRows_plain (by simp [IsPlain])]
    rintro _ ⟨⟩
    simp [IsPlain]

theorem isPlain_head_groupRows (items : List Value) : ∀ v ∈ (groupRows items).head?, IsPlain v := by
  match items with
  | [] =>
    rw [groupRows]
    rintro _ ⟨⟩
  | .list inner _ :: rest =>
    rw [groupRows, List.head?_append]
    intro v first
    rcases Option.or_eq_some_iff.1 first with here | ⟨-, behind⟩
    · exact isPlain_head_leafRows inner v here
    · exact isPlain_head_groupRows rest v behind
  | .null :: rest | .boolean _ :: rest | .number _ :: rest | .text _ :: rest | .date _ :: rest
  | .object _ :: rest =>
    rw [groupRows_plain (by simp [IsPlain])]
    rintro _ ⟨⟩
    simp [IsPlain]

end

/-- Plain rows are their own plain rows. -/
@[simp] theorem leafRows_leafRows (items : List Value) : leafRows (leafRows items) = leafRows items := by
  have first := isPlain_head_leafRows items
  cases rows : leafRows items with
  | nil => rw [leafRows]
  | cons v rest =>
    rw [rows] at first
    exact leafRows_plain (first v rfl) rest

/-! ## Calls that see the plain rows only -/

/-- The aggregate depends on the groups of the list, too: without an expression `count` counts the items and
`group` gives the list, and a delimiter of `join` is evaluated on the list. -/
def Aggregate.SeesGroups : Aggregate → List Expr → List Expr → Prop
  | .count, [], _ => True
  | .group, [], [] => True
  | .join, _, _ :: _ :: _ => True
  | _, _, _ => False

/-- The path begins with an aggregate, as a key or as a call, that depends on the plain rows only. -/
inductive SeesRows : List Expr → Prop
  | key {name : String} {a : Aggregate} {rest : List Expr} (named : Aggregate.ofName? name = some a)
      (rows : ¬ a.SeesGroups rest []) : SeesRows (.key name :: rest)
  | call {name : String} {a : Aggregate} {args rest : List Expr} (named : Aggregate.ofName? name = some a)
      (rows : ¬ a.SeesGroups (args.take 1) args) : SeesRows (.call name args :: rest)

namespace Evaluator

variable {env : Evaluator}

theorem applyAggregate_leafRows {a : Aggregate} {steps args : List Expr} (rows : ¬ a.SeesGroups steps args)
    (items : List Value) (key mark : Option String) :
    env.applyAggregate a items key steps args = env.applyAggregate a (leafRows items) mark steps args := by
  rw [applyAggregate.eq_def, applyAggregate.eq_def]
  simp only [leafRows_leafRows]
  cases a with
  | count =>
    cases steps with
    | nil => exact absurd trivial rows
    | cons => rfl
  | countDeep => cases steps <;> rfl
  | group =>
    cases args with
    | nil =>
      cases steps with
      | nil => exact absurd trivial rows
      | cons => rfl
    | cons => rfl
  | join =>
    -- without a second argument the list itself is not looked at
    rcases args with _ | ⟨_, _ | ⟨_, _⟩⟩
    · rfl
    · rfl
    · exact absurd trivial rows
  | _ => simp

/-- **Aggregates see the plain rows** of a list, however nested and mixed. Over all levels as many rows are
counted as there are plain rows; the first plain row is no list, and plain rows are their own plain rows. So a
path that begins with an aggregate gives the same value and ends in the same state over the list as over the
list of its plain rows, unless the aggregate is a bare `count`, a bare `group`, or `join` with a delimiter. -/
theorem aggregate_leafRows (env : Evaluator) (items : List Value) (key mark : Option String) :
    countDeep items = (leafRows items).length ∧ (∀ v ∈ (leafRows items).head?, IsPlain v) ∧
      leafRows (leafRows items) = leafRows items ∧
      (∀ steps, SeesRows steps → env.aggregate items key steps = env.aggregate (leafRows items) mark steps) ∧
      ∀ e : Expr, e.isPath = true → SeesRows e.steps →
        env.evaluate (.list items key) e = env.evaluate (.list (leafRows items) mark) e := by
  have same (steps : List Expr) (sees : SeesRows steps) :
      env.aggregate items key steps = env.aggregate (leafRows items) mark steps := by
    cases sees with
    | key named rows =>
      rw [aggregate_named named, aggregate_named named]
      exact applyAggregate_leafRows rows items key mark
    | call named rows =>
      rw [aggregate_call named, aggregate_call named, applyAggregate_leafRows rows items key mark]
  refine ⟨countDeep_eq items, isPlain_head_leafRows items, leafRows_leafRows items, same, ?_⟩
  intro e path sees
  rw [evaluate_list path, evaluate_list path]
  exact same e.steps sees

/-- An empty group, a group whose second row is a list, and a row beside the groups. -/
theorem aggregate_leafRows_mixed :
    let items : List Value := [.list [] none, .list [.ofNat 1, .list [.ofNat 2] none] (some "k"), .ofNat 3]
    let rows : List Value := [.ofNat 1, .list [.ofNat 2] none, .ofNat 3]
    let total : Expr := .call "total" [.key "self"]
    leafRows items = rows ∧ countDeep items = 3 ∧ total.isPath = true ∧ SeesRows total.steps ∧
      orderEvaluator.evaluate (.list items none) total = orderEvaluator.evaluate (.list rows none) total := by
  intro items rows total
  have flat : leafRows items = rows := by simp [items, rows, leafRows, groupRows, Value.ofNat]
  have named : Aggregate.ofName? "total" = some .total := by decide +kernel
  have sees : SeesRows total.steps := .call named (by simp [Aggregate.SeesGroups])
  obtain ⟨counted, -, -, -, same⟩ := aggregate_leafRows orderEvaluator items none none
  rw [flat] at counted same
  exact ⟨flat, counted, rfl, sees, same total rfl sees⟩

end Evaluator

end Rowlang
