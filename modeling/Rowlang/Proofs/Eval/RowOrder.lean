import Rowlang.Proofs.Eval.Grouping

/-!
# The order of the rows

Where values of one type name resolve alike, aggregates over the values of an expression on rows do not
depend on the order of the rows: the number of classes of the values, the classes, and the least and the
greatest value.

* `Evaluator.valueOn` : the value of an expression on a row;
* `Evaluator.Summary` : what the aggregates give on some rows;
* `Evaluator.summarizes` : it is the number of classes of values, the classes, and the extremes;
* `Evaluator.evaluate_rows_perm` : on permuted rows they give the same, up to the order of the groups and
  of their rows, and equivalence;
* `Evaluator.countUnique_unlike` : where values of one type name resolve differently, they may not.
-/

namespace Rowlang
open Value

namespace Evaluator

variable {env : Evaluator} {known : ObjectRef → Prop} {s : EvalState} {e : Expr} {rows rows' : List Value}

/-! ## Evaluation on rows -/

/-- The value of an expression on a row. -/
def valueOn (env : Evaluator) (s : EvalState) (e : Expr) (row : Value) : Value :=
  ((env.evaluate row e).run s).1

theorem Gives.mapM {α β : Type} {f : α → Eval β} {g : α → β} {l : List α}
    (each : ∀ a ∈ l, env.Gives known s (f a) (g a)) : env.Gives known s (l.mapM f) (l.map g) := by
  induction l with
  | nil =>
    rw [List.mapM_nil]
    exact .pure []
  | cons a rest ih =>
    obtain ⟨first, later⟩ := List.forall_mem_cons.1 each
    rw [List.mapM_cons]
    exact first.bind ((ih later).bind (.pure _))

/-- An aggregate that does not group or join runs a loop over the plain rows, unless it counts without a step. -/
theorem applyAggregate_overRows {a : Aggregate} (plain : a ≠ .group ∧ a ≠ .join) {steps : List Expr}
    (counted : a = .count ∨ a = .countDeep → steps ≠ []) (items : List Value) (key : Option String)
    (args : List Expr) : env.applyAggregate a items key steps args =
      a.overRows (leafRows items) fun row => env.evaluateSteps row steps := by
  rw [applyAggregate.eq_def]
  cases steps with
  | nil => cases a <;> simp at plain counted ⊢
  | cons => cases a <;> first | rfl | simp at plain

theorem aggregate_overRows {a : Aggregate} {name : String} (named : Aggregate.ofName? name = some a)
    (plain : a ≠ .group ∧ a ≠ .join) (items : List Value) (key : Option String) (e : Expr)
    (rest : List Expr) :
    env.aggregate items key (.call name [e] :: rest) =
      (a.overRows (leafRows items) fun row => env.evaluate row e) >>= fun v => env.evaluateSteps v rest := by
  have each : (fun row => env.evaluateSteps row [e]) = fun row => env.evaluate row e := by
    funext row
    rw [evaluateSteps]
  have applied : env.applyAggregate a items key [e] [e] = _ :=
    applyAggregate_overRows plain (by simp) items key [e]
  rw [aggregate_call named, List.take_succ_cons, List.take_zero, applied, each]

theorem evaluate_overRows {a : Aggregate} {name : String} (named : Aggregate.ofName? name = some a)
    (plain : a ≠ .group ∧ a ≠ .join) (items : List Value) (key : Option String) (e : Expr) :
    env.evaluate (.list items key) (.call name [e]) =
      a.overRows (leafRows items) fun row => env.evaluate row e := by
  rw [evaluate_list rfl]
  show env.aggregate items key [.call name [e]] = _
  rw [aggregate_overRows named plain]
  simp only [evaluateSteps, bind_pure]

section
variable (uniform : env.Uniform known s) (free : e.AssignmentFree) (literals : e.LiteralsWithin known)
include uniform free literals

theorem gives_valueOn {row : Value} (within : row.Within known) :
    env.Gives known s (env.evaluate row e) (env.valueOn s e row) := by
  obtain ⟨v, -, gives⟩ := exists_value uniform free literals within
  have same : env.valueOn s e row = v := (gives s (.refl s) uniform).1
  rwa [same]

theorem gives_values (within : ∀ r ∈ rows, r.Within known) :
    env.Gives known s (rows.mapM fun row => env.evaluate row e) (rows.map (env.valueOn s e)) :=
  .mapM fun r listed => gives_valueOn uniform free literals (within r listed)

theorem gives_group (within : ∀ r ∈ rows, r.Within known) :
    env.Gives known s (env.group rows [e])
      (.list ((classes (rows.map (env.valueOn s e)) rows).map fun g => .list g (some e.render))
        (some e.render)) := by
  rw [group]
  refine (gives_values uniform free literals within).bind ?_
  refine (Gives.mapM (g := Value.ofList) fun members _ => ?_).bind ?_
  · rw [group]
    exact .pure _
  · rw [List.map_map]
    exact .pure _

end

/-! ## What the aggregates give -/

/-- What aggregates over the values of an expression on some rows give: the number of classes of values, the
groups of rows, and the least and the greatest value. -/
structure Summary where
  count : Nat
  groups : List (List Value)
  least : Value
  greatest : Value

/-- From every uniform state that agrees with `s` the aggregates give what the summary says. -/
structure Summarizes (env : Evaluator) (known : ObjectRef → Prop) (s : EvalState) (e : Expr)
    (rows : List Value) (x : Summary) : Prop where
  count : ∀ name key, Aggregate.ofName? name = some .countUnique →
    env.Gives known s (env.evaluate (.list rows key) (.call name [e])) (.ofNat x.count)
  groups : ∀ name key, Aggregate.ofName? name = some .group →
    env.Gives known s (env.evaluate (.list rows key) (.call name [e]))
      (.list (x.groups.map fun g => .list g (some e.render)) (some e.render))
  least : ∀ name key, Aggregate.ofName? name = some .min →
    env.Gives known s (env.evaluate (.list rows key) (.call name [e])) x.least
  greatest : ∀ name key, Aggregate.ofName? name = some .max →
    env.Gives known s (env.evaluate (.list rows key) (.call name [e])) x.greatest

/-- The rows whose values are equivalent to the given one, in order. -/
def rowsLike (value : Value → Value) (rows : List Value) (v : Value) : List Value :=
  rows.filter fun r => v.isEquivalent (value r)

/-- The summary of rows with some values, given one value of each class: a group for each class. -/
def summaryOf (value : Value → Value) (rows reps : List Value) : Summary where
  count := reps.length
  groups := reps.map (rowsLike value rows)
  least := (Functions.least? ((rows.map value).filter (!·.isNull))).getD .null
  greatest := (Functions.greatest? ((rows.map value).filter (!·.isNull))).getD .null

/-- Two summaries are the same, up to the order of the groups and of their rows, and equivalence. -/
structure Summary.Alike (x y : Summary) : Prop where
  count : x.count = y.count
  groups : ∃ arranged, arranged.Perm y.groups ∧ List.Forall₂ List.Perm x.groups arranged
  least : x.least.compare y.least = .eq
  greatest : x.greatest.compare y.greatest = .eq

/-- The classes of rows are those of the values, if these are exact. -/
theorem classes_rowsLike {value : Value → Value} (exact : ∀ v ∈ rows.map value, v.Exact) :
    ∃ reps, Transversal reps (rows.map value) ∧
      classes (rows.map value) rows = reps.map (rowsLike value rows) := by
  have parts := cells_cellsOf (rows.map value)
  refine ⟨(cellsOf (rows.map value)).map (firstOf (rows.map value)), parts.transversal, ?_⟩
  rw [classes_eq (by rw [List.length_map]), List.map_map]
  exact List.map_congr_left fun c hc => parts.rowsAt_eq_filter exact rfl hc

/-- What the aggregates give is the summary of the rows with the values of the expression. -/
theorem summarizes (uniform : env.Uniform known s) (free : e.AssignmentFree)
    (literals : e.LiteralsWithin known) (within : ∀ r ∈ rows, r.Within known)
    (plain : ∀ r ∈ rows, IsPlain r) (exact : ∀ r ∈ rows, (env.valueOn s e r).Exact) :
    ∃ reps, Transversal reps (rows.map (env.valueOn s e)) ∧
      env.Summarizes known s e rows (summaryOf (env.valueOn s e) rows reps) := by
  have exactValues : ∀ v ∈ rows.map (env.valueOn s e), v.Exact := List.forall_mem_map.2 exact
  obtain ⟨reps, transversal, same⟩ := classes_rowsLike exactValues
  have values := gives_values uniform free literals within
  have flat : leafRows rows = rows := leafRows_flat plain
  refine ⟨reps, transversal, ?_, ?_, ?_, ?_⟩ <;> intro name key named
  · rw [evaluate_overRows named (by simp), flat]
    refine values.bind ?_
    rw [distinctCount_eq exactValues transversal]
    exact .pure _
  · rw [(evaluate_group_eq named (by simp) rows key).1, flat]
    have gives := gives_group uniform free literals within
    rwa [same] at gives
  · rw [evaluate_overRows named (by simp), flat]
    exact values.bind (.pure _)
  · rw [evaluate_overRows named (by simp), flat]
    exact values.bind (.pure _)

/-! ## Permuted rows -/

/-- The rows whose values are equivalent to a value are, in permuted rows, those whose values are equivalent to
any equivalent value. -/
theorem rowsLike_perm {value : Value → Value} (exact : ∀ v ∈ rows.map value, v.Exact) (same : rows.Perm rows')
    {v w : Value} (hv : v.Exact) (hw : w.Exact) (equal : v.compare w = .eq) :
    (rowsLike value rows v).Perm (rowsLike value rows' w) := by
  have alike : rowsLike value rows v = rowsLike value rows w := by
    refine List.filter_congr fun r listed => ?_
    rw [Bool.eq_iff_iff, isEquivalent_iff, isEquivalent_iff,
      compare_congr_left hv hw (exact _ (List.mem_map_of_mem listed)) equal]
  rw [alike]
  exact same.filter _

/-- The summaries of permuted rows are the same, up to the order of the groups and of their rows, and
equivalence. -/
theorem summaryOf_perm {value : Value → Value} {reps reps' : List Value}
    (exact : ∀ v ∈ rows.map value, v.Exact) (same : rows.Perm rows')
    (h : Transversal reps (rows.map value)) (h' : Transversal reps' (rows'.map value)) :
    (summaryOf value rows reps).Alike (summaryOf value rows' reps') := by
  have permuted : (rows.map value).Perm (rows'.map value) := same.map value
  have h'' : Transversal reps' (rows.map value) := h'.perm permuted.symm
  have somes : ∀ v ∈ (rows.map value).filter (!·.isNull), v.Exact := fun v listed =>
    exact v (List.mem_of_mem_filter listed)
  refine ⟨h.length_eq exact h'', ?_, least_perm somes (permuted.filter _),
    greatest_perm somes (permuted.filter _)⟩
  obtain ⟨arranged, order, partners⟩ := h.matching exact h''
  refine ⟨arranged.map (rowsLike value rows'), order.map _, ?_⟩
  show List.Forall₂ List.Perm (reps.map (rowsLike value rows)) _
  rw [List.forall₂_map_left_iff, List.forall₂_map_right_iff]
  exact partners.imp fun v w ⟨hv, hw, equal⟩ => rowsLike_perm exact same (exact v hv) (exact w hw) equal

/-- **The order of the rows** does not matter: on permuted rows that are no lists, aggregates over the values
of an expression without assignments give the same, up to the order of the groups and of their rows, and
equivalence, if these values are exact and values of one type name resolve alike. What is counted is the
number of classes of the values, and there is a group for each class. -/
theorem evaluate_rows_perm (env : Evaluator) {known : ObjectRef → Prop} {s : EvalState}
    (uniform : env.Uniform known s) {e : Expr} (free : e.AssignmentFree) (literals : e.LiteralsWithin known)
    {rows rows' : List Value} (same : rows.Perm rows') (within : ∀ r ∈ rows, r.Within known)
    (plain : ∀ r ∈ rows, IsPlain r) (exact : ∀ r ∈ rows, (env.valueOn s e r).Exact) :
    ∃ reps reps', Transversal reps (rows.map (env.valueOn s e)) ∧
      Transversal reps' (rows'.map (env.valueOn s e)) ∧
      env.Summarizes known s e rows (summaryOf (env.valueOn s e) rows reps) ∧
      env.Summarizes known s e rows' (summaryOf (env.valueOn s e) rows' reps') ∧
      (summaryOf (env.valueOn s e) rows reps).Alike (summaryOf (env.valueOn s e) rows' reps') := by
  obtain ⟨reps, transversal, summarizes₁⟩ := summarizes uniform free literals within plain exact
  obtain ⟨reps', transversal', summarizes₂⟩ := summarizes uniform free literals
    (fun r (listed : r ∈ rows') => within r (same.symm.subset listed))
    (fun r listed => plain r (same.symm.subset listed)) fun r listed => exact r (same.symm.subset listed)
  exact ⟨reps, reps', transversal, transversal', summarizes₁, summarizes₂,
    summaryOf_perm (List.forall_mem_map.2 exact) same transversal transversal'⟩

/-- A row that is an item, one that is a number and one that is a text, in two orders: the first has an
attribute, the others show the variable of the same name. -/
theorem evaluate_rows_perm_order :
    let rows : List Value := [.object ⟨1, "Item"⟩, .ofNat 2, .text "b"]
    let value := orderEvaluator.valueOn (stateOf [("a", .ofNat 2)]) (.key "a")
    let summarizes := orderEvaluator.Summarizes (· = ⟨1, "Item"⟩) (stateOf [("a", .ofNat 2)]) (.key "a")
    ∃ reps reps', Transversal reps (rows.map value) ∧ Transversal reps' (rows.reverse.map value) ∧
      summarizes rows (summaryOf value rows reps) ∧
      summarizes rows.reverse (summaryOf value rows.reverse reps') ∧
      (summaryOf value rows reps).Alike (summaryOf value rows.reverse reps') := by
  intro rows value summarizes
  have plain : ∀ r ∈ rows, IsPlain r := by simp [rows, IsPlain, Value.ofNat]
  have found {r : Value} (row : IsPlain r) : value r =
      ((orderEvaluator.lookupKey r "a" true).run (stateOf [("a", .ofNat 2)])).1 := by
    show ((orderEvaluator.evaluate r (.key "a")).run (stateOf [("a", .ofNat 2)])).1 = _
    rw [evaluate_row row, evaluateRow]
  have exact : ∀ r ∈ rows, (value r).Exact := by
    intro r listed
    rw [found (plain r listed)]
    simp only [rows, List.mem_cons, List.not_mem_nil, or_false] at listed
    rcases listed with rfl | rfl | rfl <;> exact List.forall_mem_singleton.2 ⟨_, rfl⟩
  have free : (Expr.key "a").AssignmentFree := by
    simp [Expr.AssignmentFree, Expr.Throughout, Expr.subterms, Expr.isAssignment]
  have literals : (Expr.key "a").LiteralsWithin (· = ⟨1, "Item"⟩) := by
    simp [Expr.LiteralsWithin, Expr.Throughout, Expr.subterms]
  have within : ∀ r ∈ rows, r.Within (· = ⟨1, "Item"⟩) := by
    simp [rows, within_object, Value.ofNat, within_number, within_text]
  exact evaluate_rows_perm orderEvaluator uniform_order free literals (List.reverse_perm rows).symm within plain exact

/-! ## Types whose objects differ -/

/-- Two objects of one type, of which only the first has the method `m`, whose value is 1. -/
def unlikeEvaluator : Evaluator where
  store := ⟨#[{ Record.ofFields .empty with methods := [.values "m" 0 fun _ => .ok (.ofNat 1)] },
    .ofFields .empty]⟩
  delimiter := ", "

theorem run_evaluate_call (ref : ObjectRef) (name : String) :
    (env.evaluate (.object ref) (.call name [])).run s =
      (match (s.functions.resolve env.store (.object ref) name 0).1 with
        | none => .null
        | some r => valueOrNull (env.invoke r (.object ref) name []),
      { s with functions := (s.functions.resolve env.store (.object ref) name 0).2 }) := by
  have row : ∀ items key, Value.object ref ≠ .list items key := by rintro _ _ ⟨⟩
  have resolved := env.run_resolve (.object ref) name 0 s
  rw [evaluate_row row, evaluateRow, call]
  refine (Eval.run_bind resolved).trans ?_
  cases found : (s.functions.resolve env.store (.object ref) name 0).1 with
  | none => rfl
  | some r =>
    have nothing : ∀ s, (env.evaluateAll (.object ref) []).run s = ([], s) := fun s => by
      rw [evaluateAll]
      rfl
    dsimp only
    cases env.rawMethod? r (.object ref) name <;> exact Eval.run_bind (nothing _)

theorem run_countUnique {name : String} (named : Aggregate.ofName? name = some .countUnique)
    (items : List Value) (key : Option String) (e : Expr) (s : EvalState) :
    ((env.evaluate (.list items key) (.call name [e])).run s).1 =
      .ofNat (distinctCount (env.keyValues s e (leafRows items))) := by
  rw [evaluate_overRows named (by simp)]
  rfl

theorem keyValues_pair {a b x y : Value} {e : Expr} {s' s'' : EvalState}
    (first : (env.evaluate a e).run s = (x, s')) (second : (env.evaluate b e).run s' = (y, s'')) :
    env.keyValues s e [a, b] = [x, y] := by
  rw [keyValues, List.mapM_cons, Eval.run_bind first, List.mapM_cons, bind_assoc, Eval.run_bind second,
    List.mapM_nil]
  rfl

/-- What the type has remembered depends on which of its objects came first. -/
theorem keyValues_unlike :
    let rows : List Value := [.object ⟨0, "T"⟩, .object ⟨1, "T"⟩]
    let values := unlikeEvaluator.keyValues (stateOf []) (.call "m" [])
    values rows = [.ofNat 1, .null] ∧ values rows.reverse = [.null, .null] := by
  intro rows values
  refine ⟨keyValues_pair (run_evaluate_call ..) (run_evaluate_call ..), ?_⟩
  have none : ((stateOf []).functions.resolve unlikeEvaluator.store (.object ⟨1, "T"⟩) "m" 0).1 = none :=
    Option.isNone_iff_eq_none.1 (by decide +kernel)
  refine (keyValues_pair (run_evaluate_call ..) (run_evaluate_call ..)).trans ?_
  rw [none]
  rfl

/-- If the objects of a type do not have the same methods, the number of classes depends on which of them comes
first. -/
theorem countUnique_unlike :
    let rows : List Value := [.object ⟨0, "T"⟩, .object ⟨1, "T"⟩]
    let e : Expr := .call "m" []
    let values := unlikeEvaluator.keyValues (stateOf []) e
    let count (rows : List Value) :=
      ((unlikeEvaluator.evaluate (.list rows none) (.call "countUnique" [e])).run (stateOf [])).1
    (∀ r ∈ rows, IsPlain r) ∧ e.AssignmentFree ∧ (∀ v ∈ values rows ++ values rows.reverse, v.Exact) ∧
      rows.Perm rows.reverse ∧ count rows = .ofNat 2 ∧ count rows.reverse = .ofNat 1 := by
  intro rows e values count
  obtain ⟨found, missed⟩ := keyValues_unlike
  have exact : ∀ v ∈ values rows ++ values rows.reverse, v.Exact := by
    have one : (Value.ofNat 1).Exact := List.forall_mem_singleton.2 ⟨_, rfl⟩
    have null : Value.null.Exact := List.forall_mem_nil _
    rw [show values rows = _ from found, show values rows.reverse = _ from missed]
    simp [one, null]
  have plain : ∀ r ∈ rows, IsPlain r := by simp [rows, IsPlain]
  have free : e.AssignmentFree := by
    simp [e, Expr.AssignmentFree, Expr.Throughout, Expr.subterms, Expr.subtermsOf, Expr.isAssignment]
  have named : Aggregate.ofName? "countUnique" = some .countUnique := by decide +kernel
  obtain ⟨first, second⟩ := List.forall_mem_append.1 exact
  have counted {rows reps : List Value} (plain : ∀ r ∈ rows, IsPlain r) (exact : ∀ v ∈ values rows, v.Exact)
      (choice : Transversal reps (values rows)) : count rows = .ofNat reps.length := by
    refine (run_countUnique named rows none e (stateOf [])).trans ?_
    rw [leafRows_flat plain]
    exact congrArg Value.ofNat (distinctCount_eq exact choice)
  refine ⟨plain, free, exact, (List.reverse_perm rows).symm, ?_, ?_⟩
  · have two : Transversal [.ofNat 1, .null] (values rows) := by
      rw [show values rows = _ from found]
      refine ⟨fun r listed => listed, ?_, fun v listed => ⟨v, listed, compare_self v⟩⟩
      exact List.pairwise_pair.2 (by decide +kernel)
    exact counted plain first two
  · have one : Transversal [.null] (values rows.reverse) := by
      rw [show values rows.reverse = _ from missed]
      refine ⟨by simp, List.pairwise_singleton _ _, fun v listed => ⟨.null, List.mem_singleton_self _, ?_⟩⟩
      obtain rfl : v = .null := by simpa using listed
      exact compare_self _
    exact counted (fun r listed => plain r (List.mem_reverse.1 listed)) second one

end Evaluator

end Rowlang
