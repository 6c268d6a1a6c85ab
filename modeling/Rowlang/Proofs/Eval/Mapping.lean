import Rowlang.Proofs.Eval.Subtotals

/-!
# Mapping before an aggregate

Some aggregates depend on nothing but the values on the rows. They give the same over an expression as over the
list of its values, in whichever order the two are evaluated in a session.

* `Aggregate.summaries`, `Aggregate.summary` : these aggregates, and what they make of the values;
* `Evaluator.looksAt_summary` : that is what they give over an expression, and over the rows themselves;
* `Evaluator.looksThrough_listOf` : a list of values that are no lists has these values as its rows;
* `Evaluator.listOf_first` : so it makes no difference to map first.
-/

namespace Rowlang
open Value

/-! ## Summaries -/

namespace Aggregate

/-- The aggregates that depend on the values on the rows alone. -/
def summaries : List Aggregate :=
  [.total, .totalStrict, .average, .averageStrict, .min, .max, .countUnique, .join]

/-- What such an aggregate makes of the values, `join` with the text that it puts between them. -/
def summary (delimiter : String) (values : List Value) : Aggregate → Value
  | .total => .number (Rowlang.total values)
  | .totalStrict => ((strictTotal .zero values).map .number).getD .null
  | .average => Evaluator.meanOf values (Rowlang.total values)
  | .averageStrict => ((strictTotal .zero values).map (Evaluator.meanOf values)).getD .null
  | .min => extremeOf Functions.least? values
  | .max => extremeOf Functions.greatest? values
  | .countUnique => .ofNat (distinctCount values)
  | .join => .text (String.intercalate delimiter ((values.filter (!·.isNull)).map Value.render))
  | _ => .null

end Aggregate

/-! ## Loops over rows -/

namespace LooksAt

variable {α : Type} {f : Value → Eval Value} {rows : List Value} {m : Eval α} {out out' : List Value → α}

/-- What is made of as many values as there are rows is all that matters. -/
theorem congr (h : LooksAt f rows m out) (same : ∀ all, all.length = rows.length → out all = out' all) :
    LooksAt f rows m out' := by
  intro s
  obtain ⟨seen, values, first, runs, given⟩ := h s
  exact ⟨seen, values, first, runs, fun all begins length => (given all begins length).trans (same all length)⟩

theorem collect (f : Value → Eval Value) (rows : List Value) (g : List Value → α) :
    LooksAt f rows (rows.mapM f >>= fun values => pure (g values)) g := by
  induction rows generalizing g with
  | nil =>
    refine .stop fun all none => ?_
    rw [List.length_eq_zero_iff.1 none]
    rfl
  | cons row rest ih =>
    rw [List.mapM_cons, bind_assoc]
    refine .cons fun v => ?_
    simp only [bind_assoc, pure_bind]
    exact ih fun values => g (v :: values)

/-- A loop over rows that are their own values changes nothing. -/
theorem run_pure (h : LooksAt pure rows m out) (s : EvalState) : m.run s = (out rows, s) := by
  have own (s : EvalState) (rows : List Value) : RunsTo pure s rows rows s := by
    induction rows with
    | nil => exact .nil s
    | cons row rest ih => exact .cons rfl ih
  have unchanged {s s' : EvalState} {seen values : List Value} (runs : RunsTo pure s seen values s') :
      s' = s := by
    induction runs with
    | nil => rfl
    | cons first _ ih =>
      cases first
      exact ih
  obtain ⟨seen, values, -, runs, -⟩ := h s
  exact Prod.ext (h.value (own s rows)) (unchanged runs)

end LooksAt

namespace Evaluator

variable (env : Evaluator) {a : Aggregate}

theorem meanOf_congr {rows rows' : List Value} (same : rows.length = rows'.length) (sum : Number) :
    meanOf rows sum = meanOf rows' sum := by
  simp only [meanOf, List.isEmpty_iff_length_eq_zero, same]

/-! ## Summaries over rows -/

/-- What the loops of these aggregates make of the values on the rows. -/
theorem looksAt_overRows (f : Value → Eval Value) (rows : List Value) (delimiter : String)
    (listed : a ∈ Aggregate.summaries) (loops : a ≠ .join) :
    LooksAt f rows (a.overRows rows f) (a.summary delimiter) := by
  have summed := listed
  simp only [Aggregate.summaries, List.mem_cons, List.not_mem_nil, or_false] at summed
  rcases summed with rfl | rfl | rfl | rfl | rfl | rfl | rfl | rfl
  · exact .collect f rows fun values => Value.number (total values)
  · exact looksAt_strictTotal f rows
  · suffices means : LooksAt f rows _ fun values => meanOf rows (total values) from
      means.congr fun all same => meanOf_congr same.symm _
    unfold Aggregate.overRows meanOf
    dsimp only
    split
    · exact .stop fun _ _ => rfl
    · exact .collect f rows fun values => Value.number ((total values).div (.ofNat rows.length))
  · refine (looksAt_strictMean f rows).congr fun all same => ?_
    simp only [Aggregate.summary, funext (meanOf_congr same)]
  · exact .collect f rows (extremeOf Functions.least?)
  · exact .collect f rows (extremeOf Functions.greatest?)
  · exact .collect f rows fun values => Value.ofNat (distinctCount values)
  · exact absurd rfl loops

/-- Over rows with some values, each of these aggregates gives the summary of the values. -/
theorem looksAt_summary (listed : a ∈ Aggregate.summaries) (items : List Value) (key : Option String)
    (steps args : List Expr) (bare : args.length ≤ 1) :
    LooksAt (fun row => env.evaluateSteps row steps) (leafRows items)
      (env.applyAggregate a items key steps args) (a.summary env.delimiter) := by
  by_cases join : a = .join
  · subst join
    rw [applyAggregate.eq_def]
    match args with
    | [] | [_] =>
      exact .collect _ _ fun values => Value.text
        (String.intercalate env.delimiter ((values.filter (!·.isNull)).map Value.render))
  · have valued : ∀ a ∈ Aggregate.summaries, a ≠ .group ∧ ¬ (a = .count ∨ a = .countDeep) := by decide
    obtain ⟨group, valued⟩ := valued a listed
    rw [applyAggregate_overRows ⟨group, join⟩ fun counted => absurd counted valued]
    exact looksAt_overRows _ _ env.delimiter listed join

section
variable {name : Aggregate → String} (spelled : ∀ a, Aggregate.ofName? (name a) = some a)
  (listed : a ∈ Aggregate.summaries) (items : List Value) (key : Option String)
include spelled listed

theorem looksAt_call (e : Expr) : LooksAt (fun row => env.evaluate row e) (leafRows items)
    (env.evaluate (.list items key) (.call (name a) [e])) (a.summary env.delimiter) := by
  rw [evaluate_list rfl]
  show LooksAt _ _ (env.aggregate items key [.call (name a) [e]]) _
  rw [aggregate_call (spelled a), List.take_succ_cons, List.take_zero]
  simp only [evaluateSteps, bind_pure]
  have values := env.looksAt_summary listed items key [e] [e] (by simp)
  simpa only [evaluateSteps] using values

theorem evaluateSteps_bare : env.evaluateSteps (.list items key) [.call (name a) []] =
    pure (a.summary env.delimiter (leafRows items)) := by
  rw [evaluateSteps, evaluate_list rfl]
  show env.aggregate items key [.call (name a) []] = _
  rw [aggregate_call (spelled a), List.take_nil]
  simp only [evaluateSteps, bind_pure]
  have rows := env.looksAt_summary listed items key [] [] (by simp)
  simp only [evaluateSteps] at rows
  exact funext rows.run_pure

/-- Behind `listOf`, they look at the rows of the list of the values. -/
theorem looksThrough_listOf (e : Expr) : env.LooksThrough e (leafRows items)
    (env.evaluate (.list items key) (.chain [.call (name .listOf) [e], .call (name a) []]))
    fun values => a.summary env.delimiter (leafRows values) := by
  intro s
  rw [evaluate_list rfl, Expr.steps, aggregate_overRows (spelled .listOf) (by simp)]
  unfold Aggregate.overRows
  simp only [bind_assoc, pure_bind, Value.ofList, env.evaluateSteps_bare spelled listed]
  rfl

end

/-- **Mapping first changes nothing.** Over an expression without assignments that has no list as its value
on a plain row, the aggregates that depend on the values alone give what they give over the list of its values,
evaluated from one state or at two times of a session. `join` puts the delimiter of the evaluator between the
values in both. -/
theorem listOf_first (env : Evaluator) {name : Aggregate → String}
    (spelled : ∀ a, Aggregate.ofName? (name a) = some a) {e : Expr} (free : e.AssignmentFree) {a : Aggregate}
    (listed : a ∈ Aggregate.summaries) (items : List Value) (key : Option String) (s s' : EvalState)
    (plain : ∀ v ∈ env.keyValues s e (leafRows items), IsPlain v) :
    let mapped : Expr := .chain [.call (name .listOf) [e], .call (name a) []]
    let direct : Expr := .call (name a) [e]
    Together (env.evaluate (.list items key) mapped) s (env.evaluate (.list items key) direct) s' →
      env.valueOn s' direct (.list items key) = env.valueOn s mapped (.list items key) := by
  intro mapped direct together
  have first := env.looksThrough_listOf spelled listed items key e
  have values := (env.looksAt_call spelled listed items key e).together first free together
  rw [valueOn, valueOn, values, first s]
  dsimp only
  rw [leafRows_flat plain]

/-- A group with a number and null, a boolean, and a text that reads as a number: each aggregate over the rows,
after it has been evaluated on the list of the rows. -/
theorem listOf_first_mixed :
    let items : List Value := [.list [.ofNat 2, .null] (some "k"), .boolean true, .text "7"]
    let value (s : EvalState) (e : Expr) : Value := orderEvaluator.valueOn s e (.list items none)
    let mapped (a : Aggregate) : Expr := .chain [.call "listOf" [.key "self"], .call a.name []]
    let after (a : Aggregate) :=
      ((orderEvaluator.evaluate (.list items none) (mapped a)).run (stateOf [])).2
    (∀ a : Aggregate, Aggregate.ofName? a.name = some a) ∧ (Expr.key "self").AssignmentFree ∧
      (∀ v ∈ orderEvaluator.keyValues (stateOf []) (.key "self") (leafRows items), IsPlain v) ∧
      ∀ a ∈ Aggregate.summaries,
        value (after a) (.call a.name [.key "self"]) = value (stateOf []) (mapped a) := by
  intro items value mapped after
  have free : (Expr.key "self").AssignmentFree := by
    simp [Expr.AssignmentFree, Expr.Throughout, Expr.subterms, Expr.isAssignment]
  have flat : leafRows items = [.ofNat 2, .null, .boolean true, .text "7"] := by
    simp [items, leafRows, groupRows, Value.ofNat]
  have rows : ∀ r ∈ leafRows items, IsPlain r ∧ ∀ ref, r ≠ .object ref := by
    simp [flat, IsPlain, Value.ofNat]
  have plain : ∀ v ∈ orderEvaluator.keyValues (stateOf []) (.key "self") (leafRows items), IsPlain v := by
    rw [keyValues_self rows]
    exact fun r inside => (rows r inside).1
  refine ⟨Aggregate.ofName?_name, free, plain, fun a listed => ?_⟩
  exact orderEvaluator.listOf_first Aggregate.ofName?_name free listed items none (stateOf []) (after a) plain
    (.inr (.inl (.refl _)))

end Evaluator

end Rowlang
