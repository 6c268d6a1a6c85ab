import Rowlang.Proofs.Eval.Session

/-!
# Aggregates that agree

Several aggregates run over the same rows in loops of their own: one collects all values first, one stops at
the first row that holds, one at the first that is no number. Each sees the values that the others see, as
far as it goes.

* `heldRows`, `strictTotal` : what is made of the values: the rows that hold, and a total of numbers only;
* `run_rowsWhere`, `LooksAt.firstWhere`, `LooksAt.totalStrict` : the loops, by the values on the rows;
* `Evaluator.aggregates_agree` : what counts rows, selects them and adds them up strictly agrees with what
  filters them and adds them up.
-/

namespace Rowlang
open Value

/-! ## What the loops make of the values -/

def heldRows (rows values : List Value) : List Value :=
  ((rows.zip values).filter fun e => e.2.isTruthy).map Prod.fst

theorem heldRows_cons (row v : Value) (rows values : List Value) : heldRows (row :: rows) (v :: values) =
    if v.isTruthy then row :: heldRows rows values else heldRows rows values := by
  rw [heldRows, List.zip_cons_cons, List.filter_cons]
  cases v.isTruthy <;> rfl

theorem length_heldRows {rows values : List Value} (same : values.length = rows.length) :
    (heldRows rows values).length = values.countP Value.isTruthy := by
  have seconds : values = (rows.zip values).map Prod.snd := (List.map_snd_zip (Nat.le_of_eq same)).symm
  rw [heldRows, List.length_map, ← List.countP_eq_length_filter]
  conv_rhs => rw [seconds, List.countP_map]
  rfl

/-- The sum of values that all read as numbers, from `sum` on. -/
def strictTotal (sum : Number) (values : List Value) : Option Number :=
  if ∀ v ∈ values, v.toNumber?.isSome then some ((values.filterMap Value.toNumber?).foldl Number.add sum)
  else none

theorem strictTotal_cons (sum : Number) (v : Value) (rest : List Value) : strictTotal sum (v :: rest) =
    match v.toNumber? with
    | some n => strictTotal (sum.add n) rest
    | none => none := by
  unfold strictTotal
  cases read : v.toNumber? <;> simp [read]

section
variable (f : Value → Eval Value) {rows : List Value}

/-- All rows are looked at, and those kept whose values hold. -/
theorem run_rowsWhere {values : List Value} {s s' : EvalState} (h : RunsTo f s rows values s') :
    (rowsWhere f rows).run s = (heldRows rows values, s') := by
  induction h with
  | nil => rfl
  | @cons _ _ _ row v rest vs first _ ih =>
    rw [rowsWhere, Eval.run_bind first, Eval.run_bind ih, heldRows_cons]
    rfl

/-- The rows behind the first that holds are not looked at. -/
theorem LooksAt.firstWhere (rows : List Value) :
    LooksAt f rows (Rowlang.firstWhere f rows) fun values => (heldRows rows values).headD .null := by
  induction rows with
  | nil => exact .stop fun _ _ => rfl
  | cons row rest ih =>
    refine .cons fun v => ?_
    simp only [heldRows_cons]
    cases v.isTruthy
    · exact ih
    · exact .stop fun _ _ => rfl

/-- The rows behind the first whose value is no number are not looked at. -/
theorem LooksAt.totalStrict (sum : Number) (rows : List Value) :
    LooksAt f rows (Rowlang.totalStrict f sum rows) (strictTotal sum) := by
  induction rows generalizing sum with
  | nil =>
    refine .stop fun all none => ?_
    rw [List.length_eq_zero_iff.1 none]
    rfl
  | cons row rest ih =>
    refine .cons fun v => ?_
    simp only [strictTotal_cons]
    cases v.toNumber? with
    | none => exact .stop fun _ _ => rfl
    | some n => exact ih (sum.add n)

end

/-! ## The aggregates -/

namespace Evaluator

variable {env : Evaluator}

theorem evaluateSteps_count {name : String} (named : Aggregate.ofName? name = some .count)
    (items : List Value) (key : Option String) :
    env.evaluateSteps (.list items key) [.call name []] = pure (.ofNat items.length) := by
  rw [evaluateSteps, evaluate_list rfl]
  show env.aggregate items key [.call name []] = _
  rw [aggregate_call named, applyAggregate.eq_def]
  simp only [evaluateSteps, bind_pure]
  rfl

/-- The mean of rows whose total is known: none without rows. -/
def meanOf (rows : List Value) (sum : Number) : Value :=
  if rows.isEmpty then .null else .number (sum.div (.ofNat rows.length))

theorem looksAt_strictTotal (f : Value → Eval Value) (rows : List Value) :
    LooksAt f rows (Aggregate.totalStrict.overRows rows f) fun values =>
      ((strictTotal .zero values).map .number).getD .null :=
  (LooksAt.totalStrict f .zero rows).map fun sum => (sum.map Value.number).getD Value.null

theorem looksAt_strictMean (f : Value → Eval Value) (rows : List Value) :
    LooksAt f rows (Aggregate.averageStrict.overRows rows f) fun values =>
      ((strictTotal .zero values).map (meanOf rows)).getD .null := by
  unfold Aggregate.overRows meanOf
  dsimp only
  split
  · refine .stop fun all _ => ?_
    cases strictTotal .zero all <;> rfl
  · exact (LooksAt.totalStrict f .zero rows).map fun sum =>
      (sum.map fun n : Number => Value.number (n.div (.ofNat rows.length))).getD Value.null

section
variable (env) {name : Aggregate → String} (spelled : ∀ a, Aggregate.ofName? (name a) = some a)
  (items : List Value) (key : Option String) (e : Expr)
include spelled

theorem looksThrough_overRows {a : Aggregate} (plain : a ≠ .group ∧ a ≠ .join) {summary : List Value → Value}
    (sums_up : ∀ f : Value → Eval Value, a.overRows (leafRows items) f =
      (leafRows items).mapM f >>= fun values => return summary values) :
    env.LooksThrough e (leafRows items) (env.evaluate (.list items key) (.call (name a) [e])) summary := by
  intro s
  rw [evaluate_overRows (spelled a) plain, sums_up]
  rfl

theorem looksThrough_filter : env.LooksThrough e (leafRows items)
    (env.evaluate (.list items key) (.call (name .filter) [e]))
    fun values => .ofList (heldRows (leafRows items) values) := by
  intro s
  rw [evaluate_overRows (spelled .filter) (by simp)]
  unfold Aggregate.overRows
  rw [Eval.run_bind (run_rowsWhere _ (env.runsTo_keyValues s e (leafRows items)))]
  rfl

theorem looksThrough_filter_count : env.LooksThrough e (leafRows items)
    (env.evaluate (.list items key) (.chain [.call (name .filter) [e], .call (name .count) []]))
    fun values => .ofNat (heldRows (leafRows items) values).length := by
  intro s
  rw [evaluate_list rfl, Expr.steps, aggregate_overRows (spelled .filter) (by simp)]
  unfold Aggregate.overRows
  simp only [bind_assoc, pure_bind]
  rw [Eval.run_bind (run_rowsWhere _ (env.runsTo_keyValues s e (leafRows items))), Value.ofList,
    evaluateSteps_count (spelled .count)]
  rfl

theorem looksThrough_count : env.LooksThrough e (leafRows items)
    (env.evaluate (.list items key) (.call (name .count) [e]))
    fun values => .ofNat (values.countP Value.isTruthy) :=
  env.looksThrough_overRows spelled items key e (by simp) fun _ => rfl

theorem looksThrough_total : env.LooksThrough e (leafRows items)
    (env.evaluate (.list items key) (.call (name .total) [e])) fun values => .number (total values) :=
  env.looksThrough_overRows spelled items key e (by simp) fun _ => rfl

theorem looksThrough_average : env.LooksThrough e (leafRows items)
    (env.evaluate (.list items key) (.call (name .average) [e]))
    fun values => meanOf (leafRows items) (total values) := by
  refine env.looksThrough_overRows spelled items key e (by simp) fun f => ?_
  unfold Aggregate.overRows meanOf
  dsimp only
  split
  · rename_i none
    rw [List.isEmpty_iff.1 none]
    rfl
  · rfl

theorem looksAt_get : LooksAt (fun row => env.evaluate row e) (leafRows items)
    (env.evaluate (.list items key) (.call (name .get) [e]))
    fun values => (heldRows (leafRows items) values).headD .null := by
  rw [evaluate_overRows (spelled .get) (by simp)]
  exact .firstWhere _ _

theorem looksAt_totalStrict : LooksAt (fun row => env.evaluate row e) (leafRows items)
    (env.evaluate (.list items key) (.call (name .totalStrict) [e]))
    fun values => ((strictTotal .zero values).map .number).getD .null := by
  rw [evaluate_overRows (spelled .totalStrict) (by simp)]
  exact looksAt_strictTotal _ _

theorem looksAt_averageStrict : LooksAt (fun row => env.evaluate row e) (leafRows items)
    (env.evaluate (.list items key) (.call (name .averageStrict) [e]))
    fun values => ((strictTotal .zero values).map (meanOf (leafRows items))).getD .null := by
  rw [evaluate_overRows (spelled .averageStrict) (by simp)]
  exact looksAt_strictMean _ _

end

/-- **Related aggregates agree**, over the values of an expression without assignments on the plain rows of a
list, evaluated from one state or at two times of a session. `filter` gives the rows on which the expression
holds, `count` their number, as `count` of what `filter` gives, and `get` the first of them, or null.
`totalStrict` and `averageStrict` give what `total` and `average` give if the expression reads as a number on
every row, and otherwise null. Without rows the totals are zero, and the averages null. -/
theorem aggregates_agree (env : Evaluator) {name : Aggregate → String}
    (spelled : ∀ a, Aggregate.ofName? (name a) = some a) {e : Expr} (free : e.AssignmentFree)
    (items : List Value) (key : Option String) (s s' : EvalState) :
    let value (s : EvalState) (e : Expr) : Value := env.valueOn s e (.list items key)
    let together (a b : Expr) : Prop :=
      Together (env.evaluate (.list items key) a) s (env.evaluate (.list items key) b) s'
    let call (a : Aggregate) : Expr := .call (name a) [e]
    let counted : Expr := .chain [call .filter, .call (name .count) []]
    let values := env.keyValues s e (leafRows items)
    let held := heldRows (leafRows items) values
    value s (call .filter) = .ofList held ∧
      (together (call .count) counted → value s' counted = value s (call .count)) ∧
      (together (call .filter) (call .get) → value s' (call .get) = held.headD .null) ∧
      (together (call .total) (call .totalStrict) → value s' (call .totalStrict) =
        if ∀ v ∈ values, v.toNumber?.isSome then value s (call .total) else .null) ∧
      (together (call .average) (call .averageStrict) → value s' (call .averageStrict) =
        if ∀ v ∈ values, v.toNumber?.isSome then value s (call .average) else .null) ∧
      (leafRows items = [] → value s (call .total) = .number .zero ∧ value s (call .totalStrict) = .number .zero ∧
        value s (call .average) = .null ∧ value s (call .averageStrict) = .null) := by
  intro value together call counted values held
  have sums : value s (call .total) = .number (total values) :=
    congrArg Prod.fst (env.looksThrough_total spelled items key e s)
  have means : value s (call .average) = meanOf (leafRows items) (total values) :=
    congrArg Prod.fst (env.looksThrough_average spelled items key e s)
  have strict := env.looksAt_totalStrict spelled items key e
  have strictMean := env.looksAt_averageStrict spelled items key e
  refine ⟨congrArg Prod.fst (env.looksThrough_filter spelled items key e s), fun one => ?_, fun one => ?_,
    fun one => ?_, fun one => ?_, fun none => ?_⟩
  · have counts : value s (call .count) = .ofNat (values.countP Value.isTruthy) :=
      congrArg Prod.fst (env.looksThrough_count spelled items key e s)
    rw [counts, ← length_heldRows (env.runsTo_keyValues s e (leafRows items)).length_eq]
    exact (env.looksThrough_filter_count spelled items key e).looksAt.together
      (env.looksThrough_count spelled items key e) free one
  · exact (env.looksAt_get spelled items key e).together (env.looksThrough_filter spelled items key e) free one
  · refine (strict.together (env.looksThrough_total spelled items key e) free one).trans ?_
    rw [sums]
    unfold strictTotal
    split <;> rfl
  · refine (strictMean.together (env.looksThrough_average spelled items key e) free one).trans ?_
    rw [means]
    unfold strictTotal
    split <;> rfl
  · have runs : RunsTo (fun row => env.evaluate row e) s (leafRows items) [] s := by
      rw [none]
      exact .nil s
    have nothing : values = [] := congrArg Prod.fst runs.mapM
    have mean (sum : Number) : meanOf (leafRows items) sum = .null := by rw [none]; rfl
    refine ⟨by rw [sums, nothing]; rfl, strict.value runs, means.trans (mean _), ?_⟩
    exact (strictMean.value runs).trans (mean _)

/-- A number, a text and a boolean, which all read as numbers, and of which the first does not hold: `get` is
evaluated from the same state, and `totalStrict` after `total`. -/
theorem aggregates_agree_mixed :
    let rows : List Value := [.ofNat 0, .text "7", .boolean true]
    let value (s : EvalState) (e : Expr) : Value := orderEvaluator.valueOn s e (.list rows none)
    let call (a : Aggregate) : Expr := .call a.name [.key "self"]
    let s := stateOf []
    let after := ((orderEvaluator.evaluate (.list rows none) (call .total)).run s).2
    (∀ a : Aggregate, Aggregate.ofName? a.name = some a) ∧ (Expr.key "self").AssignmentFree ∧
      (∀ v ∈ rows, v.toNumber?.isSome) ∧
      value s (call .filter) = .ofList [.text "7", .boolean true] ∧ value s (call .get) = .text "7" ∧
      value s (.chain [call .filter, .call "count" []]) = value s (call .count) ∧
      value after (call .totalStrict) = value s (call .total) := by
  intro rows value call s after
  have free : (Expr.key "self").AssignmentFree := by
    simp [Expr.AssignmentFree, Expr.Throughout, Expr.subterms, Expr.isAssignment]
  have plain : ∀ r ∈ rows, IsPlain r ∧ ∀ ref, r ≠ .object ref := by simp [rows, IsPlain, Value.ofNat]
  have flat : leafRows rows = rows := leafRows_flat fun r listed => (plain r listed).1
  have numbers : ∀ v ∈ rows, v.toNumber?.isSome := by decide +kernel
  have held : heldRows rows rows = [.text "7", .boolean true] := by rfl
  obtain ⟨filtered, counted, first, -, -, -⟩ :=
    orderEvaluator.aggregates_agree Aggregate.ofName?_name free rows none s s
  obtain ⟨-, -, -, strict, -, -⟩ :=
    orderEvaluator.aggregates_agree Aggregate.ofName?_name free rows none s after
  rw [flat, keyValues_self plain, held] at filtered first
  rw [flat, keyValues_self plain, if_pos numbers] at strict
  exact ⟨Aggregate.ofName?_name, free, numbers, filtered, first (.inl rfl), counted (.inl rfl),
    strict (.inr (.inl (.refl after)))⟩

end Evaluator

end Rowlang
