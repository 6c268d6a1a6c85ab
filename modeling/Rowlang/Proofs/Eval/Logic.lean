import Rowlang.Proofs.Eval.Scope
import Rowlang.Proofs.Value.References

/-!
# Reasoning about evaluations

A way to assert something of evaluations, if it goes through their steps, holds of all evaluations. The
steps are four: an evaluation that gives a value, one that goes on with the value of another, and those
that read a key, resolve a call, or write a variable.

* `Expr.Throughout` : what holds of an expression and of all within it;
* `EvalLogic` : assertions that go through the steps of evaluations;
* `EvalLogic.evaluate` : they hold of the evaluation of every expression that keeps to known objects and to
  some variables, and its value refers to known objects.
-/

namespace Rowlang
open Value

/-! ## All within an expression -/

namespace Expr

def Throughout (P : Expr → Prop) (e : Expr) : Prop := ∀ t ∈ e.subterms, P t

def ThroughoutAll (P : Expr → Prop) (es : List Expr) : Prop := ∀ t ∈ subtermsOf es, P t

variable {P : Expr → Prop}

theorem throughoutAll_cons {e : Expr} {rest : List Expr} :
    ThroughoutAll P (e :: rest) ↔ e.Throughout P ∧ ThroughoutAll P rest := by
  show (∀ t ∈ e.subterms ++ subtermsOf rest, P t) ↔ _
  exact List.forall_mem_append

theorem throughoutAll_nil : ThroughoutAll P [] := List.forall_mem_nil P

theorem throughoutAll_iff {es : List Expr} : ThroughoutAll P es ↔ ∀ e ∈ es, e.Throughout P := by
  induction es with
  | nil => exact ⟨fun _ => List.forall_mem_nil _, fun _ => throughoutAll_nil⟩
  | cons e rest ih => rw [throughoutAll_cons, ih, List.forall_mem_cons]

theorem Throughout.here {e : Expr} (h : e.Throughout P) : P e := by
  refine h e ?_
  cases e <;> exact List.mem_cons_self

theorem Throughout.index {target position : Expr} (h : (Expr.index target position).Throughout P) :
    target.Throughout P ∧ position.Throughout P := by
  have all : ∀ t ∈ Expr.index target position :: (target.subterms ++ position.subterms), P t := h
  rw [List.forall_mem_cons, List.forall_mem_append] at all
  exact all.2

theorem Throughout.call {name : String} {args : List Expr} (h : (Expr.call name args).Throughout P) :
    ThroughoutAll P args := by
  have all : ∀ t ∈ Expr.call name args :: subtermsOf args, P t := h
  exact (List.forall_mem_cons.1 all).2

theorem Throughout.chain {steps : List Expr} (h : (Expr.chain steps).Throughout P) :
    ThroughoutAll P steps := by
  have all : ∀ t ∈ Expr.chain steps :: subtermsOf steps, P t := h
  exact (List.forall_mem_cons.1 all).2

theorem Throughout.conditional {condition whenTrue : Expr} {whenFalse : Option Expr}
    (h : (Expr.conditional condition whenTrue whenFalse).Throughout P) :
    condition.Throughout P ∧ whenTrue.Throughout P ∧ ∀ e, whenFalse = some e → e.Throughout P := by
  have all : ∀ t ∈ Expr.conditional condition whenTrue whenFalse ::
      (condition.subterms ++ whenTrue.subterms ++ subtermsOfOption whenFalse), P t := h
  rw [List.forall_mem_cons, List.forall_mem_append, List.forall_mem_append] at all
  refine ⟨all.2.1.1, all.2.1.2, ?_⟩
  rintro e rfl
  exact all.2.2

theorem Throughout.assignment {op : AssignOperator} {target value : Expr}
    (h : (Expr.assignment op target value).Throughout P) :
    target.Throughout P ∧ value.Throughout P := by
  have all : ∀ t ∈ Expr.assignment op target value :: (target.subterms ++ value.subterms), P t := h
  rw [List.forall_mem_cons, List.forall_mem_append] at all
  exact all.2

theorem Throughout.unary {op : UnaryOperator} {operand : Expr} (h : (Expr.unary op operand).Throughout P) :
    operand.Throughout P := by
  have all : ∀ t ∈ Expr.unary op operand :: operand.subterms, P t := h
  exact (List.forall_mem_cons.1 all).2

theorem Throughout.binary {op : BinaryOperator} {left right : Expr}
    (h : (Expr.binary op left right).Throughout P) : left.Throughout P ∧ right.Throughout P := by
  have all : ∀ t ∈ Expr.binary op left right :: (left.subterms ++ right.subterms), P t := h
  rw [List.forall_mem_cons, List.forall_mem_append] at all
  exact all.2

theorem Throughout.steps {e : Expr} (h : e.Throughout P) : ThroughoutAll P e.steps := by
  cases e with
  | chain steps => exact h.chain
  | _ => exact throughoutAll_cons.2 ⟨h, throughoutAll_nil⟩

theorem ThroughoutAll.take {es : List Expr} (h : ThroughoutAll P es) (n : Nat) :
    ThroughoutAll P (es.take n) := by
  rw [throughoutAll_iff] at h ⊢
  exact fun e listed => h e (List.take_subset n es listed)

/-- What an expression itself may do: a literal refers to known objects, and an assignment writes one of
the variables. -/
def Uses (known : ObjectRef → Prop) (names : String → Prop) : Expr → Prop
  | .literal v => v.Within known
  | .assignment _ target _ => ∀ name, target.lastKey? = some name → names name
  | _ => True

end Expr

/-! ## Evaluation by the form of the expression -/

namespace Evaluator

variable {env : Evaluator} {items : List Value} {key : Option String}

/-- The value of one step of a path, on the value before it. -/
def evaluateStep (env : Evaluator) (origin value : Value) (head : Bool) : Expr → Eval Value
  | .key name => env.lookupKey value name head
  | .call name args => env.call origin value name args
  | step => env.evaluateRow value step

theorem evaluateChain_step {origin value : Value} {head : Bool} {step : Expr} {rest : List Expr}
    (row : head = false → ∀ items key, value ≠ .list items key) :
    env.evaluateChain origin value head (step :: rest) =
      env.evaluateStep origin value head step >>= fun next => env.evaluateChain origin next false rest := by
  rw [evaluateChain.eq_def]
  dsimp only
  split
  · exact absurd rfl (row rfl _ _)
  · cases step <;> rfl

theorem evaluateSteps_several {value : Value} {first second : Expr} {rest : List Expr}
    (row : ∀ items key, value ≠ .list items key) :
    env.evaluateSteps value (first :: second :: rest) =
      env.evaluateChain value value true (first :: second :: rest) := by
  rw [evaluateSteps.eq_def]
  cases value <;> first | rfl | exact absurd rfl (row _ _)

theorem aggregate_call {a : Aggregate} {name : String} {args rest : List Expr}
    (named : Aggregate.ofName? name = some a) :
    env.aggregate items key (.call name args :: rest) =
      env.applyAggregate a items key (args.take 1) args >>= fun v => env.evaluateSteps v rest := by
  rw [aggregate]
  split
  · rename_i h
    cases h.symm.trans (show (Expr.call name args).aggregate? = some a from named)
    rfl
  · rename_i h
    cases h.symm.trans (show (Expr.call name args).aggregate? = some a from named)

theorem aggregate_named {a : Aggregate} {name : String} {rest : List Expr}
    (named : Aggregate.ofName? name = some a) :
    env.aggregate items key (.key name :: rest) = env.applyAggregate a items key rest [] := by
  rw [aggregate]
  split
  · rename_i h
    cases h.symm.trans (show (Expr.key name).aggregate? = some a from named)
    rfl
  · rename_i h
    cases h.symm.trans (show (Expr.key name).aggregate? = some a from named)

/-- A path evaluated with a list as the current value and, if that is null, on its first item. -/
def evaluateOver (env : Evaluator) (items : List Value) (key : Option String) (head : Expr)
    (rest : List Expr) : Eval Value := do
  let v ← env.evaluateRow (.list items key) head
  match ← env.evaluateSteps v rest, items with
  | .null, first :: _ => env.evaluateSteps first (head :: rest)
  | v, _ => return v

theorem aggregate_plain {head : Expr} {rest : List Expr} (plain : head.aggregate? = none) :
    env.aggregate items key (head :: rest) = match items with
      | .list group groupKey :: _ =>
        if !referencesAggregate (head :: rest) && key != some (renderSteps (head :: rest)) then
          env.aggregate group groupKey (head :: rest)
        else env.evaluateOver items key head rest
      | _ => env.evaluateOver items key head rest := by
  rw [aggregate.eq_def]
  dsimp only
  split
  · rename_i h
    cases h.symm.trans plain
  · rfl

end Evaluator

/-! ## Assertions -/

/-- What a call with these resolutions may lead to: values that refer to known objects, if the arguments
do. -/
def Evaluator.Answers (env : Evaluator) (known : ObjectRef → Prop) (target : Value) (name : String)
    (found : Option Resolution) : Prop :=
  ∀ r, found = some r →
    (∀ run arg, env.rawMethod? r target name = some run →
      (valueOrNull (run arg)).Within known) ∧
    ∀ args : List Value, (∀ a ∈ args, a.Within known) →
      (valueOrNull (env.invoke r target name args)).Within known

/-- A way to assert of an evaluation that it behaves and that its value has a property. It goes through the
steps of evaluations. -/
structure EvalLogic (env : Evaluator) (known : ObjectRef → Prop) (names : String → Prop) where
  Holds : {α : Type} → Eval α → (α → Prop) → Prop
  pure : ∀ {α : Type} {x : α} {Q : α → Prop}, Q x → Holds (Pure.pure x) Q
  bind : ∀ {α β : Type} {m : Eval α} {f : α → Eval β} {Q : α → Prop} {R : β → Prop}, Holds m Q →
    (∀ x, Q x → Holds (f x) R) → Holds (m >>= f) R
  lookupKey : ∀ {target : Value} (name : String) (head : Bool), target.Within known →
    Holds (env.lookupKey target name head) (Within known)
  resolve : ∀ {target : Value} (name : String) (arity : Nat), target.Within known →
    Holds (env.resolve target name arity) (env.Answers known target name)
  assign : ∀ (op : AssignOperator) {name : String} {v : Value}, names name → v.Within known →
    Holds (Evaluator.assign op name v) fun _ => True

/-! ## Groups of rows -/

section
variable {known : ObjectRef → Prop}

theorem within_addToClass {value row : Value} {acc : List (Value × List Value)} (h : row.Within known)
    (each : ∀ e ∈ acc, ∀ r ∈ e.2, r.Within known) :
    ∀ e ∈ addToClass value row acc, ∀ r ∈ e.2, r.Within known := by
  induction acc with
  | nil => simpa [addToClass] using h
  | cons e rest ih =>
    obtain ⟨v, rows⟩ := e
    obtain ⟨first, later⟩ := List.forall_mem_cons.1 each
    rw [addToClass]
    split
    · refine List.forall_mem_cons.2 ⟨fun r listed => ?_, later⟩
      rcases List.mem_append.1 listed with listed | listed
      · exact first r listed
      · exact List.mem_singleton.1 listed ▸ h
    · exact List.forall_mem_cons.2 ⟨first, ih later⟩

theorem within_classes {values rows : List Value} (h : ∀ r ∈ rows, r.Within known) :
    ∀ members ∈ classes values rows, ∀ r ∈ members, r.Within known := by
  suffices step : ∀ (pairs : List (Value × Value)) (acc : List (Value × List Value)),
      (∀ e ∈ pairs, e.2.Within known) → (∀ e ∈ acc, ∀ r ∈ e.2, r.Within known) →
      ∀ e ∈ pairs.foldl (fun acc e => addToClass e.1 e.2 acc) acc, ∀ r ∈ e.2, r.Within known by
    intro members listed
    obtain ⟨e, inside, rfl⟩ := List.mem_map.1 listed
    exact step _ [] (fun e paired => h _ (List.of_mem_zip paired).2) (List.forall_mem_nil _) e inside
  intro pairs
  induction pairs with
  | nil => exact fun acc _ each => each
  | cons e rest ih =>
    intro acc each done
    obtain ⟨first, later⟩ := List.forall_mem_cons.1 each
    exact ih _ later (within_addToClass first done)

theorem within_markGroup {key : String} {v : Value} (h : v.Within known) :
    (markGroup key v).Within known := by
  unfold markGroup
  split
  · exact within_list.2 (within_list.1 h)
  · exact h

end

namespace EvalLogic
open Evaluator
open Rowlang.Expr (Throughout ThroughoutAll Uses throughoutAll_cons throughoutAll_nil size sizeOfSteps
  sizeOfOption sizeOfSteps_steps_le sizeOfSteps_take_le)

variable {env : Evaluator} {known : ObjectRef → Prop} {names : String → Prop}

/-! ## Over some rows -/

section
variable (L : EvalLogic env known names) {f : Value → Eval Value} {rows : List Value}

theorem map {α β : Type} {m : Eval α} {f : α → β} {Q : α → Prop} {R : β → Prop} (h : L.Holds m Q)
    (imp : ∀ x, Q x → R (f x)) : L.Holds (f <$> m) R := by
  rw [map_eq_pure_bind]
  exact L.bind h fun x hx => L.pure (imp x hx)

theorem mapM {α β : Type} {f : α → Eval β} {Q : β → Prop} {l : List α} (h : ∀ a ∈ l, L.Holds (f a) Q) :
    L.Holds (l.mapM f) fun ys => ∀ y ∈ ys, Q y := by
  induction l with
  | nil =>
    rw [List.mapM_nil]
    exact L.pure (List.forall_mem_nil Q)
  | cons a rest ih =>
    obtain ⟨first, later⟩ := List.forall_mem_cons.1 h
    rw [List.mapM_cons]
    exact L.bind first fun y hy => L.bind (ih later) fun ys hys =>
      L.pure (List.forall_mem_cons.2 ⟨hy, hys⟩)

variable (each : ∀ row ∈ rows, L.Holds (f row) (Within known))
include each

theorem totalStrict (sum : Number) : L.Holds (totalStrict f sum rows) fun _ => True := by
  induction rows generalizing sum with
  | nil => exact L.pure trivial
  | cons row rest ih =>
    obtain ⟨first, later⟩ := List.forall_mem_cons.1 each
    rw [Rowlang.totalStrict]
    refine L.bind first fun v _ => ?_
    split
    · exact ih later _
    · exact L.pure trivial

theorem firstWhere (within : ∀ row ∈ rows, row.Within known) :
    L.Holds (firstWhere f rows) (Within known) := by
  induction rows with
  | nil => exact L.pure within_null
  | cons row rest ih =>
    obtain ⟨first, later⟩ := List.forall_mem_cons.1 each
    rw [Rowlang.firstWhere]
    refine L.bind first fun v _ => ?_
    split
    · exact L.pure (within row List.mem_cons_self)
    · exact ih later fun row listed => within row (List.mem_cons_of_mem _ listed)

theorem rowsWhere (within : ∀ row ∈ rows, row.Within known) :
    L.Holds (rowsWhere f rows) fun kept => ∀ row ∈ kept, row.Within known := by
  induction rows with
  | nil => exact L.pure (List.forall_mem_nil _)
  | cons row rest ih =>
    obtain ⟨first, later⟩ := List.forall_mem_cons.1 each
    obtain ⟨here, behind⟩ := List.forall_mem_cons.1 within
    rw [Rowlang.rowsWhere]
    refine L.bind first fun v _ => L.bind (ih later behind) fun kept hk => L.pure ?_
    split
    · exact List.forall_mem_cons.2 ⟨here, hk⟩
    · exact hk

theorem overRows (a : Aggregate) (within : ∀ row ∈ rows, row.Within known) :
    L.Holds (a.overRows rows f) (Within known) := by
  have values := L.mapM each
  unfold Aggregate.overRows
  cases a with
  | total => exact L.bind values fun _ _ => L.pure (within_number _)
  | totalStrict =>
    exact L.bind (L.totalStrict each _) fun sum _ => L.pure (by cases sum <;> exact within_of_refs rfl)
  | count | countDeep | countUnique => exact L.bind values fun _ _ => L.pure (within_of_refs rfl)
  | average =>
    dsimp only
    split
    · exact L.pure within_null
    · exact L.bind values fun _ _ => L.pure (within_number _)
  | averageStrict =>
    dsimp only
    split
    · exact L.pure within_null
    · exact L.bind (L.totalStrict each _) fun sum _ => L.pure (by cases sum <;> exact within_of_refs rfl)
  | min =>
    exact L.bind values fun vs hvs => L.pure (within_getD fun v found =>
      hvs v (List.mem_filter.1 (Functions.mem_of_least? found)).1)
  | max =>
    exact L.bind values fun vs hvs => L.pure (within_getD fun v found =>
      hvs v (List.mem_filter.1 (Functions.mem_of_greatest? found)).1)
  | get => exact L.firstWhere each within
  | filter => exact L.bind (L.rowsWhere each within) fun kept hk => L.pure (within_list.2 hk)
  | listOf => exact L.bind values fun vs hvs => L.pure (within_list.2 hvs)
  | group | join => exact L.pure within_null

end

/-! ## Expressions -/

theorem evaluateOver (L : EvalLogic env known names) {items : List Value} {key : Option String}
    {head : Expr} {rest : List Expr} (row : L.Holds (env.evaluateRow (.list items key) head) (Within known))
    (later : ∀ v : Value, v.Within known → L.Holds (env.evaluateSteps v rest) (Within known))
    (again : ∀ first others, items = first :: others →
      L.Holds (env.evaluateSteps first (head :: rest)) (Within known)) :
    L.Holds (env.evaluateOver items key head rest) (Within known) := by
  unfold Evaluator.evaluateOver
  refine L.bind row fun v hv => L.bind (later v hv) fun w hw => ?_
  split
  · exact again _ _ rfl
  · exact L.pure hw

mutual

/-- **Assertions hold of all evaluations** whose literals refer to known objects and whose assignments
write the variables. -/
theorem evaluate (L : EvalLogic env known names) {current : Value} {e : Expr}
    (uses : e.Throughout (Uses known names)) (within : current.Within known) :
    L.Holds (env.evaluate current e) (Within known) := by
  match current with
  | .list items key =>
    by_cases path : e.isPath = true
    · have := sizeOfSteps_steps_le e
      rw [evaluate_list path]
      exact L.aggregate uses.steps (within_list.1 within)
    · rw [Evaluator.evaluate, if_neg path]
      exact L.evaluateRow uses within
  | .null | .boolean _ | .number _ | .text _ | .date _ | .object _ =>
    rw [evaluate_row (by simp)]
    exact L.evaluateRow uses within
termination_by (e.size, sizeOf current, 4)
decreasing_by all_goals simp [Prod.lex_def]; try omega

theorem evaluateSteps (L : EvalLogic env known names) {current : Value} {steps : List Expr}
    (uses : ThroughoutAll (Uses known names) steps) (within : current.Within known) :
    L.Holds (env.evaluateSteps current steps) (Within known) := by
  match steps with
  | [] =>
    rw [Evaluator.evaluateSteps]
    exact L.pure within
  | [e] =>
    rw [Evaluator.evaluateSteps]
    exact L.evaluate (throughoutAll_cons.1 uses).1 within
  | first :: second :: rest =>
    match current with
    | .list items key =>
      rw [Evaluator.evaluateSteps]
      exact L.aggregate uses (within_list.1 within)
    | .null | .boolean _ | .number _ | .text _ | .date _ | .object _ =>
      rw [evaluateSteps_several (by simp)]
      exact L.evaluateChain uses within within
termination_by (sizeOfSteps steps, sizeOf current, 5)
decreasing_by all_goals simp [Prod.lex_def, sizeOfSteps]

theorem evaluateAll (L : EvalLogic env known names) {current : Value} {args : List Expr}
    (uses : ThroughoutAll (Uses known names) args) (within : current.Within known) :
    L.Holds (env.evaluateAll current args) fun vs => ∀ v ∈ vs, v.Within known := by
  match args with
  | [] =>
    rw [Evaluator.evaluateAll]
    exact L.pure (List.forall_mem_nil _)
  | e :: rest =>
    have := e.size_pos
    obtain ⟨first, later⟩ := throughoutAll_cons.1 uses
    rw [Evaluator.evaluateAll]
    exact L.bind (L.evaluate first within) fun v hv => L.bind (L.evaluateAll later within) fun vs hvs =>
      L.pure (List.forall_mem_cons.2 ⟨hv, hvs⟩)
termination_by (sizeOfSteps args, sizeOf current, 5)
decreasing_by all_goals simp [Prod.lex_def, sizeOfSteps]; omega

theorem evaluateRow (L : EvalLogic env known names) {current : Value} {e : Expr}
    (uses : e.Throughout (Uses known names)) (within : current.Within known) :
    L.Holds (env.evaluateRow current e) (Within known) := by
  match e with
  | .literal v =>
    rw [Evaluator.evaluateRow]
    exact L.pure uses.here
  | .key name =>
    rw [Evaluator.evaluateRow]
    exact L.lookupKey name true within
  | .chain steps =>
    rw [Evaluator.evaluateRow]
    exact L.evaluateChain uses.chain within within
  | .call name args =>
    have := current.sizeOf_pos
    rw [Evaluator.evaluateRow]
    exact L.call name uses.call within within
  | .index target position =>
    obtain ⟨first, second⟩ := uses.index
    rw [Evaluator.evaluateRow]
    refine L.bind (L.evaluate first within) fun v hv => L.bind (L.evaluate second within) fun i _ => ?_
    split
    · refine L.pure ?_
      split
      · rw [List.getD_eq_getElem?_getD]
        exact within_getD fun v found => within_list.1 hv v (List.mem_of_getElem? found)
      · exact within_null
    · exact L.pure within_null
  | .conditional condition whenTrue none =>
    obtain ⟨first, second, -⟩ := uses.conditional
    rw [evaluateRow.eq_def]
    refine L.bind (L.evaluate first within) fun v _ => ?_
    split
    · exact L.evaluate second within
    · exact L.pure within_null
  | .conditional condition whenTrue (some whenFalse) =>
    obtain ⟨first, second, third⟩ := uses.conditional
    rw [evaluateRow.eq_def]
    refine L.bind (L.evaluate first within) fun v _ => ?_
    split
    · exact L.evaluate second within
    · exact L.evaluate (third whenFalse rfl) within
  | .assignment op target value =>
    rw [Evaluator.evaluateRow]
    refine L.bind (L.evaluate uses.assignment.2 within) fun v hv => ?_
    split
    · exact L.pure within_null
    · rename_i name named
      exact L.bind (L.assign op (uses.here name named) hv) fun _ _ => L.pure (within_text "")
  | .unary op operand =>
    rw [Evaluator.evaluateRow]
    exact L.bind (L.evaluate uses.unary within) fun v _ => L.pure (within_of_refs (op.refs_apply v))
  | .binary op left right =>
    obtain ⟨first, second⟩ := uses.binary
    by_cases both : op = .and
    · rw [both, Evaluator.evaluateRow]
      refine L.bind (L.evaluate first within) fun v _ => ?_
      split
      · exact L.bind (L.evaluate second within) fun v _ => L.pure (within_boolean _)
      · exact L.pure (within_boolean _)
    by_cases either : op = .or
    · rw [either, Evaluator.evaluateRow]
      refine L.bind (L.evaluate first within) fun v _ => ?_
      split
      · exact L.pure (within_boolean _)
      · exact L.bind (L.evaluate second within) fun v _ => L.pure (within_boolean _)
    rw [Evaluator.evaluateRow]
    · exact L.bind (L.evaluate first within) fun a _ => L.bind (L.evaluate second within) fun b _ =>
        L.pure (within_of_refs (op.refs_apply a b))
    · exact both
    · exact either
termination_by (e.size, sizeOf current, 0)
decreasing_by all_goals simp [Prod.lex_def, size, sizeOfOption]; try omega

theorem evaluateStep (L : EvalLogic env known names) {origin value : Value} {head : Bool} {step : Expr}
    (uses : step.Throughout (Uses known names)) (source : origin.Within known)
    (within : value.Within known) :
    L.Holds (env.evaluateStep origin value head step) (Within known) := by
  have := value.sizeOf_pos
  match step with
  | .key name => exact L.lookupKey name head within
  | .call name args => exact L.call name uses.call source within
  | .literal _ | .index .. | .chain _ | .conditional .. | .assignment .. | .unary .. | .binary .. =>
    exact L.evaluateRow uses within
termination_by (step.size, sizeOf value, 1)
decreasing_by all_goals simp [Prod.lex_def, size]; try omega

theorem evaluateChain (L : EvalLogic env known names) {origin value : Value} {head : Bool}
    {steps : List Expr} (uses : ThroughoutAll (Uses known names) steps) (source : origin.Within known)
    (within : value.Within known) :
    L.Holds (env.evaluateChain origin value head steps) (Within known) := by
  match steps with
  | [] =>
    rw [Evaluator.evaluateChain]
    exact L.pure within
  | step :: rest =>
    have := step.size_pos
    obtain ⟨first, later⟩ := throughoutAll_cons.1 uses
    by_cases row : head = false → ∀ items key, value ≠ .list items key
    · rw [evaluateChain_step row]
      exact L.bind (L.evaluateStep first source within) fun next hn => L.evaluateChain later source hn
    · match head, value with
      | false, .list items key =>
        rw [Evaluator.evaluateChain]
        exact L.aggregate uses (within_list.1 within)
      | true, _ => simp at row
      | false, .null | false, .boolean _ | false, .number _ | false, .text _ | false, .date _
      | false, .object _ => simp at row
termination_by (sizeOfSteps steps, sizeOf value, 3)
decreasing_by all_goals simp [Prod.lex_def, sizeOfSteps]; try omega

theorem call (L : EvalLogic env known names) {origin target : Value} (name : String) {args : List Expr}
    (uses : ThroughoutAll (Uses known names) args) (source : origin.Within known)
    (within : target.Within known) : L.Holds (env.call origin target name args) (Within known) := by
  rw [Evaluator.call]
  refine L.bind (L.resolve name args.length within) fun found answers => ?_
  split
  · exact L.pure within_null
  · rename_i r
    obtain ⟨raw, plain⟩ := answers r rfl
    split
    · exact L.pure (raw _ _ ‹_›)
    · exact L.bind (L.evaluateAll uses source) fun vs hvs => L.pure (plain vs hvs)
termination_by (sizeOfSteps args + 1, 0, 0)
decreasing_by all_goals simp [Prod.lex_def]; try omega

theorem aggregate (L : EvalLogic env known names) {items : List Value} {key : Option String}
    {steps : List Expr} (uses : ThroughoutAll (Uses known names) steps)
    (within : ∀ v ∈ items, v.Within known) :
    L.Holds (env.aggregate items key steps) (Within known) := by
  match steps with
  | [] =>
    rw [Evaluator.aggregate]
    exact L.pure (within_list.2 within)
  | head :: rest =>
    have := head.size_pos
    obtain ⟨first, later⟩ := throughoutAll_cons.1 uses
    by_cases plain : head.aggregate? = none
    · have whole : L.Holds (env.evaluateOver items key head rest) (Within known) := by
        refine L.evaluateOver (L.evaluateRow first (within_list.2 within))
          (fun v hv => L.evaluateSteps later hv) fun row others same => ?_
        have : sizeOf row < sizeOf items := by rw [same]; simp; omega
        exact L.evaluateSteps uses (within row (same ▸ List.mem_cons_self))
      rw [aggregate_plain plain]
      match items with
      | .list group groupKey :: others =>
        dsimp only
        split
        · exact L.aggregate uses (within_list.1 (within _ List.mem_cons_self))
        · exact whole
      | [] | .null :: _ | .boolean _ :: _ | .number _ :: _ | .text _ :: _ | .date _ :: _
      | .object _ :: _ => exact whole
    · obtain ⟨a, named⟩ := Option.ne_none_iff_exists'.1 plain
      match head with
      | .call name args =>
        have := sizeOfSteps_take_le 1 args
        rw [aggregate_call named]
        exact L.bind (L.applyAggregate a (first.call.take 1) first.call within) fun v hv =>
          L.evaluateSteps later hv
      | .key name =>
        rw [aggregate_named named]
        exact L.applyAggregate a later throughoutAll_nil within
      | .literal _ | .index .. | .chain _ | .conditional .. | .assignment .. | .unary .. | .binary .. =>
        cases named
termination_by (sizeOfSteps steps, sizeOf (Value.list items key), 2)
decreasing_by all_goals simp [Prod.lex_def, sizeOfSteps, size]; try omega

theorem applyAggregate (L : EvalLogic env known names) (a : Aggregate) {items : List Value}
    {key : Option String} {steps args : List Expr} (uses : ThroughoutAll (Uses known names) steps)
    (uses' : ThroughoutAll (Uses known names) args) (within : ∀ v ∈ items, v.Within known) :
    L.Holds (env.applyAggregate a items key steps args) (Within known) := by
  have rows := within_leafRows within
  have each : ∀ row ∈ leafRows items, L.Holds (env.evaluateSteps row steps) (Within known) :=
    fun row listed => L.evaluateSteps uses (rows row listed)
  have joined (d : Eval String) (h : L.Holds d fun _ => True) : L.Holds (do
      let delimiter ← d
      let values ← (leafRows items).mapM fun row => env.evaluateSteps row steps
      return .text (String.intercalate delimiter ((values.filter (!·.isNull)).map Value.render)))
      (Within known) :=
    L.bind h fun _ _ => L.bind (L.mapM each) fun _ _ => L.pure (within_text _)
  match a, args with
  | .group, [] =>
    rw [Evaluator.applyAggregate]
    split
    · exact L.pure (within_list.2 within)
    · exact L.group uses rows
  | .group, arg :: more =>
    rw [Evaluator.applyAggregate.eq_def]
    exact L.group uses' rows
  | .join, [] =>
    rw [Evaluator.applyAggregate.eq_def]
    exact joined (Pure.pure env.delimiter) (L.pure trivial)
  | .join, [arg] =>
    rw [Evaluator.applyAggregate.eq_def]
    exact joined (Pure.pure env.delimiter) (L.pure trivial)
  | .join, arg :: d :: more =>
    have delimiter := (throughoutAll_cons.1 (throughoutAll_cons.1 uses').2).1
    rw [Evaluator.applyAggregate.eq_def]
    exact joined (Value.render <$> env.evaluate (.list items key) d)
      (L.map (L.evaluate delimiter (within_list.2 within)) fun _ _ => trivial)
  | .total, _ | .totalStrict, _ | .count, _ | .countDeep, _ | .countUnique, _ | .average, _
  | .averageStrict, _ | .min, _ | .max, _ | .get, _ | .filter, _ | .listOf, _ =>
    rw [Evaluator.applyAggregate.eq_def]
    dsimp only
    split
    · exact L.pure (within_of_refs rfl)
    · split
      · exact L.pure (within_of_refs rfl)
      · exact L.overRows each _ rows
termination_by (max (sizeOfSteps steps) (sizeOfSteps args) + 1, 0, 1)
decreasing_by all_goals simp [Prod.lex_def, sizeOfSteps]; try omega

theorem group (L : EvalLogic env known names) {rows : List Value} {keys : List Expr}
    (uses : ThroughoutAll (Uses known names) keys) (within : ∀ v ∈ rows, v.Within known) :
    L.Holds (env.group rows keys) (Within known) := by
  match keys with
  | [] =>
    rw [Evaluator.group]
    exact L.pure (within_list.2 within)
  | k :: rest =>
    have := k.size_pos
    obtain ⟨first, later⟩ := throughoutAll_cons.1 uses
    rw [Evaluator.group]
    refine L.bind (L.mapM fun row listed => L.evaluate first (within row listed)) fun values _ => ?_
    refine L.bind (L.mapM fun members listed => L.group later (within_classes within members listed))
      fun groups hg => L.pure (within_list.2 ?_)
    exact List.forall_mem_map.2 fun g listed => within_markGroup (hg g listed)
termination_by (sizeOfSteps keys + 1, 0, 0)
decreasing_by all_goals simp [Prod.lex_def, sizeOfSteps]; try omega

end

end EvalLogic

end Rowlang
