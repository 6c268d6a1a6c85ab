import Rowlang.Eval.Aggregate
import Rowlang.Expr.Printer
import Rowlang.Functions.Registry

/-!
# Evaluation

Expressions are evaluated on a current value. On an object a key is an attribute; on a list a path is
evaluated over the list as a whole. Unknown keys, failing calls and operands of the wrong kind are
null.

* `Evaluator.evaluate` : the value of an expression;
* `Evaluator.evaluateSteps` : the value of the steps of a path;
* `Evaluator.evaluateRow` : the value on the current value as a single row, even if it is a list;
* `Evaluator.aggregate` : the value of a path over a list.

Over a list, a path that starts with an aggregate applies it to the rows. A path without aggregates
is evaluated over the first group, if the list is grouped, but not by that path. Any other path is
evaluated with the list as the current value and, if that is null, on the first item.

The recursion descends in the measure of the expression, then in the value, then along the order of
the functions.
-/

namespace Rowlang

/-- What changes in the course of an evaluation: the variables, and the resolutions of calls. -/
structure EvalState where
  bindings : Dictionary Value
  functions : FunctionRegistry

abbrev Eval := StateM EvalState

/-- What evaluations depend on: the objects, and the text that `join` puts between values. -/
structure Evaluator where
  store : Store
  delimiter : String

namespace Expr

/-- Whether the expression is evaluated over a list as a whole. -/
def isPath : Expr → Bool
  | .key _ | .call .. | .chain _ => true
  | _ => false

theorem sizeOfSteps_steps_le (e : Expr) : sizeOfSteps e.steps ≤ e.size := by
  cases e <;> simp [steps, sizeOfSteps, size]

theorem sizeOfSteps_take_le (n : Nat) (args : List Expr) :
    sizeOfSteps (args.take n) ≤ sizeOfSteps args := by
  induction args generalizing n with
  | nil => simp [sizeOfSteps]
  | cons e rest ih =>
    cases n with
    | zero => simp [sizeOfSteps]
    | succ n =>
      simp only [List.take_succ_cons, sizeOfSteps]
      have := ih n
      omega

end Expr

theorem Value.sizeOf_pos (v : Value) : 0 < sizeOf v := by
  cases v <;> simp only [Value.null.sizeOf_spec, Value.boolean.sizeOf_spec, Value.number.sizeOf_spec,
    Value.text.sizeOf_spec, Value.date.sizeOf_spec, Value.list.sizeOf_spec,
    Value.object.sizeOf_spec] <;> omega

namespace Evaluator
open Rowlang.Expr (size sizeOfSteps sizeOfOption sizeOfSteps_steps_le sizeOfSteps_take_le)

/-! ## Keys and calls -/

/-- The value of a key: an attribute of the object, the value itself under `self`, or else a
variable, which only the head of a path can be. -/
def lookupKey (env : Evaluator) (target : Value) (name : String) (head : Bool) : Eval Value := do
  let attribute? := match target with
    | .object ref => (env.store.get? ref).bind (·.lookup? name)
    | _ => none
  match attribute? with
  | some v => return v
  | none =>
    if name == "self" then return target
    else if head then return ((← get).bindings.get? name).getD .null
    else return .null

/-- What a call resolves to, which is remembered. -/
def resolve (env : Evaluator) (target : Value) (name : String) (arity : Nat) :
    Eval (Option Resolution) :=
  modifyGet fun s =>
    let (found, functions) := s.functions.resolve env.store target name arity
    (found, { s with functions })

def rawMethod? (env : Evaluator) (r : Resolution) (target : Value) (name : String) :
    Option (Expr → Except EvalError Value) :=
  match r, target with
  | .rawMethod, .object ref =>
    some (((env.store.get? ref).bind (·.rawMethod? name)).getD
      fun _ => .error (.unknownFunction name 0))
  | _, _ => none

def invoke (env : Evaluator) (r : Resolution) (target : Value) (name : String)
    (args : List Value) : Except EvalError Value :=
  match r, target with
  | .method, .object ref =>
    match (env.store.get? ref).bind (·.valueMethod? name args.length) with
    | some run => run args
    | none => .error (.unknownFunction name 0)
  | .function f, _ => f target args
  | .varargs f, _ => f target args
  | _, _ => .error (.unknownFunction name args.length)

def valueOrNull (r : Except EvalError Value) : Value :=
  match r with
  | .ok v => v
  | .error _ => .null

def assign (op : AssignOperator) (name : String) (v : Value) : Eval Unit :=
  modify fun s =>
    { s with bindings := s.bindings.insert name (op.combine (s.bindings.get? name) v) }

/-! ## Expressions -/

mutual

/-- The value of an expression. Paths are evaluated over a list as a whole. -/
def evaluate (env : Evaluator) (current : Value) (e : Expr) : Eval Value :=
  match current with
  | .list items key =>
    if e.isPath then
      have := sizeOfSteps_steps_le e
      env.aggregate items key e.steps
    else env.evaluateRow (.list items key) e
  | current => env.evaluateRow current e
termination_by (e.size, sizeOf current, 4)
decreasing_by all_goals simp [Prod.lex_def]; try omega

def evaluateSteps (env : Evaluator) (current : Value) (steps : List Expr) : Eval Value :=
  match steps with
  | [] => return current
  | [e] => env.evaluate current e
  | first :: second :: rest =>
    match current with
    | .list items key => env.aggregate items key (first :: second :: rest)
    | current => env.evaluateChain current current true (first :: second :: rest)
termination_by (sizeOfSteps steps, sizeOf current, 5)
decreasing_by all_goals simp [Prod.lex_def, sizeOfSteps]

def evaluateAll (env : Evaluator) (current : Value) (args : List Expr) : Eval (List Value) :=
  match args with
  | [] => return []
  | e :: rest => do
    have := e.size_pos
    let v ← env.evaluate current e
    let vs ← env.evaluateAll current rest
    return v :: vs
termination_by (sizeOfSteps args, sizeOf current, 5)
decreasing_by all_goals simp [Prod.lex_def, sizeOfSteps]; omega

def evaluateRow (env : Evaluator) (current : Value) (e : Expr) : Eval Value :=
  match e with
  | .literal v => return v
  | .key name => env.lookupKey current name true
  | .chain steps => env.evaluateChain current current true steps
  | .call name args =>
    have := current.sizeOf_pos
    env.call current current name args
  | .index target position => do
    let target ← env.evaluate current target
    let position ← env.evaluate current position
    match target, position.toInt? with
    | .list items _, some i => return if 0 ≤ i then items.getD i.toNat .null else .null
    | _, _ => return .null
  | .conditional condition whenTrue whenFalse => do
    if (← env.evaluate current condition).isTruthy then env.evaluate current whenTrue
    else
      match whenFalse with
      | some e => env.evaluate current e
      | none => return .null
  | .assignment op target value => do
    let v ← env.evaluate current value
    match target.lastKey? with
    | none => return .null
    | some name =>
      assign op name v
      return .text ""
  | .unary op operand => return op.apply (← env.evaluate current operand)
  | .binary .and left right => do
    if (← env.evaluate current left).isTruthy then
      return .boolean (← env.evaluate current right).isTruthy
    else return .boolean false
  | .binary .or left right => do
    if (← env.evaluate current left).isTruthy then return .boolean true
    else return .boolean (← env.evaluate current right).isTruthy
  | .binary op left right => do
    let a ← env.evaluate current left
    let b ← env.evaluate current right
    return op.apply a b
termination_by (e.size, sizeOf current, 0)
decreasing_by all_goals simp [Prod.lex_def, size, sizeOfOption]; try omega

/-- The value of a path: each step is evaluated on the value before it, and the arguments of calls
on the origin of the path. As soon as a value is a list, the steps that are left are evaluated over
it. -/
def evaluateChain (env : Evaluator) (origin value : Value) (head : Bool) (steps : List Expr) :
    Eval Value :=
  match steps with
  | [] => return value
  | step :: rest =>
    have := step.size_pos
    match head, value with
    | false, .list items key => env.aggregate items key (step :: rest)
    | head, value => do
      let next ← match step with
        | .key name => env.lookupKey value name head
        | .call name args => env.call origin value name args
        | step => env.evaluateRow value step
      env.evaluateChain origin next false rest
termination_by (sizeOfSteps steps, sizeOf value, 3)
decreasing_by all_goals simp [Prod.lex_def, sizeOfSteps, size] at *; try omega

/-- The value of a call on `target`, with arguments that are evaluated on `origin`. -/
def call (env : Evaluator) (origin target : Value) (name : String) (args : List Expr) :
    Eval Value := do
  match ← env.resolve target name args.length with
  | none => return .null
  | some r =>
    match env.rawMethod? r target name, args with
    | some run, [arg] => return valueOrNull (run arg)
    | _, args => return valueOrNull (env.invoke r target name (← env.evaluateAll origin args))
termination_by (sizeOfSteps args + 1, 0, 0)
decreasing_by all_goals simp [Prod.lex_def]; try omega

def aggregate (env : Evaluator) (items : List Value) (key : Option String) (steps : List Expr) :
    Eval Value :=
  match steps with
  | [] => return .list items key
  | head :: rest =>
    have := head.size_pos
    match head.aggregate? with
    | some a =>
      match head with
      | .call _ args => do
        have := sizeOfSteps_take_le 1 args
        let v ← env.applyAggregate a items key (args.take 1) args
        env.evaluateSteps v rest
      | _ => env.applyAggregate a items key rest []
    | none =>
      let whole : Eval Value := do
        let v ← env.evaluateRow (.list items key) head
        match ← env.evaluateSteps v rest, items with
        | .null, first :: _ => env.evaluateSteps first (head :: rest)
        | v, _ => return v
      match items with
      | .list group groupKey :: _ =>
        if !referencesAggregate (head :: rest) && key != some (renderSteps (head :: rest)) then
          env.aggregate group groupKey (head :: rest)
        else whole
      | _ => whole
termination_by (sizeOfSteps steps, sizeOf (Value.list items key), 2)
decreasing_by all_goals simp [Prod.lex_def, sizeOfSteps, size] at *; try omega

/-- The value of an aggregate over a list. `steps` is evaluated on each row; without steps the row
is its own value. `args` are the arguments of a call. -/
def applyAggregate (env : Evaluator) (a : Aggregate) (items : List Value) (key : Option String)
    (steps args : List Expr) : Eval Value :=
  let rows := leafRows items
  match a, args with
  | .group, [] =>
    if steps.isEmpty then return .list items key else env.group rows steps
  | .group, args => env.group rows args
  | .join, args => do
    let delimiter ← match args with
      | _ :: d :: _ => Value.render <$> env.evaluate (.list items key) d
      | _ => pure env.delimiter
    let values ← rows.mapM fun row => env.evaluateSteps row steps
    return .text (String.intercalate delimiter ((values.filter (!·.isNull)).map Value.render))
  | a, _ =>
    if steps.isEmpty && a == .count then return .ofNat items.length
    else if steps.isEmpty && a == .countDeep then return .ofNat rows.length
    else a.overRows rows fun row => env.evaluateSteps row steps
termination_by (max (sizeOfSteps steps) (sizeOfSteps args) + 1, 0, 1)
decreasing_by all_goals simp [Prod.lex_def, sizeOfSteps]; try omega

/-- The list of the classes of rows with equivalent values of the first key, each grouped further by
the other keys. -/
def group (env : Evaluator) (rows : List Value) (keys : List Expr) : Eval Value :=
  match keys with
  | [] => return .ofList rows
  | k :: rest => do
    have := k.size_pos
    let values ← rows.mapM fun row => env.evaluate row k
    let groups ← (classes values rows).mapM fun members => env.group members rest
    return .list (groups.map (markGroup k.render)) (some k.render)
termination_by (sizeOfSteps keys + 1, 0, 0)
decreasing_by all_goals simp [Prod.lex_def, sizeOfSteps]; try omega

end

end Evaluator

end Rowlang
