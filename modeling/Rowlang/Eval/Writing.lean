import Rowlang.Eval.Evaluator

/-!
# Writing through expressions

A value is written through a key, or through a path that ends in one: the path before the key leads
to the object.

* `Expr.target?` : the path before the key, and the key;
* `Record.write` : an object with an attribute written, unless the value is refused;
* `Evaluator.write` : the objects after a value has been written.
-/

namespace Rowlang
open Rowlang.Text

/-- The path before the key that an expression ends in, and the key. -/
def Expr.target? : Expr → Option (List Expr × String)
  | .key name => some ([], name)
  | .chain steps => (steps.getLast?.bind Expr.keyName?).map (steps.dropLast, ·)
  | _ => none

/-- The value as the attribute takes it: one of its choices, in the spelling of the choice, if it
has any. -/
def Record.accept (o : Record) (key : String) (v : Value) : Except EvalError Value :=
  match o.choices? key with
  | none => .ok v
  | some choices =>
    match choices.find? fun c => equalIgnoringCase c v.render with
    | some c => .ok (.text c)
    | none => .error (.invalidChoice key v.render choices)

def Record.write (o : Record) (typeName key : String) (v : Value) : Except EvalError Record := do
  let v ← o.accept key v
  if o.isSealed then .error (.readOnly typeName key) else .ok (o.set key v)

def Store.write (s : Store) (ref : ObjectRef) (key : String) (v : Value) :
    Except EvalError Store :=
  match s.get? ref with
  | some o => s.update ref <$> o.write ref.typeName key v
  | none => .error (.readOnly ref.typeName key)

/-- The objects after a value has been written through an expression, starting from `target`. -/
def Evaluator.write (env : Evaluator) (target : Value) (e : Expr) (v : Value) :
    Eval (Except EvalError Store) := do
  match e.target? with
  | none => return .error (.unsupportedTarget e.render)
  | some (path, key) =>
    match ← env.evaluateSteps target path with
    | .object ref => return env.store.write ref key v
    | other => return .error (.notAnObject e.render other.typeName)

end Rowlang
