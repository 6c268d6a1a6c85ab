import Rowlang.Proofs.Eval.Logic

/-!
# Evaluations without assignments

An expression without assignments leaves the variables as they are. It may yet remember what its calls
resolved to, under the name of the type of what is called on. Where values of one type name resolve alike,
that makes no difference either: the expression has one value, whatever was evaluated before.

* `Expr.AssignmentFree` : no assignment is within the expression;
* `EvalState.Agrees` : two states that differ in the resolutions that they remember at most;
* `Evaluator.agrees_evaluate` : without assignments, evaluations end in such states;
* `Evaluator.Uniform` : values of one type name resolve alike, among all that can come up;
* `Evaluator.uniform_of_bare` : so do objects without methods;
* `Evaluator.exists_value` : there, an expression without assignments has one value.
-/

namespace Rowlang
open Value

namespace Expr

/-- Whether the expression itself is an assignment. -/
def isAssignment : Expr → Bool
  | .assignment .. => true
  | _ => false

/-- No assignment is within the expression. -/
def AssignmentFree (e : Expr) : Prop := e.Throughout fun t => t.isAssignment = false

/-- All literals within the expression refer to known objects. -/
def LiteralsWithin (known : ObjectRef → Prop) (e : Expr) : Prop :=
  e.Throughout fun t => ∀ v, t = .literal v → v.Within known

theorem AssignmentFree.uses {known : ObjectRef → Prop} {e : Expr} (free : e.AssignmentFree)
    (literals : e.LiteralsWithin known) : e.Throughout (Uses known fun _ => False) := by
  intro t listed
  have plain := free t listed
  cases t with
  | literal v => exact literals _ listed v rfl
  | assignment => cases plain
  | _ => trivial

theorem literalsWithin_all (e : Expr) : e.LiteralsWithin fun _ => True := fun _ _ _ _ _ _ => trivial

end Expr

/-! ## The variables -/

/-- The states agree but for the resolutions that they remember. -/
structure EvalState.Agrees (s s' : EvalState) : Prop where
  bindings : s'.bindings = s.bindings
  providers : s'.functions.providers = s.functions.providers

namespace EvalState.Agrees

variable {s s' s'' : EvalState}

theorem refl (s : EvalState) : s.Agrees s := ⟨rfl, rfl⟩

theorem trans (h : s.Agrees s') (h' : s'.Agrees s'') : s.Agrees s'' :=
  ⟨h'.bindings.trans h.bindings, h'.providers.trans h.providers⟩

end EvalState.Agrees

namespace FunctionRegistry

theorem providers_resolve (r : FunctionRegistry) (store : Store) (target : Value) (name : String)
    (arity : Nat) : (r.resolve store target name arity).2.providers = r.providers := by
  unfold resolve
  dsimp only
  split <;> rfl

/-- What is found does not depend on what is remembered. -/
theorem search_congr {r r' : FunctionRegistry} (same : r'.providers = r.providers) (store : Store)
    (target : Value) (name : String) (arity : Nat) :
    r'.search store target name arity = r.search store target name arity := by
  unfold search
  rw [same]

end FunctionRegistry

namespace Evaluator

variable {env : Evaluator} {known : ObjectRef → Prop} {s s' : EvalState}

theorem run_resolve (env : Evaluator) (target : Value) (name : String) (arity : Nat) (s : EvalState) :
    (env.resolve target name arity).run s = ((s.functions.resolve env.store target name arity).1,
      { s with functions := (s.functions.resolve env.store target name arity).2 }) := rfl

/-- A state is left as it is but for what it remembers, if no variable is written. -/
def agreeing (env : Evaluator) : EvalLogic env (fun _ => True) fun _ => False where
  Holds m Q := ∀ s, Q (m.run s).1 ∧ s.Agrees (m.run s).2
  pure hx s := ⟨hx, .refl s⟩
  bind first next s := by
    obtain ⟨hx, agrees⟩ := first s
    obtain ⟨hy, agrees'⟩ := next _ hx _
    exact ⟨hy, agrees.trans agrees'⟩
  lookupKey name head _ s := by
    rw [lookupKey_unchanged]
    exact ⟨fun _ _ => trivial, .refl s⟩
  resolve name arity _ s := by
    rw [run_resolve]
    exact ⟨fun _ _ => ⟨fun _ _ _ _ _ => trivial, fun _ _ _ _ => trivial⟩, rfl,
      FunctionRegistry.providers_resolve ..⟩
  assign _ _ _ written _ := written.elim

/-- An expression without assignments leaves all variables as they are. -/
theorem agrees_evaluate {e : Expr} (free : e.AssignmentFree) (current : Value) (s : EvalState) :
    s.Agrees ((env.evaluate current e).run s).2 := by
  have holds : env.agreeing.Holds (env.evaluate current e) (Within fun _ => True) :=
    env.agreeing.evaluate (free.uses e.literalsWithin_all) fun _ _ => trivial
  exact (holds s).2

/-! ## The remembered resolutions -/

/-- Values of one type name resolve alike, among the values that refer to known objects, and what is
remembered of their type is what is found. All that evaluations come upon from there are such values: what
variables, attributes, methods and functions give. -/
structure Uniform (env : Evaluator) (known : ObjectRef → Prop) (s : EvalState) : Prop where
  bindings : ∀ name v, s.bindings.get? name = some v → v.Within known
  attributes : ∀ ref r name v, known ref → env.store.get? ref = some r → r.lookup? name = some v →
    v.Within known
  rawMethods : ∀ ref r name run arg v, known ref → env.store.get? ref = some r →
    r.rawMethod? name = some run → run arg = .ok v → v.Within known
  methods : ∀ ref r name arity run args v, known ref → env.store.get? ref = some r →
    r.valueMethod? name arity = some run → (∀ a ∈ args, a.Within known) → run args = .ok v →
    v.Within known
  functions : ∀ p ∈ s.functions.providers, p.Keeps known
  alike : ∀ v w : Value, v.Within known → w.Within known → v.typeName = w.typeName → ∀ name arity,
    s.functions.search env.store v name arity = s.functions.search env.store w name arity
  remembered : ∀ call found, s.functions.resolved.lookup call = some found → ∀ v : Value,
    v.Within known → v.typeName = call.typeName →
    found = s.functions.search env.store v call.name call.arity

/-- In a uniform state a call resolves to what is found. -/
theorem Uniform.resolve (uniform : env.Uniform known s) {target : Value} (within : target.Within known)
    (name : String) (arity : Nat) :
    (s.functions.resolve env.store target name arity).1 = s.functions.search env.store target name arity ∧
      env.Uniform known { s with functions := (s.functions.resolve env.store target name arity).2 } := by
  unfold FunctionRegistry.resolve
  dsimp only
  split
  · rename_i found known
    exact ⟨uniform.remembered _ found known target within rfl, uniform⟩
  · refine ⟨rfl, { uniform with remembered := fun call found h v hv same => ?_ }⟩
    rw [List.lookup_cons] at h
    split at h
    · rename_i here
      obtain rfl : call = ⟨target.typeName, name, arity⟩ := by simpa using here
      cases h
      exact uniform.alike target v within hv same.symm name arity
    · exact uniform.remembered call found h v hv same

/-- Objects without methods resolve alike: their calls resolve to functions. -/
theorem uniform_of_bare
    (bindings : ∀ name v, s.bindings.get? name = some v → v.Within known)
    (attributes : ∀ ref r name v, known ref → env.store.get? ref = some r → r.lookup? name = some v →
      v.Within known)
    (bare : ∀ ref r, known ref → env.store.get? ref = some r → r.methods = [])
    (functions : ∀ p ∈ s.functions.providers, p.Keeps known) (fresh : s.functions.resolved = []) :
    env.Uniform known s where
  bindings := bindings
  attributes := attributes
  rawMethods ref r name run arg v here held raw _ := by
    rw [Record.rawMethod?, bare ref r here held] at raw
    cases raw
  methods ref r name arity run args v here held method _ _ := by
    rw [Record.valueMethod?, bare ref r here held] at method
    cases method
  functions := functions
  alike v w hv hw _ name arity := by
    have found {v : Value} (within : v.Within known) : s.functions.search env.store v name arity =
        FunctionRegistry.searchFunction (s.functions.providers ++ [builtins]) name arity := by
      unfold FunctionRegistry.search
      cases v with
      | object ref =>
        cases held : env.store.get? ref with
        | none => simp [held]
        | some r =>
          have none := bare ref r (within_object.1 within) held
          simp [held, FunctionRegistry.searchMethod, Record.rawMethod?, Record.valueMethod?, none]
      | _ => rfl
    rw [found hv, found hw]
  remembered call found listed := by
    rw [fresh] at listed
    cases listed

/-- An item has no methods, and its only attribute is a number, as is the only variable. -/
theorem uniform_order : orderEvaluator.Uniform (· = ⟨1, "Item"⟩) (stateOf [("a", .ofNat 2)]) := by
  have only {x v : Value} {name : String} (h : (Dictionary.ofList [("a", x)]).get? name = some v) : v = x := by
    rw [show Dictionary.ofList [("a", x)] = Dictionary.empty.insert "a" x from rfl, Dictionary.get?_insert] at h
    split at h <;> cases h
    rfl
  refine uniform_of_bare (fun name v bound => ?_) ?_ ?_ (List.forall_mem_nil _) rfl
  · rw [only bound]
    exact within_number _
  · rintro _ r name v rfl found given
    cases found
    obtain ⟨k, -, here⟩ := Option.bind_eq_some_iff.1 given
    rw [only here]
    exact within_number _
  · rintro _ r rfl found
    cases found
    rfl

theorem Uniform.keeps_search (uniform : env.Uniform known s) {target : Value} {name : String} {arity : Nat}
    {r : Resolution} (found : s.functions.search env.store target name arity = some r) : r.Keeps known := by
  unfold FunctionRegistry.search at found
  rcases Option.or_eq_some_iff.1 found with method | ⟨-, function⟩
  · cases target with
    | object ref =>
      obtain ⟨o, -, made⟩ := Option.bind_eq_some_iff.1 method
      unfold FunctionRegistry.searchMethod at made
      split at made
      · cases made
        trivial
      · split at made <;> cases made
        trivial
    | _ => cases method
  · refine FunctionRegistry.keeps_searchFunction (List.forall_mem_append.2 ⟨uniform.functions, ?_⟩) function
    exact List.forall_mem_singleton.2 (keeps_builtins known)

theorem within_valueOrNull {r : Except EvalError Value} (h : ∀ v, r = .ok v → v.Within known) :
    (valueOrNull r).Within known := by
  cases r with
  | error e => exact within_null
  | ok v => exact h v rfl

theorem Uniform.within_raw (uniform : env.Uniform known s) {target : Value} (within : target.Within known)
    {name : String} {r : Resolution} {run : Expr → Except EvalError Value} {arg : Expr}
    (raw : env.rawMethod? r target name = some run) : (valueOrNull (run arg)).Within known := by
  unfold rawMethod? at raw
  split at raw
  · rename_i ref
    cases raw
    refine within_valueOrNull fun v made => ?_
    cases method : (env.store.get? ref).bind (·.rawMethod? name) with
    | none =>
      rw [method] at made
      cases made
    | some run =>
      rw [method] at made
      obtain ⟨o, held, method⟩ := Option.bind_eq_some_iff.1 method
      exact uniform.rawMethods ref o name run arg v (within_object.1 within) held method made
  · cases raw

theorem Uniform.within_invoke (uniform : env.Uniform known s) {target : Value} (within : target.Within known)
    {name : String} {r : Resolution} (keeps : r.Keeps known) {args : List Value}
    (inside : ∀ a ∈ args, a.Within known) : (valueOrNull (env.invoke r target name args)).Within known := by
  refine within_valueOrNull fun v made => ?_
  unfold invoke at made
  split at made
  · rename_i ref
    split at made
    · rename_i run method
      obtain ⟨o, held, method⟩ := Option.bind_eq_some_iff.1 method
      exact uniform.methods ref o name _ run args v (within_object.1 within) held method inside made
    · cases made
  · exact keeps target args v within inside made
  · exact keeps target args v within inside made
  · cases made

/-- What a call may lead to in a uniform state. -/
theorem Uniform.answers (uniform : env.Uniform known s) {target : Value} (within : target.Within known)
    (name : String) (arity : Nat) :
    env.Answers known target name (s.functions.search env.store target name arity) :=
  fun _ found => ⟨fun _ _ raw => uniform.within_raw within raw,
    fun _ inside => uniform.within_invoke within (uniform.keeps_search found) inside⟩

/-- From every uniform state that agrees with `s` the evaluation gives the value, and ends in such a
state. -/
def Gives (env : Evaluator) (known : ObjectRef → Prop) (s : EvalState) {α : Type} (m : Eval α) (x : α) :
    Prop :=
  ∀ s', s.Agrees s' → env.Uniform known s' →
    (m.run s').1 = x ∧ s.Agrees (m.run s').2 ∧ env.Uniform known (m.run s').2

theorem Gives.bind {α β : Type} {m : Eval α} {f : α → Eval β} {x : α} {y : β}
    (first : env.Gives known s m x) (next : env.Gives known s (f x) y) :
    env.Gives known s (m >>= f) y := by
  intro s' agrees uniform
  obtain ⟨rfl, agrees', uniform'⟩ := first s' agrees uniform
  exact next _ agrees' uniform'

theorem Gives.pure {α : Type} (x : α) : env.Gives known s (Pure.pure x) x :=
  fun _ agrees uniform => ⟨rfl, agrees, uniform⟩

theorem Uniform.lookupKey (uniform : env.Uniform known s) {target : Value} (within : target.Within known)
    (name : String) (head : Bool) :
    ∃ v, v.Within known ∧ env.Gives known s (env.lookupKey target name head) v := by
  refine ⟨((env.lookupKey target name head).run s).1, ?_, fun s' agrees uniform' => ?_⟩
  · unfold Evaluator.lookupKey
    dsimp only
    split
    · rename_i v found
      split at found
      · obtain ⟨r, held, named⟩ := Option.bind_eq_some_iff.1 found
        exact uniform.attributes _ r name v (within_object.1 within) held named
      · cases found
    · split
      · exact within
      · split
        · exact within_getD fun v bound => uniform.bindings name v bound
        · exact within_null
  · rw [lookupKey_unchanged]
    exact ⟨(sameFrom_lookupKey fun _ => by rw [agrees.bindings]).value, agrees, uniform'⟩

/-- Without assignments, an evaluation from a uniform state has one value. -/
def settled (uniform : env.Uniform known s) : EvalLogic env known fun _ => False where
  Holds m Q := ∃ x, Q x ∧ env.Gives known s m x
  pure hx := ⟨_, hx, .pure _⟩
  bind first next := by
    obtain ⟨x, hx, gives⟩ := first
    obtain ⟨y, hy, gives'⟩ := next x hx
    exact ⟨y, hy, gives.bind gives'⟩
  lookupKey name head within := uniform.lookupKey within name head
  resolve {target} name arity within := by
    refine ⟨s.functions.search env.store target name arity, uniform.answers within name arity,
      fun s' agrees uniform' => ?_⟩
    obtain ⟨found, uniform''⟩ := uniform'.resolve within name arity
    rw [run_resolve]
    exact ⟨found.trans (FunctionRegistry.search_congr agrees.providers ..), ⟨agrees.bindings,
      (FunctionRegistry.providers_resolve ..).trans agrees.providers⟩, uniform''⟩
  assign _ _ _ written _ := written.elim

/-- Where values of one type name resolve alike, an expression without assignments has one value, whatever
was evaluated before. -/
theorem exists_value (uniform : env.Uniform known s) {e : Expr} (free : e.AssignmentFree)
    (literals : e.LiteralsWithin known) {current : Value} (within : current.Within known) :
    ∃ v, v.Within known ∧ env.Gives known s (env.evaluate current e) v :=
  (settled uniform).evaluate (free.uses literals) within

end Evaluator

end Rowlang
