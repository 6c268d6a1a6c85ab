import Rowlang.Engine
import Rowlang.Proofs.Eval.Purity

/-!
# What evaluations change

Assignments are all that an evaluation does to a context: the root stays, and so do the variables that no
assignment within the expression writes. An evaluation without assignments can be run again: by then all its
calls are remembered, so that it takes the same way, whatever objects and types there are.

* `Expr.Writes` : the variables that the assignments within some expressions write;
* `Evaluator.framing` : the other variables are kept;
* `EvalState.Extends` : a state with the same variables that remembers more;
* `Evaluator.replaying` : an evaluation without assignments gives its value again from all such states;
* `OnlyAssigns` : what this is for a context;
* `Evaluator.onlyAssigns` : expressions, steps of paths and aggregates do nothing else.
-/

namespace Rowlang
open Value

namespace Expr

/-- An assignment within the expressions writes the variable. -/
def Writes (es : List Expr) (name : String) : Prop :=
  ∃ op target value, .assignment op target value ∈ subtermsOf es ∧ target.lastKey? = some name

def AllAssignmentFree (es : List Expr) : Prop := ThroughoutAll (fun t => t.isAssignment = false) es

theorem uses_writes (es : List Expr) : ThroughoutAll (Uses (fun _ => True) (Writes es)) es := by
  intro t listed
  cases t with
  | literal v => exact fun _ _ => trivial
  | assignment op target value => exact fun name last => ⟨op, target, value, listed, last⟩
  | _ => trivial

theorem AllAssignmentFree.uses {es : List Expr} (free : AllAssignmentFree es) :
    ThroughoutAll (Uses (fun _ => True) fun _ => False) es := by
  rw [AllAssignmentFree, throughoutAll_iff] at free
  exact throughoutAll_iff.2 fun e listed => AssignmentFree.uses (free e listed) e.literalsWithin_all

end Expr

/-! ## The variables that are not written -/

namespace Evaluator

variable {env : Evaluator}

/-- The variables are kept but for those of `names`. -/
def framing (env : Evaluator) (names : String → Prop) : EvalLogic env (fun _ => True) names where
  Holds m Q := ∀ s, Q (m.run s).1 ∧ ∀ name, ¬ names name →
    (m.run s).2.bindings.get? name = s.bindings.get? name
  pure hx s := ⟨hx, fun _ _ => rfl⟩
  bind first next s := by
    obtain ⟨hx, kept⟩ := first s
    obtain ⟨hy, kept'⟩ := next _ hx _
    exact ⟨hy, fun name free => (kept' name free).trans (kept name free)⟩
  lookupKey name head _ s := by
    rw [lookupKey_unchanged]
    exact ⟨fun _ _ => trivial, fun _ _ => rfl⟩
  resolve name arity _ s := ⟨fun _ _ => ⟨fun _ _ _ _ _ => trivial, fun _ _ _ _ => trivial⟩, fun _ _ => rfl⟩
  assign op name v written _ s := by
    refine ⟨trivial, fun other free => Dictionary.get?_insert_of_ne _ _ ?_⟩
    rintro rfl
    exact free written

end Evaluator

/-! ## Running again -/

/-- The states have the same variables, and the second remembers what the first does. -/
structure EvalState.Extends (s s' : EvalState) : Prop where
  bindings : s'.bindings = s.bindings
  remembered : ∀ call found, s.functions.resolved.lookup call = some found →
    s'.functions.resolved.lookup call = some found

namespace EvalState.Extends

variable {s s' s'' : EvalState}

theorem refl (s : EvalState) : s.Extends s := ⟨rfl, fun _ _ h => h⟩

theorem trans (h : s.Extends s') (h' : s'.Extends s'') : s.Extends s'' :=
  ⟨h'.bindings.trans h.bindings, fun call found known => h'.remembered call found (h.remembered call found known)⟩

end EvalState.Extends

namespace FunctionRegistry

variable {r r' : FunctionRegistry} {store : Store} {target : Value} {name : String} {arity : Nat}

theorem lookup_resolve (call : CallKey) (found : Option Resolution)
    (known : r.resolved.lookup call = some found) :
    (r.resolve store target name arity).2.resolved.lookup call = some found := by
  unfold resolve
  dsimp only
  split
  · exact known
  · rename_i unknown
    have other : (call == (⟨target.typeName, name, arity⟩ : CallKey)) = false := by
      refine beq_eq_false_iff_ne.2 ?_
      rintro rfl
      cases unknown.symm.trans known
    rw [List.lookup_cons, other]
    exact known

theorem lookup_resolve_self : (r.resolve store target name arity).2.resolved.lookup
    ⟨target.typeName, name, arity⟩ = some (r.resolve store target name arity).1 := by
  unfold resolve
  dsimp only
  split
  · assumption
  · exact List.lookup_cons_self

theorem resolve_of_known {found : Option Resolution}
    (known : r.resolved.lookup ⟨target.typeName, name, arity⟩ = some found) :
    r.resolve store target name arity = (found, r) := by
  unfold resolve
  dsimp only
  rw [known]

end FunctionRegistry

namespace Evaluator

variable {env : Evaluator}

/-- Without assignments, an evaluation only remembers more, and gives its value again from every state that
remembers as much. -/
def replaying (env : Evaluator) : EvalLogic env (fun _ => True) fun _ => False where
  Holds m Q := ∀ s, Q (m.run s).1 ∧ s.Extends (m.run s).2 ∧
    ∀ s', (m.run s).2.Extends s' → m.run s' = ((m.run s).1, s')
  pure hx s := ⟨hx, .refl s, fun _ _ => rfl⟩
  bind first next s := by
    obtain ⟨hx, more, replay⟩ := first s
    obtain ⟨hy, more', replay'⟩ := next _ hx _
    refine ⟨hy, more.trans more', fun s' enough => ?_⟩
    rw [Eval.run_bind (replay s' (more'.trans enough))]
    exact replay' s' enough
  lookupKey {target} name head _ s := by
    rw [lookupKey_unchanged]
    refine ⟨fun _ _ => trivial, .refl s, fun s' enough => Prod.ext ?_ (lookupKey_unchanged ..)⟩
    exact (sameFrom_lookupKey fun _ => by rw [enough.bindings]).value
  resolve {target} name arity _ s := by
    rw [run_resolve]
    refine ⟨fun _ _ => ⟨fun _ _ _ _ _ => trivial, fun _ _ _ _ => trivial⟩,
      ⟨rfl, FunctionRegistry.lookup_resolve⟩, fun s' enough => ?_⟩
    rw [run_resolve, FunctionRegistry.resolve_of_known (enough.remembered _ _ FunctionRegistry.lookup_resolve_self)]
  assign _ _ _ written _ := written.elim

end Evaluator

/-! ## Contexts -/

/-- Running `m` in a context leaves the root and all variables that no assignment within the expressions
writes. If there are no assignments, it leaves the context, and running it again gives the same value. -/
structure OnlyAssigns (es : List Expr) (m : Eval Value) : Prop where
  root : ∀ (e : Engine) (c : Context), (e.run c m).2.1.root = c.root
  unwritten : ∀ (e : Engine) (c : Context) (name : String), ¬ Expr.Writes es name →
    (e.run c m).2.1.bindings.get? name = c.bindings.get? name
  unchanged : Expr.AllAssignmentFree es → ∀ (e : Engine) (c : Context), (e.run c m).2.1 = c
  again : Expr.AllAssignmentFree es → ∀ (e : Engine) (c : Context),
    (e.run c m).2.2.run (e.run c m).2.1 m = e.run c m

theorem Engine.run_of {e : Engine} {c : Context} {m : Eval Value} {v : Value} {s : EvalState}
    (ran : m.run ⟨c.bindings, e.functions⟩ = (v, s)) :
    e.run c m = (v, { c with bindings := s.bindings }, { e with functions := s.functions }) := by
  unfold Engine.run
  rw [ran]

namespace Evaluator

theorem onlyAssigns_of_holds (env : Evaluator) {es : List Expr} {m : Eval Value}
    (frame : (env.framing (Expr.Writes es)).Holds m (Within fun _ => True))
    (replay : Expr.AllAssignmentFree es → env.replaying.Holds m (Within fun _ => True)) :
    OnlyAssigns es m where
  root _ _ := rfl
  unwritten e c := (frame ⟨c.bindings, e.functions⟩).2
  unchanged free e c := by
    obtain ⟨-, more, -⟩ := replay free ⟨c.bindings, e.functions⟩
    exact congrArg (Context.mk c.root) more.bindings
  again free e c := by
    obtain ⟨-, -, again⟩ := replay free ⟨c.bindings, e.functions⟩
    obtain ⟨⟨v, s⟩, ran⟩ : ∃ result, m.run ⟨c.bindings, e.functions⟩ = result := ⟨_, rfl⟩
    rw [ran] at again
    rw [Engine.run_of ran]
    exact Engine.run_of (again s (.refl s))

/-- Assignments are the only effect of evaluations on a context. -/
theorem onlyAssigns (env : Evaluator) (current : Value) (x : Expr) (steps : List Expr) (items : List Value)
    (key : Option String) : OnlyAssigns [x] (env.evaluate current x) ∧
      OnlyAssigns steps (env.evaluateSteps current steps) ∧
      OnlyAssigns steps (env.aggregate items key steps) := by
  have anywhere (v : Value) : v.Within fun _ => True := fun _ _ => trivial
  have single {P : Expr → Prop} (h : Expr.ThroughoutAll P [x]) : x.Throughout P :=
    (Expr.throughoutAll_cons.1 h).1
  refine ⟨env.onlyAssigns_of_holds ?_ fun free => ?_, env.onlyAssigns_of_holds ?_ fun free => ?_,
    env.onlyAssigns_of_holds ?_ fun free => ?_⟩
  · exact (env.framing _).evaluate (single (Expr.uses_writes [x])) (anywhere _)
  · exact env.replaying.evaluate (single free.uses) (anywhere _)
  · exact (env.framing _).evaluateSteps (Expr.uses_writes steps) (anywhere _)
  · exact env.replaying.evaluateSteps free.uses (anywhere _)
  · exact (env.framing _).aggregate (Expr.uses_writes steps) fun _ _ => anywhere _
  · exact env.replaying.aggregate free.uses fun _ _ => anywhere _

end Evaluator

end Rowlang
