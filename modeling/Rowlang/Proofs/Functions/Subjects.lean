import Mathlib.Data.List.Induction
import Rowlang.Functions.Registry

/-!
# Functions of a subject

A built-in function of a subject is found under its name, for every number of arguments of both forms: with
the subject before the point, and with the subject as the first argument. Both forms then give the same.

* `FunctionProvider.lookup?_addSubjectFunction`, `lookup?_builtins` : the function under its name;
* `FunctionRegistry.search_builtins` : a call on a value without methods resolves to it;
* `Functions.SubjectFunction.toFunction_among` : the subject among the arguments, or before the point.
-/

namespace Rowlang

/-! ## The functions under their names -/

namespace FunctionProvider

variable {p : FunctionProvider} {name : String} {arity : Nat}

theorem lookup?_function_self (f : Function) : (p.function name arity f).lookup? (lowerName name) arity = some f := by
  unfold lookup? function
  rw [List.lookup_cons, beq_self_eq_true]

theorem lookup?_function_other {name' : String} {arity' : Nat} (f : Function)
    (other : (name', arity') ≠ (lowerName name, arity)) :
    (p.function name arity f).lookup? name' arity' = p.lookup? name' arity' := by
  unfold lookup? function
  rw [List.lookup_cons, beq_eq_false_iff_ne.2 other]

theorem lookup?_varargs (name' : String) (arity : Nat) (f : Function) :
    (p.varargs name f).lookup? name' arity = p.lookup? name' arity := rfl

end FunctionProvider

namespace Functions

variable {p : FunctionProvider} {f : SubjectFunction} {n : Nat}

/-- A function is added for the numbers of arguments from the least of one form to the greatest of the
other. -/
theorem lookup?_addSubjectFunction (f : SubjectFunction) (least : f.least ≤ n) (most : n ≤ f.most + 1) :
    (addSubjectFunction p f).lookup? (lowerName f.name) n = some f.toFunction := by
  -- of the numbers that are added the one that is sought stays what it is once it is there
  have added (k : Nat) (inside : n < f.least + k) : ((List.range k).foldl
      (fun p i => p.function f.name (f.least + i) f.toFunction) p).lookup? (lowerName f.name) n =
        some f.toFunction := by
    induction k with
    | zero => omega
    | succ k ih =>
      rw [List.range_succ, List.foldl_append, List.foldl_cons, List.foldl_nil]
      by_cases last : n = f.least + k
      · rw [last]
        exact FunctionProvider.lookup?_function_self _
      · rw [FunctionProvider.lookup?_function_other _ fun same => last (Prod.mk.inj same).2]
        exact ih (by omega)
  exact added _ (by omega)

theorem lookup?_addSubjectFunction_other {name : String} (other : name ≠ lowerName f.name) :
    (addSubjectFunction p f).lookup? name n = p.lookup? name n := by
  unfold addSubjectFunction
  induction List.range (f.most + 2 - f.least) generalizing p with
  | nil => rfl
  | cons i rest ih =>
    rw [List.foldl_cons, ih, FunctionProvider.lookup?_function_other _ fun same => other (Prod.mk.inj same).1]

theorem lookup?_foldl {fs : List SubjectFunction} (different : (fs.map fun f => lowerName f.name).Nodup)
    (listed : f ∈ fs) (least : f.least ≤ n) (most : n ≤ f.most + 1) :
    (fs.foldl addSubjectFunction p).lookup? (lowerName f.name) n = some f.toFunction := by
  induction fs using List.reverseRecOn with
  | nil => cases listed
  | append_singleton fs g ih =>
    rw [List.map_append, List.map_singleton, List.nodup_append] at different
    obtain ⟨earlier, -, apart⟩ := different
    rw [List.foldl_append, List.foldl_cons, List.foldl_nil]
    rcases List.mem_append.1 listed with before | last
    · rw [lookup?_addSubjectFunction_other (apart _ (List.mem_map_of_mem before) _ (List.mem_singleton_self _))]
      exact ih earlier before
    · rw [List.mem_singleton.1 last] at least most ⊢
      exact lookup?_addSubjectFunction g least most

theorem lookup?_builtins (listed : f ∈ subjectFunctions) (least : f.least ≤ n) (most : n ≤ f.most + 1) :
    builtins.lookup? (lowerName f.name) n = some f.toFunction := by
  have different : (subjectFunctions.map fun f => lowerName f.name).Nodup := by decide +kernel
  unfold builtins
  rw [FunctionProvider.lookup?_varargs, FunctionProvider.lookup?_varargs, FunctionProvider.lookup?_varargs]
  exact lookup?_foldl different listed least most

end Functions

/-- A call of a built-in function by its name, in any case of the letters, resolves to it if no providers are
registered and the value that is called on has no methods. -/
theorem FunctionRegistry.search_builtins {r : FunctionRegistry} (alone : r.providers = []) {store : Store}
    {target : Value} (bare : ∀ ref o, target = .object ref → store.get? ref = some o → o.methods = [])
    {f : Functions.SubjectFunction} (listed : f ∈ Functions.subjectFunctions) {name : String}
    (named : lowerName name = lowerName f.name) {n : Nat} (least : f.least ≤ n) (most : n ≤ f.most + 1) :
    r.search store target name n = some (.function f.toFunction) := by
  have function : searchFunction ([] ++ [builtins]) name n = some (.function f.toFunction) := by
    unfold searchFunction
    dsimp only
    rw [named, List.nil_append, List.findSome?_singleton, Functions.lookup?_builtins listed least most]
  unfold search
  rw [alone, function]
  cases target with
  | object ref =>
    cases held : store.get? ref with
    | none => simp [held]
    | some o =>
      have none := bare ref o rfl held
      simp [held, searchMethod, Record.rawMethod?, Record.valueMethod?, none]
  | _ => rfl

/-! ## The subject -/

namespace Functions.SubjectFunction

variable {f : SubjectFunction} {c v : Value} {args : List Value}

theorem toFunction_eq (target : Value) (args : List Value) : f.toFunction target args =
    (f.run (chooseSubject f.most f.kind target args).1 (chooseSubject f.most f.kind target args).2).mapError
      (.functionFailed f.name) := rfl

/-- The value that is called on is the subject, if it is of the kind and there are not too many arguments. -/
theorem toFunction_before (most : args.length ≤ f.most) (kind : f.kind.has v = true) :
    f.toFunction v args = (f.run v args).mapError (.functionFailed f.name) := by
  have subject : chooseSubject f.most f.kind v args = (v, args) := by
    unfold chooseSubject
    split
    · rw [kind, if_neg (by simpa using most)]
    · rfl
  rw [toFunction_eq, subject]

/-- The first argument is the subject, if what is called on is not of the kind or there is one argument more
than the function takes besides. -/
theorem toFunction_among (form : f.kind.has c = false ∨ args.length = f.most) :
    f.toFunction c (v :: args) = (f.run v args).mapError (.functionFailed f.name) := by
  have subject : chooseSubject f.most f.kind c (v :: args) = (v, args) := by
    refine if_pos ?_
    rcases form with other | full
    · rw [other, Bool.not_false, Bool.or_true]
    · simp [full]
  rw [toFunction_eq, subject]

end Functions.SubjectFunction

end Rowlang
