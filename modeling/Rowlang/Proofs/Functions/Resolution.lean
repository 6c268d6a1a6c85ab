import Mathlib.Data.List.Induction
import Rowlang.Functions.Registry

/-!
# Remembered resolutions

A registry remembers what calls resolved to, by the type name of the value that is called on, the name that
is called and the number of arguments. What it answers is thus what the first call found that was like it in
these, since a provider was registered last. If objects of one type name have the same methods, this is what
the call itself finds, with one exception: the type of an object may have the name of another kind of values,
and then the methods of such an object get lost, or are taken for methods of those values.

* `Call.Finds` : what a call resolves to, by the order of methods and functions;
* `RegistryStep`, `FunctionRegistry.after` : registrations and calls, and the registry after them;
* `SameMethods` : the objects that are called on have the same methods if they have the same type name;
* `FunctionRegistry.finds_earliest` : the answer is what the earliest such call finds;
* `FunctionRegistry.finds_iff_not_confused` : when it is what the call itself finds.
-/

namespace Rowlang

/-! ## What a call resolves to -/

/-- What a method takes: an unevaluated argument, or so many values. -/
inductive MethodShape where
  | raw
  | values (arity : Nat)

/-- Whether an object has a method of a name and a shape. -/
def Record.respondsTo (o : Record) (name : String) : MethodShape → Bool
  | .raw => (o.rawMethod? name).isSome
  | .values arity => (o.valueMethod? name arity).isSome

/-- A call by name on a value, which may be an object of the store, with so many arguments. -/
structure Call where
  store : Store
  target : Value
  name : String
  arity : Nat

namespace Call

def key (c : Call) : CallKey := ⟨c.target.typeName, c.name, c.arity⟩

def receiver? (c : Call) : Option Record :=
  match c.target with
  | .object ref => c.store.get? ref
  | _ => none

/-- Whether an object is called on that has a method of a name and a shape. -/
def respondsTo (c : Call) (name : String) (shape : MethodShape) : Bool :=
  c.receiver?.any (·.respondsTo name shape)

/-- An object is called on, and it has a method for the call. -/
def HasMethod (c : Call) : Prop :=
  c.arity = 1 ∧ c.respondsTo c.name .raw ∨ c.respondsTo c.name (.values c.arity)

/-- What a call resolves to, with the providers in the order of their registration: a method that takes the
one argument unevaluated, a method of so many values, a function of so many arguments of the first provider
that has one, such a function of the first provider that takes any number of arguments, or nothing. -/
inductive Finds (providers : List FunctionProvider) (c : Call) : Option Resolution → Prop
  | rawMethod (one : c.arity = 1) (responds : c.respondsTo c.name .raw) : Finds providers c (some .rawMethod)
  | method (notRaw : ¬ (c.arity = 1 ∧ c.respondsTo c.name .raw))
      (responds : c.respondsTo c.name (.values c.arity)) : Finds providers c (some .method)
  | function {earlier later : List FunctionProvider} {p : FunctionProvider} {f : Function}
      (noMethod : ¬ c.HasMethod) (order : providers ++ [builtins] = earlier ++ p :: later)
      (first : ∀ q ∈ earlier, q.lookup? (lowerName c.name) c.arity = none)
      (found : p.lookup? (lowerName c.name) c.arity = some f) : Finds providers c (some (.function f))
  | varargs {earlier later : List FunctionProvider} {p : FunctionProvider} {f : Function}
      (noMethod : ¬ c.HasMethod)
      (noFunction : ∀ q ∈ providers ++ [builtins], q.lookup? (lowerName c.name) c.arity = none)
      (order : providers ++ [builtins] = earlier ++ p :: later)
      (first : ∀ q ∈ earlier, q.lookupVarargs? (lowerName c.name) = none)
      (found : p.lookupVarargs? (lowerName c.name) = some f) : Finds providers c (some (.varargs f))
  | nothing (noMethod : ¬ c.HasMethod)
      (noFunction : ∀ q ∈ providers ++ [builtins], q.lookup? (lowerName c.name) c.arity = none)
      (noVarargs : ∀ q ∈ providers ++ [builtins], q.lookupVarargs? (lowerName c.name) = none) :
      Finds providers c none

/-- What the search among the providers gives for the call. -/
def search (providers : List FunctionProvider) (c : Call) : Option Resolution :=
  FunctionRegistry.search ⟨providers, []⟩ c.store c.target c.name c.arity

/-- The method that the call resolves to. -/
def searchMethod (c : Call) : Option Resolution :=
  c.receiver?.bind fun o => FunctionRegistry.searchMethod o c.name c.arity

theorem search_eq (providers : List FunctionProvider) (c : Call) : c.search providers =
    c.searchMethod.or (FunctionRegistry.searchFunction (providers ++ [builtins]) c.name c.arity) := by
  unfold search FunctionRegistry.search searchMethod receiver?
  cases c.target <;> rfl

theorem searchMethod_eq (c : Call) : c.searchMethod =
    if c.arity = 1 ∧ c.respondsTo c.name .raw then some .rawMethod
    else if c.respondsTo c.name (.values c.arity) then some .method else none := by
  unfold searchMethod respondsTo
  cases c.receiver? with
  | none => simp
  | some o => rfl

theorem searchMethod_eq_none {c : Call} : c.searchMethod = none ↔ ¬ c.HasMethod := by
  rw [searchMethod_eq, HasMethod]
  split
  · simp [*]
  · split <;> simp [*]

variable {providers : List FunctionProvider} {c : Call} {found : Option Resolution}

/-- The search finds what the call resolves to. -/
theorem finds_search (providers : List FunctionProvider) (c : Call) :
    c.Finds providers (c.search providers) := by
  rw [search_eq]
  cases method : c.searchMethod with
  | some r =>
    rw [searchMethod_eq] at method
    split at method
    · rename_i raw
      cases method
      exact .rawMethod raw.1 raw.2
    · rename_i notRaw
      split at method <;> cases method
      exact .method notRaw ‹_›
  | none =>
    have noMethod := searchMethod_eq_none.1 method
    rw [Option.none_or, FunctionRegistry.searchFunction]
    split
    · rename_i f function
      obtain ⟨earlier, p, later, order, here, first⟩ := List.findSome?_eq_some_iff.1 function
      exact .function noMethod order first here
    · rename_i noFunction
      have noFunction := List.findSome?_eq_none_iff.1 noFunction
      cases varargs : (providers ++ [builtins]).findSome? (·.lookupVarargs? (lowerName c.name)) with
      | some f =>
        obtain ⟨earlier, p, later, order, here, first⟩ := List.findSome?_eq_some_iff.1 varargs
        exact .varargs noMethod noFunction order first here
      | none => exact .nothing noMethod noFunction (List.findSome?_eq_none_iff.1 varargs)

/-- A call resolves to one thing only. -/
theorem Finds.eq_search (finds : c.Finds providers found) : found = c.search providers := by
  have functions (noMethod : ¬ c.HasMethod) : c.search providers =
      FunctionRegistry.searchFunction (providers ++ [builtins]) c.name c.arity := by
    rw [search_eq, searchMethod_eq_none.2 noMethod, Option.none_or]
  cases finds with
  | rawMethod one responds => rw [search_eq, searchMethod_eq, if_pos ⟨one, responds⟩, Option.some_or]
  | method notRaw responds => rw [search_eq, searchMethod_eq, if_neg notRaw, if_pos responds, Option.some_or]
  | function noMethod order first here =>
    rw [functions noMethod, FunctionRegistry.searchFunction]
    rw [List.findSome?_eq_some_iff.2 ⟨_, _, _, order, here, first⟩]
  | varargs noMethod noFunction order first here =>
    rw [functions noMethod, FunctionRegistry.searchFunction]
    rw [List.findSome?_eq_none_iff.2 noFunction, List.findSome?_eq_some_iff.2 ⟨_, _, _, order, here, first⟩]
    rfl
  | nothing noMethod noFunction noVarargs =>
    rw [functions noMethod, FunctionRegistry.searchFunction]
    rw [List.findSome?_eq_none_iff.2 noFunction, List.findSome?_eq_none_iff.2 noVarargs]
    rfl

theorem finds_iff : c.Finds providers found ↔ found = c.search providers :=
  ⟨Finds.eq_search, fun h => h ▸ finds_search providers c⟩

end Call

/-! ## Registrations and calls -/

/-- One thing that is done to a registry. -/
inductive RegistryStep where
  | register (p : FunctionProvider)
  | resolve (c : Call)

/-- The providers that are registered in a sequence, in order. -/
def registered (steps : List RegistryStep) : List FunctionProvider :=
  steps.filterMap fun
    | .register p => some p
    | .resolve _ => none

/-- The calls of a sequence since the last registration. -/
def sinceRegistration (steps : List RegistryStep) : List Call :=
  steps.foldl (fun calls step =>
    match step with
    | .register _ => []
    | .resolve c => calls ++ [c]) []

/-- The first of the calls since the last registration whose resolution is remembered in the same way as that
of the call: one of the sequence, or else the call itself. -/
def earliest (steps : List RegistryStep) (c : Call) : Call :=
  ((sinceRegistration steps).find? (·.key = c.key)).getD c

/-- The objects that the calls are on have the same methods if they have the same type name. -/
def SameMethods (steps : List RegistryStep) : Prop :=
  ∀ c d : Call, .resolve c ∈ steps → .resolve d ∈ steps → ∀ ref ref', c.target = .object ref →
    d.target = .object ref' → ref.typeName = ref'.typeName →
    ∀ name shape, c.respondsTo name shape = d.respondsTo name shape

namespace FunctionRegistry

def answer (r : FunctionRegistry) (c : Call) : Option Resolution × FunctionRegistry :=
  r.resolve c.store c.target c.name c.arity

def step (r : FunctionRegistry) : RegistryStep → FunctionRegistry
  | .register p => r.register p
  | .resolve c => (r.answer c).2

def after (steps : List RegistryStep) : FunctionRegistry := steps.foldl step initial

/-- The registry remembers for each kind of calls what the first one of `calls` finds. -/
structure Remembers (r : FunctionRegistry) (providers : List FunctionProvider) (calls : List Call) : Prop where
  ordered : r.providers = providers
  resolved : ∀ key, r.resolved.lookup key = (calls.find? (·.key = key)).map (·.search providers)

variable {r : FunctionRegistry} {providers : List FunctionProvider} {calls : List Call}

theorem remembers_initial : initial.Remembers [] [] := ⟨rfl, fun _ => rfl⟩

theorem Remembers.register (remembers : r.Remembers providers calls) (p : FunctionProvider) :
    (r.register p).Remembers (providers ++ [p]) [] :=
  ⟨congrArg (· ++ [p]) remembers.ordered, fun _ => rfl⟩

/-- The answer is what the first call of the kind finds, and it is remembered. -/
theorem Remembers.answer (remembers : r.Remembers providers calls) (c : Call) :
    (r.answer c).1 = ((calls.find? (·.key = c.key)).getD c).search providers ∧
      (r.answer c).2.Remembers providers (calls ++ [c]) := by
  have search : r.search c.store c.target c.name c.arity = c.search providers := by
    rw [Call.search, ← remembers.ordered]
    rfl
  unfold FunctionRegistry.answer resolve
  dsimp only
  rw [search]
  cases earlier : calls.find? (·.key = c.key) with
  | some first =>
    have known : r.resolved.lookup ⟨c.target.typeName, c.name, c.arity⟩ = some (first.search providers) :=
      (remembers.resolved c.key).trans (by rw [earlier, Option.map_some])
    rw [known]
    refine ⟨rfl, remembers.ordered, fun key => (remembers.resolved key).trans ?_⟩
    rw [List.find?_append]
    cases found : calls.find? (·.key = key) with
    | some _ => rfl
    | none =>
      have other : c.key ≠ key := by
        rintro rfl
        rw [earlier] at found
        cases found
      simp [other]
  | none =>
    have unknown : r.resolved.lookup ⟨c.target.typeName, c.name, c.arity⟩ = none :=
      (remembers.resolved c.key).trans (by rw [earlier, Option.map_none])
    rw [unknown]
    refine ⟨rfl, remembers.ordered, fun key => ?_⟩
    rw [List.lookup_cons, List.find?_append]
    by_cases here : c.key = key
    · subst here
      rw [earlier]
      simp [Call.key]
    · have other : (key == (⟨c.target.typeName, c.name, c.arity⟩ : CallKey)) = false :=
        beq_eq_false_iff_ne.2 (Ne.symm here)
      simp [other, remembers.resolved key, here]

/-- After a sequence, a registry remembers what was found since the last registration. -/
theorem remembers_after (steps : List RegistryStep) :
    (after steps).Remembers (registered steps) (sinceRegistration steps) := by
  induction steps using List.reverseRecOn with
  | nil => exact remembers_initial
  | append_singleton steps step ih =>
    rw [after, List.foldl_append, ← after, registered, List.filterMap_append, ← registered, sinceRegistration,
      List.foldl_append, ← sinceRegistration]
    cases step with
    | register p => exact ih.register p
    | resolve c =>
      rw [List.filterMap_cons_none rfl, List.filterMap_nil, List.append_nil]
      exact (ih.answer c).2

/-- The answer to a call is what the first call of its kind finds among the registered providers. -/
theorem finds_earliest (steps : List RegistryStep) (c : Call) :
    (earliest steps c).Finds (registered steps) ((after steps).answer c).1 :=
  Call.finds_iff.2 ((remembers_after steps).answer c).1

end FunctionRegistry

/-! ## Calls of one kind -/

namespace Call

/-- One of the calls is on an object with a method for it, and the other is not on an object. -/
def Confused (c d : Call) : Prop :=
  c.HasMethod ∧ (∀ ref, d.target ≠ .object ref) ∨ d.HasMethod ∧ ∀ ref, c.target ≠ .object ref

theorem object_or (v : Value) : (∃ ref, v = .object ref) ∨ ∀ ref, v ≠ .object ref := by
  cases v <;> simp

theorem not_hasMethod_of_not_object {c : Call} (h : ∀ ref, c.target ≠ .object ref) : ¬ c.HasMethod := by
  have none : c.receiver? = none := by
    unfold receiver?
    split
    · exact absurd ‹_› (h _)
    · rfl
  simp [HasMethod, respondsTo, none]

theorem searchMethod_congr {c d : Call} (key : c.key = d.key)
    (alike : ∀ name shape, c.respondsTo name shape = d.respondsTo name shape) :
    c.searchMethod = d.searchMethod := by
  obtain ⟨-, name, arity⟩ := CallKey.mk.inj key
  rw [searchMethod_eq, searchMethod_eq, alike, alike, name, arity]

theorem search_congr {c d : Call} (key : c.key = d.key) (method : c.searchMethod = d.searchMethod)
    (providers : List FunctionProvider) : c.search providers = d.search providers := by
  obtain ⟨-, name, arity⟩ := CallKey.mk.inj key
  rw [search_eq, search_eq, method, name, arity]

theorem search_ne {c d : Call} (hasMethod : c.HasMethod) (noMethod : ¬ d.HasMethod)
    (providers : List FunctionProvider) : c.search providers ≠ d.search providers := by
  intro same
  have finds := finds_search providers d
  rw [← same, search_eq, searchMethod_eq] at finds
  split at finds
  · cases finds with
    | rawMethod one responds => exact noMethod (.inl ⟨one, responds⟩)
  · split at finds
    · cases finds with
      | method _ responds => exact noMethod (.inr responds)
    · rename_i notRaw notValues
      exact hasMethod.elim notRaw notValues

/-- Calls of one kind resolve alike unless they are confused, if objects of one type name have the same
methods. -/
theorem search_eq_iff {c d : Call} (key : c.key = d.key)
    (alike : ∀ ref ref', c.target = .object ref → d.target = .object ref' → ref.typeName = ref'.typeName →
      ∀ name shape, c.respondsTo name shape = d.respondsTo name shape)
    (providers : List FunctionProvider) : c.search providers = d.search providers ↔ ¬ c.Confused d := by
  constructor
  · rintro same (⟨hasMethod, other⟩ | ⟨hasMethod, other⟩)
    · exact search_ne hasMethod (not_hasMethod_of_not_object other) providers same
    · exact search_ne hasMethod (not_hasMethod_of_not_object other) providers same.symm
  · intro clear
    refine search_congr key ?_ providers
    have without (hc : ¬ c.HasMethod) (hd : ¬ d.HasMethod) : c.searchMethod = d.searchMethod := by
      rw [searchMethod_eq_none.2 hc, searchMethod_eq_none.2 hd]
    rcases object_or c.target with ⟨ref, hc⟩ | hc <;> rcases object_or d.target with ⟨ref', hd⟩ | hd
    · have typeName : c.target.typeName = d.target.typeName := (CallKey.mk.inj key).1
      rw [hc, hd] at typeName
      exact searchMethod_congr key (alike ref ref' hc hd typeName)
    · exact without (fun h => clear (.inl ⟨h, hd⟩)) (not_hasMethod_of_not_object hd)
    · exact without (not_hasMethod_of_not_object hc) fun h => clear (.inr ⟨h, hc⟩)
    · exact without (not_hasMethod_of_not_object hc) (not_hasMethod_of_not_object hd)

end Call

/-! ## The answers -/

theorem mem_of_mem_sinceRegistration {steps : List RegistryStep} {c : Call}
    (h : c ∈ sinceRegistration steps) : .resolve c ∈ steps := by
  induction steps using List.reverseRecOn with
  | nil => cases h
  | append_singleton steps step ih =>
    rw [sinceRegistration, List.foldl_append, ← sinceRegistration] at h
    cases step with
    | register p => cases h
    | resolve d =>
      rcases List.mem_append.1 h with h | h
      · exact List.mem_append_left _ (ih h)
      · exact List.mem_append_right _ (List.mem_singleton.2 (congrArg _ (List.mem_singleton.1 h)))

theorem earliest_spec (steps : List RegistryStep) (c : Call) :
    (earliest steps c).key = c.key ∧ .resolve (earliest steps c) ∈ steps ++ [.resolve c] := by
  unfold earliest
  cases found : (sinceRegistration steps).find? (·.key = c.key) with
  | none => exact ⟨rfl, List.mem_append_right _ (List.mem_singleton.2 rfl)⟩
  | some first =>
    have same : first.key = c.key := by simpa using List.find?_some found
    exact ⟨same, List.mem_append_left _ (mem_of_mem_sinceRegistration (List.mem_of_find?_eq_some found))⟩

/-- In a sequence of registrations and calls where the objects of one type name have the same methods, a call
is answered by what it finds among the providers that are registered by then, unless it is confused with an
earlier one: one is on an object with a method for it, the other on a value of the kind that the type of the
object is named for, and they are the same in name and number of arguments. -/
theorem FunctionRegistry.finds_iff_not_confused {before later : List RegistryStep} {c : Call}
    (alike : SameMethods (before ++ .resolve c :: later)) :
    c.Finds (registered before) ((after before).answer c).1 ↔ ¬ (earliest before c).Confused c := by
  obtain ⟨key, listed⟩ := earliest_spec before c
  have among {d : Call} (h : .resolve d ∈ before ++ [.resolve c]) :
      .resolve d ∈ before ++ .resolve c :: later := by
    rw [List.append_cons]
    exact List.mem_append_left _ h
  have self : .resolve c ∈ before ++ [.resolve c] := List.mem_append_right _ (List.mem_singleton.2 rfl)
  calc c.Finds (registered before) ((after before).answer c).1
      ↔ ((after before).answer c).1 = c.search (registered before) := Call.finds_iff
    _ ↔ (earliest before c).search (registered before) = c.search (registered before) := by
      rw [Call.finds_iff.1 (finds_earliest before c)]
    _ ↔ ¬ (earliest before c).Confused c := Call.search_eq_iff key (alike _ _ (among listed) (among self)) _

def textCall : Call := ⟨.empty, .text "x", "m", 0⟩

/-- A call on an object with a method for it, whose type is named as texts are. -/
def methodCall : Call where
  store := ⟨#[⟨.empty, .empty, fun _ => none, [.values "m" 0 fun _ => .ok (.ofNat 1)], false⟩]⟩
  target := .object ⟨0, "string"⟩
  name := "m"
  arity := 0

/-- The call on the text makes the method of the object unknown. -/
theorem not_finds_methodCall : SameMethods [.resolve textCall, .resolve methodCall] ∧
    ¬ methodCall.Finds [] ((FunctionRegistry.after [.resolve textCall]).answer methodCall).1 := by
  have alike : SameMethods ([.resolve textCall] ++ .resolve methodCall :: []) := by
    intro c d hc hd ref ref' onObject onObject' _ name shape
    simp only [List.cons_append, List.nil_append, List.mem_cons, RegistryStep.resolve.injEq, List.not_mem_nil,
      or_false] at hc hd
    rcases hc with rfl | rfl
    · cases onObject
    · rcases hd with rfl | rfl
      · cases onObject'
      · rfl
  have confused : (earliest [.resolve textCall] methodCall).Confused methodCall :=
    .inr ⟨.inr rfl, fun _ h => by cases h⟩
  exact ⟨alike, fun finds => (FunctionRegistry.finds_iff_not_confused alike).1 finds confused⟩

end Rowlang
