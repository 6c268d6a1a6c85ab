import Rowlang.Functions.Builtin
import Rowlang.Store

/-!
# Resolving calls

A call by name, on a value and with so many arguments, resolves to the first of these that exists: a
method of the object that takes its one argument unevaluated, a method that takes that many values, a
function of that many arguments, a function of any number of arguments. Functions are sought in the
providers in the order of their registration, and then among the built-in ones.

* `FunctionRegistry.search` : what a call resolves to;
* `FunctionRegistry.resolve` : the same, remembered for values of the same type;
* `FunctionRegistry.register` : one more provider, which forgets what was remembered.
-/

namespace Rowlang

/-- What a call resolves to. -/
inductive Resolution where
  /-- a method that takes its argument unevaluated -/
  | rawMethod
  /-- a method that takes values -/
  | method
  | function (f : Function)
  /-- a function of any number of arguments -/
  | varargs (f : Function)

/-- What resolutions are remembered by. -/
structure CallKey where
  typeName : String
  name : String
  arity : Nat
deriving DecidableEq, Repr

/-- The registered providers, and the resolutions so far, failed ones included. -/
structure FunctionRegistry where
  providers : List FunctionProvider
  resolved : List (CallKey × Option Resolution)

namespace FunctionRegistry

/-- Only the built-in functions. -/
def initial : FunctionRegistry := ⟨[], []⟩

def register (r : FunctionRegistry) (p : FunctionProvider) : FunctionRegistry :=
  ⟨r.providers ++ [p], []⟩

/-- The method that a call on an object resolves to. -/
def searchMethod (o : Record) (name : String) (arity : Nat) : Option Resolution :=
  if arity = 1 ∧ (o.rawMethod? name).isSome then some .rawMethod
  else if (o.valueMethod? name arity).isSome then some .method
  else none

/-- The function that a call resolves to. -/
def searchFunction (providers : List FunctionProvider) (name : String) (arity : Nat) :
    Option Resolution :=
  let name := lowerName name
  match providers.findSome? (·.lookup? name arity) with
  | some f => some (.function f)
  | none => (providers.findSome? (·.lookupVarargs? name)).map .varargs

def search (r : FunctionRegistry) (store : Store) (target : Value) (name : String) (arity : Nat) :
    Option Resolution :=
  let method := match target with
    | .object ref => (store.get? ref).bind fun o => searchMethod o name arity
    | _ => none
  method.or (searchFunction (r.providers ++ [builtins]) name arity)

/-- What a call resolves to, remembered under the type of the value that it is called on. -/
def resolve (r : FunctionRegistry) (store : Store) (target : Value) (name : String) (arity : Nat) :
    Option Resolution × FunctionRegistry :=
  let key : CallKey := ⟨target.typeName, name, arity⟩
  match r.resolved.lookup key with
  | some found => (found, r)
  | none =>
    let found := r.search store target name arity
    (found, { r with resolved := (key, found) :: r.resolved })

end FunctionRegistry

end Rowlang
