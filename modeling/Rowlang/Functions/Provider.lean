import Rowlang.Eval.Error
import Rowlang.Value.Basic

/-!
# Providers of functions

A provider is a table of functions under names without regard to the case of ASCII letters. A
function takes a fixed number of arguments or any number of them.

* `FunctionProvider.function`, `FunctionProvider.varargs` : a provider with one more function;
* `FunctionProvider.lookup?`, `FunctionProvider.lookupVarargs?` : the functions by lower-case names;
* `FunctionProvider.signatures` : the names and numbers of arguments, in order.
-/

namespace Rowlang

/-- A function, of the value that it is called on and of its arguments. -/
abbrev Function := Value → List Value → Except EvalError Value

def lowerName (name : String) : String := String.ofList (name.toList.map Char.toLower)

/-- A table of functions. What was added last stands first. -/
structure FunctionProvider where
  name : String
  fixed : List ((String × Nat) × Function)
  variadic : List (String × Function)

namespace FunctionProvider

def empty (name : String) : FunctionProvider := ⟨name, [], []⟩

def function (p : FunctionProvider) (name : String) (arity : Nat) (f : Function) :
    FunctionProvider :=
  { p with fixed := ((lowerName name, arity), f) :: p.fixed }

def varargs (p : FunctionProvider) (name : String) (f : Function) : FunctionProvider :=
  { p with variadic := (lowerName name, f) :: p.variadic }

def lookup? (p : FunctionProvider) (name : String) (arity : Nat) : Option Function :=
  p.fixed.lookup (name, arity)

def lookupVarargs? (p : FunctionProvider) (name : String) : Option Function :=
  p.variadic.lookup name

/-- The order of signatures: by name, any number of arguments before a fixed number. -/
def signatureLe (a b : String × Option Nat) : Bool :=
  match Ord.compare a.1 b.1 with
  | .lt => true
  | .gt => false
  | .eq =>
    match a.2, b.2 with
    | none, _ => true
    | some _, none => false
    | some m, some n => m ≤ n

def signatures (p : FunctionProvider) : List (String × Option Nat) :=
  let fixed := p.fixed.map fun e => (e.1.1, some e.1.2)
  let variadic := p.variadic.map fun e => (e.1, none)
  (fixed ++ variadic).eraseDups.mergeSort signatureLe

end FunctionProvider

end Rowlang
