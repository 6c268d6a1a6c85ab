import Rowlang.Dictionary
import Rowlang.Eval.Error
import Rowlang.Expr.Basic
import Rowlang.Text.Case

/-!
# Objects

The objects that values refer to. An object has attributes, and may have methods, attributes with a
list of choices, and a resolver that is asked for an attribute first.

* `Record.lookup?`, `Record.set` : reading and writing an attribute;
* `Record.rawMethod?`, `Record.valueMethod?` : the methods;
* `Store.add`, `Store.get?`, `Store.update` : the objects by their references.
-/

namespace Rowlang
open Rowlang.Text

/-- A method of an object: its argument is taken unevaluated, or its arguments are values. -/
inductive Method where
  | raw (name : String) (run : Expr → Except EvalError Value)
  | values (name : String) (arity : Nat) (run : List Value → Except EvalError Value)

/-- An object. A sealed one does not list its attributes, and they cannot be written. -/
structure Record where
  fields : Dictionary Value
  choices : Dictionary (List String)
  resolve : String → Option Value
  methods : List Method
  isSealed : Bool

namespace Record

def ofFields (fields : Dictionary Value) : Record := ⟨fields, .empty, fun _ => none, [], false⟩

/-- The name under which an attribute is held: the given one, or else the first that differs from it
in the case of letters only. -/
def heldKey? (r : Record) (key : String) : Option String :=
  if (r.fields.get? key).isSome then some key
  else r.fields.keys.find? fun k => equalIgnoringCase k key

/-- The value of an attribute. -/
def get? (r : Record) (key : String) : Option Value := do r.fields.get? (← r.heldKey? key)

/-- The value that the resolver gives, or else the value of the attribute. -/
def lookup? (r : Record) (key : String) : Option Value := (r.resolve key).or (r.get? key)

/-- The object with an attribute written, under the name that it is held by. -/
def set (r : Record) (key : String) (v : Value) : Record :=
  { r with fields := r.fields.insert ((r.heldKey? key).getD key) v }

def keys (r : Record) : List String := if r.isSealed then [] else r.fields.keys

/-- The values that an attribute may have, if it is limited to some. -/
def choices? (r : Record) (key : String) : Option (List String) :=
  (r.choices.entries.find? fun e => equalIgnoringCase e.1 key).map Prod.snd

/-- The method with a name that takes its argument unevaluated. -/
def rawMethod? (r : Record) (name : String) : Option (Expr → Except EvalError Value) :=
  r.methods.findSome? fun
    | .raw n run => if n = name then some run else none
    | .values .. => none

/-- The method with a name that takes so many values. -/
def valueMethod? (r : Record) (name : String) (arity : Nat) :
    Option (List Value → Except EvalError Value) :=
  r.methods.findSome? fun
    | .raw .. => none
    | .values n a run => if n = name ∧ a = arity then some run else none

end Record

/-- The objects, by their numbers. -/
structure Store where
  records : Array Record

namespace Store

def empty : Store := ⟨#[]⟩

def get? (s : Store) (ref : ObjectRef) : Option Record := s.records[ref.id]?

def add (s : Store) (typeName : String) (r : Record) : Value × Store :=
  (.object ⟨s.records.size, typeName⟩, ⟨s.records.push r⟩)

def update (s : Store) (ref : ObjectRef) (r : Record) : Store :=
  ⟨s.records.setIfInBounds ref.id r⟩

theorem get?_update_of_ne (s : Store) {ref other : ObjectRef} (r : Record)
    (h : other.id ≠ ref.id) : (s.update ref r).get? other = s.get? other := by
  simp [get?, update, Array.getElem?_setIfInBounds_ne (Ne.symm h)]

theorem get?_update_self (s : Store) (ref : ObjectRef) (r : Record) (h : ref.id < s.records.size) :
    (s.update ref r).get? ref = some r := by
  simp [get?, update, h]

end Store

end Rowlang
