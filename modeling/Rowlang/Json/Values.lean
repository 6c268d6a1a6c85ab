import Rowlang.Json.Basic
import Rowlang.Store

/-!
# JSON and values

* `Json.toValue` : the value of a document, whose objects are added to the store;
* `Value.toJson` : a value as a document, whose objects are read from the store.
-/

namespace Rowlang

/-- The value of a number: integers of 64 bits with a sign exactly, and the others by their text. -/
def JsonNumber.toValue (n : JsonNumber) : Value :=
  match n with
  | .integer n => .ofInt n
  | .double _ => ((Number.ofText? n.text).map Value.number).getD .null

namespace Json

def objectType : String := "object"

mutual

def toValue (s : Store) : Json → Value × Store
  | .null => (.null, s)
  | .boolean b => (.boolean b, s)
  | .number n => (n.toValue, s)
  | .text t => (.text t, s)
  | .array items =>
    let (vs, s) := toValues s items
    (.ofList vs, s)
  | .object members =>
    let (fields, s) := toFields s members
    s.add objectType (.ofFields (.ofList fields))

def toValues (s : Store) : List Json → List Value × Store
  | [] => ([], s)
  | j :: rest =>
    let (v, s) := toValue s j
    let (vs, s) := toValues s rest
    (v :: vs, s)

def toFields (s : Store) : List (String × Json) → List (String × Value) × Store
  | [] => ([], s)
  | (name, j) :: rest =>
    let (v, s) := toValue s j
    let (fields, s) := toFields s rest
    ((name, v) :: fields, s)

end

end Json

/-! ## Documents of values -/

/-- A number as a document: an integer if it is one of 64 bits, otherwise the double, and null if
that is not finite. -/
def Number.toJson (n : Number) : Json :=
  let double := if Double.isFinite n.toDouble then Json.number (.double n.toDouble) else .null
  match n.toInt? with
  | some i => if n.isWhole then .number (.integer i) else double
  | none => double

namespace Value

mutual

/-- A value as a document, within which objects are entered at most `depth` levels deep. -/
def toJsonWithin (s : Store) (depth : Nat) (v : Value) : Json :=
  match v with
  | .null => .null
  | .boolean b => .boolean b
  | .number n => n.toJson
  | .text t => .text t
  | .date m => .text m.text
  | .list items _ => .array (itemsToJson s depth items)
  | .object ref =>
    match depth, s.get? ref with
    | depth + 1, some r =>
      .object (r.keys.map fun k => (k, ((r.get? k).map (toJsonWithin s depth)).getD .null))
    | _, _ => .null
termination_by (depth, sizeOf v)

def itemsToJson (s : Store) (depth : Nat) (items : List Value) : List Json :=
  match items with
  | [] => []
  | v :: rest => toJsonWithin s depth v :: itemsToJson s depth rest
termination_by (depth, sizeOf items)

end

/-- A value as a document. Objects that do not contain themselves are nested no deeper than there are
objects. -/
def toJson (s : Store) (v : Value) : Json := v.toJsonWithin s s.records.size

end Value

end Rowlang
