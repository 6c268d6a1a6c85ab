import Rowlang.Calendar.Reading
import Rowlang.Number.Basic

/-!
# Values

What expressions compute with. Objects are held elsewhere; a value refers to one by its number, and
knows the name of its type.

* `Value.isTruthy`, `Value.toNumber?` : the readings as a condition and as a number;
* `leafRows`, `countDeep` : the rows of a list that may be grouped into lists;
* `Value.render` : the text of a value in a report;
* `Value.debugText` : a text that shows the kind of a value, too.
-/

namespace Rowlang
open Rowlang.Text

/-- A reference to an object. -/
structure ObjectRef where
  id : Nat
  typeName : String
deriving DecidableEq, Repr

/-- A value. A list of rows has the text of the expression it was grouped by, if it was. -/
inductive Value where
  | null
  | boolean (b : Bool)
  | number (n : Number)
  | text (s : String)
  | date (m : Moment)
  | list (items : List Value) (key : Option String)
  | object (ref : ObjectRef)

instance : Inhabited Value := ⟨.null⟩

namespace Value

def ofList (items : List Value) : Value := .list items none

def ofNat (n : Nat) : Value := .number (.ofNat n)

def ofInt (n : Int) : Value := .number (.ofInt n)

def isNull : Value → Bool
  | .null => true
  | _ => false

/-- The name of the kind of a value; of an object, the name of its type. -/
def typeName : Value → String
  | .null => "null"
  | .boolean _ => "boolean"
  | .number _ => "number"
  | .text _ => "string"
  | .date _ => "date"
  | .list .. => "list"
  | .object ref => ref.typeName

/-! ## Readings -/

/-- The value as a condition: it holds unless the value is null, false, zero or empty. -/
def isTruthy : Value → Bool
  | .null => false
  | .boolean b => b
  | .number n => !n.isZero
  | .text s => !s.isEmpty
  | .date _ => true
  | .list items _ => !items.isEmpty
  | .object _ => true

/-- The value as a number: numbers, texts that read as numbers, and booleans. -/
def toNumber? : Value → Option Number
  | .number n => some n
  | .text s => Number.ofText? s
  | .boolean b => some (.ofNat b.toNat)
  | _ => none

/-- The number of a value that is one. -/
def number? : Value → Option Number
  | .number n => some n
  | _ => none

/-- The whole part of the value as a number, if it is of 64 bits. -/
def toInt? (v : Value) : Option Int := v.toNumber?.bind Number.toInt?

def toDouble? (v : Value) : Option Float := v.toNumber?.map Number.toDouble

end Value

/-! ## Rows -/

/-- Whether the items of a list are plain rows, not groups: the first is no list. -/
def isLeaf : List Value → Bool
  | .list .. :: _ => false
  | _ => true

mutual

/-- The plain rows of a list, over all levels of grouping. -/
def leafRows : List Value → List Value
  | [] => []
  | .list items _ :: rest => leafRows items ++ groupRows rest
  | v :: rest => v :: rest

/-- The plain rows of the groups of a list; an item that is no group stands for itself. -/
def groupRows : List Value → List Value
  | [] => []
  | .list items _ :: rest => leafRows items ++ groupRows rest
  | v :: rest => v :: groupRows rest

end

mutual

/-- The number of plain rows of a list, over all levels of grouping. -/
def countDeep : List Value → Nat
  | [] => 0
  | .list items _ :: rest => countDeep items + countGroups rest
  | _ :: rest => rest.length + 1

/-- The number of plain rows of the groups of a list. -/
def countGroups : List Value → Nat
  | [] => 0
  | .list items _ :: rest => countDeep items + countGroups rest
  | _ :: rest => countGroups rest + 1

end

namespace Value

/-! ## Text -/

mutual

/-- The text of a value in a report. Null has none. -/
def render : Value → String
  | .null => ""
  | .boolean b => if b then "true" else "false"
  | .number n => n.text
  | .text s => s
  | .date m => m.text
  | .list items _ => "[" ++ String.intercalate ", " (renderAll items) ++ "]"
  | .object ref => ref.typeName

def renderAll : List Value → List String
  | [] => []
  | v :: rest => v.render :: renderAll rest

end

mutual

/-- A text that shows the kind of a value, too. -/
def debugText : Value → String
  | .null => "Null"
  | .boolean b => "Boolean(" ++ (if b then "true" else "false") ++ ")"
  | .number n => "Number(" ++ n.text ++ ")"
  | .text s => "String(" ++ quote s ++ ")"
  | .date m => "Date(" ++ m.exactText ' ' ++ ")"
  | .list items _ => "[" ++ String.intercalate ", " (debugTexts items) ++ "]"
  | .object ref => "Object(" ++ ref.typeName ++ ")"

def debugTexts : List Value → List String
  | [] => []
  | v :: rest => v.debugText :: debugTexts rest

end

end Value

end Rowlang
