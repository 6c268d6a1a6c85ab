import Rowlang.Number.Double

/-!
# JSON

Documents as values, and the text of their numbers.

* `JsonNumber`, `Json` : numbers and documents;
* `Json.isFlat` : whether a document has no parts;
* `JsonNumber.text` : an integer by its digits, and a double by its shortest digits.
-/

namespace Rowlang

/-- A number: an integer of 64 bits with or without a sign, or a finite double. -/
inductive JsonNumber where
  | integer (n : Int)
  | double (x : Float)

/-- A document. The members of an object are in the order of their names. -/
inductive Json where
  | null
  | boolean (b : Bool)
  | number (n : JsonNumber)
  | text (s : String)
  | array (items : List Json)
  | object (members : List (String × Json))

instance : Inhabited Json := ⟨.null⟩

/-! ## Numbers -/

/-- The text of a finite double: positional notation with a digit behind the point, unless the first
digit stands far from the point. -/
def doubleText (negative : Bool) (m : Binary) : List Char :=
  let (digits, e) := if m.significand = 0 then (0, 0) else BinaryFormat.double.shortest m
  let power := e + (digitsOf digits).length - 1
  if -5 ≤ power ∧ power < 16 then
    BinaryFormat.double.positional negative m ++ if 0 ≤ e then ['.', '0'] else []
  else BinaryFormat.double.scientific negative m

def JsonNumber.text : JsonNumber → String
  | .integer n => toString n
  | .double x =>
    match Double.value x with
    | .finite negative m => String.ofList (doubleText negative m)
    | _ => "null"

example : doubleText false ⟨1, 0⟩ = "1.0".toList := by decide +kernel

example : doubleText true ⟨0, -1074⟩ = "-0.0".toList := by decide +kernel

example : doubleText false ⟨1, -1074⟩ = "5e-324".toList := by decide +kernel

end Rowlang
