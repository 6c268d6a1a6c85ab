import Rowlang.Dictionary
import Rowlang.Json.Numeral

/-!
# Reading JSON

A text is first cut into lexemes, and the lexemes are then read from left to right with a stack of
the arrays and objects that are still open.

* `Json.lexemes?` : the lexemes of a text;
* `Json.readValue`, `Json.readAfter` : the document of some lexemes;
* `Json.ofText?` : the document of a text, unless the text is malformed.

Of two members of an object with one name the later is kept. Arrays and objects can be nested to a
limited depth.
-/

namespace Rowlang.Json

/-- What a text consists of. -/
inductive Lexeme where
  | openArray
  | closeArray
  | openObject
  | closeObject
  | comma
  | colon
  | scalar (v : Json)

/-! ## Strings -/

/-- The number that the four hexadecimal digits at the start of a text stand for. -/
def codeUnit? : List Char → Option Nat
  | a :: b :: c :: d :: _ => do
    return (((← hexDigit? a) * 16 + (← hexDigit? b)) * 16 + (← hexDigit? c)) * 16 + (← hexDigit? d)
  | _ => none

/-- The character of an escape by code units, and how many characters stand behind the `u`. A code
unit that is half a character has its other half in a second escape. -/
def codePoint? (cs : List Char) : Option (Char × Nat) := do
  let u ← codeUnit? cs
  if 0xdc00 ≤ u ∧ u < 0xe000 then none
  else if 0xd800 ≤ u ∧ u < 0xdc00 then
    match cs.drop 4 with
    | '\\' :: 'u' :: rest =>
      let v ← codeUnit? rest
      if 0xdc00 ≤ v ∧ v < 0xe000 then
        return (Char.ofNat (0x10000 + (u - 0xd800) * 0x400 + (v - 0xdc00)), 10)
      else none
    | _ => none
  else return (Char.ofNat u, 4)

/-- The character of an escape, and how many characters stand behind the backslash. -/
def escaped? : List Char → Option (Char × Nat)
  | '"' :: _ => some ('"', 1)
  | '\\' :: _ => some ('\\', 1)
  | '/' :: _ => some ('/', 1)
  | 'b' :: _ => some ('\x08', 1)
  | 'f' :: _ => some ('\x0c', 1)
  | 'n' :: _ => some ('\n', 1)
  | 'r' :: _ => some ('\r', 1)
  | 't' :: _ => some ('\t', 1)
  | 'u' :: rest => (codePoint? rest).map fun (c, n) => (c, n + 1)
  | _ => none

/-- The content of a string behind its opening quote, and how many characters it has there with the
closing quote. Control characters must be escaped. -/
def stringBody? (cs : List Char) : Option (List Char × Nat) :=
  match cs with
  | [] => none
  | c :: rest =>
    if c == '"' then some ([], 1)
    else if c == '\\' then
      match escaped? rest with
      | none => none
      | some (e, n) => (stringBody? (rest.drop n)).map fun (s, k) => (e :: s, n + k + 1)
    else if c.toNat < 0x20 then none
    else (stringBody? rest).map fun (s, k) => (c :: s, k + 1)
termination_by cs.length
decreasing_by all_goals simp_wf; try omega

/-! ## Lexemes -/

/-- The lexeme that begins with `c`, and how many of the characters behind `c` belong to it. -/
def lexeme? (c : Char) (rest : List Char) : Option (Lexeme × Nat) :=
  let word (name : String) (v : Json) : Option (Lexeme × Nat) :=
    if name.toList.isPrefixOf (c :: rest) then some (.scalar v, name.length - 1) else none
  match c with
  | '[' => some (.openArray, 0)
  | ']' => some (.closeArray, 0)
  | '\x7b' => some (.openObject, 0)
  | '\x7d' => some (.closeObject, 0)
  | ',' => some (.comma, 0)
  | ':' => some (.colon, 0)
  | '"' => (stringBody? rest).map fun (s, n) => (.scalar (.text (String.ofList s)), n)
  | 'n' => word "null" .null
  | 't' => word "true" (.boolean true)
  | 'f' => word "false" (.boolean false)
  | c => do
    let (numeral, n) ← Numeral.read? (c :: rest)
    return (.scalar (.number (← numeral.toNumber?)), n - 1)

def lexemes? (cs : List Char) : Option (List Lexeme) :=
  match cs with
  | [] => some []
  | c :: rest =>
    if c == ' ' || c == '\n' || c == '\t' || c == '\r' then lexemes? rest
    else
      match lexeme? c rest with
      | none => none
      | some (l, n) => (lexemes? (rest.drop n)).map (l :: ·)
termination_by cs.length
decreasing_by all_goals simp_wf; try omega

/-! ## Documents -/

/-- An array or an object that is still open: what it has so far, latest first, and the name of the
member that is being read. -/
inductive Frame where
  | array (items : List Json)
  | object (members : List (String × Json)) (name : String)

/-- The most arrays and objects that may be open at once. -/
def maxDepth : Nat := 127

def ofMembers (members : List (String × Json)) : Json :=
  .object (Dictionary.ofList members.reverse).entries

mutual

def readValue (stack : List Frame) : List Lexeme → Option Json
  | .scalar v :: rest => readAfter v stack rest
  | .openArray :: .closeArray :: rest =>
    if stack.length < maxDepth then readAfter (.array []) stack rest else none
  | .openArray :: rest =>
    if stack.length < maxDepth then readValue (.array [] :: stack) rest else none
  | .openObject :: .closeObject :: rest =>
    if stack.length < maxDepth then readAfter (.object []) stack rest else none
  | .openObject :: .scalar (.text name) :: .colon :: rest =>
    if stack.length < maxDepth then readValue (.object [] name :: stack) rest else none
  | _ => none

def readAfter (v : Json) (stack : List Frame) : List Lexeme → Option Json
  | [] => if stack.isEmpty then some v else none
  | .comma :: rest =>
    match stack with
    | .array items :: stack => readValue (.array (v :: items) :: stack) rest
    | .object members name :: stack =>
      match rest with
      | .scalar (.text next) :: .colon :: rest =>
        readValue (.object ((name, v) :: members) next :: stack) rest
      | _ => none
    | [] => none
  | .closeArray :: rest =>
    match stack with
    | .array items :: stack => readAfter (.array (v :: items).reverse) stack rest
    | _ => none
  | .closeObject :: rest =>
    match stack with
    | .object members name :: stack => readAfter (ofMembers ((name, v) :: members)) stack rest
    | _ => none
  | _ => none

end

def ofText? (s : String) : Option Json := do readValue [] (← lexemes? s.toList)

end Rowlang.Json
