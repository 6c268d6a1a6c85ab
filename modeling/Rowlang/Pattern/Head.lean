/-!
# The fixed beginning of a pattern

Text that every match of a regular expression is taken to start with, found from the written form
alone. Alternation anywhere gives up at once, and so does any construct other than a plain or
escaped character.

* `hasAlternation` : a bar outside brackets;
* `fixedHead` : the beginning.
-/

namespace Rowlang.Pattern

/-- Whether a bar stands outside brackets, given whether the character before was a backslash and
whether a bracket is open. -/
def alternates (escaped bracketed : Bool) : List Char → Bool
  | [] => false
  | c :: rest =>
    if escaped then alternates false bracketed rest
    else if c == '\\' then alternates true bracketed rest
    else if c == '[' then alternates false true rest
    else if c == ']' then alternates false false rest
    else if c == '|' && !bracketed then true
    else alternates false bracketed rest

/-- Whether an expression has a bar outside brackets. -/
def hasAlternation (source : List Char) : Bool := alternates false false source

/-- A character with a meaning of its own in an expression. -/
def isOperator (c : Char) : Bool := ".+*?()[]{}^$|".toList.contains c

/-- The plain characters that an expression begins with. The last of them may be repeated, but may
not be left out. -/
def plainHead : List Char → List Char
  | [] => []
  | ['\\'] => []
  | '\\' :: e :: rest => if e.isAlphanum then [] else keep e rest (plainHead rest)
  | c :: rest => if isOperator c then [] else keep c rest (plainHead rest)
where
  /-- `c` and what follows it, unless a quantifier makes `c` optional. -/
  keep (c : Char) (rest tail : List Char) : List Char :=
    match rest with
    | '*' :: _ => []
    | '?' :: _ => []
    | '{' :: _ => []
    | '+' :: _ => [c]
    | _ => c :: tail

/-- The text that matches of an expression begin with, as far as it shows. -/
def fixedHead (source : List Char) : List Char :=
  if hasAlternation source then [] else plainHead source

example : fixedHead "abc[0-9]".toList = "abc".toList := by decide +kernel

example : fixedHead "ab+".toList = "ab".toList := by decide +kernel

example : fixedHead "\\.5".toList = ".5".toList := by decide +kernel

end Rowlang.Pattern
