/-!
# Locations in source text

A location is an offset in UTF-8 bytes with the line and column it falls on. Lines and columns count
from 1, and columns count characters.

* `Location.step c` : the location behind the character `c`;
* `Location.advance cs` : the location behind the characters `cs`.
-/

namespace Rowlang.Text

/-- A place between two characters of a text. -/
structure Location where
  offset : Nat
  line : Nat
  column : Nat
deriving DecidableEq, Repr, Inhabited

namespace Location

def start : Location := ⟨0, 1, 1⟩

/-- The location behind one more character. -/
def step (at_ : Location) (c : Char) : Location :=
  if c == '\n' then ⟨at_.offset + c.utf8Size, at_.line + 1, 1⟩
  else ⟨at_.offset + c.utf8Size, at_.line, at_.column + 1⟩

def advance (at_ : Location) (cs : List Char) : Location := cs.foldl step at_

@[simp] theorem advance_nil (l : Location) : l.advance [] = l := rfl

@[simp] theorem advance_cons (l : Location) (c : Char) (cs : List Char) :
    l.advance (c :: cs) = (l.step c).advance cs := rfl

end Location

end Rowlang.Text
