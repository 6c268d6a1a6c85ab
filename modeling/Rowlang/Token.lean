import Rowlang.Text.Location
import Rowlang.Text.Quoted

/-!
# Tokens

What the text of an expression, or of a grammar definition, is cut into. A token belongs to the
pattern of the lexicon that matched it, and may carry the comments that stand before it.
-/

namespace Rowlang
open Rowlang.Text

/-- A comment with its delimiters. -/
structure Comment where
  text : String
  start : Location
  /-- offset of the byte behind the comment -/
  stop : Nat
deriving DecidableEq, Repr

/-- A token. -/
structure Token where
  /-- number of the pattern that matched -/
  pattern : Nat
  /-- name of that pattern -/
  name : String
  text : String
  start : Location
  /-- offset of the byte behind the token -/
  stop : Nat
  /-- the attached comments, nearest first -/
  comments : List Comment
deriving DecidableEq, Repr

namespace Token

/-- The text of a quoted token without its quotes, escapes resolved; any other text as it is. -/
def unquoted (t : Token) : String := String.ofList (unquote t.text.toList)

/-- The way a token is named in messages: its text, behind the name of its kind where that says
more. -/
def describe (t : Token) : String :=
  if t.name == t.text then "'" ++ t.text ++ "'" else t.name ++ " '" ++ t.text ++ "'"

end Token

end Rowlang
