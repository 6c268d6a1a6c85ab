import Rowlang.Grammar.Basic

/-!
# Listings of tokens

One line for each token of a text: where it begins, its kind, and its text. The comments of a token
stand above it, further to the right.

* `Token.listing` : the lines of a token;
* `Grammar.tokenListing` : the lines of all tokens of a text.
-/

namespace Rowlang
open Rowlang.Text

def padEnd (width : Nat) (s : String) : String :=
  s ++ String.ofList (List.replicate (width - s.length) ' ')

def padStart (width : Nat) (s : String) : String :=
  String.ofList (List.replicate (width - s.length) ' ') ++ s

/-- A line with a place, a kind in a column of the given width, and a text between quotes. -/
def listingLine (place : Location) (width : Nat) (kind text : String) : String :=
  padStart 4 (toString place.line) ++ ":" ++ padEnd 3 (toString place.column) ++ " "
    ++ padEnd width kind ++ " " ++ quote text ++ "\n"

def Comment.listing (c : Comment) : String := "  " ++ listingLine c.start 14 "comment" c.text

def Token.listing (t : Token) : String :=
  String.join (t.comments.map Comment.listing) ++ listingLine t.start 16 t.name t.text

/-- The lines of all tokens of a text, or why it cannot be cut into tokens. -/
def Grammar.tokenListing (g : Grammar) (text : String) : Except LexError String :=
  let s := g.scan text
  match s.ending with
  | .complete _ => .ok (String.join (s.tokens.map Token.listing))
  | .failed e => .error e

end Rowlang
