import Rowlang.Lexer

/-!
# Why a text does not parse

* `ParseError` : the causes, each with the place where it shows;
* `ParseError.message` : their wording;
* `ParseError.rule?` : the rule that was being parsed.
-/

namespace Rowlang
open Rowlang.Text

/-- Why a text does not parse. -/
inductive ParseError where
  /-- the text cannot be cut into tokens -/
  | lex (error : LexError)
  /-- a part of a rule is missing after the rule has consumed tokens; `found` is the next token, if
  there is one -/
  | syntaxError (rule expected : String) (found : Option Token) (place : Location)
  /-- the rule matched, but tokens are left -/
  | trailingInput (found : Token)
  /-- named rules are nested beyond the limit -/
  | tooDeep (rule : String) (limit : Nat) (place : Location)
  /-- the builder of the result refused what a rule matched -/
  | rejected (rule reason : String) (line column : Nat)
deriving DecidableEq, Repr

namespace ParseError

def describeFound (found : Option Token) : String :=
  match found with
  | some t => t.describe
  | none => "end of input"

def describePlace (line column : Nat) : String :=
  "line " ++ toString line ++ ", column " ++ toString column

/-- The wording of the error. -/
def message : ParseError → String
  | .lex e => e.message
  | .syntaxError rule expected found place =>
    "syntax error in " ++ rule ++ " at " ++ describePlace place.line place.column
      ++ ": expected " ++ expected ++ ", found " ++ describeFound found
  | .trailingInput found =>
    "unexpected " ++ found.describe ++ " at " ++ describePlace found.start.line found.start.column
      ++ ", expected end of input"
  | .tooDeep rule limit place =>
    "input nested too deeply in " ++ rule ++ " at " ++ describePlace place.line place.column
      ++ " (limit " ++ toString limit ++ ")"
  | .rejected rule reason line column =>
    "invalid " ++ rule ++ " at " ++ describePlace line column ++ ": " ++ reason

/-- The rule in which the error arose. -/
def rule? : ParseError → Option String
  | .syntaxError rule .. => some rule
  | .tooDeep rule .. => some rule
  | .rejected rule .. => some rule
  | _ => none

end ParseError

end Rowlang
