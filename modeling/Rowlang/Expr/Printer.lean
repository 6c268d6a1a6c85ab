import Rowlang.Expr.Basic

/-!
# Writing expressions

* `Expr.render` : the source form of an expression, with parentheses around every operation between
  two operands;
* `renderSteps` : the source form of a path.
-/

namespace Rowlang
open Rowlang.Text

/-- The source form of a literal. -/
def renderLiteral : Value → String
  | .text s => quote s
  | .null => "null"
  | v => v.render

namespace Expr

/-- Whether an expression can be a step of a path without parentheses. -/
def isPlainStep : Expr → Bool
  | .key _ | .call .. | .index .. => true
  | _ => false

mutual

def render : Expr → String
  | .literal v => renderLiteral v
  | .key name => name
  | .index target position => target.render ++ "[" ++ position.render ++ "]"
  | .call name args => name ++ "(" ++ String.intercalate ", " (renderAll args) ++ ")"
  | .chain steps => String.intercalate "." (renderParts steps)
  | .conditional c t f => c.render ++ " ? " ++ t.render ++ renderElse f
  | .assignment op target value => target.render ++ " " ++ op.symbol ++ " " ++ value.render
  | .unary op operand => op.symbol ++ operand.render
  | .binary op left right => "(" ++ left.render ++ " " ++ op.symbol ++ " " ++ right.render ++ ")"

def renderAll : List Expr → List String
  | [] => []
  | e :: rest => e.render :: renderAll rest

/-- The source forms of the steps of a path, in parentheses where they are needed. -/
def renderParts : List Expr → List String
  | [] => []
  | e :: rest => (if e.isPlainStep then e.render else "(" ++ e.render ++ ")") :: renderParts rest

def renderElse : Option Expr → String
  | none => ""
  | some e => " : " ++ e.render

end

end Expr

/-- The source forms of some steps, joined by points without parentheses. -/
def renderSteps (steps : List Expr) : String := String.intercalate "." (Expr.renderAll steps)

end Rowlang
