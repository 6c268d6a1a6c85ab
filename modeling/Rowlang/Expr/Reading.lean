import Rowlang.Expr.Builder
import Rowlang.Expr.Grammar
import Rowlang.Parse.Parser

/-!
# Reading expressions

* `Expr.builder` : the builder of expressions, which has no state;
* `Expr.ofText` : the expression of a text by a grammar.
-/

namespace Rowlang.Expr

def builder : TreeBuilder Unit ExprNode where
  token := .token
  rule name children s := (ExprNode.ofRule name children, s)

def ofText (g : Grammar) (text : String) : Except ParseError Expr :=
  match (Parser.parse ⟨g, builder, defaultLimit⟩ text ()).1 with
  | .ok (.expr e) => .ok e
  | .ok _ =>
    .error (.rejected (g.ruleNames.headD "Expression") "input is not an expression" 1 1)
  | .error e => .error e

end Rowlang.Expr
