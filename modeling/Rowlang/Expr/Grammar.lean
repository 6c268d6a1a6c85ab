import Rowlang.Grammar.Definition

/-!
# The grammar of expressions

Precedence grows downwards: assignment, conditional, `||`, `&&`, equality, relational, additive,
multiplicative, unary, then chains of dotted steps and index lookups. The names of the rules are
read by the builder of expressions.
-/

namespace Rowlang

namespace Body

/-- Operands `x` with an operator between each two. -/
def separated (x op : Body) : Body := .seq x (.star (.seq op x))

/-- The first of some literal texts that matches. -/
def oneOf (first : String) (rest : List String) : Body :=
  choice (.literal first) (rest.map .literal)

end Body

open Body in
def expressionRules : List Definition := [
  ⟨"Expression", seq (name "Conditional") (opt (name "AssignTail"))⟩,
  ⟨"AssignTail", seq (name "AssignOp") (name "Expression")⟩,
  ⟨"AssignOp", oneOf "=" ["+="]⟩,
  ⟨"Conditional", seq (name "LogicalOr") (opt (name "ConditionalTail"))⟩,
  ⟨"ConditionalTail", sequence (literal "?")
    [name "Expression", opt (seq (literal ":") (name "Expression"))]⟩,
  ⟨"LogicalOr", separated (name "LogicalAnd") (literal "||")⟩,
  ⟨"LogicalAnd", separated (name "Equality") (literal "&&")⟩,
  ⟨"Equality", separated (name "Relational") (name "EqualityOp")⟩,
  ⟨"EqualityOp", oneOf "==" ["!="]⟩,
  ⟨"Relational", separated (name "Additive") (name "RelationalOp")⟩,
  ⟨"RelationalOp", oneOf ">=" ["<=", ">", "<"]⟩,
  ⟨"Additive", separated (name "Multiplicative") (name "AdditiveOp")⟩,
  ⟨"AdditiveOp", oneOf "+" ["-"]⟩,
  ⟨"Multiplicative", separated (name "Unary") (name "MultiplicativeOp")⟩,
  ⟨"MultiplicativeOp", oneOf "*" ["/", "%"]⟩,
  ⟨"Unary", alt (seq (name "UnaryOp") (name "Unary")) (name "Chain")⟩,
  ⟨"UnaryOp", oneOf "-" ["!"]⟩,
  ⟨"Chain", seq (name "Primary") (star (name "ChainStep"))⟩,
  ⟨"ChainStep", alt (seq (literal ".") (name "Step")) (name "Index")⟩,
  ⟨"Index", sequence (literal "[") [name "Expression", literal "]"]⟩,
  ⟨"Primary", choice (name "Literal") [name "Step", name "Group"]⟩,
  ⟨"Group", sequence (literal "(") [name "Expression", literal ")"]⟩,
  ⟨"Step", alt (name "FunctionCall") (name "Key")⟩,
  ⟨"FunctionCall", sequence (ahead 2)
    [name "Name", literal "(", opt (name "Arguments"), literal ")"]⟩,
  ⟨"Arguments", separated (name "Expression") (literal ",")⟩,
  ⟨"Key", name "Name"⟩,
  ⟨"Literal", choice (name "Decimal") [name "Integer", name "String", name "QuotedString",
    literal "true", literal "false", literal "null"]⟩]

theorem expressionRules_build : (Grammar.ofDefinitions expressionRules).toOption.isSome = true := by
  decide +kernel

def expressionGrammar : Grammar :=
  (Grammar.ofDefinitions expressionRules).toOption.get expressionRules_build

theorem ofDefinitions_expressionRules :
    Grammar.ofDefinitions expressionRules = .ok expressionGrammar :=
  eq_ok_get expressionRules_build

end Rowlang
