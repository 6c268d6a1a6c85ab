import Rowlang.Expr.Printer
import Rowlang.Token

/-!
# Building expressions

The expression of a parse is built rule by rule, by the names of the rules of the grammar of
expressions; another grammar must use the same names for what it shares with it.

* `ExprNode` : what a rule has made of the text that it matched;
* `ExprNode.ofRule` : the node of a rule over the nodes of its parts, or the reason why there is
  none.

A rule whose name is not known passes the node of its only part on.
-/

namespace Rowlang

/-- What a rule has made of the text that it matched. -/
inductive ExprNode where
  | token (t : Token)
  | expr (e : Expr)
  /-- the arguments of a call -/
  | arguments (args : List Expr)
  /-- the position in a list, in brackets -/
  | position (e : Expr)
  /-- the branches of a choice -/
  | branches (whenTrue : Expr) (whenFalse : Option Expr)
  /-- the operator and the value of an assignment -/
  | assigned (op : AssignOperator) (value : Expr)

namespace ExprNode

def expr? : ExprNode → Option Expr
  | .expr e => some e
  | _ => none

def isToken : ExprNode → Bool
  | .token _ => true
  | _ => false

/-- How a node is named in messages. -/
def describe : ExprNode → String
  | .token t => t.describe
  | .expr e => e.render
  | .arguments _ => "arguments"
  | .position _ => "index"
  | .branches .. => "conditional branches"
  | .assigned .. => "assignment"

/-! ## Literals and names -/

def literalOf (t : Token) : Except String Expr :=
  if ["Integer", "Decimal", "Number"].contains t.name then
    match Number.ofText? t.text with
    | some n => .ok (.literal (.number n))
    | none => .error (Number.malformed t.text)
  else if ["String", "QuotedString"].contains t.name then .ok (.literal (.text t.unquoted))
  else if t.text == "true" then .ok (.literal (.boolean true))
  else if t.text == "false" then .ok (.literal (.boolean false))
  else if t.text == "null" then .ok .null
  else .error ("unknown literal '" ++ t.text ++ "'")

/-- The call whose name is the first token, and whose arguments are the last ones given. -/
def callOf (children : List ExprNode) : Except String Expr :=
  let name? := children.findSome? fun
    | .token t => some t.text
    | _ => none
  let args := children.foldl (fun acc node => match node with
    | .arguments args => args
    | _ => acc) []
  match name? with
  | some name => .ok (.call name args)
  | none => .error "function call without a name"

/-! ## Paths -/

/-- The steps of a path after one more node: a path in front is taken apart, and an index applies to
all steps before it. -/
def addStep (steps : List Expr) : ExprNode → Except String (List Expr)
  | .expr (.chain inner) => .ok (if steps.isEmpty then inner else steps ++ [.chain inner])
  | .expr e => .ok (steps ++ [e])
  | .position e => .ok [.index (.ofSteps steps) e]
  | node => .error ("unexpected " ++ node.describe ++ " in chain")

def chainOf (children : List ExprNode) : Except String Expr := do
  let steps ← children.foldlM addStep []
  if steps.isEmpty then .error "empty chain" else .ok (.ofSteps steps)

/-! ## Operations -/

/-- The operation of an operator before an operand. The opposite of a number is a literal. -/
def unaryOf : List ExprNode → Except String Expr
  | [.expr e] => .ok e
  | .token t :: .expr operand :: _ =>
    match UnaryOperator.ofSymbol? t.text, operand with
    | some .negate, .literal (.number n) => .ok (.literal (.number n.neg))
    | some op, operand => .ok (.unary op operand)
    | none, _ => .error ("unknown unary operator '" ++ t.text ++ "'")
  | _ => .error "malformed unary expression"

/-- The operations of the operators between operands, from left to right. -/
def binaryFrom (left : Expr) : List ExprNode → Except String Expr
  | [] => .ok left
  | .token t :: .expr right :: rest =>
    match BinaryOperator.ofSymbol? t.text with
    | some op => binaryFrom (.binary op left right) rest
    | none => .error ("unknown operator '" ++ t.text ++ "'")
  | _ => .error "malformed binary expression"

/-- The operations of some operands with operators between each two. -/
def binaryOf : List ExprNode → Except String Expr
  | .expr left :: rest => binaryFrom left rest
  | _ => .error "missing left operand"

/-! ## Choices and assignments -/

/-- The branches of a choice. -/
def branchesOf (children : List ExprNode) : Except String ExprNode :=
  match children.filterMap expr? with
  | [] => .error "missing conditional branch"
  | whenTrue :: rest => .ok (.branches whenTrue rest.head?)

def assignedOf : List ExprNode → Except String ExprNode
  | .token t :: .expr value :: _ =>
    match AssignOperator.ofSymbol? t.text with
    | some op => .ok (.assigned op value)
    | none => .error ("unknown assignment operator '" ++ t.text ++ "'")
  | _ => .error "malformed assignment"

/-- An expression with what follows it: the branches of a choice, or an assignment to it. -/
def withTail : List ExprNode → Except String Expr
  | [.expr head] => .ok head
  | .expr head :: .branches whenTrue whenFalse :: _ => .ok (.conditional head whenTrue whenFalse)
  | .expr head :: .assigned op value :: _ =>
    if head.isAssignable then .ok (.assignment op head value)
    else .error ("cannot assign to '" ++ head.render ++ "'")
  | .expr _ :: node :: _ => .error ("unexpected " ++ node.describe)
  | _ => .error "missing expression"

/-! ## Rules -/

def firstExpr (what : String) (children : List ExprNode) : Except String Expr :=
  match children.filterMap expr? with
  | e :: _ => .ok e
  | [] => .error ("empty " ++ what)

/-- The node of a rule over the nodes of its parts, or the reason why there is none. -/
def ofRule (name : String) (children : List ExprNode) : Except String ExprNode :=
  match name with
  | "Literal" =>
    match children with
    | .token t :: _ => .expr <$> literalOf t
    | _ => .error "empty literal"
  | "Key" =>
    match children with
    | .token t :: _ => .ok (.expr (.key t.text))
    | _ => .error "empty key"
  | "Arguments" => .ok (.arguments (children.filterMap expr?))
  | "FunctionCall" => .expr <$> callOf children
  | "Group" => .expr <$> firstExpr "group" children
  | "Index" => .position <$> firstExpr "index" children
  | "ChainStep" =>
    match children.find? (!·.isToken) with
    | some node => .ok node
    | none => .error "empty chain step"
  | "Chain" => .expr <$> chainOf children
  | "Unary" => .expr <$> unaryOf children
  | "LogicalOr" | "LogicalAnd" | "Equality" | "Relational" | "Additive" | "Multiplicative" =>
    .expr <$> binaryOf children
  | "ConditionalTail" => branchesOf children
  | "AssignTail" => assignedOf children
  | "Conditional" | "Expression" => .expr <$> withTail children
  | _ =>
    match children with
    | [node] => .ok node
    | _ => .error (name ++ " produced " ++ toString children.length ++ " nodes")

end ExprNode

end Rowlang
