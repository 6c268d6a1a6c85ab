import Rowlang.Expr.Reading
import Rowlang.Proofs.Lexing.Partition
import Rowlang.Proofs.Parsing.Likeness

/-!
# Expressions without places

The builder of expressions reads the names and texts of tokens, not their places or comments. So texts whose
tokens differ in these only are read as the same expression.

* `ExprNode.placeless` : a node without its place and its comments, if it is a token;
* `ExprNode.ofRule_placeless` : the builder makes the same of nodes without places;
* `Expr.ofText_congr` : such texts are read as the same expression.
-/

namespace Rowlang
open Rowlang.Text

namespace ExprNode

def placeless : ExprNode → ExprNode
  | .token t => .token t.placeless
  | node => node

@[simp] theorem placeless_token (t : Token) : (token t).placeless = .token t.placeless := rfl

@[simp] theorem placeless_expr (e : Expr) : (expr e).placeless = .expr e := rfl

@[simp] theorem expr?_placeless (node : ExprNode) : node.placeless.expr? = node.expr? := by
  cases node <;> rfl

@[simp] theorem isToken_placeless (node : ExprNode) : node.placeless.isToken = node.isToken := by
  cases node <;> rfl

theorem filterMap_expr?_placeless (children : List ExprNode) :
    (children.map placeless).filterMap expr? = children.filterMap expr? := by
  rw [List.filterMap_map]
  exact List.filterMap_congr fun node _ => expr?_placeless node

def text? : ExprNode → Option String
  | .token t => some t.text
  | _ => none

/-- The arguments of a call, or else those that were there before. -/
def argumentsOr (args : List Expr) : ExprNode → List Expr
  | .arguments args => args
  | _ => args

theorem callOf_eq (children : List ExprNode) : callOf children = match children.findSome? text? with
    | some name => .ok (.call name (children.foldl argumentsOr []))
    | none => .error "function call without a name" := rfl

theorem callOf_placeless (children : List ExprNode) :
    callOf (children.map placeless) = callOf children := by
  have text : text? ∘ placeless = text? := funext fun node => by cases node <;> rfl
  have args (acc : List Expr) (node : ExprNode) : argumentsOr acc node.placeless = argumentsOr acc node := by
    cases node <;> rfl
  simp only [callOf_eq, List.findSome?_map, List.foldl_map, text, args]

theorem addStep_placeless (steps : List Expr) (node : ExprNode) :
    addStep steps node.placeless = addStep steps node := by
  cases node <;> rfl

theorem chainOf_placeless (children : List ExprNode) :
    chainOf (children.map placeless) = chainOf children := by
  unfold chainOf
  rw [List.foldlM_map]
  simp only [addStep_placeless]

theorem unaryOf_placeless (children : List ExprNode) :
    unaryOf (children.map placeless) = unaryOf children := by
  rcases children with _ | ⟨first, _ | ⟨second, rest⟩⟩
  · rfl
  · cases first <;> rfl
  · cases first <;> cases second <;> rfl

theorem binaryFrom_placeless (left : Expr) (children : List ExprNode) :
    binaryFrom left (children.map placeless) = binaryFrom left children := by
  match children with
  | [] => rfl
  | [node] => cases node <;> rfl
  | .token t :: .expr right :: rest =>
    simp only [List.map_cons, placeless_token, placeless_expr, binaryFrom, binaryFrom_placeless _ rest]
    rfl
  | .token t :: .token _ :: _ | .token t :: .arguments _ :: _ | .token t :: .position _ :: _
  | .token t :: .branches .. :: _ | .token t :: .assigned .. :: _ => rfl
  | .expr _ :: _ :: _ | .arguments _ :: _ :: _ | .position _ :: _ :: _ | .branches .. :: _ :: _
  | .assigned .. :: _ :: _ => rfl

theorem binaryOf_placeless (children : List ExprNode) :
    binaryOf (children.map placeless) = binaryOf children := by
  rcases children with _ | ⟨first, rest⟩
  · rfl
  · cases first <;> first | rfl | exact binaryFrom_placeless _ _

theorem branchesOf_placeless (children : List ExprNode) :
    branchesOf (children.map placeless) = (branchesOf children).map placeless := by
  unfold branchesOf
  rw [filterMap_expr?_placeless]
  split <;> rfl

theorem assignedOf_placeless (children : List ExprNode) :
    assignedOf (children.map placeless) = (assignedOf children).map placeless := by
  have made (t : Token) (value : Expr) (rest rest' : List ExprNode) :
      assignedOf (.token t.placeless :: .expr value :: rest') =
        (assignedOf (.token t :: .expr value :: rest)).map placeless := by
    simp only [assignedOf, Token.placeless]
    cases AssignOperator.ofSymbol? t.text <;> rfl
  rcases children with _ | ⟨first, _ | ⟨second, rest⟩⟩
  · rfl
  · cases first <;> rfl
  · cases first <;> cases second <;> first | rfl | exact made _ _ _ _

theorem withTail_placeless (children : List ExprNode) :
    withTail (children.map placeless) = withTail children := by
  rcases children with _ | ⟨first, _ | ⟨second, rest⟩⟩
  · rfl
  · cases first <;> rfl
  · cases first <;> cases second <;> rfl

theorem firstExpr_placeless (what : String) (children : List ExprNode) :
    firstExpr what (children.map placeless) = firstExpr what children := by
  unfold firstExpr
  rw [filterMap_expr?_placeless]

theorem map_expr_placeless (r : Except String Expr) : (expr <$> r).map placeless = expr <$> r := by
  cases r <;> rfl

/-- **The builder** makes of nodes without places what it makes of the nodes, without its place. -/
theorem ofRule_placeless (name : String) (children : List ExprNode) :
    ofRule name (children.map placeless) = (ofRule name children).map placeless := by
  unfold ofRule
  split
  case h_1 =>
    rcases children with _ | ⟨first, rest⟩
    · rfl
    · cases first <;> first | rfl | exact (map_expr_placeless _).symm
  case h_2 =>
    rcases children with _ | ⟨first, rest⟩
    · rfl
    · cases first <;> rfl
  case h_3 => rw [filterMap_expr?_placeless]; rfl
  case h_4 => rw [callOf_placeless, map_expr_placeless]
  case h_5 => rw [firstExpr_placeless, map_expr_placeless]
  case h_6 =>
    rw [firstExpr_placeless]
    cases firstExpr "index" children <;> rfl
  case h_7 =>
    simp only [List.find?_map, Function.comp_def, isToken_placeless]
    cases children.find? (!·.isToken) <;> rfl
  case h_8 => rw [chainOf_placeless, map_expr_placeless]
  case h_9 => rw [unaryOf_placeless, map_expr_placeless]
  case h_10 | h_11 | h_12 | h_13 | h_14 | h_15 => rw [binaryOf_placeless, map_expr_placeless]
  case h_16 => exact branchesOf_placeless children
  case h_17 => exact assignedOf_placeless children
  case h_18 | h_19 => rw [withTail_placeless, map_expr_placeless]
  case h_20 =>
    rcases children with _ | ⟨first, _ | ⟨second, rest⟩⟩
    · rfl
    · rfl
    · simp only [List.map_cons, List.length_cons, List.length_map]
      rfl

end ExprNode

/-! ## Texts -/

theorem patternWise_sameWord : PatternWise Token.SameWord := fun _ _ same => (Token.mk.inj same).1

namespace Expr

/-- Of nodes that differ in their places and comments only, the builder makes such nodes. -/
theorem builder_respects :
    builder.Respects Token.SameWord fun node node' => node'.placeless = node.placeless where
  token t t' same := congrArg ExprNode.token same
  rule name children children' s related := by
    have nodes : children'.map ExprNode.placeless = children.map ExprNode.placeless := by
      induction related with
      | nil => rfl
      | cons first _ ih => rw [List.map_cons, List.map_cons, first, ih]
    have made := ExprNode.ofRule_placeless name children'
    rw [nodes, ExprNode.ofRule_placeless] at made
    show Alongside _ _ (ExprNode.ofRule name children, s) (ExprNode.ofRule name children', s)
    generalize ExprNode.ofRule name children = r at made ⊢
    generalize ExprNode.ofRule name children' = r' at made ⊢
    rcases r with reason | node <;> rcases r' with reason' | node'
    · exact .error
    · cases made
    · cases made
    · exact .ok (Except.ok.inj made).symm rfl

/-- **Texts whose tokens differ in their places and comments only** are read as the same expression. -/
theorem ofText_congr {g g' : Grammar} (same : g.SameRules g') (start : g'.start = g.start)
    {text text' : String}
    (words : List.Forall₂ Token.SameWord (g.scan text).tokens (g'.scan text').tokens)
    (complete : ∃ place, (g.scan text).ending = .complete place)
    (complete' : ∃ place, (g'.scan text').ending = .complete place) {e : Expr}
    (read : ofText g text = .ok e) : ofText g' text' = .ok e := by
  have both : Parser.Like ⟨g, builder, defaultLimit⟩ ⟨g', builder, defaultLimit⟩ _ _ :=
    ⟨same, rfl, rfl, patternWise_sameWord, builder_respects⟩
  have like : ParseState.Like Token.SameWord ⟨.ofScan (g.scan text), ()⟩ ⟨.ofScan (g'.scan text'), ()⟩ :=
    ⟨⟨words, complete, complete'⟩, rfl⟩
  have parsed := Parser.alongside_parseAll both g.start like
  unfold ofText Parser.parse Parser.parseRule at read ⊢
  dsimp only at read ⊢
  rw [start]
  generalize Parser.parseAll ⟨g, builder, defaultLimit⟩ _ _ = result at parsed read
  generalize Parser.parseAll ⟨g', builder, defaultLimit⟩ _ _ = result' at parsed ⊢
  cases parsed with
  | error => cases read
  | @ok node node' s s' alike =>
    cases node with
    | expr e' =>
      cases node' with
      | expr e'' =>
        cases alike
        exact read
      | _ => cases alike
    | _ => cases read

end Expr

end Rowlang
