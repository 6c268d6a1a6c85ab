import Rowlang.Expr.Reading
import Rowlang.Proofs.Expr.Words
import Rowlang.Proofs.Lexing.Partition
import Rowlang.Proofs.Number.Numeral
import Rowlang.Proofs.Parsing.Nodes

/-!
# The nodes of expressions

* `nodeKind`, `ExprNode.Fits` : what each rule of expressions makes;
* `ExprNode.Gives` : what the parts of a body give to the builder;
* `ExprNode.withTail_cases`, `ExprNode.unaryOf_cases` and so on : what the builder makes of any nodes;
* `ExprNode.ofRule_gives` : of what its parts give, each rule makes a node of its kind; the only node
  refused is an assignment to what cannot be assigned to.
-/

namespace Rowlang

/-- Not a path of less than two steps. -/
def Expr.Solid (e : Expr) : Prop := ∀ steps, e = .chain steps → 2 ≤ steps.length

/-- The kinds of nodes that the rules of expressions make. -/
inductive NodeKind where
  | expr
  /-- a step of a path, or a position in brackets -/
  | step
  | position
  | arguments
  | branches
  | assigned
  /-- the token of an operator between two operands -/
  | operator
  /-- the token of an operator before an operand -/
  | sign
  /-- the token of an assignment -/
  | mark
deriving DecidableEq, Repr

/-- The kind of node that a rule makes. -/
def nodeKind : String → NodeKind
  | "AssignOp" => .mark
  | "UnaryOp" => .sign
  | "EqualityOp" | "RelationalOp" | "AdditiveOp" | "MultiplicativeOp" => .operator
  | "AssignTail" => .assigned
  | "ConditionalTail" => .branches
  | "Arguments" => .arguments
  | "Index" => .position
  | "ChainStep" => .step
  | _ => .expr

namespace ExprNode

/-- The node is of the kind. -/
inductive Fits : NodeKind → ExprNode → Prop
  | expr {e : Expr} (solid : e.Solid) : Fits .expr (.expr e)
  | step {e : Expr} (solid : e.Solid) : Fits .step (.expr e)
  | stepPosition {e : Expr} : Fits .step (.position e)
  | position {e : Expr} : Fits .position (.position e)
  | arguments {args : List Expr} : Fits .arguments (.arguments args)
  | branches {whenTrue : Expr} {whenFalse : Option Expr} :
      Fits .branches (.branches whenTrue whenFalse)
  | assigned {op : AssignOperator} {value : Expr} : Fits .assigned (.assigned op value)
  | operator {t : Token} {op : BinaryOperator} (h : BinaryOperator.ofSymbol? t.text = some op) :
      Fits .operator (.token t)
  | sign {t : Token} {op : UnaryOperator} (h : UnaryOperator.ofSymbol? t.text = some op) :
      Fits .sign (.token t)
  | mark {t : Token} {op : AssignOperator} (h : AssignOperator.ofSymbol? t.text = some op) :
      Fits .mark (.token t)

/-- The token of a leaf pattern, spelled as the pattern tells. -/
inductive IsLeaf (p : LeafPattern) : ExprNode → Prop
  | token {t : Token} (name : t.name = p.name) (spelled : p.Spells t.text.toList) :
      IsLeaf p (.token t)

/-- The nodes that the parts of a body give to the builder of expressions. -/
abbrev Gives (b : Body) (nodes : List ExprNode) : Prop :=
  b.Makes IsLeaf (fun name => Fits (nodeKind name)) nodes

/-- The rule makes a node of its kind of all that its parts can give. -/
abbrev Makes (d : Definition) : Prop :=
  ∀ children, Gives d.body children →
    ∃ node, ofRule d.name children = .ok node ∧ node.Fits (nodeKind d.name)

variable {nodes children : List ExprNode} {e : Expr}

/-! ## What the builder makes of nodes -/

theorem mem_of_mem_exprs (listed : e ∈ children.filterMap expr?) : .expr e ∈ children := by
  obtain ⟨node, inside, shown⟩ := List.mem_filterMap.1 listed
  cases node with
  | expr e' =>
    cases shown
    exact inside
  | _ => cases shown

/-- The arguments of a call are the last ones given, and there are none without. -/
theorem callOf_cases (made : callOf children = .ok e) :
    ∃ name args, e = .call name args ∧ (args = [] ∨ .arguments args ∈ children) := by
  unfold callOf at made
  dsimp only at made
  split at made
  · cases made
    refine ⟨_, _, rfl, List.foldlRecOn (motive := fun args => args = [] ∨ .arguments args ∈ children) _ _
      (.inl rfl) fun args kept node listed => ?_⟩
    cases node with
    | arguments args => exact .inr listed
    | _ => exact kept
  · cases made

theorem firstExpr_cases {what : String} (made : firstExpr what children = .ok e) : .expr e ∈ children := by
  unfold firstExpr at made
  split at made
  · rename_i same
    cases made
    exact mem_of_mem_exprs (same ▸ List.mem_cons_self)
  · cases made

theorem branchesOf_cases {node : ExprNode} (made : branchesOf children = .ok node) :
    ∃ whenTrue whenFalse, node = .branches whenTrue whenFalse ∧ .expr whenTrue ∈ children ∧
      ∀ e ∈ whenFalse, .expr e ∈ children := by
  unfold branchesOf at made
  split at made
  · cases made
  · rename_i whenTrue rest same
    cases made
    refine ⟨whenTrue, rest.head?, rfl, mem_of_mem_exprs (same ▸ List.mem_cons_self), fun e first => ?_⟩
    exact mem_of_mem_exprs (same ▸ List.mem_cons_of_mem _ (List.mem_of_head? first))

theorem assignedOf_cases {node : ExprNode} (made : assignedOf children = .ok node) :
    ∃ op value, node = .assigned op value ∧ .expr value ∈ children := by
  unfold assignedOf at made
  split at made
  · split at made
    · cases made
      exact ⟨_, _, rfl, by simp⟩
    · cases made
  · cases made

/-- An expression has no tail, or the branches of a choice, or it is assigned to. -/
theorem withTail_cases (made : withTail children = .ok e) :
    .expr e ∈ children ∨
      (∃ head whenTrue whenFalse, e = .conditional head whenTrue whenFalse ∧ .expr head ∈ children ∧
        .branches whenTrue whenFalse ∈ children) ∨
      ∃ op head value, e = .assignment op head value ∧ head.isAssignable = true ∧ .expr head ∈ children ∧
        .assigned op value ∈ children := by
  unfold withTail at made
  split at made
  · cases made
    exact .inl (List.mem_singleton_self _)
  · cases made
    exact .inr (.inl ⟨_, _, _, rfl, by simp, by simp⟩)
  · split at made
    · rename_i assignable
      cases made
      exact .inr (.inr ⟨_, _, _, rfl, assignable, by simp, by simp⟩)
    · cases made
  · cases made
  · cases made

/-- An operand has no operator, or it is a number with its opposite, or another operand of an operation. -/
theorem unaryOf_cases (made : unaryOf children = .ok e) :
    .expr e ∈ children ∨ (∃ n, e = .literal (.number n)) ∨
      ∃ op operand, e = .unary op operand ∧ .expr operand ∈ children ∧
        (op = .negate → ∀ n, operand ≠ .literal (.number n)) := by
  unfold unaryOf at made
  split at made
  · cases made
    exact .inl (List.mem_singleton_self _)
  · split at made
    · cases made
      exact .inr (.inl ⟨_, rfl⟩)
    · rename_i op other known
      cases made
      exact .inr (.inr ⟨op, _, rfl, by simp, fun negate n same => known n same negate⟩)
    · cases made
  · cases made

/-! ## What parts give -/

theorem gives_expr {name : String} (rule : lexicalPatterns.lookup name = none)
    (kind : nodeKind name = .expr) (h : Gives (.name name) nodes) :
    ∃ e, nodes = [.expr e] ∧ e.Solid := by
  obtain ⟨_, rfl, fits⟩ := (Body.makes_rule rule).1 h
  rw [kind] at fits
  cases fits with
  | expr solid => exact ⟨_, rfl, solid⟩

theorem gives_literal {text : String} (h : Gives (.literal text) nodes) :
    ∃ t, nodes = [.token t] ∧ t.name = text ∧ t.text = text := by
  obtain ⟨_, rfl, ⟨name, spelled⟩⟩ := h
  exact ⟨_, rfl, name, String.toList_injective spelled⟩

theorem gives_oneOf {first : String} {rest : List String} (h : Gives (.oneOf first rest) nodes) :
    ∃ t, nodes = [.token t] ∧ t.text ∈ first :: rest := by
  induction rest generalizing first with
  | nil =>
    obtain ⟨t, rfl, -, rfl⟩ := gives_literal h
    exact ⟨t, rfl, List.mem_singleton_self _⟩
  | cons next rest ih =>
    rcases h with h | h
    · obtain ⟨t, rfl, -, rfl⟩ := gives_literal h
      exact ⟨t, rfl, List.mem_cons_self⟩
    · obtain ⟨t, rfl, listed⟩ := ih h
      exact ⟨t, rfl, List.mem_cons_of_mem _ listed⟩

/-! ## Operators and rules that pass a node on -/

open Body in
theorem makes_mark : Makes ⟨"AssignOp", oneOf "=" ["+="]⟩ := by
  intro children h
  obtain ⟨t, rfl, listed⟩ := gives_oneOf h
  have known : ∀ s ∈ ["=", "+="], (AssignOperator.ofSymbol? s).isSome = true := by decide
  obtain ⟨op, symbol⟩ := Option.isSome_iff_exists.1 (known _ listed)
  exact ⟨_, rfl, .mark symbol⟩

open Body in
theorem makes_sign : Makes ⟨"UnaryOp", oneOf "-" ["!"]⟩ := by
  intro children h
  obtain ⟨t, rfl, listed⟩ := gives_oneOf h
  have known : ∀ s ∈ ["-", "!"], (UnaryOperator.ofSymbol? s).isSome = true := by decide
  obtain ⟨op, symbol⟩ := Option.isSome_iff_exists.1 (known _ listed)
  exact ⟨_, rfl, .sign symbol⟩

/-- A rule of symbols of operators between two operands. -/
theorem makes_operator {name first : String} {rest : List String}
    (passes : ∀ node, ofRule name [node] = .ok node) (kind : nodeKind name = .operator)
    (known : ∀ s ∈ first :: rest, (BinaryOperator.ofSymbol? s).isSome = true) :
    Makes ⟨name, .oneOf first rest⟩ := by
  intro children h
  obtain ⟨t, rfl, listed⟩ := gives_oneOf h
  obtain ⟨op, symbol⟩ := Option.isSome_iff_exists.1 (known _ listed)
  exact ⟨_, passes _, kind ▸ .operator symbol⟩

open Body in
theorem makes_primary :
    Makes ⟨"Primary", choice (name "Literal") [name "Step", name "Group"]⟩ := by
  intro children h
  obtain ⟨e, rfl, solid⟩ : ∃ e, children = [.expr e] ∧ e.Solid := by
    rcases h with h | h | h <;> exact gives_expr (by decide) rfl h
  exact ⟨_, rfl, .expr solid⟩

open Body in
theorem makes_step : Makes ⟨"Step", alt (name "FunctionCall") (name "Key")⟩ := by
  intro children h
  obtain ⟨e, rfl, solid⟩ : ∃ e, children = [.expr e] ∧ e.Solid := by
    rcases h with h | h <;> exact gives_expr (by decide) rfl h
  exact ⟨_, rfl, .expr solid⟩

/-! ## Literals, names and brackets -/

theorem gives_lexical {name : String} (lexical : (lexicalPatterns.lookup name).isSome = true)
    (h : Gives (.name name) nodes) :
    ∃ t, nodes = [.token t] ∧ t.name = name ∧ (lexicalLeaf name).Spells t.text.toList := by
  obtain ⟨source, known⟩ := Option.isSome_iff_exists.1 lexical
  obtain ⟨_, rfl, ⟨same, spelled⟩⟩ := (Body.makes_lexical known).1 h
  refine ⟨_, rfl, same, ?_⟩
  rw [lexicalLeaf, known]
  exact spelled

theorem literalOf_number {t : Token} (name : t.name = "Integer" ∨ t.name = "Decimal")
    (spelled : (lexicalLeaf t.name).Spells t.text.toList) :
    ∃ n, literalOf t = .ok (.literal (.number n)) := by
  have numeral : IsNumeral t.text.toList := by
    rcases name with name | name <;> rw [name] at spelled <;> obtain ⟨r, read, word⟩ := spelled
    · exact isNumeral_of_integer read word
    · exact isNumeral_of_decimal read word
  obtain ⟨n, read⟩ := Option.isSome_iff_exists.1 (Number.isSome_ofText? numeral)
  refine ⟨n, ?_⟩
  rw [literalOf, if_pos (by rcases name with name | name <;> rw [name] <;> decide), read]

theorem literalOf_text {t : Token} (name : t.name = "String" ∨ t.name = "QuotedString") :
    literalOf t = .ok (.literal (.text t.unquoted)) := by
  unfold literalOf
  rcases name with name | name <;> rw [name] <;> rfl

theorem literalOf_word {t : Token} (same : t.name = t.text)
    (listed : t.text ∈ ["true", "false", "null"]) : ∃ v, literalOf t = .ok (.literal v) := by
  simp only [List.mem_cons, List.not_mem_nil, or_false] at listed
  unfold literalOf
  rw [same]
  rcases listed with text | text | text <;> rw [text] <;> exact ⟨_, rfl⟩

open Body in
theorem makes_literal :
    Makes ⟨"Literal", choice (name "Decimal") [name "Integer", name "String", name "QuotedString",
      literal "true", literal "false", literal "null"]⟩ := by
  intro children h
  obtain ⟨t, v, rfl, read⟩ : ∃ t v, children = [.token t] ∧ literalOf t = .ok (.literal v) := by
    rcases h with h | h | h | h | h | h | h
    · obtain ⟨t, rfl, name, spelled⟩ := gives_lexical (by decide) h
      obtain ⟨n, read⟩ := literalOf_number (.inr name) (name ▸ spelled)
      exact ⟨t, _, rfl, read⟩
    · obtain ⟨t, rfl, name, spelled⟩ := gives_lexical (by decide) h
      obtain ⟨n, read⟩ := literalOf_number (.inl name) (name ▸ spelled)
      exact ⟨t, _, rfl, read⟩
    · obtain ⟨t, rfl, name, -⟩ := gives_lexical (by decide) h
      exact ⟨t, _, rfl, literalOf_text (.inl name)⟩
    · obtain ⟨t, rfl, name, -⟩ := gives_lexical (by decide) h
      exact ⟨t, _, rfl, literalOf_text (.inr name)⟩
    all_goals
      obtain ⟨t, rfl, name, text⟩ := gives_literal h
      obtain ⟨v, read⟩ := literalOf_word (name.trans text.symm) (by simp [text])
      exact ⟨t, v, rfl, read⟩
  refine ⟨.expr (.literal v), ?_, .expr (by rintro _ ⟨⟩)⟩
  show ExprNode.expr <$> literalOf t = _
  rw [read]
  rfl

theorem makes_key : Makes ⟨"Key", .name "Name"⟩ := by
  intro children h
  obtain ⟨t, rfl, -⟩ := gives_lexical (by decide) h
  exact ⟨_, rfl, .expr (by rintro _ ⟨⟩)⟩

/-- An expression in brackets. -/
theorem gives_bracketed {opening closing : String}
    (h : Gives (.sequence (.literal opening) [.name "Expression", .literal closing]) children) :
    ∃ t e t', children = [.token t, .expr e, .token t'] ∧ e.Solid := by
  obtain ⟨_, _, rfl, first, _, _, rfl, inner, last⟩ := h
  obtain ⟨t, rfl, -⟩ := gives_literal first
  obtain ⟨t', rfl, -⟩ := gives_literal last
  obtain ⟨e, rfl, solid⟩ := gives_expr (by decide) rfl inner
  exact ⟨t, e, t', rfl, solid⟩

open Body in
theorem makes_group :
    Makes ⟨"Group", sequence (literal "(") [name "Expression", literal ")"]⟩ := by
  intro children h
  obtain ⟨t, e, t', rfl, solid⟩ := gives_bracketed h
  exact ⟨_, rfl, .expr solid⟩

open Body in
theorem makes_index :
    Makes ⟨"Index", sequence (literal "[") [name "Expression", literal "]"]⟩ := by
  intro children h
  obtain ⟨t, e, t', rfl, -⟩ := gives_bracketed h
  exact ⟨_, rfl, .position⟩

/-! ## Calls -/

theorem makes_arguments : Makes ⟨"Arguments", .separated (.name "Expression") (.literal ",")⟩ :=
  fun _ _ => ⟨_, rfl, .arguments⟩

open Body in
theorem makes_call : Makes ⟨"FunctionCall", sequence (ahead 2)
    [name "Name", literal "(", opt (name "Arguments"), literal ")"]⟩ := by
  intro children h
  obtain ⟨_, _, rfl, rfl, _, more, rfl, called, -⟩ := h
  obtain ⟨t, rfl, -⟩ := gives_lexical (by decide) called
  exact ⟨_, rfl, .expr (by rintro _ ⟨⟩)⟩

/-! ## Paths -/

/-- Some steps that are one expression, or a path of more. -/
structure Walk (steps : List Expr) : Prop where
  some_step : steps ≠ []
  solid : (Expr.ofSteps steps).Solid

theorem walk_of_two {steps : List Expr} (h : 2 ≤ steps.length) : Walk steps := by
  match steps, h with
  | a :: b :: steps, h =>
    refine ⟨List.cons_ne_nil _ _, ?_⟩
    rintro _ ⟨⟩
    exact h

theorem walk_single (solid : e.Solid) : Walk [e] := ⟨List.cons_ne_nil _ _, solid⟩

theorem walk_first (solid : e.Solid) : ∃ steps, addStep [] (.expr e) = .ok steps ∧ Walk steps := by
  cases e with
  | chain inner => exact ⟨inner, rfl, walk_of_two (solid inner rfl)⟩
  | _ => exact ⟨_, rfl, walk_single solid⟩

theorem Walk.next {steps : List Expr} (walk : Walk steps) {node : ExprNode} (h : node.Fits .step) :
    ∃ steps', addStep steps node = .ok steps' ∧ Walk steps' := by
  have longer (e : Expr) : Walk (steps ++ [e]) := by
    have := List.length_pos_iff.2 walk.some_step
    exact walk_of_two (by simp only [List.length_append, List.length_singleton]; omega)
  cases h with
  | @step e solid =>
    cases e with
    | chain inner =>
      refine ⟨_, ?_, longer (.chain inner)⟩
      simp [addStep, walk.some_step]
    | _ => exact ⟨_, rfl, longer _⟩
  | stepPosition => exact ⟨_, rfl, walk_single (by rintro _ ⟨⟩)⟩

theorem Walk.rest {steps : List Expr} (walk : Walk steps) (h : ∀ node ∈ nodes, node.Fits .step) :
    ∃ steps', nodes.foldlM addStep steps = .ok steps' ∧ Walk steps' := by
  induction nodes generalizing steps with
  | nil => exact ⟨steps, rfl, walk⟩
  | cons node nodes ih =>
    obtain ⟨fits, later⟩ := List.forall_mem_cons.1 h
    obtain ⟨steps', added, walk⟩ := walk.next fits
    rw [List.foldlM_cons, added]
    exact ih walk later

open Body in
theorem makes_chainStep :
    Makes ⟨"ChainStep", alt (seq (literal ".") (name "Step")) (name "Index")⟩ := by
  rintro children (⟨_, _, rfl, point, step⟩ | h)
  · obtain ⟨t, rfl, -⟩ := gives_literal point
    obtain ⟨e, rfl, solid⟩ := gives_expr (by decide) rfl step
    exact ⟨_, rfl, .step solid⟩
  · obtain ⟨_, rfl, fits⟩ := (Body.makes_rule (by decide)).1 h
    have fits : Fits .position _ := fits
    cases fits with
    | position => exact ⟨_, rfl, .stepPosition⟩

open Body in
theorem makes_chain : Makes ⟨"Chain", seq (name "Primary") (star (name "ChainStep"))⟩ := by
  rintro children ⟨_, _, rfl, first, rounds, rfl, each⟩
  obtain ⟨e, rfl, solid⟩ := gives_expr (by decide) rfl first
  have fits : ∀ node ∈ rounds.flatten, node.Fits .step := by
    intro node listed
    obtain ⟨row, inside, listed⟩ := List.mem_flatten.1 listed
    obtain ⟨_, rfl, fits⟩ := (Body.makes_rule (by decide)).1 (each row inside)
    exact List.mem_singleton.1 listed ▸ fits
  obtain ⟨steps, added, walk⟩ := walk_first solid
  obtain ⟨steps', folded, walk⟩ := walk.rest fits
  refine ⟨.expr (.ofSteps steps'), ?_, .expr walk.solid⟩
  show ExprNode.expr <$> chainOf _ = _
  rw [chainOf, List.singleton_append, List.foldlM_cons, added]
  simp only [bind, Except.bind] at folded ⊢
  rw [folded]
  simp [walk.some_step]

/-! ## Operations -/

open Body in
theorem makes_unary :
    Makes ⟨"Unary", alt (seq (name "UnaryOp") (name "Unary")) (name "Chain")⟩ := by
  rintro children (⟨_, _, rfl, sign, operand⟩ | h)
  · obtain ⟨_, rfl, fits⟩ := (Body.makes_rule (by decide)).1 sign
    have fits : Fits .sign _ := fits
    obtain ⟨e, rfl, -⟩ := gives_expr (by decide) rfl operand
    cases fits with
    | @sign t op symbol =>
      obtain ⟨e', made, solid⟩ : ∃ e', unaryOf [.token t, .expr e] = .ok e' ∧ e'.Solid := by
        simp only [unaryOf, symbol]
        split
        · exact ⟨_, rfl, by rintro _ ⟨⟩⟩
        · exact ⟨_, rfl, by rintro _ ⟨⟩⟩
        · cases ‹some op = none›
      refine ⟨.expr e', ?_, .expr solid⟩
      show ExprNode.expr <$> unaryOf _ = _
      rw [List.singleton_append, made]
      rfl
  · obtain ⟨e, rfl, solid⟩ := gives_expr (by decide) rfl h
    exact ⟨_, rfl, .expr solid⟩

/-- An operator and an operand. -/
def IsRound (row : List ExprNode) : Prop :=
  ∃ t op e, row = [.token t, .expr e] ∧ BinaryOperator.ofSymbol? t.text = some op

theorem binaryFrom_ok (solid : e.Solid) {rounds : List (List ExprNode)}
    (each : ∀ row ∈ rounds, IsRound row) :
    ∃ e', binaryFrom e rounds.flatten = .ok e' ∧ e'.Solid := by
  induction rounds generalizing e with
  | nil => exact ⟨e, rfl, solid⟩
  | cons row rounds ih =>
    obtain ⟨⟨t, op, right, rfl, symbol⟩, later⟩ := List.forall_mem_cons.1 each
    have solid : (Expr.binary op e right).Solid := by rintro _ ⟨⟩
    obtain ⟨e', made, solid⟩ := ih solid later
    refine ⟨e', ?_, solid⟩
    simp only [List.flatten_cons, List.cons_append, List.nil_append, binaryFrom, symbol]
    exact made

/-- A rule of operands with an operator between each two. -/
theorem makes_binary {name operand : String} {op : Body}
    (binary : ∀ nodes, ofRule name nodes = ExprNode.expr <$> binaryOf nodes)
    (kind : nodeKind name = .expr)
    (rule : lexicalPatterns.lookup operand = none) (kind' : nodeKind operand = .expr)
    (operator : ∀ nodes, Gives op nodes →
      ∃ t o, nodes = [.token t] ∧ BinaryOperator.ofSymbol? t.text = some o) :
    Makes ⟨name, .separated (.name operand) op⟩ := by
  rintro children ⟨_, _, rfl, first, rounds, rfl, each⟩
  obtain ⟨e, rfl, solid⟩ := gives_expr rule kind' first
  have each : ∀ row ∈ rounds, IsRound row := by
    intro row inside
    obtain ⟨_, _, rfl, between, right⟩ := each row inside
    obtain ⟨t, o, rfl, symbol⟩ := operator _ between
    obtain ⟨e, rfl, -⟩ := gives_expr rule kind' right
    exact ⟨t, o, e, rfl, symbol⟩
  obtain ⟨e', made, solid⟩ := binaryFrom_ok solid each
  refine ⟨.expr e', ?_, kind ▸ .expr solid⟩
  rw [binary, List.singleton_append, binaryOf, made]
  rfl

theorem operator_of_literal {text : String} (known : (BinaryOperator.ofSymbol? text).isSome = true)
    (h : Gives (.literal text) nodes) :
    ∃ t o, nodes = [.token t] ∧ BinaryOperator.ofSymbol? t.text = some o := by
  obtain ⟨t, rfl, -, rfl⟩ := gives_literal h
  obtain ⟨o, symbol⟩ := Option.isSome_iff_exists.1 known
  exact ⟨t, o, rfl, symbol⟩

theorem operator_of_rule {name : String} (rule : lexicalPatterns.lookup name = none)
    (kind : nodeKind name = .operator) (h : Gives (.name name) nodes) :
    ∃ t o, nodes = [.token t] ∧ BinaryOperator.ofSymbol? t.text = some o := by
  obtain ⟨_, rfl, fits⟩ := (Body.makes_rule rule).1 h
  rw [kind] at fits
  cases fits with
  | operator symbol => exact ⟨_, _, rfl, symbol⟩

/-! ## Choices and assignments -/

open Body in
theorem makes_conditionalTail : Makes ⟨"ConditionalTail", sequence (literal "?")
    [name "Expression", opt (seq (literal ":") (name "Expression"))]⟩ := by
  rintro children ⟨_, _, rfl, mark, _, _, rfl, first, second⟩
  obtain ⟨t, rfl, -⟩ := gives_literal mark
  obtain ⟨e, rfl, -⟩ := gives_expr (by decide) rfl first
  exact ⟨_, rfl, .branches⟩

open Body in
theorem makes_assignTail :
    Makes ⟨"AssignTail", seq (name "AssignOp") (name "Expression")⟩ := by
  rintro children ⟨_, _, rfl, mark, value⟩
  obtain ⟨_, rfl, fits⟩ := (Body.makes_rule (by decide)).1 mark
  have fits : Fits .mark _ := fits
  obtain ⟨e, rfl, -⟩ := gives_expr (by decide) rfl value
  cases fits with
  | @mark t op symbol =>
    refine ⟨.assigned op e, ?_, .assigned⟩
    have made : assignedOf [.token t, .expr e] = .ok (.assigned op e) := by
      rw [assignedOf, symbol]
    exact made

open Body in
theorem makes_conditional :
    Makes ⟨"Conditional", seq (name "LogicalOr") (opt (name "ConditionalTail"))⟩ := by
  rintro children ⟨_, _, rfl, head, rfl | tail⟩
  · obtain ⟨e, rfl, solid⟩ := gives_expr (by decide) rfl head
    exact ⟨_, rfl, .expr solid⟩
  · obtain ⟨e, rfl, solid⟩ := gives_expr (by decide) rfl head
    obtain ⟨_, rfl, fits⟩ := (Body.makes_rule (by decide)).1 tail
    have fits : Fits .branches _ := fits
    cases fits with
    | branches => exact ⟨_, rfl, .expr (by rintro _ ⟨⟩)⟩

/-- An assignment to what cannot be assigned to. -/
def IsMisassigned (children : List ExprNode) : Prop :=
  ∃ head op value, children = [.expr head, .assigned op value] ∧ head.isAssignable = false

open Body in
/-- An expression is made, unless it is an assignment to what cannot be assigned to. -/
theorem expression_of_gives
    (h : Gives (seq (name "Conditional") (opt (name "AssignTail"))) children) :
    (∃ node, ofRule "Expression" children = .ok node ∧ node.Fits .expr) ∨
      IsMisassigned children := by
  obtain ⟨_, _, rfl, head, rfl | tail⟩ := h
  · obtain ⟨e, rfl, solid⟩ := gives_expr (by decide) rfl head
    exact .inl ⟨_, rfl, .expr solid⟩
  · obtain ⟨e, rfl, solid⟩ := gives_expr (by decide) rfl head
    obtain ⟨_, rfl, fits⟩ := (Body.makes_rule (by decide)).1 tail
    have fits : Fits .assigned _ := fits
    cases fits with
    | @assigned op value =>
      cases assignable : e.isAssignable with
      | true =>
        refine .inl ⟨.expr (.assignment op e value), ?_, .expr (by rintro _ ⟨⟩)⟩
        show ExprNode.expr <$> withTail _ = _
        rw [List.singleton_append, withTail, if_pos assignable]
        rfl
      | false => exact .inr ⟨e, op, value, rfl, assignable⟩

/-- The message of such an assignment. -/
theorem ofRule_misassigned {head value : Expr} {op : AssignOperator}
    (h : head.isAssignable = false) :
    ofRule "Expression" [.expr head, .assigned op value] =
      .error ("cannot assign to '" ++ head.render ++ "'") := by
  show ExprNode.expr <$> withTail _ = _
  rw [withTail, if_neg (by simp [h])]
  rfl

/-! ## All rules -/

/-- **Each rule makes a node of its kind** of what its parts give, but for assignments to what cannot be
assigned to. -/
theorem ofRule_gives : ∀ d ∈ expressionRules, ∀ children, Gives d.body children →
    (∃ node, ofRule d.name children = .ok node ∧ node.Fits (nodeKind d.name)) ∨
      d.name = "Expression" ∧ IsMisassigned children := by
  have others : ∀ d ∈ expressionRules.tail, Makes d := by
    simp only [expressionRules, List.tail_cons, List.forall_mem_cons, List.not_mem_nil,
      false_implies, implies_true, and_true]
    refine ⟨makes_assignTail, makes_mark, makes_conditional, makes_conditionalTail, ?logicalOr,
      ?logicalAnd, ?equality, makes_operator (fun _ => rfl) rfl (by decide), ?relational,
      makes_operator (fun _ => rfl) rfl (by decide), ?additive,
      makes_operator (fun _ => rfl) rfl (by decide), ?multiplicative,
      makes_operator (fun _ => rfl) rfl (by decide), makes_unary, makes_sign, makes_chain,
      makes_chainStep, makes_index, makes_primary, makes_group, makes_step, makes_call,
      makes_arguments, makes_key, makes_literal⟩
    case logicalOr | logicalAnd =>
      exact makes_binary (fun _ => rfl) rfl (by decide) rfl fun _ => operator_of_literal (by decide)
    all_goals
      exact makes_binary (fun _ => rfl) rfl (by decide) rfl fun _ => operator_of_rule (by decide) rfl
  intro d defined children h
  rcases List.mem_cons.1 defined with rfl | defined
  · exact (expression_of_gives h).imp_right fun wrong => ⟨rfl, wrong⟩
  · exact .inl (others d defined children h)

end ExprNode

end Rowlang
