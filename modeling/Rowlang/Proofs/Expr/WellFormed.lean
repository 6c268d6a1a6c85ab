import Rowlang.Proofs.Eval.Logic
import Rowlang.Proofs.Expr.Comments
import Rowlang.Proofs.Grammar.Lexemes

/-!
# Well-formed expressions

What is read is more than any expression: evaluation and writing count on how paths and targets are made up.
Each function of the builder keeps to that, given the nodes that the rules of expressions give it.

* `IsName` : the texts of names;
* `Expr.IsPath`, `Expr.Proper`, `Expr.WellFormed` : what holds of the steps of a path, and of each node of an
  expression that is read;
* `ExprNode.Formed` : nodes whose expressions are well formed;
* `ExprNode.isMade_of_ofRule` : each rule makes such a node of such nodes;
* `Expr.wellFormed_of_ofText` : an expression that is read is well formed;
* `Engine.wellFormed_compile` : so is one that is compiled.
-/

namespace Rowlang
open Rowlang.Text

/-! ## Well-formedness -/

/-- The words of literals, which are no names. -/
def literalWords : List String := ["true", "false", "null"]

theorem literalWords_leaves : ∀ w ∈ literalWords, .literal w ∈ expressionLeaves := by decide

/-- The text of a name: the pattern of names spells it, and it is no literal. -/
structure IsName (text : String) : Prop where
  spelled : (lexicalLeaf "Name").Spells text.toList
  other : text ∉ literalWords

namespace Expr

/-- Whether the expression may stand behind a point: a key or a call. -/
def isStep : Expr → Bool
  | .key _ | .call .. => true
  | _ => false

/-- Steps of which the first is no path, and all others are keys or calls. -/
structure IsPath (steps : List Expr) : Prop where
  first : ∀ inner, steps.head? ≠ some (.chain inner)
  later : ∀ e ∈ steps.tail, e.isStep = true

/-- What holds of every node of an expression that is read. -/
def Proper : Expr → Prop
  | .literal v => v = .null ∨ (∃ b, v = .boolean b) ∨ (∃ n, v = .number n) ∨ ∃ s, v = .text s
  | .key name => IsName name
  | .call name _ => IsName name
  | .chain steps => 2 ≤ steps.length ∧ IsPath steps
  | .assignment _ target _ =>
    (∃ name, target = .key name) ∨ ∃ steps name, target = .chain (steps ++ [.key name])
  | .unary op operand => op = .negate → ∀ n, operand ≠ .literal (.number n)
  | .index .. | .conditional .. | .binary .. => True

/-- All nodes of the expression are proper. -/
def WellFormed (e : Expr) : Prop := e.Throughout Proper

section Parts
variable {P : Expr → Prop}

theorem throughout_literal {v : Value} (here : P (.literal v)) : (Expr.literal v).Throughout P :=
  List.forall_mem_singleton.2 here

theorem throughout_key {name : String} (here : P (.key name)) : (Expr.key name).Throughout P :=
  List.forall_mem_singleton.2 here

theorem throughout_call {name : String} {args : List Expr} (here : P (.call name args))
    (inner : ∀ e ∈ args, e.Throughout P) : (Expr.call name args).Throughout P :=
  List.forall_mem_cons.2 ⟨here, throughoutAll_iff.2 inner⟩

theorem throughout_chain {steps : List Expr} (here : P (.chain steps))
    (inner : ∀ e ∈ steps, e.Throughout P) : (Expr.chain steps).Throughout P :=
  List.forall_mem_cons.2 ⟨here, throughoutAll_iff.2 inner⟩

theorem throughout_index {target position : Expr} (here : P (.index target position))
    (first : target.Throughout P) (second : position.Throughout P) :
    (Expr.index target position).Throughout P :=
  List.forall_mem_cons.2 ⟨here, List.forall_mem_append.2 ⟨first, second⟩⟩

theorem throughout_conditional {condition whenTrue : Expr} {whenFalse : Option Expr}
    (here : P (.conditional condition whenTrue whenFalse)) (first : condition.Throughout P)
    (second : whenTrue.Throughout P) (third : ∀ e ∈ whenFalse, e.Throughout P) :
    (Expr.conditional condition whenTrue whenFalse).Throughout P := by
  refine List.forall_mem_cons.2
    ⟨here, List.forall_mem_append.2 ⟨List.forall_mem_append.2 ⟨first, second⟩, ?_⟩⟩
  cases whenFalse with
  | none => exact List.forall_mem_nil P
  | some e => exact third e rfl

theorem throughout_assignment {op : AssignOperator} {target value : Expr}
    (here : P (.assignment op target value)) (first : target.Throughout P) (second : value.Throughout P) :
    (Expr.assignment op target value).Throughout P :=
  List.forall_mem_cons.2 ⟨here, List.forall_mem_append.2 ⟨first, second⟩⟩

theorem throughout_unary {op : UnaryOperator} {operand : Expr} (here : P (.unary op operand))
    (inner : operand.Throughout P) : (Expr.unary op operand).Throughout P :=
  List.forall_mem_cons.2 ⟨here, inner⟩

theorem throughout_binary {op : BinaryOperator} {left right : Expr} (here : P (.binary op left right))
    (first : left.Throughout P) (second : right.Throughout P) : (Expr.binary op left right).Throughout P :=
  List.forall_mem_cons.2 ⟨here, List.forall_mem_append.2 ⟨first, second⟩⟩

end Parts

theorem isAssignable_iff {e : Expr} : e.isAssignable = true ↔
    (∃ name, e = .key name) ∨ ∃ steps name, e = .chain (steps ++ [.key name]) := by
  constructor
  · intro assignable
    cases e with
    | key name => exact .inl ⟨name, rfl⟩
    | chain steps =>
      obtain ⟨name, last⟩ := Option.isSome_iff_exists.1 assignable
      obtain ⟨e, ending, named⟩ := Option.bind_eq_some_iff.1 last
      obtain ⟨before, rfl⟩ := List.getLast?_eq_some_iff.1 ending
      cases e with
      | key name' => exact .inr ⟨before, name', rfl⟩
      | _ => cases named
    | _ => cases assignable
  · rintro (⟨name, rfl⟩ | ⟨steps, name, rfl⟩)
    · rfl
    · simp [isAssignable, keyName?]

/-- A path of one step is that step, and of more it is well formed as they are. -/
theorem wellFormed_ofSteps {steps : List Expr} (some_step : steps ≠ []) (path : IsPath steps)
    (formed : ∀ e ∈ steps, e.WellFormed) : (Expr.ofSteps steps).WellFormed := by
  match steps with
  | [] => exact absurd rfl some_step
  | [e] => exact formed e (List.mem_singleton_self e)
  | _ :: _ :: _ => exact throughout_chain ⟨by simp, path⟩ formed

end Expr

namespace ExprNode

/-- The expressions of the node are well formed. -/
def Formed : ExprNode → Prop
  | .token _ => True
  | .expr e | .position e | .assigned _ e => e.WellFormed
  | .arguments args => ∀ e ∈ args, e.WellFormed
  | .branches whenTrue whenFalse => whenTrue.WellFormed ∧ ∀ e ∈ whenFalse, e.WellFormed

/-- Whether the node may stand in a path behind others: a key, a call, or a position in brackets. -/
def isStep : ExprNode → Bool
  | .expr e => e.isStep
  | .position _ => true
  | _ => false

/-- The rules that make steps of paths. -/
def stepRules : List String := ["Key", "FunctionCall", "Step", "Index", "ChainStep"]

/-- A node that a rule makes: it is of the kind of the rule, its expressions are well formed, and it is a
step if the rule makes steps. -/
structure IsMade (name : String) (node : ExprNode) : Prop where
  fits : node.Fits (nodeKind name)
  formed : node.Formed
  step : name ∈ stepRules → node.isStep = true

/-- The token of a leaf pattern, which is a name if it is that of names. -/
inductive IsNamed (p : LeafPattern) : ExprNode → Prop
  | token {t : Token} (leaf : IsLeaf p (.token t)) (name : p = lexicalLeaf "Name" → IsName t.text) :
      IsNamed p (.token t)

variable {nodes children : List ExprNode} {node : ExprNode} {e : Expr}

/-! ## The functions of the builder -/

theorem formed_literalOf {t : Token} (made : literalOf t = .ok e) : e.WellFormed := by
  unfold literalOf at made
  split at made
  · split at made
    · cases made
      exact Expr.throughout_literal (.inr (.inr (.inl ⟨_, rfl⟩)))
    · cases made
  · split at made
    · cases made
      exact Expr.throughout_literal (.inr (.inr (.inr ⟨_, rfl⟩)))
    · split at made
      · cases made
        exact Expr.throughout_literal (.inr (.inl ⟨_, rfl⟩))
      · split at made
        · cases made
          exact Expr.throughout_literal (.inr (.inl ⟨_, rfl⟩))
        · split at made
          · cases made
            exact Expr.throughout_literal (.inl rfl)
          · cases made

theorem formed_unaryOf (formed : ∀ node ∈ children, node.Formed) (made : unaryOf children = .ok e) :
    e.WellFormed := by
  rcases unaryOf_cases made with listed | ⟨n, rfl⟩ | ⟨op, operand, rfl, listed, other⟩
  · exact formed _ listed
  · exact Expr.throughout_literal (.inr (.inr (.inl ⟨_, rfl⟩)))
  · exact Expr.throughout_unary other (formed _ listed)

theorem formed_binaryFrom {left : Expr} (first : left.WellFormed) (formed : ∀ node ∈ nodes, node.Formed)
    (made : binaryFrom left nodes = .ok e) : e.WellFormed := by
  fun_induction binaryFrom left nodes with
  | case1 left =>
    cases made
    exact first
  | case2 left t right rest op known ih =>
    rw [List.forall_mem_cons, List.forall_mem_cons] at formed
    obtain ⟨-, second, later⟩ := formed
    exact ih (Expr.throughout_binary trivial first second) later made
  | case3 | case4 => cases made

theorem formed_exprs (formed : ∀ node ∈ children, node.Formed) :
    ∀ e ∈ children.filterMap expr?, e.WellFormed :=
  fun _ listed => formed _ (mem_of_mem_exprs listed)

theorem formed_branchesOf (formed : ∀ node ∈ children, node.Formed)
    (made : branchesOf children = .ok node) : node.Formed := by
  obtain ⟨whenTrue, whenFalse, rfl, first, second⟩ := branchesOf_cases made
  exact ⟨formed _ first, fun e present => formed _ (second e present)⟩

theorem formed_assignedOf (formed : ∀ node ∈ children, node.Formed)
    (made : assignedOf children = .ok node) : node.Formed := by
  obtain ⟨op, value, rfl, listed⟩ := assignedOf_cases made
  exact formed (.expr value) listed

theorem formed_withTail (formed : ∀ node ∈ children, node.Formed) (made : withTail children = .ok e) :
    e.WellFormed := by
  rcases withTail_cases made with listed | ⟨_, _, _, rfl, head, tail⟩ | ⟨_, _, _, rfl, assignable, head, tail⟩
  · exact formed _ listed
  · obtain ⟨second, third⟩ := formed _ tail
    exact Expr.throughout_conditional trivial (formed _ head) second third
  · exact Expr.throughout_assignment (Expr.isAssignable_iff.1 assignable) (formed _ head) (formed _ tail)

/-! ## Paths -/

/-- The steps of a path that is read, from the first on. -/
structure IsWalk (steps : List Expr) : Prop where
  some_step : steps ≠ []
  path : Expr.IsPath steps
  formed : ∀ e ∈ steps, e.WellFormed

theorem isWalk_single (formed : e.WellFormed) (other : ∀ inner, e ≠ .chain inner) : IsWalk [e] :=
  ⟨List.cons_ne_nil _ _, ⟨fun inner same => other inner (Option.some.inj same), List.forall_mem_nil _⟩,
    List.forall_mem_singleton.2 formed⟩

theorem isWalk_first (formed : e.WellFormed) : ∃ steps, addStep [] (.expr e) = .ok steps ∧ IsWalk steps := by
  cases e with
  | chain inner =>
    obtain ⟨two, path⟩ := formed.here
    exact ⟨inner, rfl, List.ne_nil_of_length_pos (by omega), path, Expr.throughoutAll_iff.1 formed.chain⟩
  | _ => exact ⟨_, rfl, isWalk_single formed (by simp)⟩

theorem IsWalk.next {steps : List Expr} (walk : IsWalk steps) (formed : node.Formed)
    (step : node.isStep = true) : ∃ steps', addStep steps node = .ok steps' ∧ IsWalk steps' := by
  obtain ⟨first, rest, rfl⟩ := List.exists_cons_of_ne_nil walk.some_step
  have longer (e : Expr) (formed : e.WellFormed) (step : e.isStep = true) : IsWalk (first :: rest ++ [e]) := by
    refine ⟨by simp, ⟨walk.path.first, ?_⟩, ?_⟩
    · exact List.forall_mem_append.2 ⟨walk.path.later, List.forall_mem_singleton.2 step⟩
    · exact List.forall_mem_append.2 ⟨walk.formed, List.forall_mem_singleton.2 formed⟩
  cases node with
  | expr e =>
    cases e with
    | key | call => exact ⟨_, rfl, longer _ formed step⟩
    | _ => cases step
  | position e =>
    have target := Expr.wellFormed_ofSteps walk.some_step walk.path walk.formed
    exact ⟨_, rfl, isWalk_single (Expr.throughout_index trivial target formed) (by simp)⟩
  | _ => cases step

theorem IsWalk.rest {steps : List Expr} (walk : IsWalk steps)
    (each : ∀ node ∈ nodes, node.Formed ∧ node.isStep = true) :
    ∃ steps', nodes.foldlM addStep steps = .ok steps' ∧ IsWalk steps' := by
  induction nodes generalizing steps with
  | nil => exact ⟨steps, rfl, walk⟩
  | cons node nodes ih =>
    obtain ⟨⟨formed, step⟩, later⟩ := List.forall_mem_cons.1 each
    obtain ⟨steps', added, walk⟩ := walk.next formed step
    rw [List.foldlM_cons, added]
    exact ih walk later

theorem formed_chainOf (first : e.WellFormed) (each : ∀ node ∈ nodes, node.Formed ∧ node.isStep = true)
    {e' : Expr} (made : chainOf (.expr e :: nodes) = .ok e') : e'.WellFormed := by
  obtain ⟨steps, added, walk⟩ := isWalk_first first
  obtain ⟨steps', folded, walk⟩ := walk.rest each
  rw [chainOf, List.foldlM_cons, added] at made
  simp only [bind, Except.bind] at folded made
  rw [folded] at made
  simp only [List.isEmpty_iff, walk.some_step, if_false] at made
  cases made
  exact Expr.wellFormed_ofSteps walk.some_step walk.path walk.formed

/-! ## Calls -/

theorem formed_callOf {t : Token} (named : IsName t.text) (formed : ∀ node ∈ nodes, node.Formed)
    (made : callOf (.token t :: nodes) = .ok e) : e.WellFormed ∧ e.isStep = true := by
  obtain ⟨name, args, rfl, given⟩ := callOf_cases made
  obtain rfl : t.text = name := by
    cases made
    rfl
  refine ⟨Expr.throughout_call named ?_, rfl⟩
  rcases given with rfl | given
  · exact List.forall_mem_nil _
  · obtain same | listed := List.mem_cons.1 given
    · cases same
    · exact formed _ listed

/-! ## Rules -/

/-- The nodes that the parts of a body give, each as its rule makes it. -/
abbrev Receives (b : Body) (nodes : List ExprNode) : Prop := b.Makes IsNamed IsMade nodes

theorem Receives.gives {b : Body} (h : Receives b nodes) : Gives b nodes :=
  Body.Makes.mono (fun _ _ named => by cases named; assumption) (fun _ _ made => made.fits) h

theorem Receives.formed {b : Body} (h : Receives b nodes) : ∀ node ∈ nodes, node.Formed :=
  Body.Makes.forall (fun _ _ _ named => by cases named; trivial) (fun _ _ _ made => made.formed) h

theorem receives_rule {name : String} (rule : lexicalPatterns.lookup name = none)
    (h : Receives (.name name) nodes) : ∃ node, nodes = [node] ∧ IsMade name node :=
  (Body.makes_rule rule).1 h

theorem receives_name (h : Receives (.name "Name") nodes) : ∃ t, nodes = [.token t] ∧ IsName t.text := by
  obtain ⟨source, known⟩ := Option.isSome_iff_exists.1
    (show (lexicalPatterns.lookup "Name").isSome = true by decide)
  obtain ⟨_, rfl, ⟨-, name⟩⟩ := (Body.makes_lexical known).1 h
  exact ⟨_, rfl, name (by rw [lexicalLeaf, known]; rfl)⟩

theorem map_eq_ok {α β ε : Type} {f : α → β} {x : Except ε α} {b : β} (made : f <$> x = .ok b) :
    ∃ a, x = .ok a ∧ f a = b := by
  cases x with
  | ok a => exact ⟨a, rfl, Except.ok.inj made⟩
  | error => cases made

theorem formed_binaryOf (formed : ∀ node ∈ children, node.Formed) (made : binaryOf children = .ok e) :
    e.WellFormed := by
  unfold binaryOf at made
  split at made
  · obtain ⟨first, later⟩ := List.forall_mem_cons.1 formed
    exact formed_binaryFrom first later made
  · cases made

/-- Apart from names, calls and paths, the builder puts together what it is given. -/
theorem formed_ofRule {name : String} (other : name ∉ ["Key", "FunctionCall", "Chain"])
    (formed : ∀ node ∈ children, node.Formed) (made : ofRule name children = .ok node) : node.Formed := by
  unfold ofRule at made
  split at made
  case h_1 =>
    split at made
    · obtain ⟨e, read, rfl⟩ := map_eq_ok made
      exact formed_literalOf read
    · cases made
  case h_2 | h_4 | h_8 => simp at other
  case h_3 =>
    cases made
    exact formed_exprs formed
  case h_5 | h_6 =>
    obtain ⟨e, first, rfl⟩ := map_eq_ok made
    exact formed (.expr _) (firstExpr_cases first)
  case h_7 =>
    split at made
    · rename_i found
      cases made
      exact formed _ (List.mem_of_find?_eq_some found)
    · cases made
  case h_9 =>
    obtain ⟨e, read, rfl⟩ := map_eq_ok made
    exact formed_unaryOf formed read
  case h_10 | h_11 | h_12 | h_13 | h_14 | h_15 =>
    obtain ⟨e, read, rfl⟩ := map_eq_ok made
    exact formed_binaryOf formed read
  case h_16 => exact formed_branchesOf formed made
  case h_17 => exact formed_assignedOf formed made
  case h_18 | h_19 =>
    obtain ⟨e, read, rfl⟩ := map_eq_ok made
    exact formed_withTail formed read
  case h_20 =>
    split at made
    · cases made
      exact formed _ (List.mem_singleton_self _)
    · cases made

/-- What holds of a node that a rule makes, apart from its kind. -/
abbrev Keeps (d : Definition) : Prop :=
  ∀ children node, Receives d.body children → ofRule d.name children = .ok node →
    node.Formed ∧ (d.name ∈ stepRules → node.isStep = true)

theorem keeps_key : Keeps ⟨"Key", .name "Name"⟩ := by
  intro children node h made
  obtain ⟨t, rfl, named⟩ := receives_name h
  cases made
  exact ⟨Expr.throughout_key named, fun _ => rfl⟩

open Body in
theorem keeps_call : Keeps ⟨"FunctionCall", sequence (ahead 2)
    [name "Name", literal "(", opt (name "Arguments"), literal ")"]⟩ := by
  intro children node h made
  have formed := h.formed
  obtain ⟨_, _, rfl, rfl, _, more, rfl, called, -⟩ := h
  obtain ⟨t, rfl, named⟩ := receives_name called
  obtain ⟨e, read, rfl⟩ := map_eq_ok made
  obtain ⟨formed, step⟩ := formed_callOf named (List.forall_mem_cons.1 formed).2 read
  exact ⟨formed, fun _ => step⟩

open Body in
theorem keeps_chain : Keeps ⟨"Chain", seq (name "Primary") (star (name "ChainStep"))⟩ := by
  intro children node h made
  obtain ⟨_, _, rfl, primary, rounds, rfl, each⟩ := h
  obtain ⟨head, rfl, made₁⟩ := receives_rule (by decide) primary
  obtain ⟨e, rfl⟩ : ∃ e, head = .expr e := by
    obtain ⟨fits, -, -⟩ := made₁
    have fits : Fits .expr head := fits
    cases fits with
    | expr => exact ⟨_, rfl⟩
  have steps : ∀ node ∈ rounds.flatten, node.Formed ∧ node.isStep = true := by
    refine List.forall_mem_flatten.2 fun row inside => ?_
    obtain ⟨node, rfl, made⟩ := receives_rule (by decide) (each row inside)
    exact List.forall_mem_singleton.2 ⟨made.formed, made.step (by decide)⟩
  obtain ⟨e', read, rfl⟩ := map_eq_ok made
  exact ⟨formed_chainOf made₁.formed steps read, fun listed => absurd listed (by decide)⟩

/-- A rule that makes no steps, or passes one on. -/
theorem keeps_other {d : Definition} (other : d.name ∉ ["Key", "FunctionCall", "Chain"])
    (step : d.name ∈ stepRules → ∀ children node, Receives d.body children →
      ofRule d.name children = .ok node → node.isStep = true) : Keeps d :=
  fun children node h made =>
    ⟨formed_ofRule other h.formed made, fun listed => step listed children node h made⟩

open Body in
theorem keeps_step : Keeps ⟨"Step", alt (name "FunctionCall") (name "Key")⟩ := by
  refine keeps_other (by decide) fun _ children node h made => ?_
  rcases h with h | h <;>
  · obtain ⟨passed, rfl, is⟩ := receives_rule (by decide) h
    cases made
    exact is.step (by decide)

open Body in
theorem keeps_index : Keeps ⟨"Index", sequence (literal "[") [name "Expression", literal "]"]⟩ := by
  refine keeps_other (by decide) fun _ children node _ made => ?_
  obtain ⟨e, -, rfl⟩ := map_eq_ok made
  rfl

open Body in
theorem keeps_chainStep : Keeps ⟨"ChainStep", alt (seq (literal ".") (name "Step")) (name "Index")⟩ := by
  refine keeps_other (by decide) fun _ children node h made => ?_
  rcases h with ⟨_, _, rfl, ⟨_, rfl, point⟩, step⟩ | h
  · obtain ⟨passed, rfl, is⟩ := receives_rule (by decide) step
    have isStep := is.step (by decide)
    cases point
    cases passed with
    | token => cases isStep
    | _ =>
      cases made
      exact isStep
  · obtain ⟨passed, rfl, is⟩ := receives_rule (by decide) h
    have isStep := is.step (by decide)
    cases passed with
    | token => cases isStep
    | _ =>
      cases made
      exact isStep

theorem keeps_of_mem : ∀ d ∈ expressionRules, Keeps d := by
  have plain {d : Definition} (other : d.name ∉ ["Key", "FunctionCall", "Chain"] ∧ d.name ∉ stepRules) :
      Keeps d := keeps_other other.1 fun listed => absurd listed other.2
  simp only [expressionRules, List.forall_mem_cons, List.not_mem_nil, false_implies, implies_true, and_true]
  refine ⟨?_, ?_, ?_, ?_, ?_, ?_, ?_, ?_, ?_, ?_, ?_, ?_, ?_, ?_, ?_, ?_, ?_, keeps_chain, keeps_chainStep,
    keeps_index, ?_, ?_, keeps_step, keeps_call, ?_, keeps_key, ?_⟩
  all_goals exact plain (by decide)

/-- **Each rule makes a well-formed node** of its kind of such nodes. -/
theorem isMade_of_ofRule : ∀ d ∈ expressionRules, ∀ children node, Receives d.body children →
    ofRule d.name children = .ok node → IsMade d.name node := by
  intro d defined children node h made
  obtain ⟨formed, step⟩ := keeps_of_mem d defined children node h made
  refine ⟨?_, formed, step⟩
  rcases ofRule_gives d defined children h.gives with ⟨node', made', fits⟩ | ⟨name, wrong⟩
  · cases made'.symm.trans made
    exact fits
  · obtain ⟨head, op, value, rfl, refused⟩ := wrong
    rw [name, ofRule_misassigned refused] at made
    cases made

end ExprNode

/-! ## Texts -/

namespace Expr

variable {g : Grammar} {text : String} {e : Expr}

section
variable (known : g.IsExpressions) (words : ∀ w ∈ literalWords, .literal w ∈ g.lexicon.patterns)
include known words

theorem isNamed_of_scan : ∀ t ∈ (g.scan text).tokens, ∀ p, g.Is p t → ExprNode.IsNamed p (.token t) := by
  intro t listed p is
  obtain ⟨patterns, prepared⟩ := known.prepared
  have cut := Lexicon.scan_cut prepared g.comments text
  have leaf := isLeaf_of_scan known t listed p is
  refine .token leaf ?_
  rintro rfl
  obtain ⟨name, spelled⟩ := leaf
  refine ⟨spelled, fun word => ?_⟩
  have nonempty : ∀ w ∈ literalWords, 0 < w.toList.length := by decide
  have lighter : (lexicalLeaf "Name").weight < t.text.toList.length := by
    rw [weight_name]
    exact nonempty _ word
  exact cut.ne_literal prepared (words _ word) t listed _ is lighter rfl

theorem wellFormed_of_isExpressions {mode : CommentMode} (read : ofText (g.withComments mode) text = .ok e) :
    e.WellFormed := by
  have known := known.withComments mode
  obtain ⟨s', parsed⟩ := parseAll_of_ofText read
  obtain ⟨⟨body, named⟩, realised⟩ := start_made known
  obtain ⟨-, nodes, builds, made⟩ := Parser.parseAll_builds parsed
  obtain ⟨node', rfl⟩ := builds.of_named named
  have received : ExprNode.Receives (.name "Expression") [node'] := by
    refine builds.makes known.defines ?_ (isNamed_of_scan known words) _ realised
    intro d defined children node before after given built
    simp only [builder, Prod.mk.injEq] at built
    exact ExprNode.isMade_of_ofRule d defined children node given built.1
  rcases made with same | ⟨several, -⟩
  · cases same
    exact received.formed _ (List.mem_singleton_self _)
  · exact absurd rfl several

end

/-- **What is read is well formed**, whether or not comments are recognised: a path has two steps or more, of
which the first is no path and the others are keys or calls; what is assigned to is a key, or a path that ends
in one; the opposite of a number is a number; literals are null, booleans, numbers or texts; and keys and calls
are named by names that are no literals. -/
theorem wellFormed_of_ofText {mode : CommentMode}
    (read : ofText (expressionGrammar.withComments mode) text = .ok e) : e.WellFormed :=
  wellFormed_of_isExpressions expressionGrammar_isExpressions
    (fun w word => expressionLeaves_subset _ (literalWords_leaves w word)) read

/-- A path in parentheses, with a position, which is assigned to, and the opposite of a number. -/
theorem wellFormed_of_ofText_assigned :
    ∃ e, ofText (expressionGrammar.withComments .off) "(a.b)[-(1)].trueish = f(x).y" = .ok e ∧
      e.WellFormed := by
  have made : (ofText (expressionGrammar.withComments .off) "(a.b)[-(1)].trueish = f(x).y").toOption.isSome =
      true := by decide +kernel
  have read := eq_ok_get made
  exact ⟨_, read, wellFormed_of_ofText read⟩

end Expr

/-! ## Engines -/

/-- An engine with the usual grammar, whose expressions are well formed. -/
structure Engine.IsUsual (engine : Engine) : Prop where
  grammar : ∃ mode, engine.grammar = expressionGrammar.withComments mode
  kept : ∀ c ∈ engine.compiled, c.expr.WellFormed

namespace Engine

theorem isUsual_ofConfig {c : EngineConfig} (usual : c.grammar = none) {engine : Engine}
    (made : ofConfig c = .ok engine) : engine.IsUsual := by
  simp only [ofConfig, usual, bind, Except.bind, pure, Except.pure, Except.ok.injEq] at made
  subst made
  exact ⟨⟨_, rfl⟩, List.forall_mem_nil _⟩

theorem wellFormed_of_find? {engine : Engine} (usual : engine.IsUsual) {text : String} {found : Compiled}
    (kept : engine.find? text = some found) : found.expr.WellFormed := by
  have among (n : Nat) (texts : List CompiledText) (formed : ∀ c ∈ texts, c.expr.WellFormed)
      (kept : find?.go text n texts = some found) : found.expr.WellFormed := by
    induction texts generalizing n with
    | nil => cases kept
    | cons c rest ih =>
      obtain ⟨here, later⟩ := List.forall_mem_cons.1 formed
      rw [find?.go] at kept
      split at kept
      · cases kept
        exact here
      · exact ih (n + 1) later kept
  exact among 0 engine.compiled usual.kept kept

/-- **What is compiled is well formed**, also where the text is no expression, and what is kept stays so. -/
theorem wellFormed_compile {engine : Engine} (usual : engine.IsUsual) (text : String) :
    (engine.compile text).1.expr.WellFormed ∧ (engine.compile text).2.IsUsual := by
  have keeps {engine : Engine} (usual : engine.IsUsual) {e : Expr} (formed : e.WellFormed) :
      (engine.keep text e).1.expr.WellFormed ∧ (engine.keep text e).2.IsUsual :=
    ⟨formed, usual.grammar, List.forall_mem_append.2 ⟨usual.kept, List.forall_mem_singleton.2 formed⟩⟩
  have nothing : Expr.null.WellFormed := Expr.throughout_literal (.inl rfl)
  unfold compile
  split
  · rename_i found
    exact ⟨wellFormed_of_find? usual found, usual⟩
  · split
    · exact keeps usual nothing
    · split
      · rename_i e read
        obtain ⟨mode, same⟩ := usual.grammar
        rw [Engine.read, same] at read
        exact keeps usual (Expr.wellFormed_of_isExpressions expressionGrammar_isExpressions
          (fun w word => expressionLeaves_subset _ (literalWords_leaves w word)) read)
      · refine keeps ?_ nothing
        exact ⟨usual.grammar, usual.kept⟩

end Engine

end Rowlang
