import Rowlang.Proofs.Expr.Precedence
import Rowlang.Proofs.Parsing.Nesting

/-!
# The height of expressions

The limit of a parser bounds how many rules are open at a time. Operators of one level, and the steps and
positions of a path, are read by one rule, which joins them from the left; what is joined so is as high as it
is long. Everything else that makes an expression higher takes a rule of its own.

* `Expr.height` : the number of expressions on the longest way down;
* `Expr.nesting` : the same, but that what is joined from the left counts once;
* `Expr.height_eq_nesting` : nothing else makes a difference;
* `ExprNode.nesting_ofRule` : a rule adds one to the nesting of its parts, at most;
* `Expr.nesting_le_of_ofText` : the limit bounds the nesting of what is read;
* `Expr.ofText_sum`, `Expr.height_sum` : it does not bound the height.
-/

namespace Rowlang
open Rowlang.Text

/-! ## Height and nesting -/

namespace Expr

mutual

def height : Expr → Nat
  | .literal _ | .key _ => 1
  | .index target position => max target.height position.height + 1
  | .call _ args => heightOf args + 1
  | .chain steps => heightOf steps + 1
  | .conditional c t f => max (max c.height t.height) (heightOfOption f) + 1
  | .assignment _ target value => max target.height value.height + 1
  | .unary _ operand => operand.height + 1
  | .binary _ left right => max left.height right.height + 1

def heightOf : List Expr → Nat
  | [] => 0
  | e :: rest => max e.height (heightOf rest)

def heightOfOption : Option Expr → Nat
  | none => 0
  | some e => e.height

end

/-- Whether the expression is made of steps and positions, to which more can be joined. -/
def isTrail : Expr → Bool
  | .index .. | .chain .. => true
  | _ => false

mutual

/-- The height of an expression in which what is joined from the left counts once: operations of one level,
and the steps and positions of a path. -/
def nesting : Expr → Nat
  | .literal _ | .key _ => 1
  | .index target position =>
    max (target.nesting + if target.isTrail then 0 else 1) (position.nesting + 1)
  | .call _ args => nestingOf args + 1
  | .chain steps => nestingOfSteps steps
  | .conditional c t f => max (max c.nesting t.nesting) (nestingOfOption f) + 1
  | .assignment _ target value => max target.nesting value.nesting + 1
  | .unary _ operand => operand.nesting + 1
  | .binary op left right =>
    max (left.nesting + if left.level = op.level then 0 else 1) (right.nesting + 1)

def nestingOf : List Expr → Nat
  | [] => 0
  | e :: rest => max e.nesting (nestingOf rest)

def nestingOfSteps : List Expr → Nat
  | [] => 1
  | e :: rest => max (e.nesting + if e.isTrail then 0 else 1) (nestingOf rest + 1)

def nestingOfOption : Option Expr → Nat
  | none => 0
  | some e => e.nesting

end

theorem nestingOf_le_iff {es : List Expr} {n : Nat} : nestingOf es ≤ n ↔ ∀ e ∈ es, e.nesting ≤ n := by
  induction es with
  | nil => simp [nestingOf]
  | cons e es ih => rw [nestingOf, Nat.max_le, List.forall_mem_cons, ih]

theorem nestingOfOption_le_iff {o : Option Expr} {n : Nat} :
    nestingOfOption o ≤ n ↔ ∀ e ∈ o, e.nesting ≤ n := by
  cases o <;> simp [nestingOfOption]

/-- Nothing is joined to the expression from the left: no operation of the same level stands in front of an
operator, and no path or position in front of a step or position. -/
def Unjoined : Expr → Prop
  | .index target _ => target.isTrail = false
  | .chain steps => ∀ e ∈ steps.head?, e.isTrail = false
  | .binary op left _ => left.level ≠ op.level
  | _ => True

mutual

/-- Where nothing is joined from the left, the nesting is the height. -/
theorem height_eq_nesting : (e : Expr) → e.Throughout Unjoined → e.height = e.nesting
  | .literal _, _ | .key _, _ => by rw [height, nesting]
  | .index target position, h => by
    have apart : target.isTrail = false := h.here
    rw [height, nesting, apart, height_eq_nesting target h.index.1, height_eq_nesting position h.index.2]
    simp [Nat.add_max_add_right]
  | .call _ args, h => by rw [height, nesting, heightOf_eq_nestingOf args h.call]
  | .chain [], _ => by simp [height, nesting, heightOf, nestingOfSteps]
  | .chain (e :: rest), h => by
    have apart : e.isTrail = false := h.here e rfl
    obtain ⟨first, later⟩ := throughoutAll_cons.1 h.chain
    rw [height, nesting, heightOf, nestingOfSteps, apart, height_eq_nesting e first,
      heightOf_eq_nestingOf rest later]
    simp [Nat.add_max_add_right]
  | .conditional c t none, h => by
    rw [height, nesting, height_eq_nesting c h.conditional.1, height_eq_nesting t h.conditional.2.1,
      heightOfOption, nestingOfOption]
  | .conditional c t (some f), h => by
    rw [height, nesting, height_eq_nesting c h.conditional.1, height_eq_nesting t h.conditional.2.1,
      heightOfOption, nestingOfOption, height_eq_nesting f (h.conditional.2.2 f rfl)]
  | .assignment _ target value, h => by
    rw [height, nesting, height_eq_nesting target h.assignment.1, height_eq_nesting value h.assignment.2]
  | .unary _ operand, h => by rw [height, nesting, height_eq_nesting operand h.unary]
  | .binary op left right, h => by
    have apart : left.level ≠ op.level := h.here
    rw [height, nesting, if_neg apart, height_eq_nesting left h.binary.1, height_eq_nesting right h.binary.2]
    simp [Nat.add_max_add_right]

theorem heightOf_eq_nestingOf : (es : List Expr) → ThroughoutAll Unjoined es → heightOf es = nestingOf es
  | [], _ => by rw [heightOf, nestingOf]
  | e :: rest, h => by
    obtain ⟨first, later⟩ := throughoutAll_cons.1 h
    rw [heightOf, nestingOf, height_eq_nesting e first, heightOf_eq_nestingOf rest later]

end

end Expr

/-! ## The functions of the builder -/

namespace ExprNode

/-- The nesting of the expressions of a node. -/
def nesting : ExprNode → Nat
  | .token _ => 0
  | .expr e | .position e | .assigned _ e => e.nesting
  | .arguments args => Expr.nestingOf args
  | .branches whenTrue whenFalse => max whenTrue.nesting (Expr.nestingOfOption whenFalse)

variable {children : List ExprNode} {node : ExprNode} {e : Expr} {n : Nat}

theorem nesting_literalOf {t : Token} (made : literalOf t = .ok e) : e.nesting = 1 := by
  unfold literalOf at made
  repeat' split at made
  all_goals
    cases made
    try rw [Expr.null]
    try rw [Expr.nesting]

theorem nesting_exprs (bound : ∀ c ∈ children, c.nesting ≤ n) :
    ∀ e ∈ children.filterMap expr?, e.nesting ≤ n :=
  fun _ listed => bound _ (mem_of_mem_exprs listed)

theorem nesting_callOf (bound : ∀ c ∈ children, c.nesting ≤ n) (made : callOf children = .ok e) :
    e.nesting ≤ n + 1 := by
  obtain ⟨name, args, rfl, given⟩ := callOf_cases made
  rw [Expr.nesting]
  rcases given with rfl | given
  · simp [Expr.nestingOf]
  · exact Nat.succ_le_succ (bound _ given)

theorem nesting_branchesOf (bound : ∀ c ∈ children, c.nesting ≤ n) (made : branchesOf children = .ok node) :
    node.nesting ≤ n := by
  obtain ⟨whenTrue, whenFalse, rfl, first, second⟩ := branchesOf_cases made
  rw [nesting, Nat.max_le, Expr.nestingOfOption_le_iff]
  exact ⟨bound _ first, fun e present => bound _ (second e present)⟩

theorem nesting_assignedOf (bound : ∀ c ∈ children, c.nesting ≤ n) (made : assignedOf children = .ok node) :
    node.nesting ≤ n := by
  obtain ⟨op, value, rfl, listed⟩ := assignedOf_cases made
  exact bound (.expr value) listed

theorem nesting_withTail (bound : ∀ c ∈ children, c.nesting ≤ n) (made : withTail children = .ok e) :
    e.nesting ≤ n + 1 := by
  rcases withTail_cases made with listed | ⟨_, _, _, rfl, head, tail⟩ | ⟨_, _, _, rfl, -, head, tail⟩
  · exact Nat.le_succ_of_le (bound _ listed)
  · rw [Expr.nesting, Nat.max_assoc]
    exact Nat.succ_le_succ (Nat.max_le.2 ⟨bound _ head, bound _ tail⟩)
  · rw [Expr.nesting]
    exact Nat.succ_le_succ (Nat.max_le.2 ⟨bound _ head, bound _ tail⟩)

theorem nesting_unaryOf (bound : ∀ c ∈ children, c.nesting ≤ n) (made : unaryOf children = .ok e) :
    e.nesting ≤ n + 1 := by
  rcases unaryOf_cases made with listed | ⟨_, rfl⟩ | ⟨_, _, rfl, listed, -⟩
  · exact Nat.le_succ_of_le (bound _ listed)
  · rw [Expr.nesting]
    exact Nat.le_add_left 1 n
  · rw [Expr.nesting]
    exact Nat.succ_le_succ (bound _ listed)

/-! ## What is joined from the left -/

/-- The operators among the nodes are of one level. -/
def OnLevel (p : Nat) (children : List ExprNode) : Prop :=
  ∀ t, .token t ∈ children → ∀ op, BinaryOperator.ofSymbol? t.text = some op → op.level = p

/-- Operators of one level: what is joined so far, stands in front of the next operator of the level and
counts no more than it is nested. -/
theorem nesting_binaryFrom {p : Nat} {left : Expr}
    (first : left.nesting + (if left.level = p then 0 else 1) ≤ n + 1)
    (bound : ∀ c ∈ children, c.nesting ≤ n) (level : OnLevel p children)
    (made : binaryFrom left children = .ok e) : e.nesting ≤ n + 1 := by
  fun_induction binaryFrom left children with
  | case1 left =>
    cases made
    exact Nat.le_of_add_right_le first
  | case2 left t right rest op known ih =>
    rw [List.forall_mem_cons, List.forall_mem_cons] at bound
    obtain ⟨-, second, later⟩ := bound
    have same : op.level = p := level t List.mem_cons_self op known
    refine ih ?_ later (fun t listed => level t (List.mem_cons_of_mem _ (List.mem_cons_of_mem _ listed))) made
    rw [Expr.level, if_pos same, Expr.nesting, same]
    exact Nat.max_le.2 ⟨first, Nat.succ_le_succ second⟩
  | case3 | case4 => cases made

theorem nesting_binaryOf {p : Nat} (bound : ∀ c ∈ children, c.nesting ≤ n) (level : OnLevel p children)
    (made : binaryOf children = .ok e) : e.nesting ≤ n + 1 := by
  unfold binaryOf at made
  split at made
  · rename_i left rest
    obtain ⟨first, later⟩ := List.forall_mem_cons.1 bound
    refine nesting_binaryFrom (p := p) ?_ later (fun t listed => level t (List.mem_cons_of_mem _ listed)) made
    have first : left.nesting ≤ n := first
    split <;> omega
  · cases made

/-- Steps that a path has so far: the first may be such a path, and counts no more than it is nested. -/
def Steps (n : Nat) : List Expr → Prop
  | [] => True
  | e :: rest => e.nesting + (if e.isTrail then 0 else 1) ≤ n + 1 ∧ ∀ e ∈ rest, e.nesting ≤ n

theorem Steps.ofSteps {steps : List Expr} (h : Steps n steps) :
    (Expr.ofSteps steps).nesting + (if (Expr.ofSteps steps).isTrail then 0 else 1) ≤ n + 1 := by
  match steps, h with
  | [], _ => simp [Expr.ofSteps, Expr.isTrail, Expr.nesting, Expr.nestingOfSteps]
  | [e], h => exact h.1
  | e :: e' :: rest, ⟨first, later⟩ =>
    show (Expr.chain _).nesting + 0 ≤ n + 1
    rw [Expr.nesting, Expr.nestingOfSteps]
    exact Nat.max_le.2 ⟨first, Nat.succ_le_succ (Expr.nestingOf_le_iff.2 later)⟩

theorem Steps.concat {steps : List Expr} (h : Steps n steps) (bound : e.nesting ≤ n) :
    Steps n (steps ++ [e]) := by
  cases steps with
  | nil =>
    refine ⟨?_, List.forall_mem_nil _⟩
    split <;> omega
  | cons first rest =>
    exact ⟨h.1, List.forall_mem_append.2 ⟨h.2, List.forall_mem_singleton.2 bound⟩⟩

theorem Steps.add {steps steps' : List Expr} (h : Steps n steps) (bound : node.nesting ≤ n)
    (made : addStep steps node = .ok steps') : Steps n steps' := by
  unfold addStep at made
  split at made
  · rename_i inner
    have bound : (Expr.chain inner).nesting ≤ n := bound
    split at made
    · cases made
      -- a path in front is taken apart
      cases steps' with
      | nil => trivial
      | cons e rest =>
        rw [Expr.nesting, Expr.nestingOfSteps, Nat.max_le] at bound
        obtain ⟨first, later⟩ := bound
        exact ⟨Nat.le_succ_of_le first,
          fun e listed => Expr.nestingOf_le_iff.1 (Nat.le_of_succ_le later) e listed⟩
    · cases made
      exact h.concat bound
  · cases made
    exact h.concat bound
  · rename_i position
    cases made
    refine ⟨?_, List.forall_mem_nil _⟩
    show (Expr.index _ _).nesting + 0 ≤ n + 1
    rw [Expr.nesting]
    exact Nat.max_le.2 ⟨h.ofSteps, Nat.succ_le_succ bound⟩
  · cases made

theorem Steps.rest {steps steps' : List Expr} (h : Steps n steps) (bound : ∀ c ∈ children, c.nesting ≤ n)
    (made : children.foldlM addStep steps = .ok steps') : Steps n steps' := by
  induction children generalizing steps with
  | nil =>
    cases made
    exact h
  | cons c children ih =>
    obtain ⟨first, later⟩ := List.forall_mem_cons.1 bound
    rw [List.foldlM_cons] at made
    cases added : addStep steps c with
    | error =>
      rw [added] at made
      cases made
    | ok steps₁ =>
      rw [added] at made
      exact ih (h.add first added) later made

theorem nesting_chainOf (bound : ∀ c ∈ children, c.nesting ≤ n) (made : chainOf children = .ok e) :
    e.nesting ≤ n + 1 := by
  unfold chainOf at made
  cases folded : children.foldlM addStep [] with
  | error =>
    rw [folded] at made
    cases made
  | ok steps =>
    rw [folded] at made
    simp only [bind, Except.bind] at made
    split at made
    · cases made
    · cases made
      have none : Steps n [] := trivial
      exact Nat.le_of_add_right_le (none.rest bound folded).ofSteps

/-! ## Rules -/

/-- The level of the operators that a rule joins operands by. -/
def ruleLevel? : String → Option Nat
  | "LogicalOr" => some 1
  | "LogicalAnd" => some 2
  | "Equality" => some 3
  | "Relational" => some 4
  | "Additive" => some 5
  | "Multiplicative" => some 6
  | _ => none

/-- **A rule adds one to the nesting of its parts**, at most, if the operators among them are of its level. -/
theorem nesting_ofRule {name : String} (bound : ∀ c ∈ children, c.nesting ≤ n)
    (level : ∀ p, ruleLevel? name = some p → OnLevel p children) (made : ofRule name children = .ok node) :
    node.nesting ≤ n + 1 := by
  unfold ofRule at made
  split at made
  case h_1 =>
    split at made
    · obtain ⟨e, read, rfl⟩ := map_eq_ok made
      exact Nat.le_trans (Nat.le_of_eq (nesting_literalOf read)) (Nat.le_add_left 1 n)
    · cases made
  case h_2 =>
    split at made
    · cases made
      rw [nesting, Expr.nesting]
      exact Nat.le_add_left 1 n
    · cases made
  case h_3 =>
    cases made
    exact Nat.le_succ_of_le (Expr.nestingOf_le_iff.2 (nesting_exprs bound))
  case h_4 =>
    obtain ⟨e, read, rfl⟩ := map_eq_ok made
    exact nesting_callOf bound read
  case h_5 | h_6 =>
    obtain ⟨e, first, rfl⟩ := map_eq_ok made
    exact Nat.le_succ_of_le (bound (.expr e) (firstExpr_cases first))
  case h_7 =>
    split at made
    · rename_i found
      cases made
      exact Nat.le_succ_of_le (bound _ (List.mem_of_find?_eq_some found))
    · cases made
  case h_8 =>
    obtain ⟨e, read, rfl⟩ := map_eq_ok made
    exact nesting_chainOf bound read
  case h_9 =>
    obtain ⟨e, read, rfl⟩ := map_eq_ok made
    exact nesting_unaryOf bound read
  case h_10 | h_11 | h_12 | h_13 | h_14 | h_15 =>
    obtain ⟨e, read, rfl⟩ := map_eq_ok made
    exact nesting_binaryOf bound (level _ rfl) read
  case h_16 => exact Nat.le_succ_of_le (nesting_branchesOf bound made)
  case h_17 => exact Nat.le_succ_of_le (nesting_assignedOf bound made)
  case h_18 | h_19 =>
    obtain ⟨e, read, rfl⟩ := map_eq_ok made
    exact nesting_withTail bound read
  case h_20 =>
    split at made
    · cases made
      exact Nat.le_succ_of_le (bound _ (List.mem_singleton_self _))
    · cases made

/-! ## Operators and their rules -/

/-- The rules that the builder knows by their names. Any other passes a single node on. -/
def builtRules : List String :=
  ["Literal", "Key", "Arguments", "FunctionCall", "Group", "Index", "ChainStep", "Chain", "Unary", "LogicalOr",
    "LogicalAnd", "Equality", "Relational", "Additive", "Multiplicative", "ConditionalTail", "AssignTail",
    "Conditional", "Expression"]

theorem token_of_ofRule {name : String} {t : Token} (made : ofRule name children = .ok (.token t)) :
    name ∉ builtRules ∧ children = [.token t] := by
  unfold ofRule at made
  split at made
  case h_20 =>
    split at made
    · cases made
      exact ⟨by simp_all [builtRules], rfl⟩
    · cases made
  case h_3 => cases made
  case h_2 => split at made <;> cases made
  case h_7 =>
    split at made
    · rename_i found
      cases made
      have other := List.find?_some found
      cases other
    · cases made
  case h_16 =>
    unfold branchesOf at made
    split at made <;> cases made
  case h_17 =>
    unfold assignedOf at made
    split at made
    · split at made <;> cases made
    · cases made
  case h_1 =>
    split at made
    · obtain ⟨_, -, same⟩ := map_eq_ok made
      cases same
    · cases made
  all_goals
    obtain ⟨_, -, same⟩ := map_eq_ok made
    cases same

/-- The symbols of the operators that a rule passes on. -/
def ruleSymbols : String → List String
  | "AssignOp" => ["=", "+="]
  | "EqualityOp" => ["==", "!="]
  | "RelationalOp" => [">=", "<=", ">", "<"]
  | "AdditiveOp" => ["+", "-"]
  | "MultiplicativeOp" => ["*", "/", "%"]
  | "UnaryOp" => ["-", "!"]
  | _ => []

def literalText? : LeafPattern → Option String
  | .literal s => some s
  | .regex .. => none

/-- The texts of the tokens that the parts of a body give, as far as they are known. -/
def tokenTexts (b : Body) : List (Option String) :=
  b.leaves.map literalText? ++ (b.mentions.flatMap ruleSymbols).map some

theorem ruleLevel_tokenTexts : ∀ d ∈ expressionRules, ∀ p ∈ ruleLevel? d.name,
    ∀ o ∈ tokenTexts d.body, (o.bind BinaryOperator.ofSymbol?).map (·.level) = some p := by decide +kernel

theorem ruleSymbols_tokenTexts : ∀ d ∈ expressionRules, d.name ∉ builtRules →
    ∀ o ∈ tokenTexts d.body, o.any (· ∈ ruleSymbols d.name) = true := by decide +kernel

/-- A token of a leaf pattern, with its nesting. -/
inductive CountedLeaf (p : LeafPattern) : ExprNode × Nat → Prop
  | token {t : Token} (text : ∀ s ∈ literalText? p, t.text = s) : CountedLeaf p (.token t, 0)

/-- A node of a rule, with a number that bounds its nesting. -/
structure Counted (name : String) (x : ExprNode × Nat) : Prop where
  bound : x.1.nesting ≤ x.2
  symbol : ∀ t, x.1 = .token t → t.text ∈ ruleSymbols name

variable {b : Body} {counted : List (ExprNode × Nat)}

theorem nesting_le_deepest (h : b.Makes CountedLeaf Counted counted) :
    ∀ c ∈ counted.map (·.1), c.nesting ≤ deepest counted := by
  have each : ∀ x ∈ counted, x.1.nesting ≤ x.2 :=
    h.forall (fun _ _ _ leaf => by cases leaf; exact Nat.le_refl _) fun _ _ _ made => made.bound
  refine List.forall_mem_map.2 fun x listed => Nat.le_trans (each x listed) ?_
  exact deepest_le_iff.1 (Nat.le_refl _) x listed

theorem text_of_makes (h : b.Makes CountedLeaf Counted counted) {t : Token}
    (listed : .token t ∈ counted.map (·.1)) : ∃ o ∈ tokenTexts b, ∀ s ∈ o, t.text = s := by
  have each : ∀ x ∈ counted, ∀ t, x.1 = .token t → ∃ o ∈ tokenTexts b, ∀ s ∈ o, t.text = s := by
    refine h.forall (fun p inside x leaf t same => ?_) fun n inside x made t same => ?_
    · cases leaf with
      | token text =>
        cases same
        exact ⟨_, List.mem_append_left _ (List.mem_map_of_mem inside), text⟩
    · have symbol := List.mem_flatMap.2 ⟨n, inside, made.symbol t same⟩
      exact ⟨_, List.mem_append_right _ (List.mem_map_of_mem symbol), by rintro _ ⟨⟩; rfl⟩
  obtain ⟨x, inside, same⟩ := List.mem_map.1 listed
  exact each x inside t same

/-- **Each rule makes a node that is nested no deeper than counted**, of such nodes. -/
theorem counted_of_ofRule : ∀ d ∈ expressionRules, ∀ counted, d.body.Makes CountedLeaf Counted counted →
    ∀ node, ofRule d.name (counted.map (·.1)) = .ok node → Counted d.name (node, deepest counted + 1) := by
  intro d defined counted h node made
  refine ⟨nesting_ofRule (nesting_le_deepest h) (fun p known t listed op symbol => ?_) made, ?_⟩
  · obtain ⟨o, inside, text⟩ := text_of_makes h listed
    have level := ruleLevel_tokenTexts d defined p known o inside
    cases o with
    | none => cases level
    | some s =>
      obtain rfl := text s rfl
      rw [Option.bind_some, symbol] at level
      exact Option.some.inj level
  · rintro t rfl
    obtain ⟨passing, single⟩ := token_of_ofRule made
    obtain ⟨o, inside, text⟩ := text_of_makes h (single ▸ List.mem_singleton_self _)
    have symbol := ruleSymbols_tokenTexts d defined passing o inside
    cases o with
    | none => cases symbol
    | some s =>
      obtain rfl := text s rfl
      exact of_decide_eq_true symbol

end ExprNode

/-! ## Texts -/

/-- An atom is a tree with no operators. -/
theorem IsAtom.isTree {leaf : LeafPattern} {text : String} {e : Expr} (h : IsAtom leaf text e) :
    IsTree 7 e [] e := by
  cases h with
  | key => exact .key _
  | number | text | word => exact .literal _

/-- The literal of nothing. -/
def Atom.null : Atom := ⟨.literal "null", "null", .literal .null, .word (by simp)⟩

namespace Expr

variable {g : Grammar} {text : String} {e : Expr}

theorem nesting_le_of_isExpressions (known : g.IsExpressions) {mode : CommentMode}
    (read : ofText (g.withComments mode) text = .ok e) : e.nesting ≤ defaultLimit := by
  have known := known.withComments mode
  obtain ⟨s', parsed⟩ := parseAll_of_ofText read
  obtain ⟨named, realised⟩ := start_made known
  obtain ⟨n, le, builds⟩ := Parser.exists_counted named (congrArg Prod.fst parsed)
  have made : (Body.name "Expression").Makes ExprNode.CountedLeaf ExprNode.Counted [(.expr e, n)] := by
    refine builds.makes known.defines ?_ (fun t listed p is => ?_) _ realised
    · intro d defined counted x before after given built
      obtain ⟨made, count⟩ := TreeBuilder.rule_counted built
      obtain ⟨node, m⟩ := x
      obtain rfl : m = deepest counted + 1 := count
      exact ExprNode.counted_of_ofRule d defined counted given node (congrArg Prod.fst made)
    · obtain ⟨-, spelled⟩ := isLeaf_of_scan known t listed p is
      refine .token fun s literal => ?_
      cases p with
      | literal s' =>
        cases literal
        exact String.toList_injective spelled
      | regex => cases literal
  obtain ⟨x, same, bounded⟩ := (Body.makes_rule (by decide)).1 made
  cases same
  exact Nat.le_trans bounded.bound le

/-- **The limit bounds the nesting of what is read**, and so the height, where nothing is joined from the
left. -/
theorem nesting_le_of_ofText {mode : CommentMode}
    (read : ofText (expressionGrammar.withComments mode) text = .ok e) :
    e.nesting ≤ defaultLimit ∧ (e.Throughout Unjoined → e.height ≤ defaultLimit) := by
  have bound := nesting_le_of_isExpressions expressionGrammar_isExpressions read
  exact ⟨bound, fun apart => height_eq_nesting e apart ▸ bound⟩

/-- A product in front of a plus is not joined to it from the left. -/
theorem nesting_le_of_ofText_product : ∃ e, ofText (expressionGrammar.withComments .off)
      (operationsText .null [(.multiply, .null), (.add, .null)]) = .ok e ∧
    e.Throughout Unjoined ∧ e.height ≤ defaultLimit := by
  obtain ⟨e, read, tree⟩ := ofText_of_lexes expressionGrammar_compiles .off
    (lexes_operations .null [(.multiply, .null), (.add, .null)])
  have leaf {P : Expr → Prop} (h : P null) : null.Throughout P := throughout_literal h
  have ordered : (Expr.binary .add (.binary .multiply null null) null).Throughout Ordered :=
    throughout_binary ⟨by decide, by decide⟩
      (throughout_binary ⟨by decide, by decide⟩ (leaf trivial) (leaf trivial)) (leaf trivial)
  obtain rfl := eq_of_inOrder tree.ordered ordered tree.inOrder
  have first : null.level ≠ BinaryOperator.multiply.level := by decide
  have outer : (Expr.binary .multiply null null).level ≠ BinaryOperator.add.level := by decide
  have apart : (Expr.binary .add (.binary .multiply null null) null).Throughout Unjoined :=
    throughout_binary outer (throughout_binary first (leaf trivial) (leaf trivial)) (leaf trivial)
  exact ⟨_, read, apart, (nesting_le_of_ofText read).2 apart⟩

/-! ## Sums -/

def sum (x : Expr) : Nat → Expr
  | 0 => x
  | n + 1 => .binary .add (sum x n) x

variable {x : Expr}

theorem inOrder_sum (operand : x.inOrder = (x, [])) (n : Nat) :
    (x.sum n).inOrder = (x, List.replicate n (.add, x)) := by
  induction n with
  | zero => exact operand
  | succ n ih => rw [sum, inOrder, ih, operand, List.replicate_succ']

theorem ordered_sum (plain : x.Throughout Ordered) (tight : 5 < x.level) (n : Nat) :
    (x.sum n).Throughout Ordered := by
  induction n with
  | zero => exact plain
  | succ n ih =>
    refine throughout_binary ⟨?_, tight⟩ ih plain
    cases n with
    | zero => exact Nat.le_of_lt tight
    | succ => exact Nat.le_refl _

theorem height_eq_of_sum (low : x.height = 1) (n : Nat) : (x.sum n).height = n + 1 := by
  induction n with
  | zero => exact low
  | succ n ih => rw [sum, height, ih, low, Nat.max_eq_left (Nat.le_add_left 1 n)]

/-- A key or a literal that is added to itself, however often, is read as such a sum. -/
theorem ofText_sum (mode : CommentMode) (x : Atom) (n : Nat) :
    ofText (expressionGrammar.withComments mode) (operationsText x (List.replicate n (.add, x))) =
      .ok (x.expr.sum n) := by
  obtain ⟨e, read, tree⟩ := ofText_of_lexes expressionGrammar_compiles mode
    (lexes_operations x (List.replicate n (.add, x)))
  have single : IsTree 7 x.expr [] x.expr := x.is.isTree
  rw [read, eq_of_inOrder tree.ordered (ordered_sum single.ordered (by have := single.tight; omega) n)]
  rw [tree.inOrder, inOrder_sum single.inOrder, List.map_replicate]

/-- The limit does not bound the height: a sum is higher. -/
theorem height_sum : ∃ e, ofText (expressionGrammar.withComments .off)
      (operationsText .null (List.replicate defaultLimit (.add, .null))) = .ok e ∧
    defaultLimit < e.height := by
  refine ⟨_, ofText_sum .off .null defaultLimit, ?_⟩
  rw [height_eq_of_sum rfl]
  exact Nat.lt_succ_self _

end Expr

end Rowlang
