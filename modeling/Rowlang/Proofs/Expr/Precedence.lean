import Rowlang.Proofs.Expr.Operands

/-!
# Precedence of operators

Operators between operands bind more or less tightly, and those that bind alike do so from the left. The rules
of expressions say it by one rule for each level, whose operands are what the next level makes; so a sequence
is split at the operators of a level, and each part of it is an operand that binds more tightly.

* `BinaryOperator.level`, `Expr.level` : how tightly operators, and expressions made by them, bind;
* `Expr.inOrder` : the operands and operators of an expression in order;
* `Expr.Ordered` : operations whose operands bind tightly enough;
* `Expr.eq_of_inOrder` : there is only one tree of such operations for some operands and operators in order;
* `Follows` : operators and operands behind a first operand, as tokens;
* `ReadsFrom` : a rule that reads such sequences of operators from some level on;
* `readsFrom_level` : a rule does if its operands are read by such a rule of the next level;
* `Expr.ofText_operations` : the text of such a sequence is read as the ordered tree of it.
-/

namespace Rowlang
open Rowlang.Text

/-! ## Trees -/

/-- How tightly an operator binds, from one on. -/
def BinaryOperator.level : BinaryOperator → Nat
  | .or => 1
  | .and => 2
  | .equal | .notEqual => 3
  | .less | .greater | .lessEqual | .greaterEqual => 4
  | .add | .subtract => 5
  | .multiply | .divide | .remainder => 6

namespace Expr

/-- How tightly an expression binds: as its operator, and more tightly than any if it has none. -/
def level : Expr → Nat
  | .binary op _ _ => op.level
  | _ => 7

/-- The first operand, and the operators behind it, each with its right operand, in order. -/
def inOrder : Expr → Expr × List (BinaryOperator × Expr)
  | .binary op left right =>
    (left.inOrder.1, left.inOrder.2 ++ (op, right.inOrder.1) :: right.inOrder.2)
  | e => (e, [])

theorem inOrder_operand {e : Expr} (other : ∀ op left right, e ≠ .binary op left right) :
    e.inOrder = (e, []) := by
  cases e with
  | binary op left right => exact absurd rfl (other op left right)
  | _ => rfl

theorem eq_operand_of_inOrder {e x : Expr} (h : e.inOrder = (x, [])) : e = x := by
  cases e using inOrder.induct with
  | case1 => simp [inOrder] at h
  | case2 e other =>
    rw [inOrder_operand other] at h
    exact (Prod.mk.inj h).1

/-- The left operand of an operation binds at least as tightly as its operator, and the right one more
tightly. -/
def Ordered : Expr → Prop
  | .binary op left right => op.level ≤ left.level ∧ op.level < right.level
  | _ => True

/-- All operators of an ordered tree bind at least as tightly as the tree. -/
theorem level_le_of_ordered {e : Expr} (ordered : e.Throughout Ordered) :
    ∀ r ∈ e.inOrder.2, e.level ≤ r.1.level := by
  induction e using inOrder.induct with
  | case1 op left right first second =>
    obtain ⟨inner, inner'⟩ := ordered.binary
    obtain ⟨loose, tight⟩ : op.level ≤ left.level ∧ op.level < right.level := ordered.here
    rw [inOrder, level]
    refine List.forall_mem_append.2
      ⟨fun r listed => ?_, List.forall_mem_cons.2 ⟨Nat.le_refl _, fun r listed => ?_⟩⟩
    · exact Nat.le_trans loose (first inner r listed)
    · exact Nat.le_of_lt (Nat.lt_of_lt_of_le tight (second inner' r listed))
  | case2 e other =>
    rw [inOrder_operand other]
    exact List.forall_mem_nil _

/-- In front of the operator of an ordered tree there are none that bind less tightly, and behind it only
tighter ones. -/
theorem splits_of_ordered {op : BinaryOperator} {left right : Expr}
    (ordered : (Expr.binary op left right).Throughout Ordered) :
    (∀ r ∈ left.inOrder.2, op.level ≤ r.1.level) ∧ ∀ r ∈ right.inOrder.2, op.level < r.1.level := by
  obtain ⟨inner, inner'⟩ := ordered.binary
  obtain ⟨loose, tight⟩ : op.level ≤ left.level ∧ op.level < right.level := ordered.here
  exact ⟨fun r listed => Nat.le_trans loose (level_le_of_ordered inner r listed),
    fun r listed => Nat.lt_of_lt_of_le tight (level_le_of_ordered inner' r listed)⟩

/-- An operator with only tighter ones behind it is not in front of one with no looser ones in front of it. -/
theorem length_le_of_splits {before behind before' behind' : List (BinaryOperator × Expr)}
    {r r' : BinaryOperator × Expr} (same : before ++ r :: behind = before' ++ r' :: behind')
    (tight : ∀ s ∈ behind, r.1.level < s.1.level) (loose : ∀ s ∈ before', r'.1.level ≤ s.1.level) :
    before'.length ≤ before.length := by
  rcases List.append_eq_append_iff.1 same with ⟨more, rfl, rest⟩ | ⟨more, rfl, -⟩
  · cases more with
    | nil => simp
    | cons s more =>
      -- each of the two operators would bind more tightly than the other, or as tightly
      obtain ⟨rfl, rfl⟩ := List.cons.inj rest
      have := tight r' (by simp)
      have := loose r (by simp)
      omega
  · simp

/-- **There is only one ordered tree** of some operands with operators between them. -/
theorem eq_of_inOrder {e e' : Expr} (ordered : e.Throughout Ordered) (ordered' : e'.Throughout Ordered)
    (same : e.inOrder = e'.inOrder) : e = e' := by
  induction e using inOrder.induct generalizing e' with
  | case1 op left right first second =>
    cases e' using inOrder.induct with
    | case1 op' left' right' =>
      obtain ⟨loose, tight⟩ := splits_of_ordered ordered
      obtain ⟨loose', tight'⟩ := splits_of_ordered ordered'
      obtain ⟨head, split⟩ := Prod.mk.inj same
      have length := Nat.le_antisymm (length_le_of_splits split.symm tight' loose)
        (length_le_of_splits split tight loose')
      obtain ⟨front, rest⟩ := List.append_inj split length
      obtain ⟨middle, behind⟩ := List.cons.inj rest
      obtain ⟨rfl, head'⟩ := Prod.mk.inj middle
      rw [first ordered.binary.1 ordered'.binary.1 (Prod.ext head front),
        second ordered.binary.2 ordered'.binary.2 (Prod.ext head' behind)]
    | case2 e' other => simp [inOrder, inOrder_operand other] at same
  | case2 e other =>
    cases e' using inOrder.induct with
    | case1 op' left' right' => simp [inOrder, inOrder_operand other] at same
    | case2 e' other' =>
      rw [inOrder_operand other, inOrder_operand other'] at same
      exact (Prod.mk.inj same).1

end Expr

theorem BinaryOperator.level_le (op : BinaryOperator) : 1 ≤ op.level ∧ op.level ≤ 6 := by
  cases op <;> decide

/-- The expression is an ordered tree of the operands and operators, and binds as tightly as told. -/
structure IsTree (p : Nat) (x : Expr) (rest : List (BinaryOperator × Expr)) (e : Expr) : Prop where
  inOrder : e.inOrder = (x, rest)
  ordered : e.Throughout Expr.Ordered
  tight : p ≤ e.level

namespace IsTree

theorem key (name : String) : IsTree 7 (.key name) [] (.key name) :=
  ⟨rfl, Expr.throughout_key trivial, Nat.le_refl _⟩

theorem literal (v : Value) : IsTree 7 (.literal v) [] (.literal v) :=
  ⟨rfl, Expr.throughout_literal trivial, Nat.le_refl _⟩

variable {p : Nat} {x y left right : Expr} {rest more : List (BinaryOperator × Expr)}

theorem loosen {q : Nat} (h : IsTree q x rest left) (le : p ≤ q) : IsTree p x rest left :=
  ⟨h.inOrder, h.ordered, Nat.le_trans le h.tight⟩

/-- An operator of a level joins a tree of the level with one that binds more tightly. -/
theorem binary {op : BinaryOperator} (same : op.level = p) (first : IsTree p x rest left)
    (second : IsTree (p + 1) y more right) :
    IsTree p x (rest ++ (op, y) :: more) (.binary op left right) where
  inOrder := by rw [Expr.inOrder, first.inOrder, second.inOrder]
  ordered := by
    subst same
    exact Expr.throughout_binary ⟨first.tight, second.tight⟩ first.ordered second.ordered
  tight := Nat.le_of_eq same.symm

end IsTree

/-! ## Sequences -/

/-- The tokens are the operators and operands, one after the other. -/
inductive Follows (g : Grammar) : List (BinaryOperator × Expr) → List Token → Prop
  | nil : Follows g [] []
  | cons {op e rest t u w} (mark : g.Is (.literal op.symbol) t) (text : t.text = op.symbol)
      (operand : IsOperand g u e) (later : Follows g rest w) : Follows g ((op, e) :: rest) (t :: u :: w)

def operatorLeaves (p : Nat) : List LeafPattern :=
  (BinaryOperator.all.filter (p ≤ ·.level)).map (.literal ·.symbol)

/-- What may not stand behind a sequence of operators from a level on, since it would belong to it. -/
def extendFrom (p : Nat) : List LeafPattern := stepMarks ++ operatorLeaves p

theorem operatorLeaves_subset {p q : Nat} (le : p ≤ q) : operatorLeaves q ⊆ operatorLeaves p := by
  refine List.map_subset _ fun op listed => ?_
  simp only [List.mem_filter, decide_eq_true_eq] at listed ⊢
  exact ⟨listed.1, Nat.le_trans le listed.2⟩

theorem extendFrom_subset {p q : Nat} (le : p ≤ q) : extendFrom q ⊆ extendFrom p :=
  List.append_subset.2 ⟨List.subset_append_left _ _,
    List.Subset.trans (operatorLeaves_subset le) (List.subset_append_right _ _)⟩

theorem disjoint_extendFrom {p : Nat} {op : BinaryOperator} (loose : op.level < p) :
    disjoint (extendFrom p) [.literal op.symbol] = true := by
  have mark : disjoint stepMarks [.literal op.symbol] = true := by cases op <;> decide
  rw [disjoint, List.all_eq_true] at mark ⊢
  refine List.forall_mem_append.2 ⟨mark, List.forall_mem_map.2 fun op' listed => ?_⟩
  have tight : p ≤ op'.level := of_decide_eq_true (List.mem_filter.1 listed).2
  have other : op'.symbol ≠ op.symbol := fun same => by
    have found := BinaryOperator.ofSymbol?_symbol op'
    rw [same, BinaryOperator.ofSymbol?_symbol, Option.some.injEq] at found
    rw [found] at loose
    omega
  simpa using other

namespace Follows

variable {g : Grammar} {rest more : List (BinaryOperator × Expr)} {w v : List Token} {p : Nat}

theorem of_append (h : Follows g (rest ++ more) w) :
    ∃ u v, w = u ++ v ∧ Follows g rest u ∧ Follows g more v := by
  induction rest generalizing w with
  | nil => exact ⟨[], w, rfl, .nil, h⟩
  | cons r rest ih =>
    cases h with
    | cons mark text operand later =>
      obtain ⟨u, v, rfl, first, second⟩ := ih later
      exact ⟨_, v, rfl, .cons mark text operand first, second⟩

/-- A sequence that begins with a looser operator does not extend a tighter one. -/
theorem avoids (h : Follows g rest w) (loose : ∀ r ∈ rest.head?, r.1.level < p)
    (behind : g.Avoids (extendFrom p) v) : g.Avoids (extendFrom p) (w ++ v) := by
  cases h with
  | nil => exact behind
  | cons mark => exact mark.avoids (disjoint_extendFrom (loose _ rfl))

end Follows

theorem exists_tight (p : Nat) (rest : List (BinaryOperator × Expr)) :
    ∃ tight loose, rest = tight ++ loose ∧ (∀ r ∈ tight, p + 1 ≤ r.1.level) ∧
      ∀ r ∈ loose.head?, r.1.level < p + 1 := by
  let tighter (r : BinaryOperator × Expr) : Bool := p + 1 ≤ r.1.level
  refine ⟨rest.takeWhile tighter, rest.dropWhile tighter, List.takeWhile_append_dropWhile.symm,
    fun r listed => ?_, fun r first => ?_⟩
  · have inside := List.mem_takeWhile_imp listed
    exact of_decide_eq_true inside
  · have stop := List.head?_dropWhile_not tighter rest
    rw [Option.mem_def.1 first] at stop
    simpa [tighter] using stop

/-! ## Levels -/

section
open Body
open Rowlang.Parser

/-- A body that reads the operators of a level, and fails in front of anything but operators of the level or
tighter ones. -/
structure ReadsOperators (g : Grammar) (p : Nat) (body : Body) : Prop where
  plain : ∀ count, body ≠ .ahead count
  found {op : BinaryOperator} {t v} : op.level = p → g.Is (.literal op.symbol) t →
    ∃ n ≤ 1, (Expr.parser g).Answers body n (t :: v) () (some [.token t]) v ()
  missing {w} : g.Avoids (operatorLeaves p) w → ∃ n ≤ 1, (Expr.parser g).Answers body n w () none w ()

/-- A rule that reads operands with operators from a level on between them, as an ordered tree. An operand
takes five levels of nesting, and the rule of each level of operators one more. -/
structure ReadsFrom (g : Grammar) (p : Nat) (name : String) : Prop where
  reads {x t rest w v} : IsOperand g t x → Follows g rest w → (∀ r ∈ rest, p ≤ r.1.level) →
    g.Avoids (extendFrom p) v → ∃ e, IsTree p x rest e ∧ ∃ n ≤ 12 - p,
      (Expr.parser g).Answers (.name name) n (t :: (w ++ v)) () (some [.expr e]) v ()

variable {g : Grammar} {p : Nat} {name inner : String} {op : Body} {x : Expr} {t : Token} {v w : List Token}
  {rest : List (BinaryOperator × Expr)}

/-- What a rule of the next level reads goes as far as the operators bind more tightly. -/
theorem ReadsFrom.splits (tighter : ReadsFrom g (p + 1) inner) (here : IsOperand g t x)
    (follows : Follows g rest w) (behind : g.Avoids (extendFrom p) v) :
    ∃ tight loose u, rest = tight ++ loose ∧ (∀ r ∈ loose.head?, r.1.level < p + 1) ∧
      Follows g loose u ∧ u.length ≤ w.length ∧ ∃ e, IsTree (p + 1) x tight e ∧ ∃ n ≤ 11 - p,
        (Expr.parser g).Answers (.name inner) n (t :: (w ++ v)) () (some [.expr e]) (u ++ v) () := by
  obtain ⟨tight, loose, rfl, above, below⟩ := exists_tight p rest
  obtain ⟨w, u, rfl, first, later⟩ := follows.of_append
  have stop := later.avoids below (behind.of_subset (extendFrom_subset (Nat.le_succ p)))
  obtain ⟨e, tree, n, bound, answers⟩ := tighter.reads here first above stop
  refine ⟨tight, loose, u, rfl, below, later, by simp, e, tree, n, by omega, ?_⟩
  rwa [List.append_assoc]

/-- Rounds of an operator of a level and an operand that binds more tightly, which join the trees from the
left. -/
theorem rounds_answer (known : g.CompilesExpressions) (small : p ≤ 6) (operator : ReadsOperators g p op)
    (tighter : ReadsFrom g (p + 1) inner) (follows : Follows g rest w)
    (levels : ∀ r ∈ rest, p ≤ r.1.level) (first : ∀ r ∈ rest.head?, r.1.level < p + 1)
    (behind : g.Avoids (extendFrom p) v) :
    ∃ n ≤ 11 - p, ∃ nodes,
      (Expr.parser g).AnswersRounds (seq op (.name inner)) n (w ++ v) () nodes v () ∧
      ∀ {x before left}, IsTree p x before left →
        ∃ e, ExprNode.binaryFrom left nodes = .ok e ∧ IsTree p x (before ++ rest) e := by
  induction length : rest.length using Nat.strong_induction_on generalizing rest w with
  | _ m ih =>
    subst length
    cases follows with
    | nil =>
      obtain ⟨n, bound, missing⟩ := operator.missing (behind.of_subset (List.subset_append_right _ _))
      refine ⟨n, by omega, [], rounds_nil (answers_seq_none known.compiles operator.plain missing), ?_⟩
      exact fun {x before left} tree => ⟨left, rfl, by rwa [List.append_nil]⟩
    | @cons mark y rest t u w is text here later =>
      have same : mark.level = p :=
        Nat.le_antisymm (Nat.le_of_lt_succ (first _ rfl)) (levels _ List.mem_cons_self)
      -- the right operand takes the tighter operators, and what is left begins with one of this level
      obtain ⟨tight, loose, w', rfl, below, outer, shorter, right, tree, n, bound, operand⟩ :=
        tighter.splits here later behind
      obtain ⟨m, low, found⟩ := operator.found (v := u :: (w ++ v)) same is
      have fewer : loose.length < ((mark, y) :: (tight ++ loose)).length := by
        rw [List.length_cons, List.length_append]
        omega
      obtain ⟨k, bound', nodes, rounds, joins⟩ := ih loose.length fewer outer
        (fun r listed => levels r (by simp [listed])) below rfl
      have round := answers_seq known.compiles operator.plain found operand
      have left : (w' ++ v).length < (t :: u :: (w ++ v)).length := by
        simp only [List.length_append, List.length_cons]
        omega
      refine ⟨_, by omega, _, rounds_cons left round rounds, fun {x before left} tree' => ?_⟩
      obtain ⟨e, made, whole⟩ := joins (tree'.binary same tree)
      refine ⟨e, ?_, by simpa using whole⟩
      simpa [ExprNode.binaryFrom, text, BinaryOperator.ofSymbol?_symbol] using made

/-- A rule of operands with operators of a level between them reads from that level on, if the operands are
read from the next level on. -/
theorem readsFrom_level (known : g.CompilesExpressions) (small : p ≤ 6)
    (defined : (⟨name, .separated (.name inner) op⟩ : Definition) ∈ expressionRules)
    (folds : ∀ children, ExprNode.ofRule name children = ExprNode.expr <$> ExprNode.binaryOf children)
    (operator : ReadsOperators g p op) (tighter : ReadsFrom g (p + 1) inner) : ReadsFrom g p name := by
  refine ⟨fun {x t rest w v} here follows levels behind => ?_⟩
  obtain ⟨tight, loose, u, rfl, below, outer, -, left, tree, n, bound, operand⟩ :=
    tighter.splits here follows behind
  obtain ⟨k, bound', nodes, rounds, joins⟩ := rounds_answer known small operator tighter outer
    (fun r listed => levels r (List.mem_append_right _ listed)) below behind
  obtain ⟨e, made, whole⟩ := joins (tree.loosen (Nat.le_succ p))
  have folded : ExprNode.ofRule name ([.expr left] ++ nodes) = .ok (.expr e) := by
    rw [folds, List.singleton_append, ExprNode.binaryOf, made]
    rfl
  exact ⟨e, whole, _, by omega, expression_rule known _ defined
    (answers_seq known.compiles (by simp) operand (answers_star rounds)) folded⟩

/-! ## Rules -/

theorem BinaryOperator.mem_all (op : BinaryOperator) : op ∈ all := by cases op <;> decide

variable (known : g.CompilesExpressions)
include known

theorem readsOperators_literal {s : String} (listed : .literal s ∈ operatorLeaves p)
    (all : ∀ op ∈ BinaryOperator.all, op.level = p → op.symbol = s) : ReadsOperators g p (.literal s) where
  plain _ := by simp
  found {op t v} same is := by
    rw [all op op.mem_all same] at is
    exact ⟨0, by decide, answers_leaf known.distinct rfl is⟩
  missing avoids := ⟨0, by decide, answers_leaf_none rfl (avoids.of_subset (by simpa using listed))⟩

theorem readsOperators_rule (first : String) (rest : List String)
    (defined : (⟨name, .oneOf first rest⟩ : Definition) ∈ expressionRules)
    (passes : ∀ node, ExprNode.ofRule name [node] = .ok node)
    (listed : (first :: rest).map .literal ⊆ operatorLeaves p)
    (all : ∀ op ∈ BinaryOperator.all, op.level = p → op.symbol ∈ first :: rest) :
    ReadsOperators g p (.name name) where
  plain _ := by simp
  found {op _ _} same is :=
    ⟨1, by decide, symbols_answer known first rest defined passes (all op op.mem_all same) is⟩
  missing avoids := ⟨1, by decide, symbols_none known first rest defined (avoids.of_subset listed)⟩

theorem readsFrom_unary : ReadsFrom g 7 "Unary" where
  reads {x t rest w v} here follows levels behind := by
    have none : rest = [] := List.eq_nil_iff_forall_not_mem.2 fun r listed => by
      have := levels r listed
      have := r.1.level_le
      omega
    subst none
    cases follows
    obtain ⟨n, bound, answers⟩ := unary_answers known here (behind.of_subset (List.subset_append_left _ _))
    have tree : IsTree 7 x [] x := by
      cases here with
      | key => exact .key _
      | literal => exact .literal _
    exact ⟨x, tree, n, bound, answers⟩

theorem readsFrom_logicalOr : ReadsFrom g 1 "LogicalOr" := by
  have products : ReadsOperators g 6 (.name "MultiplicativeOp") :=
    readsOperators_rule known "*" ["/", "%"] (by decide) (fun _ => rfl) (by decide) (by decide)
  have sums : ReadsOperators g 5 (.name "AdditiveOp") :=
    readsOperators_rule known "+" ["-"] (by decide) (fun _ => rfl) (by decide) (by decide)
  have orders : ReadsOperators g 4 (.name "RelationalOp") :=
    readsOperators_rule known ">=" ["<=", ">", "<"] (by decide) (fun _ => rfl) (by decide) (by decide)
  have equalities : ReadsOperators g 3 (.name "EqualityOp") :=
    readsOperators_rule known "==" ["!="] (by decide) (fun _ => rfl) (by decide) (by decide)
  have both : ReadsOperators g 2 (.literal "&&") := readsOperators_literal known (by decide) (by decide)
  have either : ReadsOperators g 1 (.literal "||") := readsOperators_literal known (by decide) (by decide)
  have multiplicative : ReadsFrom g 6 "Multiplicative" :=
    readsFrom_level known (by decide) (by decide) (fun _ => rfl) products (readsFrom_unary known)
  have additive : ReadsFrom g 5 "Additive" :=
    readsFrom_level known (by decide) (by decide) (fun _ => rfl) sums multiplicative
  have relational : ReadsFrom g 4 "Relational" :=
    readsFrom_level known (by decide) (by decide) (fun _ => rfl) orders additive
  have equality : ReadsFrom g 3 "Equality" :=
    readsFrom_level known (by decide) (by decide) (fun _ => rfl) equalities relational
  have logicalAnd : ReadsFrom g 2 "LogicalAnd" :=
    readsFrom_level known (by decide) (by decide) (fun _ => rfl) both equality
  exact readsFrom_level known (by decide) (by decide) (fun _ => rfl) either logicalAnd

theorem head_answers {tail : String} {n m : Nat} {e : Expr}
    (defined : (⟨name, .seq (.name inner) (.opt (.name tail))⟩ : Definition) ∈ expressionRules)
    (passes : ExprNode.ofRule name [.expr e] = .ok (.expr e))
    (head : (Expr.parser g).Answers (.name inner) n w () (some [.expr e]) [] ())
    (missing : (Expr.parser g).Answers (.name tail) m [] () none [] ()) :
    (Expr.parser g).Answers (.name name) (max n m + 1) w () (some [.expr e]) [] () :=
  expression_rule known _ defined (answers_seq known.compiles (by simp) head (answers_opt missing)) passes

/-- Operands with operators between them are an expression, which is the ordered tree of them. -/
theorem operations_answers (here : IsOperand g t x) (follows : Follows g rest w) :
    ∃ e, IsTree 1 x rest e ∧ ∃ n ≤ 13,
      (Expr.parser g).Answers (.name "Expression") n (t :: w) () (some [.expr e]) [] () := by
  have nothing (as : List LeafPattern) : g.Avoids as [] := by rintro t ⟨⟩
  obtain ⟨e, tree, n, bound, operations⟩ := (readsFrom_logicalOr known).reads here follows
    (fun r _ => r.1.level_le.1) (nothing _)
  rw [List.append_nil] at operations
  have choice : (Expr.parser g).Answers (.name "ConditionalTail") 1 [] () none [] () :=
    expression_rule_none known (.sequence (.literal "?")
        [.name "Expression", .opt (.seq (.literal ":") (.name "Expression"))]) (by decide)
      (answers_seq_none known.compiles (by simp) (answers_leaf_none rfl (nothing _)))
  have assignment : (Expr.parser g).Answers (.name "AssignTail") 2 [] () none [] () :=
    expression_rule_none known (.seq (.name "AssignOp") (.name "Expression")) (by decide)
      (answers_seq_none known.compiles (by simp)
        (symbols_none known "=" ["+="] (by decide) (nothing _)))
  have conditional : (Expr.parser g).Answers (.name "Conditional") _ _ () _ [] () :=
    head_answers known (by decide) rfl operations choice
  exact ⟨e, tree, _, by omega, head_answers known (by decide) rfl conditional assignment⟩

end

/-! ## Texts -/

def Atom.lexeme (x : Atom) : Lexeme := ⟨x.leaf, x.text.toList⟩

/-- A first operand, and operators with a right operand each, with a blank before and behind every operator. -/
def operationsText (first : Atom) : List (BinaryOperator × Atom) → String
  | [] => first.text
  | (op, x) :: rest => first.text ++ " " ++ op.symbol ++ " " ++ operationsText x rest

def operationsLexemes (first : Atom) : List (BinaryOperator × Atom) → List Lexeme
  | [] => [first.lexeme]
  | (op, x) :: rest => first.lexeme :: .symbol op.symbol :: operationsLexemes x rest

theorem lexes_operations (first : Atom) (rest : List (BinaryOperator × Atom)) :
    expressionGrammar.lexicon.Lexes (operationsText first rest).toList (operationsLexemes first rest) := by
  induction rest generalizing first with
  | nil =>
    have ended : expressionGrammar.lexicon.Lexes [] [] := .ended (List.forall_mem_nil _)
    have whole := ended.cons (l := first.lexeme) (first.is.takes (by rintro _ ⟨⟩))
    rwa [List.append_nil] at whole
  | cons r rest ih =>
    obtain ⟨op, x⟩ := r
    have blank (cs : List Char) : ∀ c ∈ (' ' :: cs).head?, isBlank c = true := by
      rintro _ ⟨⟩
      decide
    have symbol : .literal op.symbol ∈ expressionLeaves := by cases op <;> decide
    have mark := (ih x).blank.cons (l := .symbol op.symbol)
      (takes_of_spells symbol rfl (by rintro ⟨⟩) (blank _))
    have whole := mark.blank.cons (l := first.lexeme) (first.is.takes (blank _))
    simpa [operationsText, operationsLexemes, Atom.lexeme, Lexeme.symbol, List.append_assoc] using whole

theorem follows_of_lexemes {g : Grammar} {first : Atom} {rest : List (BinaryOperator × Atom)}
    {tokens : List Token}
    (lexemes : List.Forall₂ (Token.IsLexeme g.lexicon) tokens (operationsLexemes first rest)) :
    ∃ t w, tokens = t :: w ∧ IsOperand g t first.expr ∧
      Follows g (rest.map fun r => (r.1, r.2.expr)) w := by
  induction rest generalizing first tokens with
  | nil =>
    cases lexemes with
    | cons here later =>
      cases later
      exact ⟨_, [], rfl, first.is.operand here, .nil⟩
  | cons r rest ih =>
    cases lexemes with
    | cons here later =>
      cases later with
      | cons mark later =>
        obtain ⟨u, w, rfl, operand, follows⟩ := ih later
        exact ⟨_, _, rfl, first.is.operand here, .cons mark.symbol.1 mark.symbol.2 operand follows⟩

namespace Expr

/-- Operands with operators between them are read as the ordered tree of them. -/
theorem ofText_of_follows {g : Grammar} (known : g.CompilesExpressions) {text : String}
    (complete : ∃ place, (g.scan text).ending = .complete place) {t : Token} {w : List Token}
    (tokens : (g.scan text).tokens = t :: w) {x : Expr} (here : IsOperand g t x)
    {rest : List (BinaryOperator × Expr)} (follows : Follows g rest w) :
    ∃ e, ofText g text = .ok e ∧ IsTree 1 x rest e := by
  obtain ⟨e, tree, n, bound, answers⟩ := operations_answers known here follows
  have there : (before g text).At (t :: w) () := ⟨tokens, complete, rfl⟩
  have stands : (parser g).grammar.arena.Unfolds (.name "Expression") g.start :=
    .rule (by decide) known.expressions.start
  have enough : n ≤ defaultLimit := Nat.le_trans bound (by decide)
  obtain ⟨s', parsed, -⟩ := (answers.parseAll stands there).1 enough
  exact ⟨e, (ofText_of_parse parsed).1 e rfl, tree⟩

theorem ofText_of_lexes {g : Grammar} (known : g.CompilesExpressions) (mode : CommentMode) {first : Atom}
    {rest : List (BinaryOperator × Atom)}
    (lexes : g.lexicon.Lexes (operationsText first rest).toList (operationsLexemes first rest)) :
    ∃ e, ofText (g.withComments mode) (operationsText first rest) = .ok e ∧
      IsTree 1 first.expr (rest.map fun r => (r.1, r.2.expr)) e := by
  obtain ⟨patterns, prepared⟩ := known.expressions.prepared
  obtain ⟨complete, lexemes⟩ := lexes.scan prepared mode
  obtain ⟨t, w, tokens, operand, follows⟩ := follows_of_lexemes (g := g.withComments mode) lexemes
  exact ofText_of_follows (known.withComments mode) complete tokens operand follows

/-- **Operators bind as their levels tell, and those of one level from the left.** Any atoms with any operators
between them are read, as a tree that has them in that order, and in which the left operand of each operation
binds at least as tightly as its operator, and the right operand more tightly. -/
theorem ofText_operations (mode : CommentMode) (first : Atom) (rest : List (BinaryOperator × Atom)) :
    ∃ e, ofText (expressionGrammar.withComments mode) (operationsText first rest) = .ok e ∧
      e.inOrder = (first.expr, rest.map fun r => (r.1, r.2.expr)) ∧ e.Throughout Ordered := by
  obtain ⟨e, read, tree⟩ := ofText_of_lexes expressionGrammar_compiles mode (lexes_operations first rest)
  exact ⟨e, read, tree.inOrder, tree.ordered⟩

end Expr

end Rowlang
