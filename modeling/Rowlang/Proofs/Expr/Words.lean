import Rowlang.Expr.Grammar
import Rowlang.Proofs.Lexing.Words
import Rowlang.Proofs.Parsing.Predictive

/-!
# The words of the grammar of expressions

* `expressionTables` : what the words of each rule begin with, and what may extend them;
* `Flat` : operands with the marks of choices and assignments between them, each colon behind a
  question mark of its own;
* `Word.flat_of_expression` : every word of `Expression` is of this form, however its choices nest.
-/

namespace Rowlang

/-! ## Tables -/

def assignMarks : List LeafPattern := [.literal "=", .literal "+="]

def literalLeaves : List LeafPattern :=
  ["Decimal", "Integer", "String", "QuotedString"].map lexicalLeaf ++
    ["true", "false", "null"].map .literal

/-- What the words of a rule begin with. -/
def expressionFirst : String → List LeafPattern
  | "AssignTail" | "AssignOp" => assignMarks
  | "ConditionalTail" => [.literal "?"]
  | "EqualityOp" => ["==", "!="].map .literal
  | "RelationalOp" => [">=", "<=", ">", "<"].map .literal
  | "AdditiveOp" => ["+", "-"].map .literal
  | "MultiplicativeOp" => ["*", "/", "%"].map .literal
  | "UnaryOp" => ["-", "!"].map .literal
  | "ChainStep" => [".", "["].map .literal
  | "Index" => [.literal "["]
  | "Group" => [.literal "("]
  | "Step" | "FunctionCall" | "Key" => [lexicalLeaf "Name"]
  | "Literal" => literalLeaves
  | "Primary" | "Chain" => literalLeaves ++ [lexicalLeaf "Name", .literal "("]
  | _ => ["-", "!"].map .literal ++ literalLeaves ++ [lexicalLeaf "Name", .literal "("]

/-- The texts that may stand behind a word of a rule in a longer word. -/
def expressionExtend : String → List String
  | "Step" | "Primary" | "ChainStep" => ["("]
  | "Chain" | "Unary" => [".", "[", "("]
  | "Multiplicative" => ["*", "/", "%", ".", "[", "("]
  | "Additive" => ["+", "-", "*", "/", "%", ".", "[", "("]
  | "Relational" => [">=", "<=", ">", "<", "+", "-", "*", "/", "%", ".", "[", "("]
  | "Equality" => ["==", "!=", ">=", "<=", ">", "<", "+", "-", "*", "/", "%", ".", "[", "("]
  | "LogicalAnd" =>
    ["&&", "==", "!=", ">=", "<=", ">", "<", "+", "-", "*", "/", "%", ".", "[", "("]
  | "LogicalOr" =>
    ["||", "&&", "==", "!=", ">=", "<=", ">", "<", "+", "-", "*", "/", "%", ".", "[", "("]
  | "Expression" =>
    ["?", ":", "=", "+=", "||", "&&", "==", "!=", ">=", "<=", ">", "<", "+", "-", "*", "/", "%", ".",
      "[", "("]
  | "Arguments" =>
    [",", "?", ":", "=", "+=", "||", "&&", "==", "!=", ">=", "<=", ">", "<", "+", "-", "*", "/", "%",
      ".", "[", "("]
  | _ => []

/-- What is known of the rules of expressions. Where choices and assignments go on is not told by the
next token. -/
def expressionTables : Tables where
  first := expressionFirst
  extend name := (expressionExtend name).map .literal
  settled name := !(["AssignTail", "Conditional", "ConditionalTail"].contains name)

theorem expressionTables_lawful : expressionTables.Lawful expressionRules := by
  decide

/-- The rules that the next token decides. -/
def Definition.regular (d : Definition) : Bool :=
  d.body.predictive expressionTables && d.body.decided &&
    (d.body.extend expressionTables).all (expressionTables.extend d.name).contains

example : (expressionRules.filter (!·.regular)).map (·.name) =
    ["Expression", "AssignTail", "Conditional", "ConditionalTail", "Step", "FunctionCall"] := by
  decide

/-! ## Words of rules -/

theorem expressionRules_distinct :
    ∀ d ∈ expressionRules, ∀ d' ∈ expressionRules, d.name = d'.name → d = d' := by
  decide

theorem expressionRules_other : ∀ d ∈ expressionRules, lexicalPatterns.lookup d.name = none := by
  decide

abbrev Word {τ : Type} (is : LeafPattern → τ → Prop) (name : String) (w : List τ) : Prop :=
  (Body.name name).Derives expressionRules is w

section Words
variable {τ : Type} {is : LeafPattern → τ → Prop} {w u v : List τ} {t : τ} {n : Nat}

theorem Word.body {d : Definition} (word : Word is d.name w) (defined : d ∈ expressionRules) :
    d.body.Derives expressionRules is w := by
  have named {b : Body} (word : b.Derives expressionRules is w) (same : b = .name d.name) :
      d.body.Derives expressionRules is w := by
    cases word with
    | lexical known =>
      cases same
      cases (expressionRules_other d defined).symm.trans known
    | @rule d' w _ defined' inner =>
      exact expressionRules_distinct d' defined' d defined (Body.name.inj same) ▸ inner
    | _ => cases same
  exact named word rfl

theorem Word.lexical {name : String} (lexical : (lexicalPatterns.lookup name).isSome = true)
    (word : Word is name w) : ∃ t, w = [t] ∧ is (lexicalLeaf name) t := by
  obtain ⟨source, known⟩ := Option.isSome_iff_exists.1 lexical
  rw [lexicalLeaf, known]
  exact word.of_lexical known

theorem Word.key (word : Word is "Key" w) : ∃ t, w = [t] ∧ is (lexicalLeaf "Name") t :=
  Word.lexical (by decide) (word.body (d := ⟨"Key", .name "Name"⟩) (by decide))

open Body in
theorem Word.call (word : Word is "FunctionCall" w) : ∃ t t' v, w = t :: t' :: v ∧
    is (lexicalLeaf "Name") t ∧ is (.literal "(") t' := by
  cases word.body (d := ⟨"FunctionCall", sequence (ahead 2)
      [name "Name", literal "(", opt (name "Arguments"), literal ")"]⟩) (by decide) with
  | seq check call =>
    cases check
    cases call with
    | seq name more =>
      obtain ⟨t, rfl, is⟩ := Word.lexical (by decide) name
      cases more with
      | seq parenthesis _ =>
        cases parenthesis with
        | literal is' => exact ⟨t, _, _, rfl, is, is'⟩

open Body in
theorem Word.expression (word : Word is "Expression" w) : ∃ u v, w = u ++ v ∧
    Word is "Conditional" u ∧ (v = [] ∨ Word is "AssignTail" v) := by
  have defined : ⟨"Expression", seq (name "Conditional") (opt (name "AssignTail"))⟩ ∈
      expressionRules := by decide
  exact (word.body defined).of_seq_opt

open Body in
theorem Word.conditional (word : Word is "Conditional" w) : ∃ u v, w = u ++ v ∧
    Word is "LogicalOr" u ∧ (v = [] ∨ Word is "ConditionalTail" v) := by
  have defined : ⟨"Conditional", seq (name "LogicalOr") (opt (name "ConditionalTail"))⟩ ∈
      expressionRules := by decide
  exact (word.body defined).of_seq_opt

open Body in
theorem Word.assignOp (word : Word is "AssignOp" w) :
    ∃ t, w = [t] ∧ ∃ leaf ∈ assignMarks, is leaf t := by
  cases word.body (d := ⟨"AssignOp", oneOf "=" ["+="]⟩) (by decide) with
  | altLeft chosen =>
    cases chosen with
    | literal h => exact ⟨_, rfl, _, by simp [assignMarks], h⟩
  | altRight chosen =>
    cases chosen with
    | literal h => exact ⟨_, rfl, _, by simp [assignMarks], h⟩

theorem Word.of_mark (mark : ∃ leaf ∈ assignMarks, is leaf t) : Word is "AssignOp" [t] := by
  refine .rule (d := ⟨"AssignOp", .oneOf "=" ["+="]⟩) (by decide) (by decide) ?_
  obtain ⟨leaf, listed, h⟩ := mark
  simp only [assignMarks, List.mem_cons, List.not_mem_nil, or_false] at listed
  rcases listed with rfl | rfl
  · exact .altLeft (.literal h)
  · exact .altRight (.literal h)

open Body in
theorem Word.assignTail (word : Word is "AssignTail" w) :
    ∃ t v, w = t :: v ∧ (∃ leaf ∈ assignMarks, is leaf t) ∧ Word is "Expression" v := by
  cases word.body (d := ⟨"AssignTail", seq (name "AssignOp") (name "Expression")⟩)
    (by decide) with
  | seq first second =>
    obtain ⟨t, rfl, mark⟩ := Word.assignOp first
    exact ⟨t, _, rfl, mark, second⟩

open Body in
theorem Word.conditionalTail (word : Word is "ConditionalTail" w) :
    ∃ t u v, w = t :: (u ++ v) ∧ is (.literal "?") t ∧ Word is "Expression" u ∧
      (v = [] ∨ ∃ c e, v = c :: e ∧ is (.literal ":") c ∧ Word is "Expression" e) := by
  cases word.body (d := ⟨"ConditionalTail", sequence (literal "?")
      [name "Expression", opt (seq (literal ":") (name "Expression"))]⟩) (by decide) with
  | seq first second =>
    cases first with
    | literal mark =>
      cases second with
      | @seq _ _ u v first second =>
        refine ⟨_, u, v, rfl, mark, first, ?_⟩
        cases second with
        | optNone => exact .inl rfl
        | optSome given =>
          cases given with
          | seq colon later =>
            cases colon with
            | literal h => exact .inr ⟨_, _, rfl, h, later⟩

/-! ## Flat words -/

/-- Operands with the marks of choices and assignments between them. Each colon is behind a question
mark of its own, `n` of which stand in front of the word. -/
inductive Flat {τ : Type} (is : LeafPattern → τ → Prop) : Nat → List τ → Prop
  | operand {n : Nat} {u : List τ} (operand : Word is "LogicalOr" u) : Flat is n u
  | question {n : Nat} {u w : List τ} {t : τ} (operand : Word is "LogicalOr" u)
      (mark : is (.literal "?") t) (later : Flat is (n + 1) w) : Flat is n (u ++ t :: w)
  | colon {n : Nat} {u w : List τ} {t : τ} (operand : Word is "LogicalOr" u)
      (mark : is (.literal ":") t) (later : Flat is n w) : Flat is (n + 1) (u ++ t :: w)
  | assign {n : Nat} {u w : List τ} {t : τ} (operand : Word is "LogicalOr" u)
      (mark : ∃ leaf ∈ assignMarks, is leaf t) (later : Flat is n w) : Flat is n (u ++ t :: w)

theorem Flat.succ (h : Flat is n w) : Flat is (n + 1) w := by
  induction h with
  | operand operand => exact .operand operand
  | question operand mark _ ih => exact .question operand mark ih
  | colon operand mark _ ih => exact .colon operand mark ih
  | assign operand mark _ ih => exact .assign operand mark ih

theorem Flat.of_zero (h : Flat is 0 w) (n : Nat) : Flat is n w := by
  induction n with
  | zero => exact h
  | succ n ih => exact ih.succ

theorem Flat.append_colon (h : Flat is n u) (mark : is (.literal ":") t) (later : Flat is 0 v) :
    Flat is (n + 1) (u ++ t :: v) := by
  induction h with
  | operand operand => exact .colon operand mark (later.of_zero _)
  | question operand mark _ ih => simpa using Flat.question operand mark ih
  | colon operand mark _ ih => simpa using Flat.colon operand mark ih
  | assign operand mark _ ih => simpa using Flat.assign operand mark ih

theorem Flat.append_assign (h : Flat is n u) (mark : ∃ leaf ∈ assignMarks, is leaf t)
    (later : Flat is 0 v) : Flat is n (u ++ t :: v) := by
  induction h with
  | operand operand => exact .assign operand mark (later.of_zero _)
  | question operand mark _ ih => simpa using Flat.question operand mark ih
  | colon operand mark _ ih => simpa using Flat.colon operand mark ih
  | assign operand mark _ ih => simpa using Flat.assign operand mark ih

mutual

theorem Word.flat_of_conditional {w : List τ} (word : Word is "Conditional" w) : Flat is 0 w := by
  obtain ⟨u, v, same, operand, none | tail⟩ := Word.conditional word
  · rw [same, none, List.append_nil]
    exact .operand operand
  obtain ⟨t, e, v', same', mark, first, none | ⟨c, e', colon', colon, second⟩⟩ := tail.conditionalTail
  · have : e.length < w.length := by simp [same, same']; omega
    rw [same, same', none, List.append_nil]
    exact .question operand mark (Word.flat_of_expression first).succ
  · have : e.length < w.length := by simp [same, same']; omega
    have : e'.length < w.length := by simp [same, same', colon']; omega
    rw [same, same', colon']
    exact .question operand mark ((Word.flat_of_expression first).append_colon colon
      (Word.flat_of_expression second))
termination_by 2 * w.length

/-- However choices and assignments nest in a word, it is flat. -/
theorem Word.flat_of_expression {w : List τ} (word : Word is "Expression" w) : Flat is 0 w := by
  obtain ⟨u, v, same, conditional, none | tail⟩ := Word.expression word
  · have : u.length ≤ w.length := by simp [same]
    rw [same, none, List.append_nil]
    exact Word.flat_of_conditional conditional
  obtain ⟨t, e, same', mark, later⟩ := tail.assignTail
  have : u.length ≤ w.length := by simp [same]
  have : e.length < w.length := by simp [same, same']; omega
  rw [same, same']
  exact (Word.flat_of_conditional conditional).append_assign mark (Word.flat_of_expression later)
termination_by 2 * w.length + 1

end

end Words

end Rowlang
