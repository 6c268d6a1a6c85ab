import Rowlang.Proofs.Expr.Completeness
import Rowlang.Proofs.Expr.Nodes
import Rowlang.Proofs.Grammar.Build

/-!
# The outcome of reading an expression

* `Grammar.IsExpressions` : a grammar has the rules of expressions, and no others;
* `ParseError.IsMisassignment` : the error of an assignment to what cannot be assigned to;
* `Expr.Answers`, `Expr.ofText_answers` : whether a text can be read is told by whether its tokens are a
  word of `Expression`, but for such assignments.
-/

namespace Rowlang
open Rowlang.Text

/-! ## The grammar of expressions -/

theorem expressionGrammar_assembled : Grammar.assembled? expressionRules = some expressionGrammar :=
  Grammar.assembled?_of_ofDefinitions ofDefinitions_expressionRules

/-- The grammar is evaluated in this form without searching it for empty repetitions once more. -/
theorem expressionGrammar_eq : expressionGrammar =
    (Grammar.assembled? expressionRules).get (Option.isSome_of_eq_some expressionGrammar_assembled) :=
  (Option.get_of_eq_some _ expressionGrammar_assembled).symm

/-- The grammar is that of expressions, however it treats comments. -/
structure Grammar.IsExpressions (g : Grammar) : Prop where
  defines : g.Defines expressionRules
  only : g.DefinesOnly expressionRules
  distinct : g.lexicon.patterns.Nodup
  start : g.find? "Expression" = some g.start
  prepared : ∃ patterns, Lexicon.ofPatterns? patterns = some g.lexicon

theorem expressionGrammar_isExpressions : expressionGrammar.IsExpressions := by
  have checked : expressionGrammar.Defines expressionRules ∧
      expressionGrammar.DefinesOnly expressionRules ∧
      expressionGrammar.lexicon.patterns.Nodup ∧
      expressionGrammar.find? "Expression" = some expressionGrammar.start := by
    rw [expressionGrammar_eq]
    decide +kernel
  obtain ⟨defines, only, distinct, start⟩ := checked
  exact ⟨defines, only, distinct, start,
    Grammar.prepared_of_ofDefinitions ofDefinitions_expressionRules⟩

section Start
variable {g : Grammar} (known : g.IsExpressions)
include known

theorem isLeaf_of_scan {text : String} :
    ∀ t ∈ (g.scan text).tokens, ∀ p, g.Is p t → ExprNode.IsLeaf p (.token t) := by
  intro t listed p is
  obtain ⟨patterns, prepared⟩ := known.prepared
  obtain ⟨p', pattern, name, spelled⟩ :=
    (Lexicon.scan_cut prepared g.comments text).spelled prepared t listed
  cases Grammar.Is.unique is pattern
  exact .token name spelled

open Body in
theorem start_made : (∃ body, g.shape? g.start = some (.named body)) ∧
    g.realises expressionRules (.name "Expression") g.start = true := by
  let d : Definition := ⟨"Expression", seq (name "Conditional") (opt (name "AssignTail"))⟩
  have defined : d ∈ expressionRules := by decide +kernel
  obtain ⟨body, named, -⟩ := known.defines.body defined known.start
  exact ⟨⟨body, named⟩, Grammar.realises_of_find? (d := d) (by decide) defined known.start⟩

end Start

/-! ## Nodes that are refused -/

/-- The error of an assignment among the tokens to what cannot be assigned to. -/
def ParseError.IsMisassignment (g : Grammar) (tokens : List Token) (e : ParseError) : Prop :=
  ∃ target tail head line column, target ++ tail <:+: tokens ∧ Word g.Is "Conditional" target ∧
    Word g.Is "AssignTail" tail ∧ head.isAssignable = false ∧
    e = .rejected "Expression" ("cannot assign to '" ++ Expr.render head ++ "'") line column

section Nodes
variable {g : Grammar} {id : Nat} {tokens : List Token} {nodes : List ExprNode}
  (defines : g.Defines expressionRules)
include defines

theorem gives_of_builds (built : g.Builds Expr.builder id tokens nodes)
    (spelled : ∀ t ∈ tokens, ∀ p, g.Is p t → ExprNode.IsLeaf p (.token t)) {body : Body}
    (realised : g.realises expressionRules body id = true) : ExprNode.Gives body nodes := by
  refine built.makes defines ?_ spelled body realised
  intro d defined children node before after given made
  simp only [Expr.builder, Prod.mk.injEq] at made
  rcases ExprNode.ofRule_gives d defined children given with ⟨node', made', fits⟩ | ⟨name, wrong⟩
  · cases made'.symm.trans made.1
    exact fits
  · obtain ⟨head, op, value, rfl, refused⟩ := wrong
    rw [name, ExprNode.ofRule_misassigned refused] at made
    cases made.1

theorem target_and_tail {children : List ExprNode}
    (realised : g.realises expressionRules
      (.seq (.name "Conditional") (.opt (.name "AssignTail"))) id = true)
    (built : g.Builds Expr.builder id tokens children)
    (spelled : ∀ t ∈ tokens, ∀ p, g.Is p t → ExprNode.IsLeaf p (.token t))
    (assignment : ExprNode.IsMisassigned children) : ∃ target tail, tokens = target ++ tail ∧
      Word g.Is "Conditional" target ∧ Word g.Is "AssignTail" tail := by
  obtain ⟨head, op, value, rfl, -⟩ := assignment
  obtain ⟨_, shape, made⟩ := defines.made realised
  cases made with
  | seq first second =>
    obtain ⟨target, tail, us, vs, rfl, nodes, built, built'⟩ := built.of_seq shape
    obtain ⟨_, shape', made⟩ := defines.made second
    cases made with
    | opt second =>
      rcases built'.of_opt shape' with rfl | built'
      · -- one part makes one node only
        have given := gives_of_builds defines built
          (fun t ht => spelled t (List.mem_append_left _ ht)) first
        obtain ⟨e, rfl, -⟩ := ExprNode.gives_expr (by decide) rfl given
        cases nodes
      · exact ⟨target, tail, rfl, built.derives defines _ first, built'.derives defines _ second⟩

theorem misassignment_of_refusal (only : g.DefinesOnly expressionRules) {body : Nat}
    {children : List ExprNode} {reason : String} {before after : Unit} {line column : Nat}
    {all : List Token} (h : g.shape? id = some (.named body)) (some_of : tokens <:+: all)
    (inner : g.Builds Expr.builder body tokens children)
    (spelled : ∀ t ∈ all, ∀ p, g.Is p t → ExprNode.IsLeaf p (.token t))
    (refusal : Expr.builder.rule (g.ruleName id) children before = (.error reason, after)) :
    (ParseError.rejected (g.ruleName id) reason line column).IsMisassignment g all := by
  obtain ⟨d, defined, found⟩ := only.named h
  obtain ⟨id', body', found', shape, name, realised⟩ := defines.named defined
  cases found.symm.trans found'
  cases h.symm.trans shape
  have spelled : ∀ t ∈ tokens, ∀ p, g.Is p t → ExprNode.IsLeaf p (.token t) :=
    fun t ht => spelled t (some_of.subset ht)
  have given := gives_of_builds defines inner spelled realised
  simp only [Expr.builder, Prod.mk.injEq, name] at refusal
  rcases ExprNode.ofRule_gives d defined children given with ⟨node, made, -⟩ | ⟨expr, wrong⟩
  · cases made.symm.trans refusal.1
  have same := expressionRules_distinct d defined
    ⟨"Expression", .seq (.name "Conditional") (.opt (.name "AssignTail"))⟩ (by decide +kernel) expr
  rw [same] at realised
  obtain ⟨target, tail, rfl, isTarget, isTail⟩ := target_and_tail defines realised inner spelled wrong
  obtain ⟨head, op, value, rfl, refused⟩ := wrong
  rw [expr, ExprNode.ofRule_misassigned refused] at refusal
  refine ⟨target, tail, head, line, column, some_of, isTarget, isTail, refused, ?_⟩
  rw [name, expr, Except.error.inj refusal.1]

end Nodes

/-! ## Texts -/

namespace Expr

variable {g : Grammar} {text : String} {s' : ParseState Unit}

/-- The state in which a text is parsed. -/
abbrev before (g : Grammar) (text : String) : ParseState Unit := ⟨.ofScan (g.scan text), ()⟩

/-- What is parsed is an expression, and the tokens of the text are a word. -/
theorem expr_of_parse (known : g.IsExpressions) {limit : Nat} {node : ExprNode}
    (parsed : (Parser.mk g builder limit).parseAll g.start (before g text) = (.ok node, s')) :
    (∃ e, node = .expr e) ∧ Word g.Is "Expression" (g.scan text).tokens := by
  obtain ⟨⟨body, named⟩, realised⟩ := start_made known
  obtain ⟨-, nodes, builds, made⟩ := Parser.parseAll_builds parsed
  obtain ⟨node', rfl⟩ := builds.of_named named
  rcases made with same | ⟨several, -⟩
  · cases same
    have given := gives_of_builds known.defines builds (isLeaf_of_scan known) realised
    obtain ⟨e, same, -⟩ := ExprNode.gives_expr (by decide) rfl given
    exact ⟨⟨e, List.head_eq_of_cons_eq same⟩, builds.derives known.defines _ realised⟩
  · exact absurd rfl several

/-- A text that cannot be parsed, although it can be scanned, lacks a part or has tokens left, or it is
nested too deeply, or has an assignment to what cannot be assigned to. -/
theorem fault_of_parse (known : g.IsExpressions) {limit : Nat} {e : ParseError}
    (complete : (before g text).stream.Complete)
    (failed : (Parser.mk g builder limit).parseAll g.start (before g text) = (.error e, s')) :
    (∃ rule expected found place, e = .syntaxError rule expected found place) ∨
      (∃ found, e = .trailingInput found) ∨ (∃ rule limit place, e = .tooDeep rule limit place) ∨
      e.IsMisassignment g (g.scan text).tokens := by
  obtain ⟨place, ending⟩ := complete
  rcases Parser.parseAll_fault failed with fault | trailing | ⟨nodes, reason, -, builds, several⟩
  · cases fault with
    | lex unscanned => cases ending.symm.trans unscanned
    | syntaxError => exact .inl ⟨_, _, _, _, rfl⟩
    | tooDeep => exact .inr (.inr (.inl ⟨_, _, _, rfl⟩))
    | rejected h some_of inner refusal =>
      exact .inr (.inr (.inr (misassignment_of_refusal known.defines known.only h some_of inner
        (isLeaf_of_scan known) refusal)))
  · exact .inr (.inl trailing)
  · obtain ⟨⟨body, named⟩, -⟩ := start_made known
    obtain ⟨node, rfl⟩ := builds.of_named named
    exact absurd rfl several

/-- A word fails only for its nesting, or since the builder refuses a node. -/
theorem excused_of_word (known : g.IsExpressions) {σ ν : Type} {b : TreeBuilder σ ν} {limit : Nat}
    {s s' : ParseState σ} {e : ParseError} (complete : s.stream.Complete)
    (word : Word g.Is "Expression" s.stream.rest)
    (failed : (Parser.mk g b limit).parseAll g.start s = (.error e, s')) : e.Excused := by
  have distinct : (Parser.mk g b limit).Distinct := known.distinct
  exact (Parser.ends_word known.defines distinct known.start word).excused complete failed

theorem not_word_of_parseTree (known : g.IsExpressions) {e : ParseError}
    (complete : ∃ place, (g.scan text).ending = .complete place)
    (failed : g.parseTree text = .error e) (unexcused : ¬ e.Excused) :
    ¬ Word g.Is "Expression" (g.scan text).tokens := fun word =>
  unexcused (excused_of_word (s := ⟨.ofScan (g.scan text), ()⟩) known complete word
    (Prod.ext failed rfl))

theorem ofText_of_parse {r : Except ParseError ExprNode}
    (parsed : (Parser.mk g builder defaultLimit).parseAll g.start (before g text) = (r, s')) :
    (∀ e, r = .ok (.expr e) → ofText g text = .ok e) ∧
      ∀ e, r = .error e → ofText g text = .error e := by
  constructor <;>
  · rintro e rfl
    unfold ofText Parser.parse Parser.parseRule
    rw [parsed]

/-- The answer to a text tells whether its tokens are a word of `Expression`, unless it is the error of an
assignment among them whose target cannot be assigned to. -/
structure Answers (g : Grammar) (text : String) : Prop where
  /-- a word is read -/
  word : Word g.Is "Expression" (g.scan text).tokens → (∃ e, ofText g text = .ok e) ∨
    ∃ e, ofText g text = .error e ∧ e.IsMisassignment g (g.scan text).tokens
  /-- otherwise a part is missing, or tokens are left -/
  other : ¬ Word g.Is "Expression" (g.scan text).tokens →
    (∃ rule expected found place,
      ofText g text = .error (.syntaxError rule expected found place)) ∨
    (∃ found, ofText g text = .error (.trailingInput found)) ∨
    ∃ e, ofText g text = .error e ∧ e.IsMisassignment g (g.scan text).tokens

theorem answers_of_isExpressions (known : g.IsExpressions)
    (complete : ∃ place, (g.scan text).ending = .complete place)
    (shallow : ∀ rule limit place, ofText g text ≠ .error (.tooDeep rule limit place)) :
    Answers g text := by
  have complete : (before g text).stream.Complete := complete
  obtain ⟨r, s', parsed⟩ : ∃ r s', (Parser.mk g builder defaultLimit).parseAll g.start
    (before g text) = (r, s') := ⟨_, _, rfl⟩
  obtain ⟨read, unread⟩ := ofText_of_parse parsed
  cases r with
  | ok node =>
    obtain ⟨⟨e, rfl⟩, word⟩ := expr_of_parse known parsed
    exact ⟨fun _ => .inl ⟨e, read e rfl⟩, fun other => absurd word other⟩
  | error e =>
    have unread := unread e rfl
    rcases fault_of_parse known complete parsed with
      ⟨rule, expected, found, place, rfl⟩ | ⟨found, rfl⟩ | ⟨rule, limit, place, rfl⟩ | wrong
    · refine ⟨fun word => ?_, fun _ => .inl ⟨_, _, _, _, unread⟩⟩
      cases excused_of_word known complete word parsed
    · refine ⟨fun word => ?_, fun _ => .inr (.inl ⟨_, unread⟩)⟩
      cases excused_of_word known complete word parsed
    · exact absurd unread (shallow rule limit place)
    · exact ⟨fun _ => .inr ⟨e, unread, wrong⟩, fun _ => .inr (.inr ⟨e, unread, wrong⟩)⟩

/-- **Reading an expression.** A text that can be scanned, and is not nested too deeply, is read if its
tokens are a word of `Expression`; otherwise a part of it is missing, or some of it is left. In either
case an assignment to what cannot be assigned to may be refused instead. -/
theorem ofText_answers (text : String)
    (complete : ∃ place, (expressionGrammar.scan text).ending = .complete place)
    (shallow : ∀ rule limit place,
      ofText expressionGrammar text ≠ .error (.tooDeep rule limit place)) :
    Answers expressionGrammar text :=
  answers_of_isExpressions expressionGrammar_isExpressions complete shallow

theorem ofText_answers_choice :
    (∃ place, (expressionGrammar.scan "a ? b = 1 : f(c)").ending = .complete place) ∧
    (∀ rule limit place,
      ofText expressionGrammar "a ? b = 1 : f(c)" ≠ .error (.tooDeep rule limit place)) ∧
    Answers expressionGrammar "a ? b = 1 : f(c)" := by
  have run : (expressionGrammar.scan "a ? b = 1 : f(c)").ending = .complete ⟨16, 1, 17⟩ ∧
      (ofText expressionGrammar "a ? b = 1 : f(c)").isOk = true := by decide +kernel
  have shallow : ∀ rule limit place,
      ofText expressionGrammar "a ? b = 1 : f(c)" ≠ .error (.tooDeep rule limit place) := by
    intro rule limit place deep
    rw [deep] at run
    cases run.2
  exact ⟨⟨_, run.1⟩, shallow, ofText_answers _ ⟨_, run.1⟩ shallow⟩

/-- An assignment is refused before the parenthesis behind it is looked at. -/
theorem ofText_misassigned_before_parenthesis :
    (∃ place, (expressionGrammar.scan "1 = 2 )").ending = .complete place) ∧
    ¬ Word expressionGrammar.Is "Expression" (expressionGrammar.scan "1 = 2 )").tokens ∧
    ofText expressionGrammar "1 = 2 )" =
      .error (.rejected "Expression" "cannot assign to '1'" 1 1) := by
  have run : (expressionGrammar.scan "1 = 2 )").ending = .complete ⟨7, 1, 8⟩ ∧
      (match expressionGrammar.parseTree "1 = 2 )" with
        | .error (.trailingInput _) => true
        | _ => false) = true ∧
      (match ofText expressionGrammar "1 = 2 )" with
        | .error e => some e
        | .ok _ => none) = some (.rejected "Expression" "cannot assign to '1'" 1 1) := by
    decide +kernel
  obtain ⟨complete, left, refused⟩ := run
  refine ⟨⟨_, complete⟩, ?_, ?_⟩
  · split at left
    · have unexcused {t : Token} : ¬ (ParseError.trailingInput t).Excused := by rintro ⟨⟩
      exact not_word_of_parseTree expressionGrammar_isExpressions ⟨_, complete⟩ ‹_› unexcused
    · cases left
  · split at refused
    · rw [‹ofText _ _ = _›, Option.some.inj refused]
    · cases refused

end Expr

end Rowlang
