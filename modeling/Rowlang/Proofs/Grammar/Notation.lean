import Mathlib.Data.List.Forall2
import Rowlang.Proofs.Grammar.Lexemes
import Rowlang.Proofs.Parsing.Answers

/-!
# The notation of grammar definitions

Bodies as they are written, each binding at least as tightly as its place asks for, with the number of
brackets and checks that are nested in them.

* `Spelling` : which symbols stand for what; the same notation is read of lexemes and of tokens;
* `Written` : the symbols are a way to write the body;
* `Written.expression_answers` : the parser of definitions finds the body of what is written, and takes
  five levels of nesting for each bracket and five for the rest;
* `Document` : the definitions of a whole text, one after the other.
-/

namespace Rowlang

/-! ## What is written -/

/-- What symbols stand for. -/
structure Spelling (τ : Type) where
  /-- a mark, or the word `LookAhead` -/
  mark : String → τ → Prop
  name : String → τ → Prop
  /-- a literal of a given text -/
  literal : String → τ → Prop
  count : Nat → τ → Prop

/-- How tightly a piece of the notation binds. -/
inductive Rank where
  | primary | counted | sequence | choice
deriving DecidableEq

/-- The symbols are a way to write the body in a place of the given rank, with so many brackets and checks
nested in it. -/
inductive Written {τ : Type} (is : Spelling τ) : Rank → Nat → List τ → Body → Prop
  | literal {text t} (h : is.literal text t) : Written is .primary 0 [t] (.literal text)
  | name {n t} (h : is.name n t) : Written is .primary 0 [t] (.name n)
  | ahead {n k o t c} (key : is.mark "LookAhead" k) (opens : is.mark "(" o) (h : is.count n t)
      (closes : is.mark ")" c) : Written is .primary 0 [k, o, t, c] (.ahead n)
  | guarded {m w x k o c} (key : is.mark "LookAhead" k) (opens : is.mark "(" o)
      (inner : Written is .choice m w x) (closes : is.mark ")" c) :
      Written is .primary (m + 1) (k :: o :: (w ++ [c])) (.guarded x)
  | group {m w x o c} (opens : is.mark "(" o) (inner : Written is .choice m w x)
      (closes : is.mark ")" c) : Written is .primary (m + 1) (o :: (w ++ [c])) x
  | once {m w x} (inner : Written is .primary m w x) : Written is .counted m w x
  | opt {m w x t} (inner : Written is .primary m w x) (h : is.mark "?" t) :
      Written is .counted m (w ++ [t]) (.opt x)
  | star {m w x t} (inner : Written is .primary m w x) (h : is.mark "*" t) :
      Written is .counted m (w ++ [t]) (.star x)
  | plus {m w x t} (inner : Written is .primary m w x) (h : is.mark "+" t) :
      Written is .counted m (w ++ [t]) (.plus x)
  | single {m w x} (inner : Written is .counted m w x) : Written is .sequence m w x
  | seq {m n u v x y} (first : Written is .counted m u x) (later : Written is .sequence n v y) :
      Written is .sequence (max m n) (u ++ v) (.seq x y)
  | only {m w x} (inner : Written is .sequence m w x) : Written is .choice m w x
  | alt {m n u v x y t} (first : Written is .sequence m u x) (bar : is.mark "|" t)
      (later : Written is .choice n v y) : Written is .choice (max m n) (u ++ t :: v) (.alt x y)

/-- The symbols are a way to write the definitions, with so many brackets and checks nested in them. -/
inductive Document {τ : Type} (is : Spelling τ) : Nat → List τ → List Definition → Prop
  | nil : Document is 0 [] []
  | cons {m k n o c w x ts ds} {name : String} (h : is.name name n) (opens : is.mark "\x7b" o)
      (inner : Written is .choice m w x) (closes : is.mark "\x7d" c) (later : Document is k ts ds) :
      Document is (max m k) (n :: o :: (w ++ c :: ts)) (⟨name, x⟩ :: ds)

section
variable {τ τ' : Type} {is : Spelling τ} {is' : Spelling τ'}

/-- What is written in a place of any rank, can stand for a whole body. -/
theorem Written.loosen {rank : Rank} {m : Nat} {w : List τ} {x : Body} (h : Written is rank m w x) :
    Written is .choice m w x := by
  cases rank with
  | primary => exact .only (.single (.once h))
  | counted => exact .only (.single h)
  | sequence => exact .only h
  | choice => exact h

theorem forall₂_of_append {R : τ → τ' → Prop} {w : List τ} {u v : List τ'}
    (h : List.Forall₂ R w (u ++ v)) :
    ∃ u' v', w = u' ++ v' ∧ List.Forall₂ R u' u ∧ List.Forall₂ R v' v :=
  ⟨_, _, (List.take_append_drop u.length w).symm, List.forall₂_take_append w u v h,
    List.forall₂_drop_append w u v h⟩

theorem forall₂_singleton {R : τ → τ' → Prop} {w : List τ} {t : τ'} (h : List.Forall₂ R w [t]) :
    ∃ t', w = [t'] ∧ R t' t := by
  cases h with
  | cons related later =>
    cases later
    exact ⟨_, rfl, related⟩

/-- Each symbol of the second list is spelled by the symbol of the first in its place. -/
structure Spelling.Within (is : Spelling τ) (is' : Spelling τ') (R : τ → τ' → Prop) : Prop where
  mark : ∀ {s t t'}, R t t' → is'.mark s t' → is.mark s t
  name : ∀ {s t t'}, R t t' → is'.name s t' → is.name s t
  literal : ∀ {s t t'}, R t t' → is'.literal s t' → is.literal s t
  count : ∀ {s t t'}, R t t' → is'.count s t' → is.count s t

/-- What is written with some symbols is written with those that stand for them. -/
theorem Written.map {R : τ → τ' → Prop} (within : is.Within is' R) {rank : Rank} {m : Nat}
    {w' : List τ'} {x : Body} (h : Written is' rank m w' x) {w : List τ} (same : List.Forall₂ R w w') :
    Written is rank m w x := by
  induction h generalizing w with
  | literal h =>
    obtain ⟨t, rfl, related⟩ := forall₂_singleton same
    exact .literal (within.literal related h)
  | name h =>
    obtain ⟨t, rfl, related⟩ := forall₂_singleton same
    exact .name (within.name related h)
  | ahead key opens h closes =>
    rcases same with _ | ⟨r₁, _ | ⟨r₂, _ | ⟨r₃, same⟩⟩⟩
    obtain ⟨t, rfl, r₄⟩ := forall₂_singleton same
    exact .ahead (within.mark r₁ key) (within.mark r₂ opens) (within.count r₃ h) (within.mark r₄ closes)
  | guarded key opens _ closes ih =>
    rcases same with _ | ⟨r₁, _ | ⟨r₂, same⟩⟩
    obtain ⟨u, v, rfl, inner, last⟩ := forall₂_of_append same
    obtain ⟨t, rfl, r₃⟩ := forall₂_singleton last
    exact .guarded (within.mark r₁ key) (within.mark r₂ opens) (ih inner) (within.mark r₃ closes)
  | group opens _ closes ih =>
    rcases same with _ | ⟨r₁, same⟩
    obtain ⟨u, v, rfl, inner, last⟩ := forall₂_of_append same
    obtain ⟨t, rfl, r₂⟩ := forall₂_singleton last
    exact .group (within.mark r₁ opens) (ih inner) (within.mark r₂ closes)
  | once _ ih => exact .once (ih same)
  | opt _ h ih =>
    obtain ⟨u, v, rfl, inner, last⟩ := forall₂_of_append same
    obtain ⟨t, rfl, related⟩ := forall₂_singleton last
    exact .opt (ih inner) (within.mark related h)
  | star _ h ih =>
    obtain ⟨u, v, rfl, inner, last⟩ := forall₂_of_append same
    obtain ⟨t, rfl, related⟩ := forall₂_singleton last
    exact .star (ih inner) (within.mark related h)
  | plus _ h ih =>
    obtain ⟨u, v, rfl, inner, last⟩ := forall₂_of_append same
    obtain ⟨t, rfl, related⟩ := forall₂_singleton last
    exact .plus (ih inner) (within.mark related h)
  | single _ ih => exact .single (ih same)
  | seq _ _ ihx ihy =>
    obtain ⟨u, v, rfl, first, later⟩ := forall₂_of_append same
    exact .seq (ihx first) (ihy later)
  | only _ ih => exact .only (ih same)
  | alt _ bar _ ihx ihy =>
    obtain ⟨u, v, rfl, first, later⟩ := forall₂_of_append same
    rcases later with _ | ⟨related, later⟩
    exact .alt (ihx first) (within.mark related bar) (ihy later)

theorem Document.map {R : τ → τ' → Prop} (within : is.Within is' R) {k : Nat} {ts' : List τ'}
    {ds : List Definition} (h : Document is' k ts' ds) {ts : List τ} (same : List.Forall₂ R ts ts') :
    Document is k ts ds := by
  induction h generalizing ts with
  | nil =>
    cases same
    exact .nil
  | cons h opens inner closes _ ih =>
    rcases same with _ | ⟨r₁, _ | ⟨r₂, same⟩⟩
    obtain ⟨u, v, rfl, first, same⟩ := forall₂_of_append same
    rcases same with _ | ⟨r₃, later⟩
    exact .cons (within.name r₁ h) (within.mark r₂ opens) (inner.map within first)
      (within.mark r₃ closes) (ih later)

end

/-! ## The parser of definitions -/

def definitionParser : Parser DefinitionState DefinitionNode :=
  ⟨definitionGrammar, definitionBuilder, defaultLimit⟩

theorem definitionParser_distinct : definitionParser.Distinct := nodup_definitionLeaves

/-- What the tokens of definitions stand for. -/
def tokenSpelling : Spelling Token where
  mark s t := definitionGrammar.Is (.literal s) t ∧ t.text = s
  name n t := definitionGrammar.Is (lexicalLeaf "Name") t ∧ t.name = "Name" ∧ t.text = n
  literal text t := (∃ n, (n = "String" ∨ n = "QuotedString") ∧
    definitionGrammar.Is (lexicalLeaf n) t ∧ t.name = n) ∧ t.unquoted = text
  count n t := definitionGrammar.Is (lexicalLeaf "Number") t ∧ readTokenCount t.text = some n

def primaryFirst : List LeafPattern :=
  [lexicalLeaf "String", lexicalLeaf "QuotedString", .literal "LookAhead", lexicalLeaf "Name",
    .literal "("]

def countMarks : List LeafPattern := [.literal "*", .literal "+", .literal "?"]

theorem Written.begins {rank : Rank} {m : Nat} {w : List Token} {x : Body}
    (h : Written tokenSpelling rank m w x) : definitionGrammar.Begins primaryFirst w := by
  have at_head {leaf : LeafPattern} {t : Token} {v : List Token} (listed : leaf ∈ primaryFirst)
      (is : definitionGrammar.Is leaf t) : definitionGrammar.Begins primaryFirst (t :: v) :=
    ⟨t, v, rfl, leaf, listed, is⟩
  induction h with
  | literal h =>
    obtain ⟨⟨n, rfl | rfl, is, -⟩, -⟩ := h
    · exact at_head (by simp [primaryFirst]) is
    · exact at_head (by simp [primaryFirst]) is
  | name h => exact at_head (by simp [primaryFirst]) h.1
  | ahead key | guarded key => exact at_head (by simp [primaryFirst]) key.1
  | group opens => exact at_head (by simp [primaryFirst]) opens.1
  | once _ ih | single _ ih | only _ ih => exact ih
  | opt _ _ ih | star _ _ ih | plus _ _ ih | seq _ _ ih | alt _ _ _ ih => exact ih.append _

section Reading
open Body
open Rowlang.Parser

variable {s c d : DefinitionState} {v w u : List Token} {x y : Body} {m n k : Nat}
  {nodes : List DefinitionNode}

/-! ### Rules -/

theorem defined_ruleDef : (⟨"RuleDef", seq (name "Name") (seq (literal "\x7b")
    (seq (name "Expression") (literal "\x7d")))⟩ : Definition) ∈ definitionRules := by decide

theorem defined_expression : (⟨"Expression", seq (name "AndExpr")
    (star (seq (literal "|") (name "AndExpr")))⟩ : Definition) ∈ definitionRules := by decide

theorem defined_and : (⟨"AndExpr", plus (name "CountExpr")⟩ : Definition) ∈ definitionRules := by
  decide

theorem defined_count : (⟨"CountExpr", seq (name "PrimaryExpr")
    (opt (alt (literal "*") (alt (literal "+") (literal "?"))))⟩ : Definition) ∈ definitionRules := by
  decide

theorem defined_primary : (⟨"PrimaryExpr", alt (name "String") (alt (name "QuotedString")
    (alt (name "LookAheadExpr") (alt (name "Name") (name "Group"))))⟩ : Definition) ∈
      definitionRules := by decide

theorem defined_lookAhead : (⟨"LookAheadExpr", seq (literal "LookAhead") (seq (literal "(")
    (seq (alt (name "Number") (name "Expression")) (literal ")")))⟩ : Definition) ∈
      definitionRules := by decide

theorem defined_group : (⟨"Group", seq (literal "(") (seq (name "Expression") (literal ")"))⟩ :
    Definition) ∈ definitionRules := by decide

theorem rule_answers {name : String} {body : Body} {node : DefinitionNode}
    (defined : (⟨name, body⟩ : Definition) ∈ definitionRules)
    (inner : definitionParser.Answers body n w s (some nodes) v c)
    (built : definitionBuilder.rule name nodes c = (.ok node, d)) :
    definitionParser.Answers (.name name) (n + 1) w s (some [node]) v d := by
  have other : ∀ d ∈ definitionRules, lexicalPatterns.lookup d.name = none := by decide
  exact answers_named definitionGrammar_compiles defined (other _ defined) inner built

theorem rule_body {name : String} {body : Body}
    (defined : (⟨name, body⟩ : Definition) ∈ definitionRules)
    (inner : definitionParser.Answers body n w s (some nodes) v c) (x : Body)
    (built : definitionBuilder.rule name nodes c = (.ok (.body x), d)) :
    definitionParser.Answers (.name name) (n + 1) w s (some [.body x]) v d :=
  rule_answers defined inner built

theorem rule_answers_none {name : String} {body : Body}
    (defined : (⟨name, body⟩ : Definition) ∈ definitionRules)
    (inner : definitionParser.Answers body n w s none w c) :
    definitionParser.Answers (.name name) (n + 1) w s none w c := by
  have other : ∀ d ∈ definitionRules, lexicalPatterns.lookup d.name = none := by decide
  exact answers_named_none definitionGrammar_compiles defined (other _ defined) inner

theorem leaf_answers {leaf : LeafPattern} {t : Token} (h : x.leaf? = some leaf)
    (is : definitionGrammar.Is leaf t) :
    definitionParser.Answers x 0 (t :: v) s (some [.token t]) v s :=
  answers_leaf definitionParser_distinct h is

theorem leaf_answers_none {leaf : LeafPattern} (h : x.leaf? = some leaf)
    (avoids : definitionGrammar.Avoids [leaf] w) : definitionParser.Answers x 0 w s none w s :=
  answers_leaf_none h avoids

/-! ### Primaries -/

theorem lookAheadExpr_none (avoids : definitionGrammar.Avoids [.literal "LookAhead"] w) :
    definitionParser.Answers (.name "LookAheadExpr") 1 w s none w s :=
  rule_answers_none defined_lookAhead
    (answers_seq_none definitionGrammar_compiles (by simp) (leaf_answers_none rfl avoids))

theorem group_none (avoids : definitionGrammar.Avoids [.literal "("] w) :
    definitionParser.Answers (.name "Group") 1 w s none w s :=
  rule_answers_none defined_group
    (answers_seq_none definitionGrammar_compiles (by simp) (leaf_answers_none rfl avoids))

theorem primary_none (avoids : definitionGrammar.Avoids primaryFirst w) :
    definitionParser.Answers (.name "PrimaryExpr") 2 w s none w s := by
  have avoid {leaf : LeafPattern} (listed : leaf ∈ primaryFirst) : definitionGrammar.Avoids [leaf] w :=
    avoids.of_subset (by simpa using listed)
  exact (rule_answers_none defined_primary
    (answers_altRight (leaf_answers_none rfl (avoid (by decide)))
      (answers_altRight (leaf_answers_none rfl (avoid (by decide)))
        (answers_altRight (lookAheadExpr_none (avoid (by decide)))
          (answers_altRight (leaf_answers_none rfl (avoid (by decide)))
            (group_none (avoid (by decide)))))))).of_need rfl

theorem count_none (avoids : definitionGrammar.Avoids primaryFirst w) :
    definitionParser.Answers (.name "CountExpr") 3 w s none w s :=
  rule_answers_none defined_count
    (answers_seq_none definitionGrammar_compiles (by simp) (primary_none avoids))

theorem primary_literal {text : String} {t : Token} (h : tokenSpelling.literal text t) :
    definitionParser.Answers (.name "PrimaryExpr") 1 (t :: v) s (some [.body (.literal text)]) v s := by
  obtain ⟨⟨n, rfl | rfl, is, name⟩, rfl⟩ := h
  · exact rule_answers defined_primary (answers_altLeft (leaf_answers rfl is))
      (by simp [definitionBuilder, definitionBody, name, Except.map])
  · exact rule_answers defined_primary
      (answers_altRight (leaf_answers_none rfl (is.avoids (by decide)))
        (answers_altLeft (leaf_answers rfl is))) (by simp [definitionBuilder, definitionBody, name, Except.map])

theorem primary_name {n : String} {t : Token} (h : tokenSpelling.name n t) :
    definitionParser.Answers (.name "PrimaryExpr") 2 (t :: v) s (some [.body (.name n)]) v s := by
  obtain ⟨is, name, rfl⟩ := h
  exact rule_answers defined_primary
    (answers_altRight (leaf_answers_none rfl (is.avoids (by decide)))
      (answers_altRight (leaf_answers_none rfl (is.avoids (by decide)))
        (answers_altRight (lookAheadExpr_none (is.avoids (by decide)))
          (answers_altLeft (leaf_answers rfl is)))))
    (by simp [definitionBuilder, definitionBody, name, Except.map])

theorem primary_lookAheadExpr {t : Token} (is : definitionGrammar.Is (.literal "LookAhead") t)
    (inner : definitionParser.Answers (.name "LookAheadExpr") n (t :: w) s (some [.body x]) v s) :
    definitionParser.Answers (.name "PrimaryExpr") (n + 1) (t :: w) s (some [.body x]) v s := by
  have answers := rule_body defined_primary
    (answers_altRight (leaf_answers_none rfl (is.avoids (by decide)))
      (answers_altRight (leaf_answers_none rfl (is.avoids (by decide))) (answers_altLeft inner))) x rfl
  simpa using answers

theorem primary_group {t : Token} (is : definitionGrammar.Is (.literal "(") t)
    (inner : definitionParser.Answers (.name "Group") (n + 1) (t :: w) s (some [.body x]) v s) :
    definitionParser.Answers (.name "PrimaryExpr") (n + 2) (t :: w) s (some [.body x]) v s := by
  have answers := rule_body defined_primary
    (answers_altRight (leaf_answers_none rfl (is.avoids (by decide)))
      (answers_altRight (leaf_answers_none rfl (is.avoids (by decide)))
        (answers_altRight (lookAheadExpr_none (is.avoids (by decide)))
          (answers_altRight (leaf_answers_none rfl (is.avoids (by decide))) inner)))) x rfl
  simpa using answers

/-! ### Brackets and checks -/

theorem group_answers {o c : Token} (opens : tokenSpelling.mark "(" o)
    (inner : definitionParser.Answers (.name "Expression") n (w ++ c :: v) s (some [.body x]) (c :: v) s)
    (closes : tokenSpelling.mark ")" c) :
    definitionParser.Answers (.name "Group") (n + 1) (o :: (w ++ c :: v)) s (some [.body x]) v s := by
  have answers := rule_body defined_group
    (answers_seq definitionGrammar_compiles (by simp) (leaf_answers rfl opens.1)
      (answers_seq definitionGrammar_compiles (by simp) inner (leaf_answers rfl closes.1))) x rfl
  exact answers.of_need (by simp)

theorem check_answers {k o c : Token} (key : tokenSpelling.mark "LookAhead" k)
    (opens : tokenSpelling.mark "(" o) (begins : definitionGrammar.Begins primaryFirst w)
    (inner : definitionParser.Answers (.name "Expression") n (w ++ c :: v) s (some [.body x]) (c :: v) s)
    (closes : tokenSpelling.mark ")" c) :
    definitionParser.Answers (.name "LookAheadExpr") (n + 1) (k :: o :: (w ++ c :: v)) s
      (some [.body (.guarded x)]) v s := by
  have answers := rule_body defined_lookAhead
    (answers_seq definitionGrammar_compiles (by simp) (leaf_answers rfl key.1)
      (answers_seq definitionGrammar_compiles (by simp) (leaf_answers rfl opens.1)
        (answers_seq definitionGrammar_compiles (by simp)
          (answers_altRight (leaf_answers_none rfl ((begins.append _).avoids (by decide))) inner)
          (leaf_answers rfl closes.1)))) (.guarded x) rfl
  exact answers.of_need (by simp)

theorem budget_answers {k o t c : Token} {count : Nat} (key : tokenSpelling.mark "LookAhead" k)
    (opens : tokenSpelling.mark "(" o) (h : tokenSpelling.count count t)
    (closes : tokenSpelling.mark ")" c) :
    definitionParser.Answers (.name "LookAheadExpr") 1 (k :: o :: t :: c :: v) s
      (some [.body (.ahead count)]) v s := by
  have built : definitionBuilder.rule "LookAheadExpr" [.token k, .token o, .token t, .token c] s =
      (.ok (.body (.ahead count)), s) := by
    simp [definitionBuilder, definitionBody, h.2, Except.map]
  exact rule_answers defined_lookAhead
    (answers_seq definitionGrammar_compiles (by simp) (leaf_answers rfl key.1)
      (answers_seq definitionGrammar_compiles (by simp) (leaf_answers rfl opens.1)
        (answers_seq definitionGrammar_compiles (by simp) (answers_altLeft (leaf_answers rfl h.1))
          (leaf_answers rfl closes.1)))) built

/-! ### Repetitions -/

theorem count_once (avoids : definitionGrammar.Avoids countMarks v)
    (inner : definitionParser.Answers (.name "PrimaryExpr") n (w ++ v) s (some [.body x]) v s) :
    definitionParser.Answers (.name "CountExpr") (n + 1) (w ++ v) s (some [.body x]) v s := by
  have avoid {leaf : LeafPattern} (listed : leaf ∈ countMarks) : definitionGrammar.Avoids [leaf] v :=
    avoids.of_subset (by simpa using listed)
  have answers := rule_body defined_count
    (answers_seq definitionGrammar_compiles (by simp) inner
      (answers_opt (answers_altRight (leaf_answers_none rfl (avoid (by decide)))
        (answers_altRight (leaf_answers_none rfl (avoid (by decide)))
          (leaf_answers_none rfl (avoid (by decide))))))) x rfl
  exact answers.of_need (by simp)

/-- The body that a mark makes of the body in front of it. -/
def Body.counted : String → Body → Body
  | "*", x => .star x
  | "+", x => .plus x
  | _, x => .opt x

theorem count_marked {mark : String} {t : Token} (listed : mark ∈ ["*", "+", "?"])
    (h : tokenSpelling.mark mark t)
    (inner : definitionParser.Answers (.name "PrimaryExpr") n (w ++ t :: v) s (some [.body x])
      (t :: v) s) :
    definitionParser.Answers (.name "CountExpr") (n + 1) (w ++ t :: v) s
      (some [.body (.counted mark x)]) v s := by
  obtain ⟨is, text⟩ := h
  have chosen : definitionParser.Answers (alt (literal "*") (alt (literal "+") (literal "?"))) 0
      (t :: v) s (some [.token t]) v s := by
    simp only [List.mem_cons, List.not_mem_nil, or_false] at listed
    rcases listed with rfl | rfl | rfl
    · exact answers_altLeft (leaf_answers rfl is)
    · exact answers_altRight (leaf_answers_none rfl (is.avoids (by decide)))
        (answers_altLeft (leaf_answers rfl is))
    · exact answers_altRight (leaf_answers_none rfl (is.avoids (by decide)))
        (answers_altRight (leaf_answers_none rfl (is.avoids (by decide))) (leaf_answers rfl is))
  have built : definitionBuilder.rule "CountExpr" [.body x, .token t] s =
      (.ok (.body (.counted mark x)), s) := by
    simp only [List.mem_cons, List.not_mem_nil, or_false] at listed
    rcases listed with rfl | rfl | rfl <;>
      simp [definitionBuilder, definitionBody, text, Body.counted, Except.map]
  exact (rule_answers defined_count
    (answers_seq definitionGrammar_compiles (by simp) inner (answers_opt chosen)) built).of_need
      (by simp)

/-! ### Every body -/

/-- What may not stand behind an alternative. -/
def sequenceExtend : List LeafPattern := primaryFirst ++ countMarks

/-- What may not stand behind a body. -/
def choiceExtend : List LeafPattern := .literal "|" :: sequenceExtend

def furtherAlternative : Body := seq (literal "|") (name "AndExpr")

/-- What the parser of definitions answers to a piece of a given rank, and the levels of nesting that it
takes. A sequence is tried for one item more than there are, which takes three levels. -/
def Rank.Answered : Rank → Nat → List Token → Body → Prop
  | .primary, m, w, x => ∀ s v, ∃ n, (n ≤ 2 + 5 * m ∧ (m = 0 ∨ n = 2 + 5 * m)) ∧
      definitionParser.Answers (.name "PrimaryExpr") n (w ++ v) s (some [.body x]) v s
  | .counted, m, w, x => ∀ s v, definitionGrammar.Avoids countMarks v →
      ∃ n, (n ≤ 3 + 5 * m ∧ (m = 0 ∨ n = 3 + 5 * m)) ∧
        definitionParser.Answers (.name "CountExpr") n (w ++ v) s (some [.body x]) v s
  | .sequence, m, w, x => ∀ s v, definitionGrammar.Avoids sequenceExtend v →
      ∃ first rest, x = .sequence first rest ∧
        definitionParser.AnswersRounds (.name "CountExpr") (3 + 5 * m) (w ++ v) s
          ((first :: rest).map .body) v s ∧
        definitionParser.Answers (.plus (.name "CountExpr")) (3 + 5 * m) (w ++ v) s
          (some ((first :: rest).map .body)) v s
  | .choice, m, w, x => ∀ s v, definitionGrammar.Avoids choiceExtend v →
      ∃ n k u first rest nodes, x = .choice first rest ∧ DefinitionNode.bodies nodes = rest ∧
        max n k = 4 + 5 * m ∧ u.length ≤ (w ++ v).length ∧
        definitionParser.Answers (.name "AndExpr") n (w ++ v) s (some [.body first]) u s ∧
        definitionParser.AnswersRounds furtherAlternative k u s nodes v s

theorem bodies_map_body (xs : List Body) : DefinitionNode.bodies (xs.map .body) = xs := by
  induction xs with
  | nil => rfl
  | cons x xs ih => exact congrArg (x :: ·) ih

theorem built_and (first : Body) (rest : List Body) (s : DefinitionState) :
    definitionBuilder.rule "AndExpr" ((first :: rest).map .body) s =
      (.ok (.body (.sequence first rest)), s) := by
  change ((match DefinitionNode.bodies ((first :: rest).map .body) with
    | [] => Except.error "empty alternative"
    | x :: xs => .ok (Body.sequence x xs)).map DefinitionNode.body, s) = _
  rw [bodies_map_body]
  rfl

theorem and_answers (h : Rank.Answered .sequence m w x) (avoids : definitionGrammar.Avoids sequenceExtend v) :
    definitionParser.Answers (.name "AndExpr") (4 + 5 * m) (w ++ v) s (some [.body x]) v s := by
  obtain ⟨first, rest, rfl, -, items⟩ := h s v avoids
  exact (rule_answers defined_and items (built_and first rest s)).of_need (by omega)

/-- A body, of the alternatives in it. -/
theorem expression_answers (h : Rank.Answered .choice m w x)
    (avoids : definitionGrammar.Avoids choiceExtend v) :
    definitionParser.Answers (.name "Expression") (5 + 5 * m) (w ++ v) s (some [.body x]) v s := by
  obtain ⟨n, k, u, first, rest, nodes, rfl, rfl, levels, -, head, tail⟩ := h s v avoids
  have built : definitionBuilder.rule "Expression" (.body first :: nodes) s =
      (.ok (.body (.choice first (DefinitionNode.bodies nodes))), s) := by
    rfl
  exact (rule_answers defined_expression
    (answers_seq definitionGrammar_compiles (by simp) head (answers_star tail)) built).of_need (by omega)

theorem choiceExtend_avoided {t : Token} {mark : String} (h : tokenSpelling.mark mark t)
    (listed : mark ∈ [")", "\x7d"]) : definitionGrammar.Avoids choiceExtend (t :: v) := by
  refine h.1.avoids ?_
  simp only [List.mem_cons, List.not_mem_nil, or_false] at listed
  rcases listed with rfl | rfl <;> decide

/-- **The parser of definitions finds the body of what is written.** -/
theorem Written.answered {rank : Rank} (h : Written tokenSpelling rank m w x) :
    rank.Answered m w x := by
  induction h with
  | literal h => exact fun s v => ⟨1, by omega, primary_literal h⟩
  | name h => exact fun s v => ⟨2, by omega, primary_name h⟩
  | ahead key opens h closes =>
    exact fun s v => ⟨2, by omega, primary_lookAheadExpr key.1 (budget_answers key opens h closes)⟩
  | guarded key opens inner closes ih =>
    intro s v
    have body := expression_answers (s := s) ih (choiceExtend_avoided (v := v) closes (by simp))
    refine ⟨_, ⟨Nat.le_refl _, .inr rfl⟩, ?_⟩
    rw [List.cons_append, List.cons_append, List.append_assoc]
    exact (primary_lookAheadExpr key.1 (check_answers key opens inner.begins body closes)).of_need
      (by omega)
  | group opens _ closes ih =>
    intro s v
    have body := expression_answers (s := s) ih (choiceExtend_avoided (v := v) closes (by simp))
    refine ⟨_, ⟨Nat.le_refl _, .inr rfl⟩, ?_⟩
    rw [List.cons_append, List.append_assoc]
    exact (primary_group opens.1 (group_answers opens body closes)).of_need (by omega)
  | once _ ih =>
    intro s v avoids
    obtain ⟨n, fits, answers⟩ := ih s v
    exact ⟨n + 1, by omega, count_once avoids answers⟩
  | @opt m w x t _ h ih =>
    intro s v _
    obtain ⟨n, fits, answers⟩ := ih s (t :: v)
    rw [List.append_assoc]
    exact ⟨n + 1, by omega, count_marked (by simp) h answers⟩
  | @star m w x t _ h ih =>
    intro s v _
    obtain ⟨n, fits, answers⟩ := ih s (t :: v)
    rw [List.append_assoc]
    exact ⟨n + 1, by omega, count_marked (by simp) h answers⟩
  | @plus m w x t _ h ih =>
    intro s v _
    obtain ⟨n, fits, answers⟩ := ih s (t :: v)
    rw [List.append_assoc]
    exact ⟨n + 1, by omega, count_marked (by simp) h answers⟩
  | @single m w x inner ih =>
    intro s v avoids
    obtain ⟨n, fits, answers⟩ := ih s v avoids.right
    have none := rounds_nil (count_none (s := s) avoids.left)
    exact ⟨x, [], rfl, (rounds_cons (inner.begins.length_lt v) answers none).of_need (by omega),
      (answers_plus answers none).of_need (by omega)⟩
  | @seq m k u v x y first later ihx ihy =>
    intro s v' avoids
    obtain ⟨n, fits, head⟩ := ihx s (v ++ v') ((later.begins.append v').avoids (by decide))
    obtain ⟨next, rest, rfl, tail, -⟩ := ihy s v' avoids
    rw [List.append_assoc]
    exact ⟨x, next :: rest, rfl,
      (rounds_cons (first.begins.length_lt (v ++ v')) head tail).of_need (by omega),
      (answers_plus head tail).of_need (by omega)⟩
  | @only m w x inner ih =>
    intro s v avoids
    have none : definitionParser.AnswersRounds furtherAlternative 0 v s [] v s :=
      rounds_nil (answers_seq_none definitionGrammar_compiles (by simp)
        (leaf_answers_none rfl (avoids.of_subset (by decide))))
    exact ⟨4 + 5 * m, 0, v, x, [], [], rfl, rfl, by omega, by simp,
      and_answers ih (avoids.of_subset (by decide)), none⟩
  | @alt m k u v x y t first bar later ihx ihy =>
    intro s v' avoids
    obtain ⟨n, j, u', next, rest, nodes, rfl, rfl, levels, shorter, head, tail⟩ := ihy s v' avoids
    have head' := and_answers (s := s) (v := t :: (v ++ v')) ihx (bar.1.avoids (by decide))
    have tail' : definitionParser.AnswersRounds furtherAlternative (max (max 0 n) j)
        (t :: (v ++ v')) s ([.token t, .body next] ++ nodes) v' s :=
      rounds_cons (Nat.lt_succ_of_le shorter)
        (answers_seq definitionGrammar_compiles (by simp) (leaf_answers rfl bar.1) head) tail
    rw [List.append_assoc, List.cons_append]
    refine ⟨4 + 5 * m, max (max 0 n) j, t :: (v ++ v'), x, next :: DefinitionNode.bodies nodes,
      [.token t, .body next] ++ nodes, rfl, rfl, by omega, ?_, head', tail'⟩
    simp

end Reading

end Rowlang
