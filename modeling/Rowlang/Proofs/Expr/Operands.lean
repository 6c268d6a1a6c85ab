import Rowlang.Proofs.Expr.WellFormed
import Rowlang.Proofs.Parsing.Answers

/-!
# Operands of one token

Keys and literals are single tokens. Where a blank or the end of the text comes behind them, they are cut as
they are meant, and so are the symbols of operators; what the parser makes of such an operand is known, also
how deep it goes for that.

* `IsAtom`, `Atom` : a key or a literal with its text;
* `IsAtom.exists_number` : every text of a number is one;
* `takes_of_spells` : the tokens of expressions are taken in front of blanks;
* `IsOperand` : a token that stands for a key or a literal;
* `Grammar.CompilesExpressions` : a grammar of expressions, with what is known of how it is compiled;
* `unary_answers` : what the parser makes of an operand of one token.
-/

namespace Rowlang
open Rowlang.Text

/-! ## Texts -/

/-- The text of a key or a literal that is one token of the leaf pattern, and what it stands for. -/
inductive IsAtom : LeafPattern → String → Expr → Prop
  | key {text} (name : IsName text) : IsAtom (lexicalLeaf "Name") text (.key text)
  | number {name text n} (lexical : name ∈ ["Integer", "Decimal"])
      (spelled : (lexicalLeaf name).Spells text.toList) (read : Number.ofText? text = some n) :
      IsAtom (lexicalLeaf name) text (.literal (.number n))
  | text {name text} (lexical : name ∈ ["String", "QuotedString"])
      (spelled : (lexicalLeaf name).Spells text.toList) :
      IsAtom (lexicalLeaf name) text (.literal (.text (.ofList (unquote text.toList))))
  | word {text v}
      (listed : (text, v) ∈ [("true", .boolean true), ("false", .boolean false), ("null", .null)]) :
      IsAtom (.literal text) text (.literal v)

/-- A key or a literal, with its text. -/
structure Atom where
  leaf : LeafPattern
  text : String
  expr : Expr
  is : IsAtom leaf text expr

/-- The lexical pattern that a word can be of, told by its characters. -/
def lexicalKind (w : List Char) : String :=
  if w.head? = some '"' then "String"
  else if w.head? = some '\'' then "QuotedString"
  else if w.head?.any nameStart.has then "Name"
  else if '.' ∈ w then "Decimal"
  else "Integer"

/-- The lexical patterns of expressions. -/
def expressionLexicals : List String := ["Name", "Decimal", "Integer", "String", "QuotedString"]

theorem expressionLexicals_listed : ∀ name ∈ expressionLexicals, name ∈ lexicalRegexes.map (·.1) := by
  decide

/-- A word is of one lexical pattern only. -/
theorem LexicalWord.kind {name : String} {w : List Char} (word : LexicalWord name w)
    (listed : name ∈ expressionLexicals) : lexicalKind w = name := by
  have digit {c : Char} (h : c.isDigit = true) :
      c ≠ '"' ∧ c ≠ '\'' ∧ c ≠ '.' ∧ nameStart.has c = false := by
    obtain ⟨notStart, other⟩ := head_of_isDigit h
    simp only [List.mem_cons, List.not_mem_nil, or_false, not_or] at other
    exact ⟨other.1, other.2.1, other.2.2.1, notStart⟩
  cases word with
  | name start =>
    have other := (head_of_nameStart start).2.1
    simp only [List.mem_cons, List.not_mem_nil, or_false, not_or] at other
    simp [lexicalKind, other.1, other.2.1, start]
  | number => simp [expressionLexicals] at listed
  | @integer cs nonempty digits =>
    obtain ⟨c, cs, rfl⟩ := List.exists_cons_of_ne_nil nonempty
    have point : '.' ∉ c :: cs := fun listed => (digit (digits _ listed)).2.2.1 rfl
    obtain ⟨notQuote, notSingle, -, notStart⟩ := digit (digits c List.mem_cons_self)
    simp [lexicalKind, notQuote, notSingle, notStart, point]
  | @decimal ws fs whole =>
    have notStart : nameStart.has '.' = false := by decide
    cases ws with
    | nil => simp [lexicalKind, notStart]
    | cons c ws =>
      obtain ⟨notQuote, notSingle, -, notStart⟩ := digit (whole c List.mem_cons_self)
      simp [lexicalKind, notQuote, notSingle, notStart]
  | string => simp [lexicalKind]
  | quotedString => simp [lexicalKind]

/-- A literal that a lexical pattern spells is a word that could be a name. -/
theorem literalWord_of_spells {s name : String} (symbol : s ∈ expressionSymbols)
    (listed : name ∈ expressionLexicals) (spelled : (lexicalLeaf name).Spells s.toList) :
    name = "Name" ∧ s ∈ literalWords := by
  have unmarked : ∀ s ∈ expressionSymbols,
      (s.toList.all fun c => !c.isDigit && !quotes.contains c) = true := by decide
  have marked {c : Char} (inside : c ∈ s.toList) (mark : c.isDigit = true ∨ c ∈ quotes) : False := by
    have none := List.all_eq_true.1 (unmarked s symbol) c inside
    rcases mark with digit | quote
    · simp [digit] at none
    · simp [quote] at none
  have named : ∀ s ∈ expressionSymbols, s.toList.head?.any nameStart.has = true → s ∈ literalWords := by
    decide
  have word := lexicalWord_of_spells (expressionLexicals_listed name listed) spelled
  generalize text : s.toList = w at word
  cases word with
  | name start => exact ⟨rfl, named s symbol (by rw [text]; exact start)⟩
  | number start => exact absurd (marked (text ▸ List.mem_cons_self) (.inl start)) id
  | integer nonempty digits =>
    obtain ⟨c, cs, rfl⟩ := List.exists_cons_of_ne_nil nonempty
    exact absurd (marked (text ▸ List.mem_cons_self) (.inl (digits c List.mem_cons_self))) id
  | decimal _ nonempty places =>
    obtain ⟨c, cs, rfl⟩ := List.exists_cons_of_ne_nil nonempty
    exact absurd (marked (by rw [text]; simp) (.inl (places c List.mem_cons_self))) id
  | string | quotedString => exact absurd (marked (text ▸ List.mem_cons_self) (.inr (by decide))) id

theorem expressionLeaf_cases {leaf : LeafPattern} (listed : leaf ∈ expressionLeaves) :
    (∃ s ∈ expressionSymbols, leaf = .literal s) ∨ ∃ name ∈ expressionLexicals, leaf = lexicalLeaf name := by
  rcases List.mem_append.1 listed with literal | lexical
  · obtain ⟨s, symbol, rfl⟩ := List.mem_map.1 literal
    exact .inl ⟨s, symbol, rfl⟩
  · obtain ⟨name, known, rfl⟩ := List.mem_map.1 lexical
    exact .inr ⟨name, known, rfl⟩

/-- Of two leaf patterns of expressions that spell one text, a literal has the longer fixed beginning. -/
theorem weight_lt_of_spells {leaf p : LeafPattern} (listed : leaf ∈ expressionLeaves)
    (listed' : p ∈ expressionLeaves) (other : p ≠ leaf) {text : String} (spelled : leaf.Spells text.toList)
    (spelled' : p.Spells text.toList) (name : leaf = lexicalLeaf "Name" → text ∉ literalWords) :
    p.weight < leaf.weight := by
  rcases expressionLeaf_cases listed with ⟨s, symbol, rfl⟩ | ⟨n, known, rfl⟩ <;>
    rcases expressionLeaf_cases listed' with ⟨s', symbol', rfl⟩ | ⟨n', known', rfl⟩
  · cases String.toList_injective (spelled.symm.trans spelled')
    exact absurd rfl other
  · obtain rfl : text = s := String.toList_injective spelled
    obtain ⟨rfl, word⟩ := literalWord_of_spells symbol known' spelled'
    have longer : ∀ w ∈ literalWords, 0 < (LeafPattern.literal w).weight := by decide
    rw [weight_name]
    exact longer text word
  · obtain rfl : text = s' := String.toList_injective spelled'
    obtain ⟨rfl, word⟩ := literalWord_of_spells symbol' known spelled
    exact absurd word (name rfl)
  · have word := lexicalWord_of_spells (expressionLexicals_listed n known) spelled
    have word' := lexicalWord_of_spells (expressionLexicals_listed n' known') spelled'
    rw [← word.kind known, ← word'.kind known'] at other
    exact absurd rfl other

theorem visible_of_spells {leaf : LeafPattern} (listed : leaf ∈ expressionLeaves) {w : List Char}
    (spelled : leaf.Spells w) : ∃ c cs, w = c :: cs ∧ isBlank c = false := by
  rcases expressionLeaf_cases listed with ⟨s, symbol, rfl⟩ | ⟨n, known, rfl⟩
  · obtain rfl : w = s.toList := spelled
    have some_char : ∀ s ∈ expressionSymbols, s.toList ≠ [] := by decide
    obtain ⟨c, cs, text⟩ := List.exists_cons_of_ne_nil (some_char s symbol)
    have plain := LeafPattern.plain_literal_iff.1 (plain_expressionLeaves _ listed)
    exact ⟨c, cs, text, plain.1 c (text ▸ List.mem_cons_self)⟩
  · have word := lexicalWord_of_spells (expressionLexicals_listed n known) spelled
    have some_char : w ≠ [] := by
      cases word with
      | integer nonempty => exact nonempty
      | decimal => simp
      | _ => exact List.cons_ne_nil _ _
    obtain ⟨c, cs, rfl⟩ := List.exists_cons_of_ne_nil some_char
    refine ⟨c, cs, rfl, ?_⟩
    rcases word.head rfl with (start | digit | rfl) | ⟨-, rfl⟩ | ⟨-, rfl⟩
    · exact not_isBlank_of_visible (head_of_nameStart start).2.2
    · exact not_isBlank_of_visible (visible_of_isDigit digit)
    all_goals decide

/-- No token of expressions in front of a blank begins a comment. -/
theorem uncommented_of_spells {leaf : LeafPattern} (listed : leaf ∈ expressionLeaves) {w rest : List Char}
    (spelled : leaf.Spells w) (stop : ∀ c ∈ rest.head?, isBlank c = true) :
    commentStart (w ++ rest) = .none := by
  by_cases slash : w.head? = some '/'
  · obtain rfl := expressionGrammar_lone '/' (by decide) leaf (expressionLeaves_subset leaf listed) w spelled
      slash
    have spelled : w = (String.singleton '/').toList := spelled
    obtain rfl : w = ['/'] := spelled.trans (by decide)
    have behind {d : Char} (mark : d ∈ ['/', '*']) : ¬ ['/', d] <+: ['/'] ++ rest := by
      rintro ⟨more, same⟩
      obtain rfl : d :: more = rest := List.tail_eq_of_cons_eq same
      have blank := stop d rfl
      rcases List.mem_pair.1 mark with rfl | rfl <;> exact absurd blank (by decide)
    have slash : '/' ∈ ['/', '*'] := by decide
    have star : '*' ∈ ['/', '*'] := by decide
    exact commentStart_eq_none_iff.2 ⟨behind slash, behind star⟩
  · obtain ⟨c, cs, rfl, -⟩ := visible_of_spells listed spelled
    refine commentStart_of_head ?_
    rintro _ ⟨⟩ rfl
    exact slash rfl

/-- In front of a blank or the end, a token of expressions is taken. -/
theorem takes_of_spells {leaf : LeafPattern} (listed : leaf ∈ expressionLeaves) {text : String}
    (spelled : leaf.Spells text.toList) (name : leaf = lexicalLeaf "Name" → text ∉ literalWords)
    {rest : List Char} (stop : ∀ c ∈ rest.head?, isBlank c = true) :
    expressionGrammar.lexicon.Takes ⟨leaf, text.toList⟩ rest :=
  expressionGrammar_separable.takes_at_blank expressionGrammar_isExpressions.distinct
    (l := ⟨leaf, text.toList⟩) (expressionLeaves_subset leaf listed) spelled
    (visible_of_spells listed spelled) (uncommented_of_spells listed spelled stop) stop
    fun p inside other spelled' =>
      weight_lt_of_spells listed (mem_expressionLeaves p inside) other spelled spelled' name

namespace IsAtom

variable {leaf : LeafPattern} {text : String} {e : Expr}

theorem token (h : IsAtom leaf text e) :
    leaf ∈ expressionLeaves ∧ leaf.Spells text.toList ∧
      (leaf = lexicalLeaf "Name" → text ∉ literalWords) := by
  have lexical : ∀ name ∈ ["Integer", "Decimal", "String", "QuotedString"],
      lexicalLeaf name ∈ expressionLeaves ∧ lexicalLeaf name ≠ lexicalLeaf "Name" := by decide
  cases h with
  | key name => exact ⟨by decide, name.spelled, fun _ => name.other⟩
  | number listed spelled =>
    obtain ⟨inside, other⟩ := lexical _ (List.mem_append_left ["String", "QuotedString"] listed)
    exact ⟨inside, spelled, fun same => absurd same other⟩
  | text listed spelled =>
    obtain ⟨inside, other⟩ := lexical _ (List.mem_append_right ["Integer", "Decimal"] listed)
    exact ⟨inside, spelled, fun same => absurd same other⟩
  | word listed =>
    have words : text ∈ literalWords := List.mem_map_of_mem (f := Prod.fst) listed
    exact ⟨literalWords_leaves text words, rfl, by rintro ⟨⟩⟩

/-- Every text of a number, whole or with a point, stands for one. -/
theorem exists_number {name : String} (lexical : name ∈ ["Integer", "Decimal"])
    (spelled : (lexicalLeaf name).Spells text.toList) :
    ∃ n, IsAtom (lexicalLeaf name) text (.literal (.number n)) := by
  have numeral : IsNumeral text.toList := by
    rcases List.mem_pair.1 lexical with rfl | rfl <;> obtain ⟨r, read, word⟩ := spelled
    · exact isNumeral_of_integer read word
    · exact isNumeral_of_decimal read word
  obtain ⟨n, read⟩ := Option.isSome_iff_exists.1 (Number.isSome_ofText? numeral)
  exact ⟨n, .number lexical spelled read⟩

theorem takes (h : IsAtom leaf text e) {rest : List Char} (stop : ∀ c ∈ rest.head?, isBlank c = true) :
    expressionGrammar.lexicon.Takes ⟨leaf, text.toList⟩ rest :=
  takes_of_spells h.token.1 h.token.2.1 h.token.2.2 stop

end IsAtom

/-! ## Tokens -/

/-- The token stands for a key or a literal. -/
inductive IsOperand (g : Grammar) (t : Token) : Expr → Prop
  | key (is : g.Is (lexicalLeaf "Name") t) : IsOperand g t (.key t.text)
  | literal {leaf v} (listed : leaf ∈ literalLeaves) (is : g.Is leaf t)
      (read : ExprNode.literalOf t = .ok (.literal v)) : IsOperand g t (.literal v)

theorem IsAtom.operand {g : Grammar} {leaf : LeafPattern} {text : String} {e : Expr} (h : IsAtom leaf text e)
    {t : Token} (lexeme : t.IsLexeme g.lexicon ⟨leaf, text.toList⟩) : IsOperand g t e := by
  obtain ⟨is, name, same⟩ := lexeme
  obtain rfl : t.text = text := String.toList_injective same
  have lexical : ∀ name ∈ ["Integer", "Decimal", "String", "QuotedString"],
      lexicalLeaf name ∈ literalLeaves := by decide
  cases h with
  | key => exact .key is
  | @number name' _ n listed _ read =>
    refine .literal (lexical _ (List.mem_append_left ["String", "QuotedString"] listed)) is ?_
    have name : t.name = name' := name
    have numbers : ∀ name ∈ ["Integer", "Decimal"],
        ["Integer", "Decimal", "Number"].contains name = true := by decide
    rw [ExprNode.literalOf, if_pos (by rw [name]; exact numbers name' listed), read]
  | @text name' _ listed =>
    refine .literal (lexical _ (List.mem_append_right ["Integer", "Decimal"] listed)) is ?_
    exact ExprNode.literalOf_text (by simpa [show t.name = name' from name] using listed)
  | word listed =>
    have name : t.name = t.text := name
    have words : .literal t.text ∈ literalLeaves := by
      have words : ∀ w ∈ literalWords, .literal w ∈ literalLeaves := by decide
      exact words _ (List.mem_map_of_mem (f := Prod.fst) listed)
    refine .literal words is ?_
    unfold ExprNode.literalOf
    rw [name]
    simp only [List.mem_cons, Prod.mk.injEq, List.not_mem_nil, or_false] at listed
    rcases listed with ⟨text, rfl⟩ | ⟨text, rfl⟩ | ⟨text, rfl⟩ <;> rw [text] <;> rfl

/-! ## Rules -/

abbrev Expr.parser (g : Grammar) : Parser Unit ExprNode := ⟨g, Expr.builder, defaultLimit⟩

section
open Body
open Rowlang.Parser

variable {g : Grammar} {n : Nat} {t : Token} {v w : List Token} {nodes : List ExprNode} {e : Expr}

/-- A grammar of expressions, compiled of their definitions. -/
structure Grammar.CompilesExpressions (g : Grammar) : Prop where
  expressions : g.IsExpressions
  compiles : g.Compiles expressionRules

theorem Grammar.CompilesExpressions.distinct (known : g.CompilesExpressions) : (Expr.parser g).Distinct :=
  known.expressions.distinct

theorem Grammar.CompilesExpressions.withComments (known : g.CompilesExpressions) (mode : CommentMode) :
    (g.withComments mode).CompilesExpressions :=
  ⟨known.expressions.withComments mode, known.compiles.withComments mode⟩

theorem expressionGrammar_compiles : expressionGrammar.CompilesExpressions :=
  ⟨expressionGrammar_isExpressions, (Grammar.compiles_of_ofDefinitions ofDefinitions_expressionRules).1⟩

variable (known : g.CompilesExpressions)
include known

/-- The answer of a rule of expressions, from that of its body. -/
theorem expression_rule {name : String} (body : Body) {node : ExprNode}
    (defined : (⟨name, body⟩ : Definition) ∈ expressionRules)
    (inner : (Expr.parser g).Answers body n w () (some nodes) v ())
    (made : ExprNode.ofRule name nodes = .ok node) :
    (Expr.parser g).Answers (.name name) (n + 1) w () (some [node]) v () :=
  answers_named (p := Expr.parser g) known.compiles defined (expressionRules_other _ defined) inner
    (Prod.ext made rfl)

theorem expression_rule_none {name : String} (body : Body)
    (defined : (⟨name, body⟩ : Definition) ∈ expressionRules)
    (inner : (Expr.parser g).Answers body n w () none w ()) :
    (Expr.parser g).Answers (.name name) (n + 1) w () none w () :=
  answers_named_none (p := Expr.parser g) known.compiles defined (expressionRules_other _ defined) inner

theorem symbols_answer {name : String} (first : String) (rest : List String)
    (defined : (⟨name, .oneOf first rest⟩ : Definition) ∈ expressionRules)
    (passes : ∀ node, ExprNode.ofRule name [node] = .ok node) {s : String} (listed : s ∈ first :: rest)
    (is : g.Is (.literal s) t) :
    (Expr.parser g).Answers (.name name) 1 (t :: v) () (some [.token t]) v () := by
  refine expression_rule known _ defined (n := 0) (answers_choice known.distinct ?_ ?_) (passes _)
  · exact List.forall_mem_cons.2 ⟨⟨_, rfl⟩, List.forall_mem_map.2 fun s _ => ⟨_, rfl⟩⟩
  · refine ⟨.literal s, ?_, _, rfl, is⟩
    rw [← List.map_cons]
    exact List.mem_map_of_mem listed

theorem symbols_none {name : String} (first : String) (rest : List String)
    (defined : (⟨name, .oneOf first rest⟩ : Definition) ∈ expressionRules)
    (avoids : g.Avoids ((first :: rest).map .literal) w) :
    (Expr.parser g).Answers (.name name) 1 w () none w () := by
  refine expression_rule_none known _ defined (n := 0) (answers_choice_none ?_)
  rw [← List.map_cons, List.forall_mem_map]
  refine fun s listed => ⟨_, rfl, avoids.of_subset ?_⟩
  simpa using listed

/-! ## Operands -/

theorem chainStep_none (avoids : g.Avoids ([".", "["].map .literal) w) :
    (Expr.parser g).Answers (.name "ChainStep") 2 w () none w () := by
  have point : (Expr.parser g).Answers (seq (literal ".") (name "Step")) 0 w () none w () :=
    answers_seq_none known.compiles (by simp) (answers_leaf_none rfl (avoids.of_subset (by decide)))
  have bracket : (Expr.parser g).Answers (name "Index") 1 w () none w () :=
    expression_rule_none known (seq (literal "[") (seq (name "Expression") (literal "]"))) (by decide)
      (answers_seq_none known.compiles (by simp) (answers_leaf_none rfl (avoids.of_subset (by decide))))
  exact expression_rule_none known (alt (seq (literal ".") (name "Step")) (name "Index")) (by decide)
    (answers_altRight point bracket)

theorem unaryOp_none (avoids : g.Avoids (["-", "!"].map .literal) w) :
    (Expr.parser g).Answers (.name "UnaryOp") 1 w () none w () :=
  symbols_none known "-" ["!"] (by decide) avoids

theorem call_none (avoids : g.Avoids [.literal "("] w) :
    (Expr.parser g).Answers (.name "FunctionCall") 1 (t :: w) () none (t :: w) () := by
  have name : (name "Name").leaf? = some (lexicalLeaf "Name") := by decide
  refine expression_rule_none known (n := 0)
    (seq (ahead 2) (seq (.name "Name") (seq (literal "(") (seq (opt (.name "Arguments")) (literal ")")))))
    (by decide) (answers_pair_none name rfl ?_)
  rintro t t' v ⟨⟩ - parenthesis
  exact avoids t' rfl ⟨_, List.mem_singleton_self _, parenthesis⟩

/-- A key, where no parenthesis follows. -/
theorem step_answers (is : g.Is (lexicalLeaf "Name") t) (avoids : g.Avoids [.literal "("] v) :
    (Expr.parser g).Answers (.name "Step") 2 (t :: v) () (some [.expr (.key t.text)]) v () := by
  have key : (Expr.parser g).Answers (.name "Key") 1 (t :: v) () (some [.expr (.key t.text)]) v () :=
    expression_rule known (name "Name") (by decide) (answers_leaf known.distinct (by decide) is) rfl
  exact expression_rule known (alt (name "FunctionCall") (name "Key")) (by decide)
    (answers_altRight (call_none known avoids) key) rfl

def furtherLiterals : List Body :=
  [name "Integer", name "String", name "QuotedString", literal "true", literal "false", literal "null"]

theorem literal_answers {leaf : LeafPattern} (listed : leaf ∈ literalLeaves) (is : g.Is leaf t)
    {value : Value} (read : ExprNode.literalOf t = .ok (.literal value)) :
    (Expr.parser g).Answers (.name "Literal") 1 (t :: v) () (some [.expr (.literal value)]) v () := by
  have parts : ∀ leaf ∈ literalLeaves, ∃ x ∈ name "Decimal" :: furtherLiterals,
      x.leaf? = some leaf := by decide
  have leaves : ∀ x ∈ name "Decimal" :: furtherLiterals, x.leaf?.isSome = true := by decide
  obtain ⟨x, inside, same⟩ := parts leaf listed
  have token := answers_choice (p := Expr.parser g) (v := v) (b := ()) known.distinct
    (fun x listed => Option.isSome_iff_exists.1 (leaves x listed)) ⟨x, inside, leaf, same, is⟩
  refine expression_rule known (choice (name "Decimal") furtherLiterals) (by decide) token ?_
  show ExprNode.expr <$> ExprNode.literalOf t = _
  rw [read]
  rfl

theorem literal_none (avoids : g.Avoids literalLeaves w) :
    (Expr.parser g).Answers (.name "Literal") 1 w () none w () := by
  have leaves : ∀ x ∈ name "Decimal" :: furtherLiterals, ∃ leaf ∈ literalLeaves,
      x.leaf? = some leaf := by decide
  refine expression_rule_none known (n := 0) (choice (name "Decimal") furtherLiterals) (by decide)
    (answers_choice_none fun x listed => ?_)
  obtain ⟨leaf, inside, same⟩ := leaves x listed
  exact ⟨leaf, same, avoids.of_subset (by simpa using inside)⟩

theorem primary_answers (operand : IsOperand g t e) (avoids : g.Avoids [.literal "("] v) :
    ∃ n ≤ 3, (Expr.parser g).Answers (.name "Primary") n (t :: v) () (some [.expr e]) v () := by
  have defined : (⟨"Primary", alt (name "Literal") (alt (name "Step") (name "Group"))⟩ : Definition) ∈
      expressionRules := by decide
  cases operand with
  | key is =>
    have other := literal_none known (w := t :: v) (is.avoids (by decide))
    exact ⟨_, by decide, expression_rule known _ defined
      (answers_altRight other (answers_altLeft (step_answers known is avoids))) rfl⟩
  | literal listed is read =>
    exact ⟨_, by decide, expression_rule known _ defined
      (answers_altLeft (literal_answers known listed is read)) rfl⟩

/-- What may not stand behind an operand, since it would belong to it. -/
def stepMarks : List LeafPattern := [".", "[", "("].map .literal

theorem chain_answers (operand : IsOperand g t e) (avoids : g.Avoids stepMarks v) :
    ∃ n ≤ 4, (Expr.parser g).Answers (.name "Chain") n (t :: v) () (some [.expr e]) v () := by
  obtain ⟨n, bound, first⟩ := primary_answers known operand (avoids.of_subset (by decide))
  have steps := answers_star (rounds_nil (b := ()) (chainStep_none known (avoids.of_subset (by decide))))
  have made : ExprNode.ofRule "Chain" ([.expr e] ++ []) = .ok (.expr e) := by cases operand <;> rfl
  exact ⟨_, by omega, expression_rule known (seq (name "Primary") (star (name "ChainStep"))) (by decide)
    (answers_seq known.compiles (by simp) first steps) made⟩

/-- An operand of one token takes five levels at most. -/
theorem unary_answers (operand : IsOperand g t e) (avoids : g.Avoids stepMarks v) :
    ∃ n ≤ 5, (Expr.parser g).Answers (.name "Unary") n (t :: v) () (some [.expr e]) v () := by
  obtain ⟨n, bound, chain⟩ := chain_answers known operand avoids
  have unsigned : g.Avoids (["-", "!"].map .literal) (t :: v) := by
    cases operand with
    | key is => exact is.avoids (by decide)
    | literal listed is =>
      have apart : ∀ leaf ∈ literalLeaves, disjoint (["-", "!"].map .literal) [leaf] = true := by decide
      exact is.avoids (apart _ listed)
  have sign := answers_seq_none (y := name "Unary") known.compiles (by simp) (unaryOp_none known unsigned)
  exact ⟨_, by omega, expression_rule known
    (alt (seq (name "UnaryOp") (name "Unary")) (name "Chain")) (by decide) (answers_altRight sign chain) rfl⟩

end

end Rowlang
