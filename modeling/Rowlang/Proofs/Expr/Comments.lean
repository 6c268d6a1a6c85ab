import Rowlang.Engine
import Rowlang.Proofs.Expr.Outcome
import Rowlang.Proofs.Expr.Places
import Rowlang.Proofs.Grammar.Emptiness
import Rowlang.Proofs.Lexing.Comments
import Rowlang.Proofs.Lexing.Separation
import Rowlang.Proofs.Parsing.Neighbours

/-!
# Blanks and comments in expressions

* `expressionGrammar_separable` : spacings do not change how expressions are cut into tokens;
* `Word.apart` : no slash of an expression stands right in front of a slash or a star;
* `Expr.ofText_loosened` : so spacings do not change what is read, where comments are recognised;
* `Expr.ofText_uncommented` : and what is read where they are not is read where they are.
-/

namespace Rowlang
open Rowlang.Text

/-! ## Leaves -/

theorem Grammar.withComments_of_off {g : Grammar} (off : g.comments = .off) : g.withComments .off = g := by
  rw [← off]
  rfl

/-- A grammar has the same definitions however it treats comments. -/
theorem Grammar.Defines.withComments {g : Grammar} {rules : List Definition} (defines : g.Defines rules)
    (mode : CommentMode) : (g.withComments mode).Defines rules := by
  have shape (id : Nat) : (g.withComments mode).shape? id = g.shape? id := rfl
  have found (name : String) : (g.withComments mode).find? name = g.find? name := rfl
  have named := (g.sameRules_withComments mode).ruleName
  have realised (x : Body) (id : Nat) : (g.withComments mode).realises rules x id = g.realises rules x id := by
    induction x generalizing id with
    | literal | name | ahead => rfl
    | seq x y ihx ihy | alt x y ihx ihy => simp only [Grammar.realises, shape, ihx, ihy]
    | opt x ih | star x ih | plus x ih | guarded x ih => simp only [Grammar.realises, shape, ih]
  intro d defined
  have asked := defines d defined
  simp only [Grammar.realisesDefinition, shape, found, named, realised] at asked ⊢
  exact asked

theorem Grammar.IsExpressions.withComments {g : Grammar} (known : g.IsExpressions) (mode : CommentMode) :
    (g.withComments mode).IsExpressions where
  defines := known.defines.withComments mode
  only := known.only
  distinct := known.distinct
  start := known.start
  prepared := known.prepared

theorem expressionGrammar_off : expressionGrammar.comments = .off := by
  rw [expressionGrammar_eq]
  decide +kernel

def expressionSymbols : List String :=
  ["=", "+=", "?", ":", "||", "&&", "==", "!=", ">=", "<=", ">", "<", "+", "-", "*", "/", "%", "!", ".", "[", "]",
    "(", ")", ",", "true", "false", "null"]

def expressionLeaves : List LeafPattern :=
  expressionSymbols.map .literal ++ ["Name", "Decimal", "Integer", "String", "QuotedString"].map lexicalLeaf

theorem mem_expressionLeaves : ∀ p ∈ expressionGrammar.lexicon.patterns, p ∈ expressionLeaves := by
  rw [(Grammar.compiles_of_ofDefinitions ofDefinitions_expressionRules).1.lexicon_patterns]
  decide +kernel

theorem expressionLeaves_subset : ∀ p ∈ expressionLeaves, p ∈ expressionGrammar.lexicon.patterns := by
  rw [(Grammar.compiles_of_ofDefinitions ofDefinitions_expressionRules).1.lexicon_patterns]
  decide +kernel

theorem plain_expressionLeaves : ∀ p ∈ expressionLeaves, p.Plain := by decide +kernel

theorem expressionGrammar_separable : expressionGrammar.lexicon.Separable := by
  obtain ⟨patterns, prepared⟩ := expressionGrammar_isExpressions.prepared
  exact Lexicon.separable_of_plain prepared fun p listed => plain_expressionLeaves p (mem_expressionLeaves p listed)

theorem LexicalWord.head_ne {name : String} {w : List Char} (word : LexicalWord name w) {d : Char}
    (mark : d ∈ ['/', '*']) : w.head? ≠ some d := by
  have other : nameStart.has d = false ∧ d.isDigit = false ∧ d ∉ ['.', '"', '\''] := by
    rcases List.mem_pair.1 mark with rfl | rfl <;> decide
  obtain ⟨notName, notDigit, other⟩ := other
  intro first
  rcases word.head first with (start | digit | rfl) | ⟨-, rfl⟩ | ⟨-, rfl⟩
  · cases notName.symm.trans start
  · cases notDigit.symm.trans digit
  all_goals exact other (by decide)

theorem expressionGrammar_lone : ∀ d ∈ ['/', '*'], expressionGrammar.lexicon.Lone d := by
  have alone : ∀ s ∈ expressionSymbols,
      (['/', '*'].all fun d => s.toList.head? != some d || s == String.singleton d) = true := by decide
  have among : ∀ name ∈ ["Name", "Decimal", "Integer", "String", "QuotedString"],
      name ∈ lexicalRegexes.map (·.1) := by decide
  intro d mark p listed w spells first
  rcases List.mem_append.1 (mem_expressionLeaves p listed) with literal | lexical
  · obtain ⟨s, symbol, rfl⟩ := List.mem_map.1 literal
    obtain rfl : w = s.toList := spells
    have same := List.all_eq_true.1 (alone s symbol) d mark
    simp only [first, bne_self_eq_false, Bool.false_or, beq_iff_eq] at same
    rw [same]
  · obtain ⟨name, known, rfl⟩ := List.mem_map.1 lexical
    exact absurd first ((lexicalWord_of_spells (among name known) spells).head_ne mark)

/-! ## Slashes -/

/-- A slash ends words of operators only, and nothing that a comment needs comes behind it. -/
def slashParting : Parting where
  front := [.literal "/"]
  behind := [.literal "/", .literal "*"]
  last name := name == "MultiplicativeOp"

theorem slashParting_lawful : slashParting.Lawful expressionTables expressionRules := by decide

/-- No slash of an expression stands right in front of a slash or a star. -/
theorem Word.apart {g : Grammar} {w : List Token} (word : Word g.Is "Expression" w) :
    g.lexicon.Uncommented w := by
  have apart := (Body.Derives.parted expressionTables_lawful slashParting_lawful word rfl).apart
  refine apart.imp fun t t' apart slash d mark is => ?_
  have behind : .literal (String.singleton d) ∈ slashParting.behind := by
    rcases List.mem_pair.1 mark with rfl | rfl <;> decide
  exact apart ⟨_, List.mem_singleton_self _, slash⟩ ⟨_, behind, is⟩

/-! ## Texts -/

theorem Engine.compile_of_read {engine : Engine} {text : String} {e : Expr} (fresh : engine.find? text = none)
    (shown : text.toList.all isBlank = false) (read : engine.read text = .ok e) :
    (engine.compile text).1.expr = e := by
  unfold Engine.compile
  rw [fresh, read, shown]
  rfl

namespace Expr

section Reading
variable {g : Grammar} {text : String} {e : Expr} (read : ofText g text = .ok e)
include read

theorem parseAll_of_ofText :
    ∃ s', (Parser.mk g builder defaultLimit).parseAll g.start (before g text) = (.ok (.expr e), s') := by
  obtain ⟨r, s', parsed⟩ : ∃ r s', (Parser.mk g builder defaultLimit).parseAll g.start
    (before g text) = (r, s') := ⟨_, _, rfl⟩
  unfold ofText Parser.parse Parser.parseRule at read
  rw [parsed] at read
  split at read
  · rename_i same
    cases same
    cases read
    exact ⟨s', parsed⟩
  · cases read
  · cases read

theorem complete_of_ofText : ∃ place, (g.scan text).ending = .complete place := by
  obtain ⟨s', parsed⟩ := parseAll_of_ofText read
  exact (Parser.parseAll_builds parsed).1

/-- The tokens of a text that is read are an expression. -/
theorem word_of_ofText (known : g.IsExpressions) : Word g.Is "Expression" (g.scan text).tokens := by
  obtain ⟨s', parsed⟩ := parseAll_of_ofText read
  exact (expr_of_parse known parsed).2

theorem not_blank_of_ofText (known : g.IsExpressions) : text.toList.all isBlank = false := by
  rw [Bool.eq_false_iff]
  intro blank
  obtain ⟨patterns, prepared⟩ := known.prepared
  have lexes : g.lexicon.Lexes text.toList [] := .ended (List.all_eq_true.1 blank)
  have none : (g.scan text).tokens = [] := List.forall₂_nil_right_iff.1 (lexes.scan prepared g.comments).2
  have word := word_of_ofText read known
  rw [none] at word
  rcases word.begins expressionTables_lawful with ⟨-, nullable⟩ | begins
  · cases nullable
  · exact begins.ne_nil rfl

end Reading

section Modes
variable {g : Grammar} {mode : CommentMode} {text text' : String} {pads : List (List Char)} {e : Expr}

/-- In front of the tokens of a text, spacings do not change what is read. -/
theorem ofText_of_loosened (separable : g.lexicon.Separable) (on : mode ≠ .off)
    (read : ofText (g.withComments mode) text = .ok e)
    (loosened : Loosened 0 text.toList ((g.withComments mode).scan text).tokens pads text'.toList) :
    ofText (g.withComments mode) text' = .ok e := by
  have complete := complete_of_ofText read
  obtain ⟨complete', words⟩ := separable.scan_loosened on complete loosened
  have same : (g.withComments mode).SameRules (g.withComments mode) := ⟨rfl, rfl⟩
  exact ofText_congr same rfl words complete complete' read

theorem scan_of_off (known : g.IsExpressions) (lone : ∀ d ∈ ['/', '*'], g.lexicon.Lone d)
    (off : g.comments = .off) (read : ofText g text = .ok e) :
    (g.withComments mode).scan text = g.scan text := by
  obtain ⟨patterns, prepared⟩ := known.prepared
  have apart := (word_of_ofText read known).apart
  have complete := complete_of_ofText read
  show g.lexicon.scan mode text = g.lexicon.scan g.comments text
  rw [Grammar.scan, off] at apart complete
  rw [off]
  exact Lexicon.scanFrom_of_off prepared lone mode complete apart

theorem ofText_of_off (known : g.IsExpressions) (lone : ∀ d ∈ ['/', '*'], g.lexicon.Lone d)
    (off : g.comments = .off) (read : ofText g text = .ok e) : ofText (g.withComments mode) text = .ok e := by
  have complete := complete_of_ofText read
  have scans : (g.withComments mode).scan text = g.scan text := scan_of_off known lone off read
  refine ofText_congr (g.sameRules_withComments mode) rfl ?_ complete (scans ▸ complete) read
  rw [scans]
  exact List.forall₂_refl _

end Modes

/-- **Spacings do not change what is read.** Where comments are recognised, blanks and complete comments may be put
in front of any tokens, if a blank comes first. -/
theorem ofText_loosened {mode : CommentMode} (on : mode ≠ .off) {text text' : String} {pads : List (List Char)}
    {e : Expr} (read : ofText (expressionGrammar.withComments mode) text = .ok e)
    (loosened : Loosened 0 text.toList ((expressionGrammar.withComments mode).scan text).tokens pads
      text'.toList) :
    ofText (expressionGrammar.withComments mode) text' = .ok e :=
  ofText_of_loosened expressionGrammar_separable on read loosened

theorem ofText_loosened_halved : CommentMode.attach ≠ .off ∧
    ∃ e, ofText (expressionGrammar.withComments .attach) "a/.5" = .ok e ∧
      Loosened 0 "a/.5".toList ((expressionGrammar.withComments .attach).scan "a/.5").tokens
        [[], ['\n'], " // half\n".toList] "a\n/ // half\n.5".toList ∧
      ofText (expressionGrammar.withComments .attach) "a\n/ // half\n.5" = .ok e := by
  have run : (ofText (expressionGrammar.withComments .attach) "a/.5").toOption.isSome = true ∧
      ((expressionGrammar.withComments .attach).scan "a/.5").tokens =
        [⟨23, "Name", "a", ⟨0, 1, 1⟩, 1, []⟩, ⟨15, "/", "/", ⟨1, 1, 2⟩, 2, []⟩,
          ⟨25, "Decimal", ".5", ⟨2, 1, 3⟩, 4, []⟩] := by decide +kernel
  obtain ⟨made, tokens⟩ := run
  have loosened : Loosened 0 "a/.5".toList ((expressionGrammar.withComments .attach).scan "a/.5").tokens
      [[], ['\n'], " // half\n".toList] "a\n/ // half\n.5".toList := by
    have blank : Spacing ['\n'] := ⟨.blank (by decide) .nil, by rintro _ ⟨⟩; decide⟩
    have comment : Spacing " // half\n".toList :=
      ⟨.blank (by decide) (@Filler.line " half".toList [] (by decide) .nil), by rintro _ ⟨⟩; decide⟩
    rw [tokens]
    exact @Loosened.token 0 [] [] _ ['a'] _ _ _ _ (by decide) (by decide) spacing_nil
      (@Loosened.token 1 [] ['\n'] _ ['/'] _ _ _ _ (by decide) (by decide) blank
        (@Loosened.token 2 [] " // half\n".toList _ ['.', '5'] [] [] _ _ (by decide) (by decide) comment
          .ended))
  have read := eq_ok_get made
  exact ⟨by decide, _, read, loosened, ofText_loosened (by decide) read loosened⟩

/-- **Recognising comments changes no expression.** -/
theorem ofText_uncommented {text : String} {e : Expr}
    (read : ofText (expressionGrammar.withComments .off) text = .ok e) :
    (∀ mode, ofText (expressionGrammar.withComments mode) text = .ok e) ∧
      ∀ delimiter, ∃ engine, Engine.ofConfig ⟨none, delimiter, true⟩ = .ok engine ∧
        engine.read text = .ok e ∧ (engine.compile text).1.expr = e := by
  have known := expressionGrammar_isExpressions
  rw [Grammar.withComments_of_off expressionGrammar_off] at read
  have recognised (mode : CommentMode) : ofText (expressionGrammar.withComments mode) text = .ok e :=
    ofText_of_off known expressionGrammar_lone expressionGrammar_off read
  have shown := not_blank_of_ofText read known
  exact ⟨recognised, fun delimiter =>
    ⟨_, rfl, recognised .attach, Engine.compile_of_read rfl shown (recognised .attach)⟩⟩

/-- Between quotes slashes make no comment. -/
theorem ofText_uncommented_quoted :
    ∃ e, ofText (expressionGrammar.withComments .off) "'//' + a / b" = .ok e ∧
      (∀ mode, ofText (expressionGrammar.withComments mode) "'//' + a / b" = .ok e) ∧
      ∀ delimiter, ∃ engine, Engine.ofConfig ⟨none, delimiter, true⟩ = .ok engine ∧
        engine.read "'//' + a / b" = .ok e ∧ (engine.compile "'//' + a / b").1.expr = e := by
  have made : (ofText (expressionGrammar.withComments .off) "'//' + a / b").toOption.isSome = true := by
    decide +kernel
  have read := eq_ok_get made
  exact ⟨_, read, ofText_uncommented read⟩

end Expr

end Rowlang
