import Rowlang.Proofs.Grammar.Lexemes

/-!
# Literals in grammar definitions

The printed form of a literal is one token of the grammar of definitions, whatever stands behind it, and
the text between its quotes is read as the text of the literal.

* `Token.IsQuoted` : a quoted token with its text, its place and what is read from it;
* `scan_quoteLiteral` : the printed form of a literal is scanned as such a token;
* `literal_readsBack` : the literals of a grammar are printed so, and therefore read back.
-/

namespace Rowlang
open Rowlang.Text

/-- The token is the written text `w` at `place`, matched by the pattern `String` of definitions, and `s`
is read from between its quotes. -/
structure Token.IsQuoted (t : Token) (w : List Char) (place : Location) (s : String) : Prop where
  is : definitionGrammar.lexicon.patterns[t.pattern]? = some (lexicalLeaf "String")
  name : t.name = "String"
  text : t.text.toList = w
  start : t.start = place
  stop : t.stop = (place.advance w).offset
  comments : t.comments = []
  unquoted : t.unquoted = s

/-- The printed form of a literal is the next token, wherever it stands. -/
theorem scan_quoteLiteral (s : String) (mode : CommentMode) (place : Location) (rest : List Char) :
    let later := definitionGrammar.lexicon.scanFrom mode ⟨rest, place.advance (quoteLiteral s).toList⟩
    ∃ t : Token, t.IsQuoted (quoteLiteral s).toList place s ∧
      definitionGrammar.lexicon.scanFrom mode ⟨(quoteLiteral s).toList ++ rest, place⟩ =
        ⟨t :: later.tokens, later.ending⟩ := by
  obtain ⟨patterns, prepared⟩ := definitionGrammar_prepared
  have takes : definitionGrammar.lexicon.Takes ⟨lexicalLeaf "String", (quoteLiteral s).toList⟩ rest :=
    takes_quoteLiteral s
  have read := unquote_quoteLiteral s
  have here : (Cursor.mk ((quoteLiteral s).toList ++ rest) place).skipBlanks =
      ⟨(quoteLiteral s).toList ++ rest, place⟩ := by
    rw [toList_quoteLiteral]
    rfl
  -- from here on the characters of the printed form do not matter
  generalize (quoteLiteral s).toList = w at takes read here ⊢
  obtain ⟨t, scanned, lexeme, start, stop, comments⟩ :=
    takes.scanFrom prepared mode (congrArg Cursor.rest here)
  rw [here] at scanned start stop
  refine ⟨t, ⟨lexeme.is, lexeme.name, lexeme.text, start, stop, comments, ?_⟩, scanned⟩
  rw [Token.unquoted, lexeme.text, read, String.ofList_toList]

/-- **Literals round-trip.** Any grammar with a literal is printed with the same text for it. Wherever that
stands, and whatever stands behind it, it is scanned as one quoted token, and the text read from that token
is the text of the literal. -/
theorem literal_readsBack (s : String) :
    (∀ {g : Grammar} {id pattern : Nat} (outer : Binding), g.shape? id = some (.token pattern) →
      g.lexicon.patterns[pattern]? = some (.literal s) → g.describeIn outer id = quoteLiteral s) ∧
    ∀ (mode : CommentMode) (place : Location) (rest : List Char),
      let later := definitionGrammar.lexicon.scanFrom mode ⟨rest, place.advance (quoteLiteral s).toList⟩
      ∃ t : Token, t.IsQuoted (quoteLiteral s).toList place s ∧
        definitionGrammar.lexicon.scanFrom mode ⟨(quoteLiteral s).toList ++ rest, place⟩ =
          ⟨t :: later.tokens, later.ending⟩ := by
  refine ⟨fun outer leaf literal => ?_, scan_quoteLiteral s⟩
  simp only [Grammar.describeIn_of_shape leaf, Grammar.describeLeaf, literal]

/-- One rule, whose literal is a backslash, a quote and the end of a line. -/
def lineRules : List Definition := [⟨"Line", .literal "\\\"\n"⟩]

theorem lineRules_build : (Grammar.ofDefinitions lineRules).toOption.isSome = true := by decide +kernel

/-- The literal is printed in that rule, and read back with another quote behind it. -/
theorem literal_readsBack_line :
    let g := (Grammar.ofDefinitions lineRules).toOption.get lineRules_build
    g.describeIn .choice 0 = quoteLiteral "\\\"\n" ∧
      ∃ t : Token, t.IsQuoted (quoteLiteral "\\\"\n").toList .start "\\\"\n" := by
  intro g
  have leaf : g.shape? 0 = some (.token 0) := by decide +kernel
  have literal : g.lexicon.patterns[0]? = some (.literal "\\\"\n") := by decide +kernel
  obtain ⟨printed, scanned⟩ := literal_readsBack "\\\"\n"
  obtain ⟨t, quoted, -⟩ := scanned .off .start ['"']
  exact ⟨printed .choice leaf literal, t, quoted⟩

end Rowlang
