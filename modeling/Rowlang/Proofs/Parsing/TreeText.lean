import Rowlang.Proofs.Parsing.Soundness

/-!
# The text of a syntax tree

The text of a tree is put together level by level, with a space between any two children. A rule that
matched nothing has no children, and an empty text, but the spaces around it stay. So the text is that of
the tokens with single spaces between them exactly if there is no such rule, or nothing else.

* `ParseTree.leafTexts` : the texts at the leaves of a tree;
* `ParseTree.emptyRules` : the number of rules without children within a tree;
* `ParseTree.text_eq` : the text of a tree is that of its leaves;
* `Parser.parseRule_text` : when the text of the tree of a parse is that of its tokens.
-/

namespace Rowlang

/-! ## Texts with a separator -/

theorem length_intercalate (s : String) (l : List String) :
    (s.intercalate l).length = (String.join l).length + s.length * (l.length - 1) := by
  induction l with
  | nil => simp
  | cons t l ih =>
    cases l with
    | nil => simp
    | cons u l =>
      have joined : (String.join (t :: u :: l)).length = t.length + (String.join (u :: l)).length := by
        rw [String.join_cons, String.length_append]
      rw [String.intercalate_cons_cons, String.length_append, String.length_append, ih, joined]
      simp only [List.length_cons, Nat.add_sub_cancel, Nat.mul_succ]
      omega

namespace ParseTree

/-! ## Leaves -/

mutual

/-- The texts at the leaves of a tree, from left to right: those of the tokens, and an empty one for each
rule without children. -/
def leafTexts : ParseTree → List String
  | .token t => [t.text]
  | .rule _ [] => [""]
  | .rule _ (c :: cs) => c.leafTexts ++ leafTextsOf cs

def leafTextsOf : List ParseTree → List String
  | [] => []
  | c :: cs => c.leafTexts ++ leafTextsOf cs

end

mutual

/-- The number of rules without children within a tree. -/
def emptyRules : ParseTree → Nat
  | .token _ => 0
  | .rule _ [] => 1
  | .rule _ (c :: cs) => c.emptyRules + emptyRulesOf cs

def emptyRulesOf : List ParseTree → Nat
  | [] => 0
  | c :: cs => c.emptyRules + emptyRulesOf cs

end

theorem leafTexts_ne_nil : ∀ t : ParseTree, t.leafTexts ≠ []
  | .token t => by simp [leafTexts]
  | .rule _ [] => by simp [leafTexts]
  | .rule _ (c :: cs) => by
    rw [leafTexts]
    exact List.append_ne_nil_of_left_ne_nil c.leafTexts_ne_nil _

mutual

/-- The text of a tree is that of its leaves, with single spaces between them. -/
theorem text_eq : ∀ t : ParseTree, t.text = " ".intercalate t.leafTexts
  | .token t => by simp [text, leafTexts]
  | .rule _ [] => by simp [text, texts, leafTexts]
  | .rule _ (c :: cs) => by
    rw [text, leafTexts]
    exact intercalate_texts (c :: cs)

theorem intercalate_texts : ∀ ts : List ParseTree, " ".intercalate (texts ts) = " ".intercalate (leafTextsOf ts)
  | [] => by simp [texts, leafTextsOf]
  | c :: cs => by
    have first := c.text_eq
    have later := intercalate_texts cs
    cases cs with
    | nil => simp [texts, leafTextsOf, first]
    | cons d ds =>
      have some_text : texts (d :: ds) ≠ [] := by simp [texts]
      have some_leaf : leafTextsOf (d :: ds) ≠ [] := by
        rw [leafTextsOf]
        exact List.append_ne_nil_of_left_ne_nil d.leafTexts_ne_nil _
      have leaves : leafTextsOf (c :: d :: ds) = c.leafTexts ++ leafTextsOf (d :: ds) := by rw [leafTextsOf]
      rw [texts, String.intercalate_cons_of_ne_nil some_text, later, first, leaves,
        String.intercalate_append_of_ne_nil c.leafTexts_ne_nil some_leaf]

end

mutual

/-- The tokens are among the leaves, in order. -/
theorem sublist_leafTexts : ∀ t : ParseTree, (t.tokens.map Token.text).Sublist t.leafTexts
  | .token t => by simp [leafTexts]
  | .rule _ [] => by simp
  | .rule _ (c :: cs) => by
    rw [leafTexts, tokens_rule, tokensOf_cons, List.map_append]
    exact c.sublist_leafTexts.append (sublist_leafTextsOf cs)

theorem sublist_leafTextsOf : ∀ ts : List ParseTree,
    ((tokensOf ts).map Token.text).Sublist (leafTextsOf ts)
  | [] => by simp
  | c :: cs => by
    rw [leafTextsOf, tokensOf_cons, List.map_append]
    exact c.sublist_leafTexts.append (sublist_leafTextsOf cs)

end

mutual

/-- One leaf text for each token, and one for each rule without children. -/
theorem length_leafTexts : ∀ t : ParseTree, t.leafTexts.length = t.tokens.length + t.emptyRules
  | .token t => by simp [leafTexts, emptyRules]
  | .rule _ [] => by simp [leafTexts, emptyRules]
  | .rule _ (c :: cs) => by
    have first := c.length_leafTexts
    have later := length_leafTextsOf cs
    simp only [leafTexts, emptyRules, tokens_rule, tokensOf_cons, List.length_append]
    omega

theorem length_leafTextsOf : ∀ ts : List ParseTree,
    (leafTextsOf ts).length = (tokensOf ts).length + emptyRulesOf ts
  | [] => by simp [leafTextsOf, emptyRulesOf]
  | c :: cs => by
    have first := c.length_leafTexts
    have later := length_leafTextsOf cs
    simp only [leafTextsOf, emptyRulesOf, tokensOf_cons, List.length_append]
    omega

end

mutual

/-- Without spaces, the empty texts of rules add nothing to those of the tokens. -/
theorem join_leafTexts : ∀ t : ParseTree, String.join t.leafTexts = String.join (t.tokens.map Token.text)
  | .token t => by simp [leafTexts]
  | .rule _ [] => by simp [leafTexts]
  | .rule _ (c :: cs) => by
    rw [leafTexts, tokens_rule, tokensOf_cons, List.map_append, String.join_append, String.join_append,
      c.join_leafTexts, join_leafTextsOf cs]

theorem join_leafTextsOf : ∀ ts : List ParseTree,
    String.join (leafTextsOf ts) = String.join ((tokensOf ts).map Token.text)
  | [] => by simp [leafTextsOf]
  | c :: cs => by
    rw [leafTextsOf, tokensOf_cons, List.map_append, String.join_append, String.join_append, c.join_leafTexts,
      join_leafTextsOf cs]

end

/-- The text of a tree is that of its tokens, with single spaces between them, exactly if no rule has no
children, or a single one and there are no tokens. -/
theorem text_eq_iff (t : ParseTree) : t.text = " ".intercalate (t.tokens.map Token.text) ↔
    t.emptyRules = 0 ∨ t.emptyRules = 1 ∧ t.tokens = [] := by
  have leaves := t.length_leafTexts
  constructor
  · intro same
    -- each rule without children has a space that no token accounts for
    have lengths := congrArg String.length same
    rw [text_eq, length_intercalate, length_intercalate, join_leafTexts, List.length_map, leaves] at lengths
    have one : (" " : String).length = 1 := rfl
    rw [one] at lengths
    rw [← List.length_eq_zero_iff]
    omega
  · rintro (childful | ⟨one, nothing⟩)
    · have same : t.tokens.map Token.text = t.leafTexts :=
        t.sublist_leafTexts.eq_of_length (by rw [List.length_map]; omega)
      rw [text_eq, same]
    · have short : t.text.length = 0 := by
        rw [text_eq, length_intercalate, join_leafTexts, leaves, one, nothing]
        rfl
      rw [nothing, List.map_nil, String.intercalate_nil]
      exact String.length_eq_zero_iff.1 short

end ParseTree

/-! ## The trees of parses -/

namespace Parser
open ParseTree Body

/-- The leaves of the tree of a whole text are the tokens of the text. -/
theorem tokens_of_parseRule {g : Grammar} {limit id : Nat} {text : String} {t : ParseTree}
    (h : (parseRule ⟨g, .collector, limit⟩ id text ()).1 = .ok t) : t.tokens = (g.scan text).tokens := by
  obtain ⟨-, nodes, builds, node⟩ := parseAll_builds (Prod.ext h rfl)
  have tokens := builds.yields_collector.2
  rcases node with rfl | ⟨-, before, after, built⟩
  · simpa using tokens
  · simp only [TreeBuilder.collector, Prod.mk.injEq, Except.ok.injEq] at built
    rw [← built.1]
    simpa using tokens

/-- **The text of the tree of a parse** is that of its leaves. It is the text of the tokens of the whole text,
with single spaces between them, exactly if every rule in the tree has children, or a single one has none and
there are no tokens. -/
theorem parseRule_text {g : Grammar} {limit id : Nat} {text : String} {t : ParseTree}
    (h : (parseRule ⟨g, .collector, limit⟩ id text ()).1 = .ok t) :
    t.text = " ".intercalate t.leafTexts ∧
      (t.text = " ".intercalate ((g.scan text).tokens.map Token.text) ↔
        t.emptyRules = 0 ∨ t.emptyRules = 1 ∧ (g.scan text).tokens = []) := by
  rw [← tokens_of_parseRule h]
  exact ⟨t.text_eq, t.text_eq_iff⟩

/-- A letter that may be missing, and another one behind it. -/
def optionalRules : List Definition := [
  ⟨"Word", seq (name "First") (literal "b")⟩,
  ⟨"First", opt (literal "a")⟩]

theorem optionalRules_build : (Grammar.ofDefinitions optionalRules).toOption.isSome = true := by
  decide +kernel

/-- Where the first letter is missing, a space stands for it. -/
theorem parseRule_text_missing :
    let g := (Grammar.ofDefinitions optionalRules).toOption.get optionalRules_build
    ∃ t, (parseRule ⟨g, .collector, 2⟩ g.start "b" ()).1 = .ok t ∧ t.text = " b" ∧
      t.text = " ".intercalate t.leafTexts ∧
      (t.text = " ".intercalate ((g.scan "b").tokens.map Token.text) ↔
        t.emptyRules = 0 ∨ t.emptyRules = 1 ∧ (g.scan "b").tokens = []) := by
  intro g
  have text : (parseRule ⟨g, .collector, 2⟩ g.start "b" ()).1.toOption.map ParseTree.text = some " b" := by
    decide +kernel
  cases h : (parseRule ⟨g, .collector, 2⟩ g.start "b" ()).1 with
  | error e =>
    rw [h] at text
    cases text
  | ok t =>
    rw [h] at text
    exact ⟨t, rfl, Option.some.inj text, parseRule_text h⟩

end Parser

end Rowlang
