import Rowlang.Proofs.Grammar.Reading
import Rowlang.Proofs.Parsing.Nodes

/-!
# The texts that are read as definitions

* `Grammar.Compiles.defines` : a grammar that was compiled has the rules that its definitions ask for;
* `definitionRow` : what the tokens of each rule of the grammar of definitions are a way to write;
* `readDefinitions_eq_ok_iff` : the texts that are read are those whose tokens are a way to write the
  definitions, with names that are not taken and no more nesting than is allowed.
-/

namespace Rowlang
open Rowlang.Text

/-! ## Compiled grammars -/

namespace Grammar.Compiles
variable {g : Grammar} {ds : List Definition} (h : g.Compiles ds)
include h

theorem realises {x : Body} {id : Nat} (stands : g.arena.Unfolds x id) :
    g.realises ds x id = true := by
  induction stands with
  | literal shape leaf =>
    have shape : g.shape? _ = some _ := shape
    have leaf : g.lexicon.patterns[_]? = some _ := leaf
    simp [Grammar.realises, isLeaf, shape, leaf]
  | lexical known shape leaf =>
    have shape : g.shape? _ = some _ := shape
    have leaf : g.lexicon.patterns[_]? = some _ := leaf
    simp [Grammar.realises, isLeaf, known, shape, leaf]
  | rule other found =>
    obtain ⟨d, defined, rfl, -⟩ := h.defined found
    exact realises_of_find? other defined found
  | seq shape _ _ ihx ihy | alt shape _ _ ihx ihy =>
    have shape : g.shape? _ = some _ := shape
    simp [Grammar.realises, shape, ihx, ihy]
  | opt shape _ ih | star shape _ ih | plus shape _ ih | guarded shape _ ih =>
    have shape : g.shape? _ = some _ := shape
    simp [Grammar.realises, shape, ih]
  | ahead shape =>
    have shape : g.shape? _ = some _ := shape
    simp [Grammar.realises, shape]

/-- **A grammar that was compiled** has the rules that its definitions ask for. -/
theorem defines : g.Defines ds := by
  intro d defined
  obtain ⟨id, body, found, name, shape, inner⟩ := h.rule defined
  simp [realisesDefinition, found, shape, ruleName, name, h.realises inner]

end Grammar.Compiles

/-! ## What the rules of definitions match -/

/-- What the tokens of a rule of definitions are a way to write, and what is made of them. -/
def definitionRow : String → List Token → DefinitionNode → Prop
  | "Grammar", ts, _ => ∃ k ds, Document tokenSpelling k ts ds
  | "RuleDef", ts, _ => ∃ m d, ∀ {k us ds}, Document tokenSpelling k us ds →
      Document tokenSpelling (max m k) (ts ++ us) (d :: ds)
  | "Expression", ts, node => ∃ m x, node = .body x ∧ Written tokenSpelling .choice m ts x
  | "AndExpr", ts, node => ∃ m x, node = .body x ∧ Written tokenSpelling .sequence m ts x
  | "CountExpr", ts, node => ∃ m x, node = .body x ∧ Written tokenSpelling .counted m ts x
  | _, ts, node => ∃ m x, node = .body x ∧ Written tokenSpelling .primary m ts x

/-- A token of a leaf pattern of definitions, and its node. -/
def DefinitionLeaf (p : LeafPattern) (t : Token) (node : DefinitionNode) : Prop :=
  node = .token t ∧ definitionGrammar.Is p t ∧ t.IsDefinitionToken

/-- The rows of tokens and nodes of a body in the grammar of definitions. -/
abbrev DefinitionRows : Body → List Token → List DefinitionNode → Prop :=
  Body.Rows DefinitionLeaf definitionRow

section
open Body
variable {ts : List Token} {nodes : List DefinitionNode} {node : DefinitionNode}
  {before after : DefinitionState}

theorem mark_of_leaf {s : String} {t : Token} (h : DefinitionLeaf (.literal s) t node) :
    tokenSpelling.mark s t := ⟨h.2.1, h.2.2.mark h.2.1⟩

theorem primary_row (rows : DefinitionRows (alt (name "String") (alt (name "QuotedString")
      (alt (name "LookAheadExpr") (alt (name "Name") (name "Group"))))) ts nodes)
    (built : definitionBuilder.rule "PrimaryExpr" nodes before = (.ok node, after)) :
    ∃ m x, node = .body x ∧ Written tokenSpelling .primary m ts x := by
  have literal {n : String} {t : Token} (quoted : n = "String" ∨ n = "QuotedString")
      (is : definitionGrammar.Is (lexicalLeaf n) t) (token : t.IsDefinitionToken)
      (built : definitionBuilder.rule "PrimaryExpr" [.token t] before = (.ok node, after)) :
      ∃ m x, node = .body x ∧ Written tokenSpelling .primary m [t] x := by
    have known := token.quoted quoted is
    have body : node = .body (.literal t.unquoted) := by
      rcases quoted with rfl | rfl <;>
        simp [definitionBuilder, definitionBody, known, Except.map] at built <;> exact built.1.symm
    exact ⟨0, _, body, .literal ⟨⟨n, quoted, is, known⟩, rfl⟩⟩
  have inner (row : ∃ node, nodes = [node] ∧ ∃ m x, node = .body x ∧
      Written tokenSpelling .primary m ts x) :
      ∃ m x, node = .body x ∧ Written tokenSpelling .primary m ts x := by
    obtain ⟨_, rfl, m, x, rfl, written⟩ := row
    cases built
    exact ⟨m, x, rfl, written⟩
  rcases rows with string | quoted | lookAhead | named | group
  · obtain ⟨t, _, rfl, rfl, rfl, is, token⟩ := string
    exact literal (.inl rfl) is token built
  · obtain ⟨t, _, rfl, rfl, rfl, is, token⟩ := quoted
    exact literal (.inr rfl) is token built
  · exact inner lookAhead
  · obtain ⟨t, _, rfl, rfl, rfl, is, token⟩ := named
    have known := (token.name is).1
    simp [definitionBuilder, definitionBody, known, Except.map] at built
    exact ⟨0, _, built.1.symm, .name ⟨is, known, rfl⟩⟩
  · exact inner group

theorem group_row (rows : DefinitionRows (seq (literal "(") (seq (name "Expression") (literal ")"))) ts nodes)
    (built : definitionBuilder.rule "Group" nodes before = (.ok node, after)) :
    ∃ m x, node = .body x ∧ Written tokenSpelling .primary m ts x := by
  obtain ⟨_, _, _, _, rfl, rfl, ⟨o, _, rfl, rfl, opens⟩, w, _, _, _, rfl, rfl, ⟨_, rfl, m, x, rfl, inner⟩,
    c, _, rfl, rfl, closes⟩ := rows
  obtain rfl := opens.1
  cases built
  exact ⟨m + 1, x, rfl, .group (mark_of_leaf opens) inner (mark_of_leaf closes)⟩

theorem lookAhead_row (rows : DefinitionRows (seq (literal "LookAhead") (seq (literal "(")
      (seq (alt (name "Number") (name "Expression")) (literal ")")))) ts nodes)
    (built : definitionBuilder.rule "LookAheadExpr" nodes before = (.ok node, after)) :
    ∃ m x, node = .body x ∧ Written tokenSpelling .primary m ts x := by
  obtain ⟨_, _, _, _, rfl, rfl, ⟨k, _, rfl, rfl, key⟩, _, _, _, _, rfl, rfl, ⟨o, _, rfl, rfl, opens⟩,
    w, _, _, _, rfl, rfl, argument, c, _, rfl, rfl, closes⟩ := rows
  obtain rfl := key.1
  obtain rfl := opens.1
  rcases argument with ⟨t, _, rfl, rfl, rfl, is, -⟩ | ⟨_, rfl, m, x, rfl, inner⟩
  · cases known : readTokenCount t.text with
    | none => simp [definitionBuilder, definitionBody, known, Except.map] at built
    | some n =>
      simp [definitionBuilder, definitionBody, known, Except.map] at built
      exact ⟨0, _, built.1.symm,
        .ahead (mark_of_leaf key) (mark_of_leaf opens) ⟨is, known⟩ (mark_of_leaf closes)⟩
  · cases built
    exact ⟨m + 1, _, rfl, .guarded (mark_of_leaf key) (mark_of_leaf opens) inner (mark_of_leaf closes)⟩

theorem count_row (rows : DefinitionRows (seq (name "PrimaryExpr")
      (opt (alt (literal "*") (alt (literal "+") (literal "?"))))) ts nodes)
    (built : definitionBuilder.rule "CountExpr" nodes before = (.ok node, after)) :
    ∃ m x, node = .body x ∧ Written tokenSpelling .counted m ts x := by
  obtain ⟨w, _, _, _, rfl, rfl, ⟨_, rfl, m, x, rfl, inner⟩, ⟨rfl, rfl⟩ | marked⟩ := rows
  · cases built
    rw [List.append_nil]
    exact ⟨m, x, rfl, .once inner⟩
  · rcases marked with ⟨t, _, rfl, rfl, mark⟩ | ⟨t, _, rfl, rfl, mark⟩ | ⟨t, _, rfl, rfl, mark⟩ <;>
      obtain rfl := mark.1 <;> have spelled := mark_of_leaf mark <;>
      simp [definitionBuilder, definitionBody, spelled.2, Except.map] at built <;>
      obtain ⟨rfl, -⟩ := built
    · exact ⟨m, _, rfl, .star inner spelled⟩
    · exact ⟨m, _, rfl, .plus inner spelled⟩
    · exact ⟨m, _, rfl, .opt inner spelled⟩

theorem sequence_of_rounds {rounds : List (List Token × List DefinitionNode)} (some_round : rounds ≠ [])
    (each : ∀ r ∈ rounds, ∃ node, r.2 = [node] ∧ ∃ m x, node = .body x ∧
      Written tokenSpelling .counted m r.1 x) :
    ∃ m first rest, rounds.flatMap (·.2) = (first :: rest).map .body ∧
      Written tokenSpelling .sequence m (rounds.flatMap (·.1)) (.sequence first rest) := by
  induction rounds with
  | nil => exact absurd rfl some_round
  | cons r rounds ih =>
    obtain ⟨⟨_, node, m, x, rfl, written⟩, each⟩ := List.forall_mem_cons.1 each
    rw [List.flatMap_cons, List.flatMap_cons, node]
    cases rounds with
    | nil =>
      simp only [List.flatMap_nil, List.append_nil]
      exact ⟨m, x, [], rfl, .single written⟩
    | cons r' rounds =>
      obtain ⟨m', first, rest, nodes, later⟩ := ih (List.cons_ne_nil _ _) each
      exact ⟨_, x, first :: rest, by rw [nodes]; rfl, .seq written later⟩

theorem and_row (rows : DefinitionRows (plus (name "CountExpr")) ts nodes)
    (built : definitionBuilder.rule "AndExpr" nodes before = (.ok node, after)) :
    ∃ m x, node = .body x ∧ Written tokenSpelling .sequence m ts x := by
  obtain ⟨rounds, rfl, rfl, some_round, each⟩ := rows
  obtain ⟨m, first, rest, nodes, written⟩ := sequence_of_rounds some_round each
  rw [nodes, built_and] at built
  cases built
  exact ⟨m, _, rfl, written⟩

theorem choice_of_rounds {rounds : List (List Token × List DefinitionNode)} {w : List Token} {x : Body}
    {m : Nat} (head : Written tokenSpelling .sequence m w x)
    (each : ∀ r ∈ rounds, DefinitionRows furtherAlternative r.1 r.2) :
    ∃ m', Written tokenSpelling .choice m' (w ++ rounds.flatMap (·.1))
      (.choice x (DefinitionNode.bodies (rounds.flatMap (·.2)))) := by
  induction rounds generalizing w x m with
  | nil =>
    rw [List.flatMap_nil, List.append_nil]
    exact ⟨m, .only head⟩
  | cons r rounds ih =>
    obtain ⟨⟨_, _, _, _, tokens, nodes, ⟨t, _, rfl, rfl, bar⟩, _, rfl, k, y, rfl, next⟩, each⟩ :=
      List.forall_mem_cons.1 each
    obtain ⟨m', later⟩ := ih next each
    obtain rfl := bar.1
    rw [List.flatMap_cons, List.flatMap_cons, tokens, nodes]
    exact ⟨_, .alt head (mark_of_leaf bar) later⟩

theorem expression_row (rows : DefinitionRows (seq (name "AndExpr") (star furtherAlternative)) ts nodes)
    (built : definitionBuilder.rule "Expression" nodes before = (.ok node, after)) :
    ∃ m x, node = .body x ∧ Written tokenSpelling .choice m ts x := by
  obtain ⟨w, _, _, _, rfl, rfl, ⟨_, rfl, m, x, rfl, head⟩, rounds, rfl, rfl, each⟩ := rows
  obtain ⟨m', written⟩ := choice_of_rounds head each
  cases built
  exact ⟨m', _, rfl, written⟩

theorem ruleDef_row (rows : DefinitionRows (seq (name "Name") (seq (literal "\x7b")
      (seq (name "Expression") (literal "\x7d")))) ts nodes) :
    ∃ m d, ∀ {k us ds}, Document tokenSpelling k us ds →
      Document tokenSpelling (max m k) (ts ++ us) (d :: ds) := by
  obtain ⟨_, _, _, _, rfl, rfl, ⟨t, _, rfl, rfl, -, is, token⟩, _, _, _, _, rfl, rfl,
    ⟨o, _, rfl, rfl, opens⟩, w, _, _, _, rfl, rfl, ⟨_, rfl, m, x, rfl, inner⟩,
    c, _, rfl, rfl, closes⟩ := rows
  refine ⟨m, ⟨t.text, x⟩, fun {k us ds} later => ?_⟩
  have spelled : tokenSpelling.name t.text t := ⟨is, (token.name is).1, rfl⟩
  simpa using Document.cons spelled (mark_of_leaf opens) inner (mark_of_leaf closes) later

theorem grammar_row (rows : DefinitionRows (star (name "RuleDef")) ts nodes) :
    ∃ k ds, Document tokenSpelling k ts ds := by
  obtain ⟨rounds, rfl, -, each⟩ := rows
  induction rounds with
  | nil => exact ⟨0, [], .nil⟩
  | cons r rounds ih =>
    obtain ⟨⟨_, -, m, d, here⟩, each⟩ := List.forall_mem_cons.1 each
    obtain ⟨k, ds, later⟩ := ih each
    exact ⟨_, _, here later⟩

/-- What is made of the tokens of a rule of definitions, they are a way to write. -/
theorem definitionRow_of_rows {d : Definition} (defined : d ∈ definitionRules)
    (rows : DefinitionRows d.body ts nodes)
    (built : definitionBuilder.rule d.name nodes before = (.ok node, after)) :
    definitionRow d.name ts node := by
  simp only [definitionRules, List.mem_cons, List.not_mem_nil, or_false] at defined
  rcases defined with rfl | rfl | rfl | rfl | rfl | rfl | rfl | rfl
  · exact grammar_row rows
  · exact ruleDef_row rows
  · exact expression_row rows built
  · exact and_row rows built
  · exact count_row rows built
  · exact primary_row rows built
  · exact lookAhead_row rows built
  · exact group_row rows built

end

/-! ## Whole texts -/

theorem document_of_builds {text : String} {nodes : List DefinitionNode}
    (built : definitionGrammar.Builds definitionBuilder definitionGrammar.start
      (definitionGrammar.scan text).tokens nodes) :
    ∃ k ds, Document tokenSpelling k (definitionGrammar.scan text).tokens ds := by
  have rows : (Body.name "Grammar").Rows DefinitionLeaf definitionRow _ nodes :=
    built.rows definitionGrammar_compiles.defines
      (fun d defined tokens children node before after => definitionRow_of_rows defined)
      (fun t listed p is => ⟨rfl, is, isDefinitionToken_of_scan t listed⟩) _
      (definitionGrammar_compiles.realises definitionGrammar_start)
  obtain ⟨node, -, document⟩ := (Body.rows_rule (by decide)).1 rows
  exact document

/-- **The texts that are read as definitions**: their tokens are a way to write the definitions, no name in
them is taken, and nesting is not too deep. -/
theorem readDefinitions_eq_ok_iff {text : String} {ds : List Definition} :
    readDefinitions text = .ok ds ↔
      (∃ place, (definitionGrammar.scan text).ending = .complete place) ∧ Definition.Fresh [] ds ∧
        ∃ k, Document tokenSpelling k (definitionGrammar.scan text).tokens ds ∧
          textLevels k ds ≤ defaultLimit := by
  constructor
  · intro read
    cases parsed : definitionParser.parseAll definitionGrammar.start
      ⟨.ofScan (definitionGrammar.scan text), ⟨[], none⟩⟩ with | mk r s =>
    have result := readDefinitions_of_parseAll parsed
    rw [read] at result
    have succeeded : ∃ node, r = .ok node := by
      cases r with
      | error e => cases failed : s.building.error <;> rw [failed] at result <;> cases result
      | ok node => exact ⟨node, rfl⟩
    obtain ⟨node, rfl⟩ := succeeded
    obtain ⟨complete, nodes, built, -⟩ := Parser.parseAll_builds parsed
    obtain ⟨k, ds', document⟩ := document_of_builds built
    rcases readDefinitions_of_document complete document with
      ⟨fresh, shallow, same⟩ | ⟨-, -, rule, limit, place, failed⟩ | ⟨-, e, failed⟩
    · cases read.symm.trans same
      exact ⟨complete, fresh, k, document, shallow⟩
    · cases read.symm.trans failed
    · cases read.symm.trans failed
  · rintro ⟨complete, fresh, k, document, shallow⟩
    rcases readDefinitions_of_document complete document with
      ⟨-, -, read⟩ | ⟨-, deep, -⟩ | ⟨taken, -⟩
    · exact read
    · exact absurd shallow (Nat.not_le.2 deep)
    · exact absurd fresh taken

end Rowlang
