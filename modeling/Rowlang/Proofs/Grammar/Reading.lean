import Rowlang.Proofs.Grammar.Notation

/-!
# Reading a text of definitions

What becomes of a text whose tokens are a way to write some definitions.

* `Definition.Fresh` : the names of definitions can be added to those there;
* `Document.answered`, `Document.refused` : the definitions are added one after the other, unless a name
  is taken;
* `textLevels` : the levels of nesting that a text takes;
* `readDefinitions_of_document` : the definitions are read, unless a name is taken or nesting is too
  deep.
-/

namespace Rowlang
open Rowlang.Text

/-! ## Names -/

/-- The names of the definitions can be added to those of the definitions there. -/
structure Definition.Fresh (before ds : List Definition) : Prop where
  unreserved : ∀ d ∈ ds, isLexical d.name = false
  distinct : ((before ++ ds).map (·.name)).Nodup

section
variable {before ds : List Definition} {d : Definition} {s : DefinitionState} {name : String} {x : Body}

theorem Definition.fresh_cons : Definition.Fresh before (d :: ds) ↔
    (isLexical d.name = false ∧ d.name ∉ before.map (·.name)) ∧ Definition.Fresh (before ++ [d]) ds := by
  have same : before ++ d :: ds = before ++ [d] ++ ds := by simp
  constructor
  · rintro ⟨unreserved, distinct⟩
    obtain ⟨reserved, others⟩ := List.forall_mem_cons.1 unreserved
    refine ⟨⟨reserved, fun listed => ?_⟩, others, same ▸ distinct⟩
    rw [List.map_append, List.nodup_append] at distinct
    exact distinct.2.2 _ listed _ (by simp) rfl
  · rintro ⟨⟨reserved, -⟩, unreserved, distinct⟩
    exact ⟨List.forall_mem_cons.2 ⟨reserved, unreserved⟩, same ▸ distinct⟩

theorem Definition.fresh_nil_iff : Definition.Fresh [] ds ↔
    (∀ d ∈ ds, isLexical d.name = false) ∧ (ds.map (·.name)).Nodup :=
  ⟨fun h => ⟨h.unreserved, h.distinct⟩, fun h => ⟨h.1, h.2⟩⟩

theorem DefinitionState.define_of_fresh (unreserved : isLexical name = false)
    (fresh : name ∉ s.definitions.map (·.name)) :
    s.define name x = (.ok .done, { s with definitions := s.definitions ++ [⟨name, x⟩] }) := by
  have new : s.definitions.any (·.name == name) = false := by simpa using fresh
  simp [define, unreserved, new]

theorem DefinitionState.define_of_taken
    (taken : ¬ (isLexical name = false ∧ name ∉ s.definitions.map (·.name))) :
    ∃ reason s', s.define name x = (.error reason, s') := by
  unfold define
  split
  · exact ⟨_, _, rfl⟩
  · split
    · exact ⟨_, _, rfl⟩
    · rename_i unreserved new
      exact absurd ⟨by simpa using unreserved, by simpa using new⟩ taken

end

section Reading
open Body
open Rowlang.Parser

variable {before ds : List Definition} {ts v w : List Token} {x : Body} {m k : Nat} {name : String}
  {n o c : Token} {s : DefinitionState}

/-! ## One definition -/

theorem ruleDef_parts (h : tokenSpelling.name name n) (opens : tokenSpelling.mark "\x7b" o)
    (inner : Written tokenSpelling .choice m w x) (closes : tokenSpelling.mark "\x7d" c) :
    definitionParser.Answers
      (seq (.name "Name") (seq (literal "\x7b") (seq (.name "Expression") (literal "\x7d")))) (5 + 5 * m)
      (n :: o :: (w ++ c :: v)) s (some [.token n, .token o, .body x, .token c]) v s :=
  (answers_seq definitionGrammar_compiles (by simp) (leaf_answers rfl h.1)
    (answers_seq definitionGrammar_compiles (by simp) (leaf_answers rfl opens.1)
      (answers_seq definitionGrammar_compiles (by simp)
        (expression_answers inner.answered (choiceExtend_avoided closes (by simp)))
        (leaf_answers rfl closes.1)))).of_need (by omega)

theorem ruleDef_answers (h : tokenSpelling.name name n) (opens : tokenSpelling.mark "\x7b" o)
    (inner : Written tokenSpelling .choice m w x) (closes : tokenSpelling.mark "\x7d" c)
    (fresh : isLexical name = false ∧ name ∉ before.map (·.name)) :
    definitionParser.Answers (.name "RuleDef") (5 + 5 * m + 1) (n :: o :: (w ++ c :: v)) ⟨before, none⟩
      (some [.done]) v ⟨before ++ [⟨name, x⟩], none⟩ := by
  obtain ⟨-, -, rfl⟩ := id h
  exact rule_answers defined_ruleDef (ruleDef_parts h opens inner closes)
    (DefinitionState.define_of_fresh fresh.1 fresh.2)

theorem ruleDef_fails (h : tokenSpelling.name name n) (opens : tokenSpelling.mark "\x7b" o)
    (inner : Written tokenSpelling .choice m w x) (closes : tokenSpelling.mark "\x7d" c)
    (taken : ¬ (isLexical name = false ∧ name ∉ before.map (·.name))) :
    definitionParser.Fails (.name "RuleDef") (n :: o :: (w ++ c :: v)) ⟨before, none⟩ := by
  obtain ⟨-, -, rfl⟩ := id h
  obtain ⟨reason, s', refused⟩ :=
    DefinitionState.define_of_taken (s := ⟨before, none⟩) (x := x) taken
  exact fails_refused definitionGrammar_compiles defined_ruleDef (by decide)
    (ruleDef_parts h opens inner closes) refused

theorem ruleDef_none : definitionParser.Answers (.name "RuleDef") 1 [] s none [] s :=
  rule_answers_none defined_ruleDef (answers_seq_none definitionGrammar_compiles (by simp)
    (leaf_answers_none rfl (by rintro t ⟨⟩)))

/-! ## All definitions -/

/-- The levels of nesting that the rounds of definitions take. -/
def roundLevels (k : Nat) (ds : List Definition) : Nat := if ds = [] then 1 else 6 + 5 * k

/-- The levels of nesting that a text of definitions takes, with so many brackets nested in them. -/
def textLevels (k : Nat) (ds : List Definition) : Nat := roundLevels k ds + 1

/-- Definitions with fresh names are added one after the other. -/
theorem Document.answered (h : Document tokenSpelling k ts ds) (fresh : Definition.Fresh before ds) :
    definitionParser.AnswersRounds (.name "RuleDef") (roundLevels k ds) ts ⟨before, none⟩
      (ds.map fun _ => .done) [] ⟨before ++ ds, none⟩ := by
  induction h generalizing before with
  | nil =>
    rw [List.append_nil]
    exact rounds_nil ruleDef_none
  | @cons m k n o c w x ts ds name h opens inner closes others ih =>
    obtain ⟨new, later⟩ := Definition.fresh_cons.1 fresh
    have shorter : ts.length < (n :: o :: (w ++ c :: ts)).length := by simp; omega
    have rounds := rounds_cons shorter (ruleDef_answers h opens inner closes new) (ih later)
    rw [List.append_assoc] at rounds
    refine rounds.of_need ?_
    cases others with
    | nil => simp only [roundLevels, reduceIte, reduceCtorEq]; omega
    | cons => simp only [roundLevels, reduceIte, reduceCtorEq]; omega

/-- Definitions of which a name is taken are refused. -/
theorem Document.refused (h : Document tokenSpelling k ts ds)
    (distinct : (before.map (·.name)).Nodup) (taken : ¬ Definition.Fresh before ds) :
    definitionParser.FailsRounds (.name "RuleDef") ts ⟨before, none⟩ := by
  induction h generalizing before with
  | nil => exact absurd ⟨by simp, by simpa using distinct⟩ taken
  | @cons m k n o c w x ts ds name h opens inner closes _ ih =>
    by_cases new : isLexical name = false ∧ name ∉ before.map (·.name)
    · have shorter : ts.length < (n :: o :: (w ++ c :: ts)).length := by simp; omega
      refine failsRounds_later shorter (ruleDef_answers h opens inner closes new) (ih ?_ ?_)
      · rw [List.map_append, List.nodup_append]
        refine ⟨distinct, by simp, ?_⟩
        rintro a listed b single rfl
        obtain rfl := List.mem_singleton.1 single
        exact new.2 listed
      · exact fun later => taken (Definition.fresh_cons.2 ⟨new, later⟩)
    · exact failsRounds_first (ruleDef_fails h opens inner closes new)

/-! ## Whole texts -/

theorem defined_grammar : (⟨"Grammar", star (.name "RuleDef")⟩ : Definition) ∈ definitionRules := by
  decide

theorem definitionGrammar_start :
    definitionParser.grammar.arena.Unfolds (.name "Grammar") definitionGrammar.start := by
  refine .rule (by decide) ?_
  have compiles : definitionGrammar.Compiles (⟨"Grammar", star (.name "RuleDef")⟩ :: _) :=
    definitionGrammar_compiles
  exact compiles.start_rule.1

theorem at_of_scan {text : String} (complete : ∃ place, (definitionGrammar.scan text).ending = .complete place) :
    ParseState.At (⟨.ofScan (definitionGrammar.scan text), ⟨[], none⟩⟩ : ParseState DefinitionState)
      (definitionGrammar.scan text).tokens ⟨[], none⟩ :=
  ⟨rfl, complete, rfl⟩

theorem readDefinitions_of_parseAll {text : String} {r : Except ParseError DefinitionNode}
    {s : ParseState DefinitionState} :
    definitionParser.parseAll definitionGrammar.start
        ⟨.ofScan (definitionGrammar.scan text), ⟨[], none⟩⟩ = (r, s) →
      readDefinitions text = match s.building.error, r with
        | some e, _ => .error e
        | none, .error e => .error (.parse e)
        | none, .ok _ => .ok s.building.definitions := by
  intro h
  have parsed : Parser.parse ⟨definitionGrammar, definitionBuilder, defaultLimit⟩ text ⟨[], none⟩ =
      (r, s) := h
  rewrite [readDefinitions, parsed]
  rfl

theorem definitionBuilder_keeps {name : String} {nodes : List DefinitionNode} {b c : DefinitionState}
    {node : DefinitionNode} (clean : b.error = none)
    (built : definitionBuilder.rule name nodes b = (.ok node, c)) : c.error = none := by
  unfold definitionBuilder at built
  dsimp only at built
  split at built
  · cases built
    exact clean
  · split at built
    · unfold DefinitionState.define at built
      split at built
      · cases built
      · split at built
        · cases built
        · cases built
          exact clean
    · cases built
  · cases built
  · obtain ⟨-, rfl⟩ := Prod.mk.inj built
    exact clean

/-- The reader remembers an error only of a name that it refused. -/
theorem error_of_run {depth : Nat} {within : Option Nat} {a : Attempt} {s s' : ParseState DefinitionState}
    {e : ParseError} (run : definitionParser.Run depth within a s (.error e) s')
    (clean : s.building.error = none) (other : ∀ rule reason l c, e ≠ .rejected rule reason l c) :
    s'.building.error = none := by
  refine (run.building (I := (·.error = none)) definitionBuilder_keeps clean).resolve_right ?_
  rintro ⟨rule, reason, l, c, same⟩
  cases same
  exact other _ _ _ _ rfl

/-- **A text whose tokens are a way to write some definitions** is read as these definitions, unless a name
in it is taken or nesting is too deep. -/
theorem readDefinitions_of_document {text : String}
    (complete : ∃ place, (definitionGrammar.scan text).ending = .complete place)
    (h : Document tokenSpelling k (definitionGrammar.scan text).tokens ds) :
    Definition.Fresh [] ds ∧ textLevels k ds ≤ defaultLimit ∧ readDefinitions text = .ok ds ∨
      (Definition.Fresh [] ds ∧ defaultLimit < textLevels k ds ∧ ∃ rule limit place,
        readDefinitions text = .error (.parse (.tooDeep rule limit place))) ∨
      ¬ Definition.Fresh [] ds ∧ ∃ e, readDefinitions text = .error e := by
  have there := at_of_scan complete
  by_cases fresh : Definition.Fresh [] ds
  · have built : definitionBuilder.rule "Grammar" (ds.map fun _ => .done) ⟨[] ++ ds, none⟩ =
        (.ok .done, ⟨ds, none⟩) := rfl
    obtain ⟨enough, tooDeep⟩ := (rule_answers defined_grammar (answers_star (h.answered fresh))
      built).parseAll definitionGrammar_start there
    rcases Nat.lt_or_ge defaultLimit (textLevels k ds) with deep | shallow
    · obtain ⟨rule, limit, place, s', parsed, run⟩ := tooDeep deep
      refine .inr (.inl ⟨fresh, deep, rule, limit, place, ?_⟩)
      rw [readDefinitions_of_parseAll parsed, error_of_run run rfl (by simp)]
    · obtain ⟨s', parsed, building⟩ := enough shallow
      refine .inl ⟨fresh, shallow, ?_⟩
      rw [readDefinitions_of_parseAll parsed, building]
  · have fails : definitionParser.Fails (.name "Grammar") (definitionGrammar.scan text).tokens
        ⟨[], none⟩ :=
      fails_named definitionGrammar_compiles defined_grammar (by decide)
        (fails_star (h.refused (by simp) fresh))
    obtain ⟨e, failed⟩ := fails.parseAll definitionGrammar_start there
    refine .inr (.inr ⟨fresh, ?_⟩)
    cases parsed : definitionParser.parseAll definitionGrammar.start
      ⟨.ofScan (definitionGrammar.scan text), ⟨[], none⟩⟩ with | mk r s' =>
    obtain rfl : r = .error e := by rw [← failed, parsed]
    rw [readDefinitions_of_parseAll parsed]
    cases s'.building.error with
    | none => exact ⟨_, rfl⟩
    | some e => exact ⟨e, rfl⟩

end Reading

end Rowlang
