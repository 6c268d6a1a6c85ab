import Rowlang.Proofs.Grammar.Layout
import Rowlang.Proofs.Grammar.Reading
import Rowlang.Proofs.Grammar.Unfolding

/-!
# Written definitions are compiled

* `Phrase` : the right side of a definition as an author has it in mind, with sequences and alternatives of
  any number of parts;
* `Phrase.body` : its body, in which sequences and alternatives nest to the right;
* `Phrase.lexemes`, `Phrase.nesting` : the way to write it, with operands in parentheses, and how deep
  these are nested;
* `Grammar.ofText_writtenRules` : the text of written definitions is compiled into a grammar that has
  these bodies, or nesting is too deep.
-/

namespace Rowlang
open Rowlang.Text

/-! ## Phrases -/

/-- The right side of a definition. -/
inductive Phrase where
  | literal (text : String)
  /-- a lexical pattern, or a rule -/
  | name (name : String)
  | seq (first : Phrase) (rest : List Phrase)
  | alt (first : Phrase) (rest : List Phrase)
  | opt (inner : Phrase)
  | star (inner : Phrase)
  | plus (inner : Phrase)
  | ahead (count : Nat)
  | guarded (inner : Phrase)

namespace Phrase

mutual

/-- The body of a phrase: sequences and alternatives nest to the right. -/
def body : Phrase → Body
  | literal text => .literal text
  | name n => .name n
  | seq first rest => .sequence first.body (bodies rest)
  | alt first rest => .choice first.body (bodies rest)
  | opt inner => .opt inner.body
  | star inner => .star inner.body
  | plus inner => .plus inner.body
  | ahead count => .ahead count
  | guarded inner => .guarded inner.body

def bodies : List Phrase → List Body
  | [] => []
  | p :: ps => p.body :: bodies ps

end

/-- A sequence, a choice or a repetition. -/
def isCompound : Phrase → Bool
  | seq _ _ | alt _ _ | opt _ | star _ | plus _ => true
  | literal _ | name _ | ahead _ | guarded _ => false

/-! ## The written form -/

/-- Lexemes in parentheses, if so required. -/
def enclosed (required : Bool) (ls : List Lexeme) : List Lexeme :=
  if required then .symbol "(" :: (ls ++ [.symbol ")"]) else ls

section
variable (also : Phrase → Bool)

/-- Whether an operand is written in parentheses: where it is compound, and where `also` asks for them. -/
def encloses (p : Phrase) : Bool := p.isCompound || also p

mutual

def lexemes : Phrase → List Lexeme
  | literal text => [⟨lexicalLeaf "String", (quoteLiteral text).toList⟩]
  | name n => [⟨lexicalLeaf "Name", n.toList⟩]
  | seq first rest => enclosed (encloses also first) (lexemes first) ++ sequel rest
  | alt first rest => enclosed (encloses also first) (lexemes first) ++ alternatives rest
  | opt inner => enclosed (encloses also inner) (lexemes inner) ++ [.symbol "?"]
  | star inner => enclosed (encloses also inner) (lexemes inner) ++ [.symbol "*"]
  | plus inner => enclosed (encloses also inner) (lexemes inner) ++ [.symbol "+"]
  | ahead count => [.symbol "LookAhead", .symbol "(",
      ⟨lexicalLeaf "Number", (toString count).toList⟩, .symbol ")"]
  | guarded inner => .symbol "LookAhead" :: .symbol "(" :: (lexemes inner ++ [.symbol ")"])

/-- The written form of the later parts of a sequence. -/
def sequel : List Phrase → List Lexeme
  | [] => []
  | p :: ps => enclosed (encloses also p) (lexemes p) ++ sequel ps

/-- The written form of the later alternatives. -/
def alternatives : List Phrase → List Lexeme
  | [] => []
  | p :: ps => .symbol "|" :: (enclosed (encloses also p) (lexemes p) ++ alternatives ps)

end

mutual

/-- How many parentheses and checks are nested in the written form of a phrase. -/
def nesting : Phrase → Nat
  | literal _ | name _ | ahead _ => 0
  | seq first rest | alt first rest =>
    max (nesting first + (encloses also first).toNat) (nestingAll rest)
  | opt inner | star inner | plus inner => nesting inner + (encloses also inner).toNat
  | guarded inner => nesting inner + 1

def nestingAll : List Phrase → Nat
  | [] => 0
  | p :: ps => max (nesting p + (encloses also p).toNat) (nestingAll ps)

end

end

theorem induct {motive : Phrase → Prop} (literal : ∀ text, motive (.literal text))
    (name : ∀ n, motive (.name n))
    (seq : ∀ first rest, motive first → (∀ p ∈ rest, motive p) → motive (.seq first rest))
    (alt : ∀ first rest, motive first → (∀ p ∈ rest, motive p) → motive (.alt first rest))
    (opt : ∀ inner, motive inner → motive (.opt inner))
    (star : ∀ inner, motive inner → motive (.star inner))
    (plus : ∀ inner, motive inner → motive (.plus inner)) (ahead : ∀ count, motive (.ahead count))
    (guarded : ∀ inner, motive inner → motive (.guarded inner)) (p : Phrase) : motive p :=
  Phrase.rec (motive_1 := motive) (motive_2 := fun ps => ∀ p ∈ ps, motive p) literal name seq alt opt
    star plus ahead guarded (by simp) (fun _ _ h hs => List.forall_mem_cons.2 ⟨h, hs⟩) p

/-! ## What is written is in the notation -/

/-- How tightly the written form of a phrase binds. -/
def rank : Phrase → Rank
  | literal _ | name _ | ahead _ | guarded _ => .primary
  | opt _ | star _ | plus _ => .counted
  | seq _ _ => .sequence
  | alt _ _ => .choice

section
variable {also : Phrase → Bool} {p : Phrase}

theorem mark_written {s : String} (listed : s ∈ "LookAhead" :: markTexts) :
    lexemeSpelling.mark s (.symbol s) := ⟨listed, rfl⟩

theorem operand_written (h : Written lexemeSpelling p.rank (p.nesting also) (p.lexemes also) p.body) :
    Written lexemeSpelling .primary (p.nesting also + (encloses also p).toNat)
      (enclosed (encloses also p) (p.lexemes also)) p.body := by
  cases required : encloses also p with
  | true => exact .group (mark_written (by decide)) h.loosen (mark_written (by decide))
  | false =>
    have simple : p.isCompound = false := (Bool.or_eq_false_iff.1 required).1
    have primary : p.rank = .primary := by cases p <;> first | rfl | cases simple
    exact primary ▸ h

theorem sequel_written {ps : List Phrase} (each : ∀ q ∈ p :: ps,
    Written lexemeSpelling q.rank (q.nesting also) (q.lexemes also) q.body) :
    Written lexemeSpelling .sequence
      (max (p.nesting also + (encloses also p).toNat) (nestingAll also ps))
      (enclosed (encloses also p) (p.lexemes also) ++ sequel also ps)
      (.sequence p.body (bodies ps)) := by
  induction ps generalizing p with
  | nil =>
    rw [sequel, nestingAll, bodies, List.append_nil, Nat.max_zero]
    exact .single (.once (operand_written (each p List.mem_cons_self)))
  | cons q qs ih =>
    obtain ⟨here, others⟩ := List.forall_mem_cons.1 each
    exact .seq (.once (operand_written here)) (ih others)

theorem alternatives_written {ps : List Phrase} (each : ∀ q ∈ p :: ps,
    Written lexemeSpelling q.rank (q.nesting also) (q.lexemes also) q.body) :
    Written lexemeSpelling .choice
      (max (p.nesting also + (encloses also p).toNat) (nestingAll also ps))
      (enclosed (encloses also p) (p.lexemes also) ++ alternatives also ps)
      (.choice p.body (bodies ps)) := by
  induction ps generalizing p with
  | nil =>
    rw [alternatives, nestingAll, bodies, List.append_nil, Nat.max_zero]
    exact (operand_written (each p List.mem_cons_self)).loosen
  | cons q qs ih =>
    obtain ⟨here, others⟩ := List.forall_mem_cons.1 each
    exact .alt (.single (.once (operand_written here))) (mark_written (by decide)) (ih others)

theorem spellable_bodies {ps : List Phrase} (h : ∀ x ∈ p.body :: bodies ps, x.Spellable) :
    ∀ q ∈ p :: ps, q.body.Spellable := by
  induction ps generalizing p with
  | nil => simpa [bodies] using h
  | cons q qs ih =>
    obtain ⟨here, others⟩ := List.forall_mem_cons.1 h
    exact List.forall_mem_cons.2 ⟨here, ih others⟩

/-- **The written form of a phrase is a way to write its body.** -/
theorem written (h : p.body.Spellable) :
    Written lexemeSpelling p.rank (p.nesting also) (p.lexemes also) p.body := by
  induction p using induct with
  | literal text => exact .literal rfl
  | name n => exact .name ⟨h, rfl⟩
  | seq first rest ihFirst ihRest =>
    have each := spellable_bodies (Body.spellable_sequence.1 h)
    exact sequel_written fun q listed => by
      rcases List.mem_cons.1 listed with rfl | later
      · exact ihFirst (each _ List.mem_cons_self)
      · exact ihRest q later (each q listed)
  | alt first rest ihFirst ihRest =>
    have each := spellable_bodies (Body.spellable_choice.1 h)
    exact alternatives_written fun q listed => by
      rcases List.mem_cons.1 listed with rfl | later
      · exact ihFirst (each _ List.mem_cons_self)
      · exact ihRest q later (each q listed)
  | opt inner ih => exact .opt (operand_written (ih h)) (mark_written (by decide))
  | star inner ih => exact .star (operand_written (ih h)) (mark_written (by decide))
  | plus inner ih => exact .plus (operand_written (ih h)) (mark_written (by decide))
  | ahead count =>
    exact .ahead (mark_written (by decide)) (mark_written (by decide)) ⟨h, rfl⟩
      (mark_written (by decide))
  | guarded inner ih =>
    exact .guarded (mark_written (by decide)) (mark_written (by decide)) (ih h).loosen
      (mark_written (by decide))

end

end Phrase

/-! ## Whole texts -/

/-- A definition whose right side is a phrase. -/
structure PhraseRule where
  name : String
  phrase : Phrase

namespace PhraseRule

/-- The definition with the body of the phrase. -/
def definition (r : PhraseRule) : Definition := ⟨r.name, r.phrase.body⟩

section
variable (also : Phrase → Bool)

def lexemes (r : PhraseRule) : List Lexeme :=
  ⟨lexicalLeaf "Name", r.name.toList⟩ :: .symbol "\x7b" :: (r.phrase.lexemes also ++ [.symbol "\x7d"])

def words (rules : List PhraseRule) : List (List Char) :=
  (rules.flatMap (lexemes also)).map (·.text)

/-- How many parentheses and checks are nested in the written form of some definitions. -/
def nesting (rules : List PhraseRule) : Nat :=
  rules.foldr (fun r n => max (r.phrase.nesting also) n) 0

end

variable {also : Phrase → Bool} {rules : List PhraseRule}

theorem document (names : ∀ r ∈ rules, IsRuleName r.name)
    (spellable : ∀ r ∈ rules, r.phrase.body.Spellable) :
    Document lexemeSpelling (nesting also rules) (rules.flatMap (lexemes also))
      (rules.map definition) := by
  induction rules with
  | nil => exact .nil
  | cons r rules ih =>
    obtain ⟨name, names⟩ := List.forall_mem_cons.1 names
    obtain ⟨here, others⟩ := List.forall_mem_cons.1 spellable
    have later := ih names others
    rw [List.flatMap_cons, lexemes, List.cons_append, List.cons_append, List.append_assoc]
    exact .cons ⟨name, rfl⟩ (Phrase.mark_written (by decide)) (Phrase.written here).loosen
      (Phrase.mark_written (by decide)) later

end PhraseRule

/-- **Written definitions are compiled.** The definitions are admissible: their names are distinct and none
of them reserved, every name in a body is one of them or that of a lexical pattern, and each round of a
repetition consumes something. However the text is laid out, and whichever further operands are put in
parentheses, the grammar has these definitions in their order and starts with the first, unless they
are nested too deep. -/
theorem Grammar.ofText_written {rules : List PhraseRule} (also : Phrase → Bool)
    (admissible : Definition.Admissible (rules.map (·.definition)))
    (names : ∀ r ∈ rules, IsRuleName r.name)
    (counts : ∀ r ∈ rules, ∀ n ∈ r.phrase.body.counts, 1 ≤ n ∧ n < 2 ^ 64) {text : String}
    (spaced : Spaced text.toList (PhraseRule.words also rules)) :
    (7 + 5 * PhraseRule.nesting also rules ≤ defaultLimit → ∃ g, Grammar.ofText text = .ok g ∧
      g.definitions = some (rules.map (·.definition)) ∧ g.ruleNames = rules.map (·.name) ∧
        g.name? g.start = (rules.map (·.name)).head?) ∧
    (defaultLimit < 7 + 5 * PhraseRule.nesting also rules → ∃ rule limit place,
      Grammar.ofText text = .error (.parse (.tooDeep rule limit place))) := by
  have spellable : ∀ r ∈ rules, r.phrase.body.Spellable := by
    refine fun r listed => Body.spellable_of (fun n mentioned => ?_) (counts r listed)
    have known := admissible.closed _ (List.mem_map_of_mem listed) n mentioned
    rw [List.map_map] at known
    obtain ⟨r', listed', rfl⟩ := List.mem_map.1 known
    exact names r' listed'
  obtain ⟨complete, document⟩ := document_of_spaced (PhraseRule.document names spellable) spaced
  have fresh : Definition.Fresh [] (rules.map (·.definition)) :=
    Definition.fresh_nil_iff.2 ⟨admissible.unreserved, admissible.distinct⟩
  have levels : textLevels (PhraseRule.nesting also rules) (rules.map (·.definition)) =
      7 + 5 * PhraseRule.nesting also rules := by
    rw [textLevels, roundLevels, if_neg admissible.nonempty]
    omega
  rw [← levels]
  rcases readDefinitions_of_document complete document with
    ⟨-, shallow, read⟩ | ⟨-, deep, rule, limit, place, failed⟩ | ⟨taken, -⟩
  · refine ⟨fun _ => ?_, fun deep => absurd shallow (Nat.not_le.2 deep)⟩
    obtain ⟨g, built⟩ := Grammar.exists_of_admissible admissible
    have compiles := (Grammar.compiles_of_ofDefinitions built).1
    refine ⟨g, by rw [Grammar.ofText, read]; exact built, compiles.definitions_eq, ?_, ?_⟩
    · rw [compiles.ruleNames_eq, List.map_map]
      rfl
    · rw [compiles.start_name, List.map_map]
      rfl
  · refine ⟨fun shallow => absurd shallow (Nat.not_le.2 deep), fun _ => ⟨rule, limit, place, ?_⟩⟩
    rw [Grammar.ofText, failed]
    rfl
  · exact absurd fresh taken

/-- Rows of cells: nested operands of each kind, escapes in a literal, and rules that refer to each
other. -/
def rowRules : List PhraseRule := [
  ⟨"Row", .seq (.name "Cell") [.star (.seq (.literal ",") [.name "Cell"])]⟩,
  ⟨"Cell", .alt (.seq (.ahead 2) [.seq (.name "Name") [.literal "\"\\"], .opt (.plus (.literal ""))])
    [.guarded (.alt (.literal "|") [.name "Number"]), .seq (.literal "(") [.name "Row", .literal ")"]]⟩]

theorem rowRules_admissible : Definition.Admissible (rowRules.map (·.definition)) := by
  have built : (Grammar.ofDefinitions (rowRules.map (·.definition))).toOption.isSome = true := by
    decide +kernel
  exact (Grammar.compiles_of_ofDefinitions (eq_ok_get built)).2

theorem rowRules_names : ∀ r ∈ rowRules, IsRuleName r.name := by
  have each : ∀ r ∈ rowRules, isNameText r.name = true := by decide
  exact fun r listed => isRuleName_of_isNameText (each r listed)

/-- The rows are compiled, with a blank in front of each word and with the further operands that are no
names in parentheses. -/
theorem Grammar.ofText_written_rows :
    let also : Phrase → Bool := fun
      | .name _ => false
      | _ => true
    let text := String.ofList (spread (PhraseRule.words also rowRules))
    7 + 5 * PhraseRule.nesting also rowRules ≤ defaultLimit ∧ ∃ g, Grammar.ofText text = .ok g ∧
      g.definitions = some (rowRules.map (·.definition)) ∧ g.ruleNames = ["Row", "Cell"] ∧
        g.name? g.start = some "Row" := by
  intro also text
  have shallow : 7 + 5 * PhraseRule.nesting also rowRules ≤ defaultLimit := by decide
  have counts : ∀ r ∈ rowRules, ∀ n ∈ r.phrase.body.counts, 1 ≤ n ∧ n < 2 ^ 64 := by decide
  refine ⟨shallow, (Grammar.ofText_written also rowRules_admissible rowRules_names counts ?_).1 shallow⟩
  rw [String.toList_ofList]
  exact spaced_spread _

end Rowlang
