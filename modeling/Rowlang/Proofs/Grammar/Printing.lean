import Rowlang.Proofs.Grammar.Layout
import Rowlang.Proofs.Grammar.Recognition
import Rowlang.Proofs.Grammar.Regrouping
import Rowlang.Proofs.Grammar.Unfolding

/-!
# Definitions as they are printed

* `Body.describeIn`, `Definition.describe` : the printed form of what a grammar was compiled from;
* `Prints` : a printed form is made of lexemes, with blanks wherever two of them would run together;
* `Definition.printed` : the lexemes of definitions are a way to write them, regrouped;
* `Body.piled` : where a mark of repetition stands directly on another, they are not;
* `Grammar.ofText_render` : so the printed form of a grammar is read unless there is such a place, and the
  grammar read from it is printed the same.
-/

namespace Rowlang
open Rowlang.Text

/-! ## The printed form of a body -/

/-- The printed form of a body within a construct that binds as `outer` says. -/
def Body.describeIn (outer : Binding) : Body → String
  | .literal text => quoteLiteral text
  | .name n => n
  | .seq x y =>
    Binding.sequence.enclose outer (x.describeIn .sequence ++ " " ++ y.describeIn .sequence)
  | .alt x y => Binding.choice.enclose outer (x.describeIn .choice ++ " | " ++ y.describeIn .choice)
  | .opt x => x.describeIn .counted ++ "?"
  | .star x => x.describeIn .counted ++ "*"
  | .plus x => x.describeIn .counted ++ "+"
  | .ahead count => "LookAhead(" ++ toString count ++ ")"
  | .guarded x => "LookAhead(" ++ x.describeIn .choice ++ ")"

def Definition.describe (d : Definition) : String :=
  d.name ++ " \x7b " ++ d.body.describeIn .choice ++ " \x7d\n"

namespace Grammar
variable {g : Grammar} {ds : List Definition} {id : Nat}

/-- What stands for a body is printed as the body is. -/
theorem Compiles.describeIn_eq (h : g.Compiles ds) {x : Body} (stands : g.arena.Unfolds x id)
    (outer : Binding) : g.describeIn outer id = x.describeIn outer := by
  induction stands generalizing outer with
  | literal shape leaf | lexical _ shape leaf =>
    have leaf : g.lexicon.patterns[_]? = some _ := leaf
    simp only [describeIn_of_shape shape, describeLeaf, leaf, Body.describeIn]
  | @rule n id _ found =>
    obtain ⟨-, -, -, body, shape, -⟩ := h.defined found
    have name : g.name? id = some n := by simpa using List.find?_some found
    simp only [describeIn_of_shape shape, name, Option.getD_some, Body.describeIn]
  | seq shape _ _ ihx ihy | alt shape _ _ ihx ihy =>
    simp only [describeIn_of_shape shape, ihx, ihy, Body.describeIn]
  | opt shape _ ih | star shape _ ih | plus shape _ ih | guarded shape _ ih =>
    simp only [describeIn_of_shape shape, ih, Body.describeIn]
  | ahead shape => simp only [describeIn_of_shape shape, Body.describeIn]

/-- A grammar that was compiled is printed as its definitions are. -/
theorem Compiles.render_eq (h : g.Compiles ds) : g.render = String.join (ds.map (·.describe)) := by
  have each : List.Forall₂ (fun d id => g.renderDefinition id = d.describe) ds g.order := by
    refine h.rules.imp ?_
    rintro d id ⟨name, -, body, shape, inner⟩
    simp only [renderDefinition, shape, name, Option.getD_some, describe, h.describeIn_eq inner,
      Definition.describe]
  rw [render]
  clear h
  generalize g.order = ids at each
  congr 1
  induction each with
  | nil => rfl
  | cons same _ ih => rw [List.map_cons, List.map_cons, same, ih]

end Grammar

/-! ## Regrouped bodies -/

namespace Body

theorem describeIn_seq (x y : Body) (outer : Binding) : (Body.seq x y).describeIn outer =
    Binding.sequence.enclose outer ((Body.seq x y).describeIn .sequence) := rfl

theorem describeIn_alt (x y : Body) (outer : Binding) : (Body.alt x y).describeIn outer =
    Binding.choice.enclose outer ((Body.alt x y).describeIn .choice) := rfl

theorem describeIn_seqAppend (x y : Body) (outer : Binding) :
    (x.seqAppend y).describeIn outer = (Body.seq x y).describeIn outer := by
  induction x generalizing outer with
  | seq a b _ ih =>
    rw [seqAppend, describeIn, ih, describeIn_seq b, describeIn, describeIn, describeIn]
    simp only [Binding.enclose, Nat.lt_irrefl, if_false, String.append_assoc]
  | _ => rfl

theorem describeIn_altAppend (x y : Body) (outer : Binding) :
    (x.altAppend y).describeIn outer = (Body.alt x y).describeIn outer := by
  induction x generalizing outer with
  | alt a b _ ih =>
    rw [altAppend, describeIn, ih, describeIn_alt b, describeIn, describeIn, describeIn]
    simp only [Binding.enclose, Nat.lt_irrefl, if_false, String.append_assoc]
  | _ => rfl

theorem describeIn_regroup (x : Body) (outer : Binding) :
    x.regroup.describeIn outer = x.describeIn outer := by
  induction x generalizing outer with
  | literal | name | ahead => rfl
  | seq x y ihx ihy => rw [regroup, describeIn_seqAppend, describeIn, ihx, ihy, describeIn]
  | alt x y ihx ihy => rw [regroup, describeIn_altAppend, describeIn, ihx, ihy, describeIn]
  | opt x ih | star x ih | plus x ih | guarded x ih => rw [regroup, describeIn, ih, describeIn]

end Body

theorem Definition.describe_regroup (d : Definition) : d.regroup.describe = d.describe := by
  rw [describe, describe, regroup, Body.describeIn_regroup]

/-! ## The lexemes of the printed form -/

def Binding.bracket (inner outer : Binding) (ls : List Lexeme) : List Lexeme :=
  if inner.level < outer.level then .symbol "(" :: (ls ++ [.symbol ")"]) else ls

/-- The lexemes of the printed form of a body. -/
def Body.lexemesIn (outer : Binding) : Body → List Lexeme
  | .literal text => [⟨lexicalLeaf "String", (quoteLiteral text).toList⟩]
  | .name n => [⟨lexicalLeaf "Name", n.toList⟩]
  | .seq x y => Binding.sequence.bracket outer (x.lexemesIn .sequence ++ y.lexemesIn .sequence)
  | .alt x y =>
    Binding.choice.bracket outer (x.lexemesIn .choice ++ .symbol "|" :: y.lexemesIn .choice)
  | .opt x => x.lexemesIn .counted ++ [.symbol "?"]
  | .star x => x.lexemesIn .counted ++ [.symbol "*"]
  | .plus x => x.lexemesIn .counted ++ [.symbol "+"]
  | .ahead count => [.symbol "LookAhead", .symbol "(",
      ⟨lexicalLeaf "Number", (toString count).toList⟩, .symbol ")"]
  | .guarded x => .symbol "LookAhead" :: .symbol "(" :: (x.lexemesIn .choice ++ [.symbol ")"])

def Definition.lexemes (d : Definition) : List Lexeme :=
  ⟨lexicalLeaf "Name", d.name.toList⟩ :: .symbol "\x7b" ::
    (d.body.lexemesIn .choice ++ [.symbol "\x7d"])

def Lexeme.words (ls : List Lexeme) : List (List Char) := ls.map (·.text)

section
variable {rest w : List Char} {ws : List (List Char)}

theorem Spaced.blank {c : Char} (h : Spaced rest ws) (here : isBlank c = true) :
    Spaced (c :: rest) ws := by
  have blank {gap : List Char} (h : ∀ c ∈ gap, isBlank c = true) : ∀ d ∈ c :: gap, isBlank d = true :=
    List.forall_mem_cons.2 ⟨here, h⟩
  cases h with
  | ended gap => exact .ended (blank gap)
  | word gap apart later => exact .word (blank gap) apart later

theorem Spaced.cons (apart : ∀ c ∈ w.getLast?, ∀ d ∈ rest.head?, namePart.has c = true →
    namePart.has d = false) (later : Spaced rest ws) : Spaced (w ++ rest) (w :: ws) :=
  .word (List.forall_mem_nil _) apart later

theorem namePart_markTexts : ∀ s ∈ markTexts, ∀ c ∈ s.toList, namePart.has c = false := by
  have each : (markTexts.all fun s => s.toList.all fun c => !namePart.has c) = true := by
    decide +kernel
  intro s listed c inside
  have all := List.all_eq_true.1 (List.all_eq_true.1 each s listed) c inside
  simpa using all

theorem Spaced.mark {s : String} (listed : s ∈ markTexts) (later : Spaced rest ws) :
    Spaced (s.toList ++ rest) (s.toList :: ws) := by
  refine .cons (fun c last _ _ part => ?_) later
  rw [namePart_markTexts s listed c (List.mem_of_getLast? last)] at part
  cases part

end

/-- In front of a text that is made of words and that no name can run into, the text adds the lexemes. -/
def Prints (text : String) (ls : List Lexeme) : Prop :=
  ∀ {rest ws}, Spaced rest ws → (∀ d ∈ rest.head?, namePart.has d = false) →
    Spaced (text.toList ++ rest) (Lexeme.words ls ++ ws)

section
variable {text : String} {ls : List Lexeme}

theorem stop_mark {s : String} (listed : s ∈ markTexts) (rest : List Char) :
    ∀ d ∈ (s.toList ++ rest).head?, namePart.has d = false := by
  obtain ⟨c, single, -⟩ := head_markTexts s listed
  rw [single]
  rintro d ⟨⟩
  exact namePart_markTexts s listed c (single ▸ List.mem_singleton_self c)

theorem prints_lexeme {l : Lexeme} (h : l.text = text.toList) : Prints text [l] := by
  intro rest ws later stop
  have here : Spaced (text.toList ++ rest) (text.toList :: ws) :=
    .cons (fun _ _ d head _ => stop d head) later
  simpa [Lexeme.words, h] using here

theorem prints_enclose {inner outer : Binding} (h : Prints text ls) :
    Prints (inner.enclose outer text) (inner.bracket outer ls) := by
  intro rest ws later stop
  unfold Binding.enclose Binding.bracket
  split
  · have closes : Spaced (")".toList ++ rest) (")".toList :: ws) := .mark (by decide) later
    have opens : Spaced ("(".toList ++ (text.toList ++ (")".toList ++ rest)))
        ("(".toList :: (Lexeme.words ls ++ ")".toList :: ws)) :=
      .mark (by decide) (h closes (stop_mark (by decide) rest))
    simpa [Lexeme.words, Lexeme.symbol] using opens
  · exact h later stop

theorem prints_counted {s : String} (listed : s ∈ markTexts) (h : Prints text ls) :
    Prints (text ++ s) (ls ++ [.symbol s]) := by
  intro rest ws later stop
  have mark : Spaced (s.toList ++ rest) (s.toList :: ws) := .mark listed later
  simpa [Lexeme.words, Lexeme.symbol] using h mark (stop_mark listed rest)

theorem prints_check (h : Prints text ls) : Prints ("LookAhead(" ++ text ++ ")")
    (.symbol "LookAhead" :: .symbol "(" :: (ls ++ [.symbol ")"])) := by
  intro rest ws later stop
  have closes : Spaced (")".toList ++ rest) (")".toList :: ws) := .mark (by decide) later
  have opens : Spaced ("(".toList ++ (text.toList ++ (")".toList ++ rest)))
      ("(".toList :: (Lexeme.words ls ++ ")".toList :: ws)) :=
    .mark (by decide) (h closes (stop_mark (by decide) rest))
  have key : Spaced ("LookAhead".toList ++ ("(".toList ++ (text.toList ++ (")".toList ++ rest))))
      ("LookAhead".toList :: "(".toList :: (Lexeme.words ls ++ ")".toList :: ws)) :=
    .cons (fun _ _ d head _ => stop_mark (s := "(") (by decide) _ d head) opens
  simpa [Lexeme.words, Lexeme.symbol] using key

end

/-- The printed form of a body is made of its lexemes. -/
theorem Body.prints (x : Body) (outer : Binding) : Prints (x.describeIn outer) (x.lexemesIn outer) := by
  induction x generalizing outer with
  | literal text => exact prints_lexeme rfl
  | name n => exact prints_lexeme rfl
  | seq x y ihx ihy =>
    refine prints_enclose fun {rest ws} later stop => ?_
    have second := (ihy .sequence later stop).blank (c := ' ') rfl
    have first := ihx .sequence second (by rintro d ⟨⟩; exact namePart_blank)
    simpa [Lexeme.words] using first
  | alt x y ihx ihy =>
    refine prints_enclose fun {rest ws} later stop => ?_
    have second := (ihy .choice later stop).blank (c := ' ') rfl
    have bar : Spaced ("|".toList ++ _) ("|".toList :: _) := .mark (by decide) second
    have first := ihx .choice (bar.blank (c := ' ') rfl) (by rintro d ⟨⟩; exact namePart_blank)
    simpa [Lexeme.words, Lexeme.symbol] using first
  | opt x ih | star x ih | plus x ih => exact prints_counted (by decide) (ih .counted)
  | ahead count => exact prints_check (prints_lexeme rfl)
  | guarded x ih => exact prints_check (ih .choice)

theorem Definition.spaced (ds : List Definition) :
    Spaced (String.join (ds.map (·.describe))).toList (Lexeme.words (ds.flatMap (·.lexemes))) := by
  induction ds with
  | nil => exact .ended (by simp)
  | cons d ds ih =>
    have line := ih.blank (c := '\n') rfl
    have closes : Spaced ("\x7d".toList ++ _) ("\x7d".toList :: _) := .mark (by decide) line
    have body := d.body.prints .choice (closes.blank (c := ' ') rfl) (by rintro c ⟨⟩; exact namePart_blank)
    have opens : Spaced ("\x7b".toList ++ _) ("\x7b".toList :: _) :=
      .mark (by decide) (body.blank (c := ' ') rfl)
    have name : Spaced (d.name.toList ++ _) (d.name.toList :: _) :=
      .cons (fun _ _ c head _ => by cases head; exact namePart_blank) (opens.blank (c := ' ') rfl)
    simpa [Lexeme.words, Lexeme.symbol, describe, lexemes] using name

/-! ## The printed form in the notation -/

namespace Body

/-- Whether a body is repeated or optional as a whole. -/
def isCounted : Body → Bool
  | .opt _ | .star _ | .plus _ => true
  | _ => false

/-- Whether a mark of repetition stands directly on another in the printed form. -/
def isStacked : Body → Bool
  | .literal _ | .name _ | .ahead _ => false
  | .seq x y | .alt x y => x.isStacked || y.isStacked
  | .opt x | .star x | .plus x => x.isCounted || x.isStacked
  | .guarded x => x.isStacked

/-- How many parentheses and checks are nested in the printed form. -/
def nestingIn (outer : Binding) : Body → Nat
  | .literal _ | .name _ | .ahead _ => 0
  | .seq x y => max (x.nestingIn .sequence) (y.nestingIn .sequence) +
      if Binding.sequence.level < outer.level then 1 else 0
  | .alt x y => max (x.nestingIn .choice) (y.nestingIn .choice) +
      if Binding.choice.level < outer.level then 1 else 0
  | .opt x | .star x | .plus x => x.nestingIn .counted
  | .guarded x => x.nestingIn .choice + 1

/-- The printed form is in the notation, in each place where the body can stand. In front of more items of
a sequence, or of more alternatives, it adds its own to them. -/
structure Printed (x : Body) : Prop where
  counted : x.isCounted = false →
    Written lexemeSpelling .primary (x.nestingIn .counted) (x.lexemesIn .counted) x.regroup
  item : ∀ {n v y}, Written lexemeSpelling .sequence n v y → Written lexemeSpelling .sequence
    (max (x.nestingIn .sequence) n) (x.lexemesIn .sequence ++ v) (x.regroup.seqAppend y)
  sequence : Written lexemeSpelling .sequence (x.nestingIn .sequence) (x.lexemesIn .sequence) x.regroup
  alternative : ∀ {n v y t}, lexemeSpelling.mark "|" t → Written lexemeSpelling .choice n v y →
    Written lexemeSpelling .choice (max (x.nestingIn .choice) n) (x.lexemesIn .choice ++ t :: v)
      (x.regroup.altAppend y)
  choice : Written lexemeSpelling .choice (x.nestingIn .choice) (x.lexemesIn .choice) x.regroup

theorem symbol_written {s : String} (listed : s ∈ "LookAhead" :: markTexts) :
    lexemeSpelling.mark s (.symbol s) := ⟨listed, rfl⟩

/-- What is printed the same in every place, and is neither a sequence nor a choice. -/
theorem printed_of_single {x : Body} {m : Nat} {ls : List Lexeme} (lexemes : ∀ outer, x.lexemesIn outer = ls)
    (nesting : ∀ outer, x.nestingIn outer = m)
    (seq : ∀ y, x.regroup.seqAppend y = .seq x.regroup y)
    (alt : ∀ y, x.regroup.altAppend y = .alt x.regroup y)
    (written : Written lexemeSpelling .counted m ls x.regroup)
    (primary : x.isCounted = false → Written lexemeSpelling .primary m ls x.regroup) : x.Printed where
  counted := by rw [lexemes, nesting]; exact primary
  item later := by rw [lexemes, nesting, seq]; exact .seq written later
  sequence := by rw [lexemes, nesting]; exact .single written
  alternative bar later := by rw [lexemes, nesting, alt]; exact .alt (.single written) bar later
  choice := by rw [lexemes, nesting]; exact .only (.single written)

theorem printed_of_primary {x : Body} {m : Nat} {ls : List Lexeme}
    (lexemes : ∀ outer, x.lexemesIn outer = ls) (nesting : ∀ outer, x.nestingIn outer = m)
    (seq : ∀ y, x.regroup.seqAppend y = .seq x.regroup y)
    (alt : ∀ y, x.regroup.altAppend y = .alt x.regroup y)
    (written : Written lexemeSpelling .primary m ls x.regroup) : x.Printed :=
  printed_of_single lexemes nesting seq alt (.once written) fun _ => written

/-- **The printed form of a body is in the notation**, unless a mark of repetition stands directly on
another. -/
theorem printed {x : Body} (spellable : x.Spellable) (plain : x.isStacked = false) : x.Printed := by
  induction x with
  | literal text =>
    exact printed_of_primary (fun _ => rfl) (fun _ => rfl) (fun _ => rfl) (fun _ => rfl) (.literal rfl)
  | name n =>
    exact printed_of_primary (fun _ => rfl) (fun _ => rfl) (fun _ => rfl) (fun _ => rfl)
      (.name ⟨spellable, rfl⟩)
  | ahead count =>
    exact printed_of_primary (fun _ => rfl) (fun _ => rfl) (fun _ => rfl) (fun _ => rfl)
      (.ahead (symbol_written (by decide)) (symbol_written (by decide)) ⟨spellable, rfl⟩
        (symbol_written (by decide)))
  | guarded x ih =>
    exact printed_of_primary (fun _ => rfl) (fun _ => rfl) (fun _ => rfl) (fun _ => rfl)
      (.guarded (symbol_written (by decide)) (symbol_written (by decide)) (ih spellable plain).choice
        (symbol_written (by decide)))
  | opt x ih =>
    obtain ⟨single, plain⟩ := Bool.or_eq_false_iff.1 plain
    exact printed_of_single (fun _ => rfl) (fun _ => rfl) (fun _ => rfl) (fun _ => rfl)
      (.opt ((ih spellable plain).counted single) (symbol_written (by decide))) (by rintro ⟨⟩)
  | star x ih =>
    obtain ⟨single, plain⟩ := Bool.or_eq_false_iff.1 plain
    exact printed_of_single (fun _ => rfl) (fun _ => rfl) (fun _ => rfl) (fun _ => rfl)
      (.star ((ih spellable plain).counted single) (symbol_written (by decide))) (by rintro ⟨⟩)
  | plus x ih =>
    obtain ⟨single, plain⟩ := Bool.or_eq_false_iff.1 plain
    exact printed_of_single (fun _ => rfl) (fun _ => rfl) (fun _ => rfl) (fun _ => rfl)
      (.plus ((ih spellable plain).counted single) (symbol_written (by decide))) (by rintro ⟨⟩)
  | seq x y ihx ihy =>
    obtain ⟨plainx, plainy⟩ := Bool.or_eq_false_iff.1 plain
    have first := ihx spellable.1 plainx
    have second := ihy spellable.2 plainy
    have sequence := first.item second.sequence
    refine ⟨fun _ => ?_, fun {n v z} later => ?_, sequence, fun {n v z t} bar later => ?_, .only sequence⟩
    · exact .group (symbol_written (by decide)) (.only sequence) (symbol_written (by decide))
    · have items := first.item (second.item later)
      rw [← Nat.max_assoc, ← List.append_assoc, ← seqAppend_assoc] at items
      exact items
    · rw [regroup, altAppend_seqAppend]
      exact .alt sequence bar later
  | alt x y ihx ihy =>
    obtain ⟨plainx, plainy⟩ := Bool.or_eq_false_iff.1 plain
    have first := ihx spellable.1 plainx
    have second := ihy spellable.2 plainy
    have choice := first.alternative (symbol_written (s := "|") (by decide)) second.choice
    have group := Written.group (symbol_written (s := "(") (by decide)) choice
      (symbol_written (s := ")") (by decide))
    refine ⟨fun _ => group, fun {n v z} later => ?_, .single (.once group), fun {n v z t} bar later => ?_,
      choice⟩
    · rw [regroup, seqAppend_altAppend]
      exact .seq (.once group) later
    · have alternatives := first.alternative (symbol_written (s := "|") (by decide))
        (second.alternative bar later)
      rw [← Nat.max_assoc, ← altAppend_assoc] at alternatives
      have same : (Body.alt x y).lexemesIn .choice ++ t :: v = x.lexemesIn .choice ++
          .symbol "|" :: (y.lexemesIn .choice ++ t :: v) :=
        List.append_assoc (x.lexemesIn .choice) (.symbol "|" :: y.lexemesIn .choice) (t :: v)
      rw [same]
      exact alternatives

end Body

def Definition.nesting (ds : List Definition) : Nat :=
  ds.foldr (fun d n => max (d.body.nestingIn .choice) n) 0

/-- The printed form of definitions is a way to write them, regrouped. -/
theorem Definition.printed {ds : List Definition} (names : ∀ d ∈ ds, IsRuleName d.name)
    (spellable : ∀ d ∈ ds, d.body.Spellable) (plain : ∀ d ∈ ds, d.body.isStacked = false) :
    Document lexemeSpelling (nesting ds) (ds.flatMap (·.lexemes)) (ds.map Definition.regroup) := by
  induction ds with
  | nil => exact .nil
  | cons d ds ih =>
    obtain ⟨name, names⟩ := List.forall_mem_cons.1 names
    obtain ⟨here, spellable⟩ := List.forall_mem_cons.1 spellable
    obtain ⟨single, plain⟩ := List.forall_mem_cons.1 plain
    rw [List.flatMap_cons, lexemes, List.cons_append, List.cons_append, List.append_assoc]
    exact .cons ⟨name, rfl⟩ (Body.symbol_written (by decide)) (Body.printed here single).choice
      (Body.symbol_written (by decide)) (ih names spellable plain)

/-! ## What was read can be printed -/

section
variable {rank : Rank} {m k : Nat} {w ts : List Token} {x : Body} {ds : List Definition}

theorem ofDigitChars_pos {c : Char} (digit : c.isDigit = true) (nonzero : c ≠ '0') (cs : List Char) :
    1 ≤ Nat.ofDigitChars 10 (c :: cs) 0 := by
  have first : 1 ≤ 10 * 0 + (c.toNat - '0'.toNat) := by
    simp [Char.isDigit, UInt32.le_iff_toNat_le, Char.ext_iff, ← UInt32.toNat_inj] at digit nonzero ⊢
    omega
  rw [Nat.ofDigitChars_cons, Nat.ofDigitChars_eq_ofDigitChars_zero]
  exact Nat.le_trans (Nat.mul_pos (Nat.pow_pos (by decide)) first) (Nat.le_add_right _ _)

theorem count_bounds {n : Nat} {t : Token} (h : tokenSpelling.count n t) (token : t.IsDefinitionToken) :
    1 ≤ n ∧ n < 2 ^ 64 := by
  obtain ⟨is, read⟩ := h
  obtain ⟨c, v, digits, digit, nonzero, -⟩ :=
    (lexicalWord_of_spells (by decide) (token.count is)).of_number
  unfold readTokenCount at read
  split at read
  · rename_i value known
    split at read
    · cases read
      refine ⟨?_, ‹_›⟩
      have kept : (c != '_') = true := by
        rw [bne_iff_ne]
        rintro rfl
        cases digit
      rw [String.toNat?_eq_some_ofDigitChars (String.isNat_of_toNat?_eq_some known), digits,
        List.filter_cons_of_pos (p := (· != '_')) kept] at known
      rw [← Option.some.inj known]
      exact ofDigitChars_pos digit nonzero _
    · cases read
  · cases read

theorem Written.spellable (h : Written tokenSpelling rank m w x)
    (tokens : ∀ t ∈ w, t.IsDefinitionToken) : x.Spellable := by
  induction h with
  | literal h => exact trivial
  | name h =>
    obtain ⟨is, -, rfl⟩ := h
    exact ((tokens _ (List.mem_singleton_self _)).name is).2
  | ahead _ _ h => exact count_bounds h (tokens _ (by simp))
  | guarded _ _ _ _ ih | group _ _ _ ih => exact ih fun t listed => tokens t (by simp [listed])
  | once _ ih | single _ ih | only _ ih => exact ih tokens
  | opt _ _ ih | star _ _ ih | plus _ _ ih => exact ih fun t listed => tokens t (by simp [listed])
  | seq _ _ ihx ihy | alt _ _ _ ihx ihy =>
    exact ⟨ihx fun t listed => tokens t (by simp [listed]), ihy fun t listed => tokens t (by simp [listed])⟩

theorem Document.spellable (h : Document tokenSpelling k ts ds)
    (tokens : ∀ t ∈ ts, t.IsDefinitionToken) :
    ∀ d ∈ ds, IsRuleName d.name ∧ d.body.Spellable := by
  induction h with
  | nil => simp
  | cons h _ inner _ _ ih =>
    obtain ⟨is, -, rfl⟩ := h
    refine List.forall_mem_cons.2 ⟨⟨((tokens _ (by simp)).name is).2, ?_⟩, ?_⟩
    · exact inner.spellable fun t listed => tokens t (by simp [listed])
    · exact ih fun t listed => tokens t (by simp [listed])

def Rank.binding : Rank → Binding
  | .primary | .counted => .counted
  | .sequence => .sequence
  | .choice => .choice

theorem Body.nestingIn_le (x : Body) (outer : Binding) : x.nestingIn .choice ≤ x.nestingIn outer ∧
    x.nestingIn .sequence ≤ x.nestingIn .counted ∧ x.nestingIn outer ≤ x.nestingIn .choice + 1 := by
  cases outer <;> cases x <;> simp [nestingIn, Binding.level]

/-- No more is nested in the printed form than in what was written. -/
theorem Written.nestingIn_le {τ : Type} {is : Spelling τ} {w : List τ} (h : Written is rank m w x) :
    x.nestingIn rank.binding ≤ m := by
  induction h with
  | literal | name | ahead => exact Nat.le_refl 0
  | guarded _ _ _ _ ih => exact Nat.succ_le_succ ih
  | @group m _ x _ _ _ _ _ ih =>
    have bound := (x.nestingIn_le .counted).2.2
    exact Nat.le_trans bound (Nat.succ_le_succ ih)
  | once _ ih | opt _ _ ih | star _ _ ih | plus _ _ ih => exact ih
  | @single m _ x _ ih => exact Nat.le_trans (x.nestingIn_le .counted).2.1 ih
  | @only m _ x _ ih => exact Nat.le_trans (x.nestingIn_le .sequence).1 ih
  | @seq m n _ _ x y _ _ ihx ihy =>
    have first := Nat.le_trans (x.nestingIn_le .counted).2.1 ihx
    exact Nat.max_le.2 ⟨Nat.le_trans first (Nat.le_max_left _ _), Nat.le_trans ihy (Nat.le_max_right _ _)⟩
  | @alt m n _ _ x y _ _ _ _ ihx ihy =>
    have first := Nat.le_trans (x.nestingIn_le .sequence).1 ihx
    exact Nat.max_le.2 ⟨Nat.le_trans first (Nat.le_max_left _ _), Nat.le_trans ihy (Nat.le_max_right _ _)⟩

theorem Document.nesting_le {τ : Type} {is : Spelling τ} {ts : List τ} (h : Document is k ts ds) :
    Definition.nesting ds ≤ k := by
  induction h with
  | nil => exact Nat.le_refl 0
  | cons _ _ inner _ _ ih =>
    exact Nat.max_le.2 ⟨Nat.le_trans inner.nestingIn_le (Nat.le_max_left _ _),
      Nat.le_trans ih (Nat.le_max_right _ _)⟩

end

/-! ## Marks of repetition side by side -/

/-- Not both are marks of repetition. -/
def Apart (t t' : Token) : Prop :=
  ¬ (definitionGrammar.IsOf countMarks t ∧ definitionGrammar.IsOf countMarks t')

section
variable {rank : Rank} {m k : Nat} {u v w ts : List Token} {t : Token} {x : Body} {ds : List Definition}

theorem not_isOf_countMarks {leaf : LeafPattern} (is : definitionGrammar.Is leaf t)
    (other : leaf ∉ countMarks) : ¬ definitionGrammar.IsOf countMarks t := by
  rintro ⟨mark, listed, is'⟩
  exact other (is.unique is' ▸ listed)

theorem isChain_append (first : u.IsChain Apart) (second : v.IsChain Apart)
    (avoids : definitionGrammar.Avoids countMarks v) : (u ++ v).IsChain Apart :=
  List.isChain_append.2 ⟨first, second, fun _ _ t head both => avoids t head both.2⟩

theorem isChain_cons (other : ¬ definitionGrammar.IsOf countMarks t) (later : v.IsChain Apart) :
    (t :: v).IsChain Apart :=
  List.isChain_cons.2 ⟨fun _ _ both => other both.1, later⟩

/-- In what is written, no mark of repetition stands directly behind another. -/
theorem Written.isChain (h : Written tokenSpelling rank m w x) : w.IsChain Apart ∧
    (rank = .primary → ∀ t ∈ w.getLast?, ¬ definitionGrammar.IsOf countMarks t) := by
  have alone {leaf : LeafPattern} {t : Token} (is : definitionGrammar.Is leaf t)
      (other : leaf ∉ countMarks) : ∀ t' ∈ [t].getLast?, ¬ definitionGrammar.IsOf countMarks t' := by
    rintro _ ⟨⟩
    exact not_isOf_countMarks is other
  have marked {w : List Token} {t : Token}
      (inner : w.IsChain Apart ∧ (Rank.primary = .primary → ∀ t ∈ w.getLast?,
        ¬ definitionGrammar.IsOf countMarks t)) : (w ++ [t]).IsChain Apart :=
    List.isChain_append.2 ⟨inner.1, .singleton t, fun t last _ _ both => inner.2 rfl t last both.1⟩
  induction h with
  | literal h =>
    obtain ⟨⟨n, rfl | rfl, is, -⟩, -⟩ := h
    · exact ⟨.singleton _, fun _ => alone is (by decide)⟩
    · exact ⟨.singleton _, fun _ => alone is (by decide)⟩
  | name h => exact ⟨.singleton _, fun _ => alone h.1 (by decide)⟩
  | ahead key opens h closes =>
    refine ⟨isChain_cons (not_isOf_countMarks key.1 (by decide))
      (isChain_cons (not_isOf_countMarks opens.1 (by decide))
        (isChain_cons (not_isOf_countMarks h.1 (by decide)) (.singleton _))), fun _ => ?_⟩
    exact alone closes.1 (by decide)
  | @guarded _ w _ k o c key opens _ closes ih =>
    refine ⟨isChain_cons (not_isOf_countMarks key.1 (by decide))
      (isChain_cons (not_isOf_countMarks opens.1 (by decide))
        (isChain_append ih.1 (.singleton _) (closes.1.avoids (by decide)))), fun _ => ?_⟩
    rw [← List.cons_append, ← List.cons_append, List.getLast?_append_of_ne_nil _ (List.cons_ne_nil _ _)]
    exact alone closes.1 (by decide)
  | @group _ w _ o c opens _ closes ih =>
    refine ⟨isChain_cons (not_isOf_countMarks opens.1 (by decide))
      (isChain_append ih.1 (.singleton _) (closes.1.avoids (by decide))), fun _ => ?_⟩
    rw [← List.cons_append, List.getLast?_append_of_ne_nil _ (List.cons_ne_nil _ _)]
    exact alone closes.1 (by decide)
  | once _ ih => exact ⟨ih.1, by rintro ⟨⟩⟩
  | opt _ _ ih | star _ _ ih | plus _ _ ih => exact ⟨marked ih, by rintro ⟨⟩⟩
  | single _ ih | only _ ih => exact ⟨ih.1, by rintro ⟨⟩⟩
  | seq _ later ihx ihy =>
    exact ⟨isChain_append ihx.1 ihy.1 (later.begins.avoids (by decide)), by rintro ⟨⟩⟩
  | alt _ bar _ ihx ihy =>
    exact ⟨isChain_append ihx.1 (isChain_cons (not_isOf_countMarks bar.1 (by decide)) ihy.1)
      (bar.1.avoids (by decide)), by rintro ⟨⟩⟩

theorem Document.isChain (h : Document tokenSpelling k ts ds) : ts.IsChain Apart := by
  induction h with
  | nil => exact .nil
  | cons h opens inner closes _ ih =>
    exact isChain_cons (not_isOf_countMarks h.1 (by decide))
      (isChain_cons (not_isOf_countMarks opens.1 (by decide))
        (isChain_append inner.isChain.1 (isChain_cons (not_isOf_countMarks closes.1 (by decide)) ih)
          (closes.1.avoids (by decide))))

end

/-- Two marks of repetition stand side by side. -/
def Lexeme.Piled (ls : List Lexeme) : Prop :=
  ∃ a b, [a, b] <:+: ls ∧ a.leaf ∈ countMarks ∧ b.leaf ∈ countMarks

section
variable {ls ls' : List Lexeme}

theorem Lexeme.Piled.of_part (h : Lexeme.Piled ls) (part : ls <:+: ls') : Lexeme.Piled ls' := by
  obtain ⟨a, b, side, marks⟩ := h
  exact ⟨a, b, side.trans part, marks⟩

theorem Binding.infix_bracket (inner outer : Binding) (ls : List Lexeme) :
    ls <:+: inner.bracket outer ls := by
  unfold bracket
  split
  · exact ⟨[.symbol "("], [.symbol ")"], rfl⟩
  · exact List.infix_rfl

theorem Body.lexemesIn_counted {x : Body} (h : x.isCounted = true) (outer : Binding) :
    ∃ ls s, x.lexemesIn outer = ls ++ [.symbol s] ∧ .literal s ∈ countMarks := by
  cases x with
  | opt x | star x | plus x => exact ⟨_, _, rfl, by decide⟩
  | _ => cases h

theorem piled_of_counted {x : Body} {s : String} (mark : .literal s ∈ countMarks)
    (h : x.isCounted = true) : Lexeme.Piled (x.lexemesIn .counted ++ [.symbol s]) := by
  obtain ⟨ls, s', same, mark'⟩ := Body.lexemesIn_counted h .counted
  exact ⟨.symbol s', .symbol s, ⟨ls, [], by simp [same]⟩, mark', mark⟩

/-- A body in which a mark stands directly on another is printed with the two side by side. -/
theorem Body.piled {x : Body} (stacked : x.isStacked = true) (outer : Binding) :
    Lexeme.Piled (x.lexemesIn outer) := by
  have counted {x : Body} {s : String} (mark : .literal s ∈ countMarks)
      (ih : x.isStacked = true → ∀ outer, Lexeme.Piled (x.lexemesIn outer))
      (stacked : (x.isCounted || x.isStacked) = true) :
      Lexeme.Piled (x.lexemesIn .counted ++ [.symbol s]) := by
    rcases Bool.or_eq_true_iff.1 stacked with counted | inner
    · exact piled_of_counted mark counted
    · exact (ih inner .counted).of_part (List.prefix_append _ _).isInfix
  induction x generalizing outer with
  | literal | name | ahead => cases stacked
  | seq x y ihx ihy =>
    refine Lexeme.Piled.of_part ?_ (Binding.infix_bracket _ outer _)
    rcases Bool.or_eq_true_iff.1 stacked with first | second
    · exact (ihx first .sequence).of_part (List.prefix_append _ _).isInfix
    · exact (ihy second .sequence).of_part (List.suffix_append _ _).isInfix
  | alt x y ihx ihy =>
    refine Lexeme.Piled.of_part ?_ (Binding.infix_bracket _ outer _)
    rcases Bool.or_eq_true_iff.1 stacked with first | second
    · exact (ihx first .choice).of_part (List.prefix_append _ _).isInfix
    · exact (ihy second .choice).of_part
        ((List.suffix_cons _ _).trans (List.suffix_append _ _)).isInfix
  | opt x ih | star x ih | plus x ih => exact counted (by decide) (fun h outer => ih h outer) stacked
  | guarded x ih =>
    exact (ih stacked .choice).of_part ⟨[.symbol "LookAhead", .symbol "("], [.symbol ")"], rfl⟩

/-- Tokens none of which are marks side by side are no such lexemes. -/
theorem Lexeme.Piled.not_isChain {ts : List Token} (h : Lexeme.Piled ls)
    (same : List.Forall₂ (Token.IsLexeme definitionGrammar.lexicon) ts ls) : ¬ ts.IsChain Apart := by
  obtain ⟨a, b, ⟨before, behind, rfl⟩, markA, markB⟩ := h
  obtain ⟨u, v, rfl, inner, -⟩ := forall₂_of_append same
  obtain ⟨u, w, rfl, -, pair⟩ := forall₂_of_append inner
  rcases pair with _ | ⟨first, _ | ⟨second, _⟩⟩
  intro chain
  have apart := List.isChain_cons_cons.1
    (List.isChain_append.1 (List.isChain_append.1 chain).1).2.1
  exact apart.1 ⟨⟨_, markA, first.is⟩, ⟨_, markB, second.is⟩⟩

end

/-! ## Printed grammars -/

theorem Body.definitional {x : Body} (spellable : x.Spellable) (outer : Binding) :
    ∀ l ∈ x.lexemesIn outer, l.IsDefinitional := by
  have symbol {s : String} (listed : s ∈ "LookAhead" :: markTexts) : (Lexeme.symbol s).IsDefinitional :=
    .mark (symbol_written listed)
  have bracket {inner outer : Binding} {ls : List Lexeme} (each : ∀ l ∈ ls, l.IsDefinitional) :
      ∀ l ∈ inner.bracket outer ls, l.IsDefinitional := by
    unfold Binding.bracket
    split
    · simpa [or_imp, forall_and] using ⟨symbol (by decide), each, symbol (by decide)⟩
    · exact each
  induction x generalizing outer with
  | literal text => simpa [lexemesIn] using .literal rfl
  | name n => simpa [lexemesIn] using .name ⟨spellable, rfl⟩
  | ahead count =>
    refine List.forall_mem_cons.2 ⟨symbol (by decide), List.forall_mem_cons.2 ⟨symbol (by decide), ?_⟩⟩
    exact List.forall_mem_cons.2 ⟨.count ⟨spellable, rfl⟩,
      List.forall_mem_singleton.2 (symbol (by decide))⟩
  | guarded x ih =>
    simpa [lexemesIn, or_imp, forall_and] using
      ⟨symbol (by decide), symbol (by decide), ih spellable .choice, symbol (by decide)⟩
  | opt x ih | star x ih | plus x ih =>
    simpa [lexemesIn, or_imp, forall_and] using ⟨ih spellable .counted, symbol (by decide)⟩
  | seq x y ihx ihy =>
    exact bracket (List.forall_mem_append.2 ⟨ihx spellable.1 .sequence, ihy spellable.2 .sequence⟩)
  | alt x y ihx ihy =>
    exact bracket (List.forall_mem_append.2 ⟨ihx spellable.1 .choice,
      List.forall_mem_cons.2 ⟨symbol (by decide), ihy spellable.2 .choice⟩⟩)

theorem Definition.definitional {ds : List Definition}
    (spellable : ∀ d ∈ ds, IsRuleName d.name ∧ d.body.Spellable) :
    ∀ l ∈ ds.flatMap (·.lexemes), l.IsDefinitional := by
  intro l listed
  obtain ⟨d, defined, inside⟩ := List.mem_flatMap.1 listed
  obtain ⟨name, body⟩ := spellable d defined
  have symbol {s : String} (listed : s ∈ "LookAhead" :: markTexts) : (Lexeme.symbol s).IsDefinitional :=
    .mark (Body.symbol_written listed)
  simp only [lexemes, List.mem_cons, List.mem_append, List.not_mem_nil, or_false] at inside
  rcases inside with rfl | rfl | inside | rfl
  · exact .name ⟨name, rfl⟩
  · exact symbol (by decide)
  · exact Body.definitional body .choice l inside
  · exact symbol (by decide)

/-- The definitions of a text that was read, and what can be said of them. -/
structure Definition.Read (ds : List Definition) : Prop extends Definition.Admissible ds where
  spellable : ∀ d ∈ ds, IsRuleName d.name ∧ d.body.Spellable
  shallow : textLevels (nesting ds) ds ≤ defaultLimit

theorem Definition.read_of_ofText {text : String} {g : Grammar} (h : Grammar.ofText text = .ok g) :
    ∃ ds, g.Compiles ds ∧ Definition.Read ds := by
  cases read : readDefinitions text with
  | error e =>
    rw [Grammar.ofText, read] at h
    cases h
  | ok ds =>
    rw [Grammar.ofText, read] at h
    obtain ⟨compiles, admissible⟩ := Grammar.compiles_of_ofDefinitions h
    obtain ⟨-, -, k, document, shallow⟩ := readDefinitions_eq_ok_iff.1 read
    refine ⟨ds, compiles, admissible, document.spellable isDefinitionToken_of_scan, ?_⟩
    have bound := document.nesting_le
    unfold textLevels roundLevels at shallow ⊢
    split
    · exact Nat.le_trans (by simp_all) shallow
    · rw [if_neg ‹_›] at shallow
      omega

namespace Definition.Read
variable {ds : List Definition} (h : Definition.Read ds)
include h

/-- The printed form is read as the definitions, regrouped. -/
theorem reads (plain : ∀ d ∈ ds, d.body.isStacked = false) :
    readDefinitions (String.join (ds.map (·.describe))) = .ok (ds.map Definition.regroup) := by
  have document := Definition.printed (fun d listed => (h.spellable d listed).1)
    (fun d listed => (h.spellable d listed).2) plain
  obtain ⟨complete, written⟩ := document_of_spaced document (Definition.spaced ds)
  have admissible := h.toAdmissible.regroup
  have levels : textLevels (nesting ds) (ds.map Definition.regroup) = textLevels (nesting ds) ds := by
    simp only [textLevels, roundLevels, List.map_eq_nil_iff]
  exact readDefinitions_eq_ok_iff.2 ⟨complete,
    Definition.fresh_nil_iff.2 ⟨admissible.unreserved, admissible.distinct⟩, _, written,
    levels ▸ h.shallow⟩

/-- Where a mark of repetition stands directly on another, the printed form is not read. -/
theorem refused {d : Definition} (defined : d ∈ ds) (stacked : d.body.isStacked = true) :
    ∃ e, readDefinitions (String.join (ds.map (·.describe))) = .error e := by
  cases read : readDefinitions (String.join (ds.map (·.describe))) with
  | error e => exact ⟨e, rfl⟩
  | ok ds' =>
    exfalso
    obtain ⟨-, -, k, document, -⟩ := readDefinitions_eq_ok_iff.1 read
    obtain ⟨patterns, prepared⟩ := definitionGrammar_prepared
    have tokens := ((lexes_of_spaced (Definition.definitional h.spellable) (Definition.spaced ds)).scan
      prepared definitionGrammar.comments).2
    have part : d.body.lexemesIn .choice <:+: ds.flatMap (·.lexemes) := by
      refine List.IsInfix.trans ?_ (List.infix_of_mem_flatten (List.mem_map_of_mem defined))
      exact ⟨[⟨lexicalLeaf "Name", d.name.toList⟩, .symbol "\x7b"], [.symbol "\x7d"], rfl⟩
    exact ((Body.piled stacked .choice).of_part part).not_isChain tokens document.isChain

end Definition.Read

/-- Whether a mark of repetition stands directly on another in the printed form of a grammar. -/
def Grammar.isStacked (g : Grammar) : Bool := (g.definitions.getD []).any (·.body.isStacked)

/-- **The printed form of a grammar is read** unless a mark of repetition stands directly on another in it,
and the grammar that is read from it is printed the same. -/
theorem Grammar.ofText_render {text : String} {g : Grammar} (h : Grammar.ofText text = .ok g) :
    ((∃ g', Grammar.ofText g.render = .ok g') ↔ g.isStacked = false) ∧
      ∀ g', Grammar.ofText g.render = .ok g' → g'.render = g.render := by
  obtain ⟨ds, compiles, read⟩ := Definition.read_of_ofText h
  rw [isStacked, compiles.definitions_eq, compiles.render_eq, Option.getD_some]
  by_cases plain : ∀ d ∈ ds, d.body.isStacked = false
  · obtain ⟨g', built⟩ := exists_of_admissible read.toAdmissible.regroup
    have again : Grammar.ofText (String.join (ds.map (·.describe))) = .ok g' := by
      rw [ofText, read.reads plain]
      exact built
    refine ⟨⟨fun _ => by simpa using plain, fun _ => ⟨g', again⟩⟩, fun g'' again' => ?_⟩
    cases again.symm.trans again'
    rw [(compiles_of_ofDefinitions built).1.render_eq, List.map_map]
    exact congrArg String.join (List.map_congr_left fun d _ => d.describe_regroup)
  · simp only [not_forall] at plain
    obtain ⟨d, defined, stacked⟩ := plain
    obtain ⟨e, failed⟩ := read.refused defined (by simpa using stacked)
    have refused : Grammar.ofText (String.join (ds.map (·.describe))) = .error e := by
      rw [ofText, failed]
      rfl
    rw [refused]
    exact ⟨⟨by rintro ⟨_, ⟨⟩⟩, fun none => by simp_all⟩, by rintro _ ⟨⟩⟩

open Body in
/-- Lists in brackets. The first sequence stands on the left of another. -/
def listRules : List Definition := [
  ⟨"List", seq (seq (literal "[") (star (alt (name "Item") (literal ",")))) (literal "]")⟩,
  ⟨"Item", alt (seq (guarded (name "List")) (opt (ahead 2))) (plus (name "Number"))⟩]

theorem listRules_read : Definition.Read listRules := by
  have built : (Grammar.ofDefinitions listRules).toOption.isSome = true := by decide +kernel
  have names : ∀ n ∈ ["List", "Item", "Number"], isNameText n = true := by decide
  have name (n : String) (listed : n ∈ ["List", "Item", "Number"]) : IsRuleName n :=
    isRuleName_of_isNameText (names n listed)
  refine ⟨(Grammar.compiles_of_ofDefinitions (eq_ok_get built)).2, ?_, by decide⟩
  simp only [listRules, List.mem_cons, List.not_mem_nil, or_false, forall_eq_or_imp, forall_eq,
    Body.Spellable]
  exact ⟨⟨name _ (by decide), ⟨trivial, name _ (by decide), trivial⟩, trivial⟩,
    name _ (by decide), ⟨name _ (by decide), by decide⟩, name _ (by decide)⟩

/-- The lists are printed and read again. -/
theorem Grammar.ofText_render_lists :
    ∃ g, Grammar.ofText "List \x7b \"[\" (Item | \",\")* \"]\" \x7d\nItem \x7b LookAhead(List) LookAhead(2)? | Number+ \x7d\n" =
      .ok g ∧ g.isStacked = false ∧ ∃ g', Grammar.ofText g.render = .ok g' ∧ g'.render = g.render := by
  have printed : String.join (listRules.map (·.describe)) = "List \x7b \"[\" (Item | \",\")* \"]\" \x7d\nItem \x7b LookAhead(List) LookAhead(2)? | Number+ \x7d\n" := by
    decide +kernel
  obtain ⟨g, built⟩ := exists_of_admissible listRules_read.toAdmissible.regroup
  have read : Grammar.ofText (String.join (listRules.map (·.describe))) = .ok g := by
    rw [ofText, listRules_read.reads (by decide)]
    exact built
  have plain : g.isStacked = false := by
    rw [isStacked, (compiles_of_ofDefinitions built).1.definitions_eq]
    decide
  obtain ⟨accepted, same⟩ := ofText_render read
  obtain ⟨g', again⟩ := accepted.2 plain
  exact ⟨g, printed ▸ read, plain, g', again, same g' again⟩

end Rowlang
