import Mathlib
import Rowlang.Proofs.Grammar.Notation

/-!
# Definitions as text

* `lexemeSpelling` : the notation of definitions, read of lexemes;
* `Spaced` : a text is made of some words, with blanks between them wherever two of them would run
  together;
* `lexes_of_spaced` : such a text of lexemes of definitions is cut into these lexemes;
* `document_of_spaced` : so its tokens are a way to write the definitions that the lexemes are.
-/

namespace Rowlang
open Rowlang.Text Rowlang.Pattern

/-! ## Characters of names -/

section
variable {c : Char}

theorem namePart_of_ascii (h : ∃ r ∈ [(0x30, 0x39), (0x41, 0x5a), (0x61, 0x7a)],
    r.1 ≤ c.toNat ∧ c.toNat ≤ r.2) : namePart.has c = true := by
  obtain ⟨r, listed, inside⟩ := h
  have known : ∀ r ∈ [(0x30, 0x39), (0x41, 0x5a), (0x61, 0x7a)], r ∈ wordRanges := by decide
  have word : isWord c = true := CodeRanges.has_iff.2 ⟨r, known r listed, inside⟩
  simp [namePart, CharSet.has, word]

theorem namePart_of_isDigit (h : c.isDigit = true) : namePart.has c = true := by
  refine namePart_of_ascii ⟨(0x30, 0x39), by simp, ?_⟩
  simpa [Char.isDigit, UInt32.le_iff_toNat_le] using h

theorem namePart_of_nameStart (h : nameStart.has c = true) : namePart.has c = true := by
  simp only [nameStart, CharSet.has, Bool.false_or, Bool.or_eq_true] at h
  rcases h with (single | lower) | upper
  · simp [namePart, CharSet.has, single]
  · refine namePart_of_ascii ⟨(0x61, 0x7a), by simp, ?_⟩
    simpa [Char.le_def, UInt32.le_iff_toNat_le] using lower
  · refine namePart_of_ascii ⟨(0x41, 0x5a), by simp, ?_⟩
    simpa [Char.le_def, UInt32.le_iff_toNat_le] using upper

end

/-! ## Lexemes of definitions -/

/-- The notation of definitions, read of lexemes: literals stand between double quotes, with quotes and
backslashes escaped, and numbers are written without leading zeros. -/
def lexemeSpelling : Spelling Lexeme where
  mark s l := s ∈ "LookAhead" :: markTexts ∧ l = .symbol s
  name n l := IsRuleName n ∧ l = ⟨lexicalLeaf "Name", n.toList⟩
  literal s l := l = ⟨lexicalLeaf "String", (quoteLiteral s).toList⟩
  count n l := (1 ≤ n ∧ n < 2 ^ 64) ∧ l = ⟨lexicalLeaf "Number", (toString n).toList⟩

/-- What a body needs to be written: its names are read as such, and the tokens that a check looks at are at
least one, and can be counted in 64 bits. -/
def Body.Spellable : Body → Prop
  | .literal _ => True
  | .name n => IsRuleName n
  | .seq x y | .alt x y => x.Spellable ∧ y.Spellable
  | .opt x | .star x | .plus x | .guarded x => x.Spellable
  | .ahead count => 1 ≤ count ∧ count < 2 ^ 64

theorem Body.spellable_sequence {x : Body} {xs : List Body} :
    (Body.sequence x xs).Spellable ↔ ∀ y ∈ x :: xs, y.Spellable := by
  induction xs generalizing x with
  | nil => simp [sequence]
  | cons y ys ih => rw [sequence, Spellable, ih, List.forall_mem_cons (a := x)]

theorem Body.spellable_choice {x : Body} {xs : List Body} :
    (Body.choice x xs).Spellable ↔ ∀ y ∈ x :: xs, y.Spellable := by
  induction xs generalizing x with
  | nil => simp [choice]
  | cons y ys ih => rw [choice, Spellable, ih, List.forall_mem_cons (a := x)]

/-- The numbers of tokens that the checks in a body look at. -/
def Body.counts : Body → List Nat
  | .literal _ | .name _ => []
  | .seq x y | .alt x y => x.counts ++ y.counts
  | .opt x | .star x | .plus x | .guarded x => x.counts
  | .ahead count => [count]

theorem Body.spellable_of {x : Body} (names : ∀ n ∈ x.mentions, IsRuleName n)
    (counts : ∀ n ∈ x.counts, 1 ≤ n ∧ n < 2 ^ 64) : x.Spellable := by
  induction x with
  | literal text => exact trivial
  | name n =>
    cases known : lexicalPatterns.lookup n with
    | some source => exact isRuleName_of_lookup known
    | none => exact names n (by rw [mentions, known]; exact List.mem_singleton_self n)
  | seq x y ihx ihy | alt x y ihx ihy =>
    obtain ⟨namesx, namesy⟩ := List.forall_mem_append.1 names
    obtain ⟨countsx, countsy⟩ := List.forall_mem_append.1 counts
    exact ⟨ihx namesx countsx, ihy namesy countsy⟩
  | opt x ih | star x ih | plus x ih | guarded x ih => exact ih names counts
  | ahead count => exact counts count (List.mem_singleton_self count)

/-- A lexeme that definitions are written with. -/
inductive Lexeme.IsDefinitional : Lexeme → Prop
  | mark {s l} (h : lexemeSpelling.mark s l) : IsDefinitional l
  | name {n l} (h : lexemeSpelling.name n l) : IsDefinitional l
  | literal {s l} (h : lexemeSpelling.literal s l) : IsDefinitional l
  | count {n l} (h : lexemeSpelling.count n l) : IsDefinitional l

theorem Written.definitional {rank : Rank} {m : Nat} {ls : List Lexeme} {x : Body}
    (h : Written lexemeSpelling rank m ls x) : ∀ l ∈ ls, l.IsDefinitional := by
  induction h with
  | literal h => simpa using .literal h
  | name h => simpa using .name h
  | ahead key opens h closes =>
    simpa using ⟨.mark key, .mark opens, .count h, .mark closes⟩
  | guarded key opens _ closes ih =>
    simpa [or_imp, forall_and] using ⟨.mark key, .mark opens, ih, .mark closes⟩
  | group opens _ closes ih => simpa [or_imp, forall_and] using ⟨.mark opens, ih, .mark closes⟩
  | once _ ih | single _ ih | only _ ih => exact ih
  | opt _ h ih | star _ h ih | plus _ h ih => simpa [or_imp, forall_and] using ⟨ih, .mark h⟩
  | seq _ _ ihx ihy => exact List.forall_mem_append.2 ⟨ihx, ihy⟩
  | alt _ bar _ ihx ihy => exact List.forall_mem_append.2 ⟨ihx, List.forall_mem_cons.2 ⟨.mark bar, ihy⟩⟩

theorem Document.definitional {k : Nat} {ls : List Lexeme} {ds : List Definition}
    (h : Document lexemeSpelling k ls ds) : ∀ l ∈ ls, l.IsDefinitional := by
  induction h with
  | nil => simp
  | cons h opens inner closes _ ih =>
    refine List.forall_mem_cons.2 ⟨.name h, List.forall_mem_cons.2 ⟨.mark opens, ?_⟩⟩
    exact List.forall_mem_append.2 ⟨inner.definitional, List.forall_mem_cons.2 ⟨.mark closes, ih⟩⟩

theorem toDigits_of_pos {n : Nat} (positive : 1 ≤ n) :
    ∃ c v, Nat.toDigits 10 n = c :: v ∧ c ≠ '0' := by
  induction n using Nat.strongRecOn with
  | ind n ih =>
    rcases Nat.lt_or_ge n 10 with small | large
    · have nonzero : ∀ n < 10, 1 ≤ n → n.digitChar ≠ '0' := by decide
      exact ⟨n.digitChar, [], Nat.toDigits_of_lt_base small, nonzero n small positive⟩
    · obtain ⟨c, v, same, nonzero⟩ := ih (n / 10) (by omega) (by omega)
      exact ⟨c, v ++ [(n % 10).digitChar],
        by rw [Nat.toDigits_of_base_le (by decide) large, same, List.cons_append], nonzero⟩

theorem toList_toString (n : Nat) : (toString n).toList = Nat.toDigits 10 n :=
  String.toList_ofList

theorem readTokenCount_toString {n : Nat} (fits : n < 2 ^ 64) : readTokenCount (toString n) = some n := by
  have read : (toString n).toNat? = some n := Nat.toNat?_repr n
  rw [readTokenCount, read]
  exact if_pos fits

/-- A lexeme of definitions is taken wherever it does not run together with what follows. -/
theorem Lexeme.IsDefinitional.takes {l : Lexeme} (h : l.IsDefinitional) {rest : List Char}
    (apart : ∀ c ∈ l.text.getLast?, ∀ d ∈ rest.head?, namePart.has c = true → namePart.has d = false) :
    definitionGrammar.lexicon.Takes l rest := by
  have stop {c : Char} {v : List Char} (text : l.text = c :: v)
      (part : ∀ d ∈ c :: v, namePart.has d = true) : ∀ d ∈ rest.head?, namePart.has d = false := by
    intro d head
    have last : l.text.getLast? = some ((c :: v).getLast (List.cons_ne_nil _ _)) := by
      rw [text, List.getLast?_eq_getLast_of_ne_nil]
    exact apart _ last d head (part _ (List.getLast_mem _))
  cases h with
  | mark h =>
    obtain ⟨listed, rfl⟩ := h
    rcases List.mem_cons.1 listed with rfl | mark
    · exact takes_lookAhead (stop (c := 'L') (v := "ookAhead".toList) rfl part_lookAhead)
    · exact takes_mark mark
  | name h =>
    obtain ⟨h, rfl⟩ := h
    obtain ⟨c, v, text, start, part⟩ := (lexicalWord_of_spells (by decide) h.1).of_name
    exact h.takes (stop text (List.forall_mem_cons.2 ⟨namePart_of_nameStart start, part⟩))
  | literal h =>
    obtain rfl := h
    exact takes_quoteLiteral _
  | @count n _ h =>
    obtain ⟨⟨positive, -⟩, rfl⟩ := h
    obtain ⟨c, v, digits, nonzero⟩ := toDigits_of_pos positive
    have text : (toString n).toList = c :: v := (toList_toString n).trans digits
    have digit : ∀ d ∈ c :: v, d.isDigit = true := fun d listed =>
      Nat.isDigit_of_mem_toDigits (by decide) (by decide) (digits ▸ listed)
    have stops := stop text fun d listed => namePart_of_isDigit (digit d listed)
    obtain ⟨start, later⟩ := List.forall_mem_cons.1 digit
    rw [text]
    refine takes_count start nonzero later fun d head => Bool.eq_false_iff.2 fun isDigit => ?_
    exact Bool.eq_false_iff.1 (stops d head) (namePart_of_isDigit isDigit)

/-! ## Texts -/

/-- The text is made of the words, with blanks between them wherever two of them would run together. -/
inductive Spaced : List Char → List (List Char) → Prop
  | ended {gap} (blank : ∀ c ∈ gap, isBlank c = true) : Spaced gap []
  | word {gap w rest ws} (blank : ∀ c ∈ gap, isBlank c = true)
      (apart : ∀ c ∈ w.getLast?, ∀ d ∈ rest.head?, namePart.has c = true → namePart.has d = false)
      (later : Spaced rest ws) : Spaced (gap ++ (w ++ rest)) (w :: ws)

def spread (ws : List (List Char)) : List Char := ws.flatMap (' ' :: ·)

theorem namePart_blank : namePart.has ' ' = false := by decide +kernel

theorem spaced_spread (ws : List (List Char)) : Spaced (spread ws) ws := by
  induction ws with
  | nil => exact .ended (by simp [spread])
  | cons w ws ih =>
    have blank : ∀ d ∈ (spread ws).head?, namePart.has d = false := by
      cases ws with
      | nil => simp [spread]
      | cons => simp [spread, namePart_blank]
    have here : Spaced ([' '] ++ (w ++ spread ws)) (w :: ws) :=
      .word (List.forall_mem_singleton.2 (by decide)) (fun _ _ d head _ => blank d head) ih
    exact here

/-- A text of lexemes of definitions is cut into these lexemes. -/
theorem lexes_of_spaced {cs : List Char} {ls : List Lexeme} (known : ∀ l ∈ ls, l.IsDefinitional)
    (h : Spaced cs (ls.map (·.text))) : definitionGrammar.lexicon.Lexes cs ls := by
  induction ls generalizing cs with
  | nil =>
    cases h with
    | ended blank => exact .ended blank
  | cons l ls ih =>
    obtain ⟨here, others⟩ := List.forall_mem_cons.1 known
    cases h with
    | word blank apart later => exact .lexeme blank (here.takes apart) (ih others later)

theorem tokenSpelling_within :
    tokenSpelling.Within lexemeSpelling (Token.IsLexeme definitionGrammar.lexicon) where
  mark := by
    rintro s t _ same ⟨-, rfl⟩
    exact same.symbol
  name := by
    rintro n t _ same ⟨-, rfl⟩
    exact ⟨same.is, same.name, String.toList_injective same.text⟩
  literal := by
    rintro s t _ same rfl
    refine ⟨⟨"String", .inl rfl, same.is, same.name⟩, ?_⟩
    rw [Token.unquoted, same.text, unquote_quoteLiteral, String.ofList_toList]
  count := by
    rintro n t _ same ⟨⟨-, fits⟩, rfl⟩
    exact ⟨same.is, String.toList_injective same.text ▸ readTokenCount_toString fits⟩

/-- The tokens of a text of definitions are a way to write them. -/
theorem document_of_spaced {text : String} {k : Nat} {ls : List Lexeme} {ds : List Definition}
    (h : Document lexemeSpelling k ls ds) (spaced : Spaced text.toList (ls.map (·.text))) :
    (∃ place, (definitionGrammar.scan text).ending = .complete place) ∧
      Document tokenSpelling k (definitionGrammar.scan text).tokens ds := by
  obtain ⟨patterns, prepared⟩ := definitionGrammar_prepared
  obtain ⟨complete, tokens⟩ := (lexes_of_spaced h.definitional spaced).scan prepared
    definitionGrammar.comments
  exact ⟨complete, h.map tokenSpelling_within tokens⟩

end Rowlang
