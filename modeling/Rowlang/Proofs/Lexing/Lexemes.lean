import Mathlib.Data.List.Forall2
import Rowlang.Proofs.Lexing.Partition

/-!
# Texts that are cut as foretold

* `Lexeme` : a text with the leaf pattern that it is meant for;
* `Lexicon.Takes` : in front of a text, the lexicon chooses this pattern and takes this text, which is
  then the next token (`Lexicon.Takes.scanFrom`);
* `Lexicon.exists_longestMatch` : a pattern is chosen if all others spell less;
* `Lexicon.Lexes` : a text is made of lexemes and blanks, and the lexicon takes each lexeme where it
  stands;
* `Lexicon.Lexes.scan` : the tokens of such a text are its lexemes.
-/

namespace Rowlang
open Rowlang.Text

/-- A text with the leaf pattern that it is meant for. -/
structure Lexeme where
  leaf : LeafPattern
  text : List Char

def Lexeme.symbol (s : String) : Lexeme := ⟨.literal s, s.toList⟩

/-- The token is the lexeme. -/
structure Token.IsLexeme (lexicon : Lexicon) (t : Token) (l : Lexeme) : Prop where
  is : lexicon.patterns[t.pattern]? = some l.leaf
  name : t.name = l.leaf.name
  text : t.text.toList = l.text

theorem Token.IsLexeme.symbol {lexicon : Lexicon} {t : Token} {s : String}
    (h : t.IsLexeme lexicon (.symbol s)) :
    lexicon.patterns[t.pattern]? = some (.literal s) ∧ t.text = s :=
  ⟨h.is, String.toList_injective h.text⟩

namespace Lexicon

/-- In front of `rest`, the lexicon takes the lexeme, which begins with no blank and no comment. -/
structure Takes (lexicon : Lexicon) (l : Lexeme) (rest : List Char) : Prop where
  visible : ∃ c cs, l.text = c :: cs ∧ isBlank c = false
  uncommented : commentStart (l.text ++ rest) = .none
  chosen : ∃ m, lexicon.longestMatch (l.text ++ rest) = some m ∧ m.length = l.text.length ∧
    m.matcher.pattern = l.leaf

/-- The text is made of the lexemes, with blanks between them, and the lexicon takes each where it
stands. -/
inductive Lexes (lexicon : Lexicon) : List Char → List Lexeme → Prop
  | ended {gap} (blank : ∀ c ∈ gap, isBlank c = true) : Lexes lexicon gap []
  | lexeme {gap l rest ls} (blank : ∀ c ∈ gap, isBlank c = true) (takes : lexicon.Takes l rest)
      (later : Lexes lexicon rest ls) : Lexes lexicon (gap ++ (l.text ++ rest)) (l :: ls)

variable {lexicon : Lexicon} {l : Lexeme} {rest cs : List Char} {ls : List Lexeme}

theorem Lexes.cons (takes : lexicon.Takes l rest) (later : lexicon.Lexes rest ls) :
    lexicon.Lexes (l.text ++ rest) (l :: ls) :=
  .lexeme (List.forall_mem_nil _) takes later

theorem Lexes.blank (h : lexicon.Lexes cs ls) : lexicon.Lexes (' ' :: cs) ls := by
  have blank {gap : List Char} (h : ∀ c ∈ gap, isBlank c = true) :
      ∀ c ∈ ' ' :: gap, isBlank c = true :=
    List.forall_mem_cons.2 ⟨by decide, h⟩
  cases h with
  | ended gap => exact .ended (blank gap)
  | lexeme gap takes later => exact .lexeme (blank gap) takes later

theorem skipBlanks_rest {c : Cursor} {gap : List Char} (blank : ∀ d ∈ gap, isBlank d = true)
    (same : c.rest = gap ++ rest) (visible : ∀ d ∈ rest.head?, isBlank d = false) :
    c.skipBlanks.rest = rest := by
  rw [Cursor.skipBlanks, Cursor.drop, drop_takeWhile, same, List.dropWhile_append_of_pos blank]
  cases rest with
  | nil => rfl
  | cons d rest => rw [List.dropWhile_cons_of_neg (by simp [visible d rfl])]

theorem skipTrivia_of_uncommented {mode : CommentMode} {passed : List Comment} {c : Cursor}
    (uncommented : commentStart c.skipBlanks.rest = .none) :
    skipTrivia mode passed c = .ok (passed, c.skipBlanks) := by
  unfold skipTrivia
  dsimp only
  split
  · rfl
  · split
    · rfl
    · rename_i opened
      cases uncommented.symm.trans opened
    · rename_i found
      cases uncommented.symm.trans found

/-- Where the lexicon takes a lexeme, this is the next token, and the scan goes on behind it. -/
theorem Takes.scanFrom {patterns : List LeafPattern} (prepared : ofPatterns? patterns = some lexicon)
    (takes : lexicon.Takes l rest) (mode : CommentMode) {c : Cursor}
    (here : c.skipBlanks.rest = l.text ++ rest) :
    ∃ t : Token, lexicon.scanFrom mode c =
        ⟨t :: (lexicon.scanFrom mode ⟨rest, c.skipBlanks.place.advance l.text⟩).tokens,
          (lexicon.scanFrom mode ⟨rest, c.skipBlanks.place.advance l.text⟩).ending⟩ ∧
      t.IsLexeme lexicon l ∧ t.start = c.skipBlanks.place ∧
      t.stop = (c.skipBlanks.place.advance l.text).offset ∧ t.comments = [] := by
  obtain ⟨⟨d, ds, text, -⟩, uncommented, m, chosen, taken, pattern⟩ := takes
  have skipped : skipTrivia mode [] c = .ok ([], c.skipBlanks) :=
    skipTrivia_of_uncommented (here ▸ uncommented)
  have more : c.skipBlanks.rest = d :: (ds ++ rest) := by rw [here, text, List.cons_append]
  have behind : c.skipBlanks.drop m.length = ⟨rest, c.skipBlanks.place.advance l.text⟩ := by
    rw [Cursor.drop, here, taken, List.drop_left, List.take_left]
  have number : lexicon.patterns[m.id]? = some l.leaf := by
    obtain ⟨⟨offered, -⟩, -⟩ := (longestMatch_eq_some_iff prepared).1 chosen
    rw [Lexicon.patterns, List.getElem?_map, offered.numbered, Option.map_some, pattern]
  refine ⟨_, (scanFrom_of_chosen skipped more (here.symm ▸ chosen)).trans (by rw [behind]),
    ⟨number, by rw [pattern], ?_⟩, rfl, rfl, rfl⟩
  rw [String.toList_ofList, here, taken, List.take_left]

/-- The tokens of a text that is made of lexemes. -/
theorem Lexes.scanFrom {patterns : List LeafPattern} (prepared : ofPatterns? patterns = some lexicon)
    (h : lexicon.Lexes cs ls) (mode : CommentMode) (c : Cursor) (same : c.rest = cs) :
    (∃ place, (lexicon.scanFrom mode c).ending = .complete place) ∧
      List.Forall₂ (Token.IsLexeme lexicon) (lexicon.scanFrom mode c).tokens ls := by
  induction h generalizing c with
  | ended blank =>
    have rest : c.skipBlanks.rest = [] := skipBlanks_rest blank (by simp [same]) (by simp)
    have skipped : skipTrivia mode [] c = .ok ([], c.skipBlanks) :=
      skipTrivia_of_uncommented (by rw [rest]; rfl)
    rw [scanFrom_of_ended skipped rest]
    exact ⟨⟨_, rfl⟩, .nil⟩
  | @lexeme gap l rest ls blank takes later ih =>
    obtain ⟨d, ds, text, visible⟩ := takes.visible
    have here : c.skipBlanks.rest = l.text ++ rest :=
      skipBlanks_rest blank same (by rw [text]; rintro _ ⟨⟩; exact visible)
    obtain ⟨t, scanned, lexeme, -⟩ := takes.scanFrom prepared mode here
    rw [scanned]
    obtain ⟨ending, lexemes⟩ := ih ⟨rest, c.skipBlanks.place.advance l.text⟩ rfl
    exact ⟨ending, .cons lexeme lexemes⟩

theorem Lexes.scan {patterns : List LeafPattern} (prepared : ofPatterns? patterns = some lexicon)
    {text : String} (h : lexicon.Lexes text.toList ls) (mode : CommentMode) :
    (∃ place, (lexicon.scan mode text).ending = .complete place) ∧
      List.Forall₂ (Token.IsLexeme lexicon) (lexicon.scan mode text).tokens ls :=
  h.scanFrom prepared mode (.ofText text.toList) rfl

end Lexicon

/-! ## The pattern chosen -/

def LeafPattern.weight : LeafPattern → Nat
  | .literal text => text.toList.length
  | .regex _ source => (Pattern.fixedHead source.toList).length

theorem Matcher.length_head {m : Matcher} {p : LeafPattern} (h : ofPattern? p = some m) :
    m.head.length = p.weight := by
  unfold ofPattern? at h
  cases p with
  | literal text =>
    cases h
    rfl
  | regex name source =>
    obtain ⟨r, -, h⟩ := Option.map_eq_some_iff.1 h
    cases h
    rfl

namespace Lexicon

variable {lexicon : Lexicon} {patterns : List LeafPattern} {cs : List Char}

theorem exists_numbered (prepared : ofPatterns? patterns = some lexicon) {p : LeafPattern}
    (listed : p ∈ lexicon.patterns) :
    ∃ (id : Nat) (m : Matcher), lexicon.matchers[id]? = some m ∧ Matcher.ofPattern? p = some m := by
  obtain ⟨m, inside, rfl⟩ := List.mem_map.1 listed
  obtain ⟨id, numbered⟩ := List.mem_iff_getElem?.1 inside
  obtain ⟨p, made⟩ := ofPattern?_of_numbered prepared numbered
  exact ⟨id, m, numbered, Matcher.pattern_eq made ▸ made⟩

/-- A pattern is chosen if what any other spells at the beginning of the text is shorter, or of the same
length where its fixed beginning is shorter. -/
theorem exists_longestMatch (prepared : ofPatterns? patterns = some lexicon)
    (distinct : lexicon.patterns.Nodup) (firm : ∀ p ∈ lexicon.patterns, p.loose = false)
    {leaf : LeafPattern} (listed : leaf ∈ lexicon.patterns) {n : Nat} (positive : 0 < n)
    (taken : ∀ m, Matcher.ofPattern? leaf = some m → m.matchLength cs = some n)
    (others : ∀ p ∈ lexicon.patterns, p ≠ leaf → ∀ w, p.Spells w → w <+: cs →
      w.length < n ∨ w.length = n ∧ p.weight < leaf.weight) :
    ∃ m, lexicon.longestMatch cs = some m ∧ m.length = n ∧ m.matcher.pattern = leaf := by
  obtain ⟨id, m, numbered, made⟩ := exists_numbered prepared listed
  refine ⟨⟨id, m, n⟩, (longestMatch_eq_some_iff prepared).2 ⟨⟨⟨numbered, taken m made, positive⟩, ?_⟩,
    ?_⟩, rfl, Matcher.pattern_eq made⟩
  · intro overlooked
    have := overlooked.1
    rw [Matcher.pattern_eq made, firm leaf listed] at this
    cases this
  · rintro ⟨id', m', n'⟩ ⟨⟨numbered', taken', -⟩, -⟩
    dsimp only at numbered' taken'
    obtain ⟨p, made'⟩ := ofPattern?_of_numbered prepared numbered'
    have place {id : Nat} {m : Matcher} {p : LeafPattern} (numbered : lexicon.matchers[id]? = some m)
        (made : Matcher.ofPattern? p = some m) : lexicon.patterns[id]? = some p := by
      rw [Lexicon.patterns, List.getElem?_map, numbered, Option.map_some, Matcher.pattern_eq made]
    by_cases same : p = leaf
    · subst same
      have inside : id' < lexicon.patterns.length :=
        (List.getElem?_eq_some_iff.1 (place numbered' made')).1
      have : id' = id := (List.getElem?_inj inside distinct).1
        ((place numbered' made').trans (place numbered made).symm)
      cases made'.symm.trans made
      cases taken'.symm.trans (taken _ made)
      exact .inr ⟨rfl, .inr ⟨rfl, Nat.le_of_eq this.symm⟩⟩
    · obtain ⟨le, spells⟩ := Matcher.spells made' taken'
      have competes := others p (List.mem_of_getElem? (place numbered' made')) same _ spells
        (List.take_prefix _ _)
      rw [List.length_take_of_le le] at competes
      rcases competes with shorter | ⟨same, lighter⟩
      · exact .inl shorter
      · exact .inr ⟨same, .inl (by rwa [Matcher.length_head made', Matcher.length_head made])⟩

end Lexicon

end Rowlang
