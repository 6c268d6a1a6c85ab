import Rowlang.Grammar.Builder
import Rowlang.Proofs.Lexing.Lexemes
import Rowlang.Proofs.Number.Numeral
import Rowlang.Proofs.Pattern.Matching

/-!
# The words of the lexical patterns

* `lexicalLeaf` : a lexical pattern as a leaf;
* `LexicalWord` : what a lexical pattern spells, as far as it matters for which match is the longest;
* `takes_nameRegex`, `takes_numberRegex`, `takes_quotedRegex` : which texts their expressions take;
* `Lexicon.takes_of` : a lexeme is taken where every word of another pattern is shorter.
-/

namespace Rowlang
open Rowlang.Text Rowlang.Pattern Rowlang.Pattern.Regex

def lexicalLeaf (name : String) : LeafPattern :=
  .regex name ((lexicalPatterns.lookup name).getD "")

/-! ## Sets of characters -/

def nameStart : CharSet :=
  .union (.union (.union .none (.single '$')) (.range 'a' 'z')) (.range 'A' 'Z')

def namePart : CharSet := .union (.union .none (.single '$')) .word

def countStart : CharSet := .union .none (.range '1' '9')

/-- The characters of a text between quotes `q` that stand for themselves. -/
def plainSet (q : Char) : CharSet := .compl (.union (.union .none (.single q)) (.single '\\'))

theorem has_plainSet {q c : Char} (notQuote : c ≠ q) (notSlash : c ≠ '\\') :
    (plainSet q).has c = true := by
  have other {a : Char} (h : c ≠ a) : (CharSet.single a).has c = false :=
    Bool.eq_false_iff.2 fun has => h ((CharSet.has_single a c).1 has)
  simp only [plainSet, CharSet.has, Bool.false_or, other notQuote, other notSlash, Bool.not_false]

theorem has_notNewline {c : Char} (h : c ≠ '\n') : CharSet.notNewline.has c = true := by
  rw [CharSet.notNewline, CharSet.has, Bool.not_eq_true']
  exact Bool.eq_false_iff.2 fun has => h ((CharSet.has_single _ c).1 has)

theorem countStart_has {c : Char} : countStart.has c = true ↔ c.isDigit = true ∧ c ≠ '0' := by
  simp only [countStart, CharSet.has, Bool.false_or, Bool.and_eq_true, decide_eq_true_eq, Char.isDigit,
    Char.le_def, UInt32.le_iff_toNat_le, ne_eq, Char.ext_iff, ← UInt32.toNat_inj]
  simp
  omega

theorem head_of_nameStart {c : Char} (h : nameStart.has c = true) :
    c.isDigit = false ∧ c ∉ ['"', '\'', '.', '/'] ∧ '!' ≤ c ∧ c ≤ '~' := by
  simp only [nameStart, CharSet.has, CharSet.single, Bool.false_or, Bool.or_eq_true,
    Bool.and_eq_true, decide_eq_true_eq] at h
  simp [Char.isDigit, Char.le_def, UInt32.le_iff_toNat_le, Char.ext_iff, ← UInt32.toNat_inj] at h ⊢
  omega

theorem head_of_isDigit {c : Char} (h : c.isDigit = true) :
    nameStart.has c = false ∧ c ∉ ['"', '\'', '.', '/'] := by
  refine ⟨Bool.eq_false_iff.2 fun start => ?_, ?_⟩
  · rw [(head_of_nameStart start).1] at h
    cases h
  · rintro listed
    simp only [List.mem_cons, List.not_mem_nil, or_false] at listed
    rcases listed with rfl | rfl | rfl | rfl <;> cases h

/-! ## Expressions -/

def nameRegex : Regex := seq (one nameStart) (seq (star true (one namePart)) .empty)

def numberRegex : Regex := seq (one countStart) (seq (star true (one digitSet)) .empty)

/-- A character between quotes `q`, or a backslash and the character behind it. -/
def quotedItem (q : Char) : Regex :=
  alt (seq (one (plainSet q)) .empty) (seq (one (.single '\\')) (seq (one .notNewline) .empty))

/-- The expression of texts between quotes `q`. -/
def quotedRegex (q : Char) : Regex :=
  seq (one (.single q)) (seq (star true (quotedItem q)) (seq (one (.single q)) .empty))

def lexicalRegexes : List (String × Regex) := [("Number", numberRegex), ("Integer", integerRegex),
  ("Decimal", decimalRegex), ("String", quotedRegex '"'), ("QuotedString", quotedRegex '\''),
  ("Name", nameRegex)]

theorem ofPattern?_lexicalLeaf : ∀ l ∈ lexicalRegexes, ∃ head,
    Matcher.ofPattern? (lexicalLeaf l.1) = some ⟨lexicalLeaf l.1, head, some l.2⟩ := by
  have read : ∀ l ∈ lexicalRegexes,
      ofText? ((lexicalPatterns.lookup l.1).getD "") = some l.2 := by decide +kernel
  intro l listed
  exact ⟨_, by rw [lexicalLeaf, Matcher.ofPattern?, read l listed]; rfl⟩

theorem spells_lexicalLeaf {l : String × Regex} (listed : l ∈ lexicalRegexes) {w : List Char}
    (spells : (lexicalLeaf l.1).Spells w) : l.2.Denotes w := by
  obtain ⟨head, made⟩ := ofPattern?_lexicalLeaf l listed
  obtain ⟨r, read, word⟩ := spells
  obtain ⟨r', read', same⟩ := Option.map_eq_some_iff.1 made
  cases read.symm.trans read'
  cases congrArg Matcher.regex same
  exact word

/-- The words of the lexical patterns, as far as they matter for which match is the longest. -/
inductive LexicalWord : String → List Char → Prop
  | name {c v} (start : nameStart.has c = true) (part : ∀ d ∈ v, namePart.has d = true) :
      LexicalWord "Name" (c :: v)
  | number {c v} (start : c.isDigit = true) (nonzero : c ≠ '0')
      (digits : ∀ d ∈ v, d.isDigit = true) : LexicalWord "Number" (c :: v)
  | integer {cs} (nonempty : cs ≠ []) (digits : ∀ c ∈ cs, c.isDigit = true) :
      LexicalWord "Integer" cs
  | decimal {ws fs} (whole : ∀ c ∈ ws, c.isDigit = true) (nonempty : fs ≠ [])
      (places : ∀ c ∈ fs, c.isDigit = true) : LexicalWord "Decimal" (ws ++ '.' :: fs)
  | string {v} : LexicalWord "String" ('"' :: v)
  | quotedString {v} : LexicalWord "QuotedString" ('\'' :: v)

theorem LexicalWord.of_name {w : List Char} (h : LexicalWord "Name" w) :
    ∃ c v, w = c :: v ∧ nameStart.has c = true ∧ ∀ d ∈ v, namePart.has d = true := by
  generalize same : "Name" = name at h
  cases h with
  | name start part => exact ⟨_, _, rfl, start, part⟩
  | _ => simp at same

theorem LexicalWord.of_number {w : List Char} (h : LexicalWord "Number" w) :
    ∃ c v, w = c :: v ∧ c.isDigit = true ∧ c ≠ '0' ∧ ∀ d ∈ v, d.isDigit = true := by
  generalize same : "Number" = name at h
  cases h with
  | number start nonzero digits => exact ⟨_, _, rfl, start, nonzero, digits⟩
  | _ => simp at same

theorem lexicalWord_of_spells {name : String} (lexical : name ∈ lexicalRegexes.map (·.1))
    {w : List Char} (spells : (lexicalLeaf name).Spells w) : LexicalWord name w := by
  have regex (r : Regex) (here : (name, r) ∈ lexicalRegexes) : r.Denotes w :=
    spells_lexicalLeaf here spells
  simp only [lexicalRegexes, List.map_cons, List.map_nil, List.mem_cons, List.not_mem_nil,
    or_false] at lexical
  rcases lexical with rfl | rfl | rfl | rfl | rfl | rfl
  · obtain ⟨c, v, rfl, start, more⟩ := (regex numberRegex (by simp [lexicalRegexes])).of_seq_one
    obtain ⟨digit, nonzero⟩ := countStart_has.1 start
    exact .number digit nonzero fun d hd => digitSet_has ▸ more.of_seq_empty.of_star_one d hd
  · obtain ⟨nonempty, digits⟩ := digits_of_integer (regex integerRegex (by simp [lexicalRegexes]))
    exact .integer nonempty digits
  · obtain ⟨ws, fs, rfl, whole, nonempty, places⟩ :=
      digits_of_decimal (regex decimalRegex (by simp [lexicalRegexes]))
    exact .decimal whole nonempty places
  · obtain ⟨c, v, rfl, quote, -⟩ :=
      Denotes.of_seq_one (regex (quotedRegex '"') (by simp [lexicalRegexes]))
    obtain rfl := (CharSet.has_single _ _).1 quote
    exact .string
  · obtain ⟨c, v, rfl, quote, -⟩ :=
      Denotes.of_seq_one (regex (quotedRegex '\'') (by simp [lexicalRegexes]))
    obtain rfl := (CharSet.has_single _ _).1 quote
    exact .quotedString
  · obtain ⟨c, v, rfl, start, more⟩ := (regex nameRegex (by simp [lexicalRegexes])).of_seq_one
    exact .name start more.of_seq_empty.of_star_one

/-! ## Texts that are taken -/

section
variable {c : Char} {v cs rest : List Char}

theorem takes_nameRegex (start : nameStart.has c = true) (part : ∀ d ∈ v, namePart.has d = true)
    (stop : ∀ d ∈ rest.head?, namePart.has d = false) : nameRegex.Takes (c :: v) rest :=
  takes_seq (u := [c]) (takes_one start) (takes_star_one part stop).seq_empty

theorem takes_numberRegex (start : c.isDigit = true) (nonzero : c ≠ '0')
    (digits : ∀ d ∈ v, d.isDigit = true) (stop : ∀ d ∈ rest.head?, d.isDigit = false) :
    numberRegex.Takes (c :: v) rest :=
  takes_seq (u := [c]) (takes_one (countStart_has.2 ⟨start, nonzero⟩))
    (takes_star_one (fun d hd => digitSet_has.trans (digits d hd))
      fun d hd => digitSet_has.trans (stop d hd)).seq_empty

/-- A text between quotes is taken wherever it stands, if its quotes and backslashes are escaped. -/
theorem takes_quotedRegex {q : Char} (other : q ≠ '\\') {rounds : List (List Char)}
    (each : ∀ w ∈ rounds, (∃ c, w = [c] ∧ (plainSet q).has c = true) ∨
      ∃ c, w = ['\\', c] ∧ CharSet.notNewline.has c = true) :
    (quotedRegex q).Takes (q :: (rounds.flatten ++ [q])) rest := by
  have quote : (CharSet.single q).has q = true := (CharSet.has_single q q).2 rfl
  have items : ∀ w ∈ rounds, w ≠ [] ∧ ∀ rest, (quotedItem q).Takes w rest := by
    intro w hw
    rcases each w hw with ⟨c, rfl, plain⟩ | ⟨c, rfl, escaped⟩
    · exact ⟨List.cons_ne_nil _ _, fun rest =>
        takes_altLeft (takes_seq (u := [c]) (takes_one plain) takes_empty)⟩
    · refine ⟨List.cons_ne_nil _ _, fun rest => takes_altRight (stuck_seq (stuck_one ?_))
        (takes_seq (u := ['\\']) (takes_one (by decide))
          (takes_seq (u := [c]) (takes_one escaped) takes_empty))⟩
      rintro _ ⟨⟩
      have slash : (CharSet.single '\\').has '\\' = true := by decide
      simp [plainSet, CharSet.has, slash]
  have stuck : (quotedItem q).Stuck (q :: rest) := by
    refine stuck_alt (stuck_seq (stuck_one ?_)) (stuck_seq (stuck_one ?_))
    · rintro _ ⟨⟩
      simp [plainSet, CharSet.has, quote]
    · rintro _ ⟨⟩
      exact Bool.eq_false_iff.2 fun has => other ((CharSet.has_single _ _).1 has)
  exact takes_seq (u := [q]) (takes_one quote) (takes_seq (takes_star items stuck)
    (takes_seq (u := [q]) (takes_one quote) takes_empty))

/-- A word whose later characters may not stand behind `u` is not longer than `u`. -/
theorem length_le_of_stop {P : Char → Prop} {w u rest : List Char} (front : w <+: u ++ rest)
    (nonempty : u ≠ []) (later : ∀ d ∈ w.tail, P d) (stop : ∀ d ∈ rest.head?, ¬ P d) :
    w.length ≤ u.length := by
  by_contra longer
  obtain ⟨v, rfl⟩ := List.prefix_of_prefix_length_le (List.prefix_append u rest) front (by omega)
  have behind := (List.prefix_append_right_inj u).1 front
  cases v with
  | nil => simp at longer
  | cons d v =>
    obtain ⟨more, rfl⟩ := behind
    refine stop d rfl (later d ?_)
    rw [List.tail_append_of_ne_nil nonempty]
    simp

theorem commentStart_of_head (h : ∀ c ∈ cs.head?, c ≠ '/') : commentStart cs = .none := by
  unfold commentStart
  split
  · exact absurd rfl (h _ rfl)
  · exact absurd rfl (h _ rfl)
  · rfl

end

namespace Lexicon

variable {lexicon : Lexicon} {patterns : List LeafPattern} {rest : List Char}

theorem matchLength_literal {s : String} {m : Matcher}
    (made : Matcher.ofPattern? (.literal s) = some m) :
    m.matchLength (s.toList ++ rest) = some s.toList.length := by
  cases made
  simp [Matcher.matchLength]

theorem matchLength_lexical {name : String} {r : Regex} (listed : (name, r) ∈ lexicalRegexes)
    {w : List Char} (takes : r.Takes w rest) {m : Matcher}
    (made : Matcher.ofPattern? (lexicalLeaf name) = some m) :
    m.matchLength (w ++ rest) = some w.length := by
  obtain ⟨head, known⟩ := ofPattern?_lexicalLeaf _ listed
  cases made.symm.trans known
  simp [Matcher.matchLength, takes.matchRest]

theorem spells_of_takes {name : String} {r : Regex} (listed : (name, r) ∈ lexicalRegexes) {w : List Char}
    (takes : r.Takes w []) : (lexicalLeaf name).Spells w := by
  obtain ⟨head, made⟩ := ofPattern?_lexicalLeaf _ listed
  have spelled := (Matcher.spells made (matchLength_lexical listed takes made)).2
  rwa [List.append_nil, List.take_length] at spelled

/-- A lexeme is taken in front of a text if its pattern takes it there, and every word of another that
stands there is shorter, or of a pattern with a shorter fixed beginning. -/
theorem takes_of (prepared : ofPatterns? patterns = some lexicon) (distinct : lexicon.patterns.Nodup)
    (firm : ∀ p ∈ lexicon.patterns, p.loose = false) {l : Lexeme} (listed : l.leaf ∈ lexicon.patterns)
    {c : Char} {cs : List Char} (text : l.text = c :: cs) (visible : '!' ≤ c ∧ c ≤ '~')
    (uncommented : c ≠ '/')
    (taken : ∀ m, Matcher.ofPattern? l.leaf = some m →
      m.matchLength (l.text ++ rest) = some l.text.length)
    (others : ∀ p ∈ lexicon.patterns, p ≠ l.leaf → ∀ w, p.Spells w → w <+: l.text ++ rest →
      w.length < l.text.length ∨ w.length = l.text.length ∧ p.weight < l.leaf.weight) :
    lexicon.Takes l rest :=
  ⟨⟨c, cs, text, not_isBlank_of_visible visible⟩,
    commentStart_of_head (by rw [text]; rintro d ⟨⟩; exact uncommented),
    exists_longestMatch prepared distinct firm listed (by simp [text]) taken others⟩

end Lexicon

end Rowlang
