import Rowlang.Proofs.Lexing.Spacing
import Rowlang.Proofs.Lexing.Words

/-!
# Separable lexicons of lexical patterns

* `Regex.Greedy` : an expression takes every word of it, or a longer one that goes on with what follows;
* `greedy_lexicalRegexes` : the expressions of the lexical patterns do;
* `quotedRegex_of_blank`, `quotedRegex_closed` : of their words only texts between quotes have blanks in them,
  and of those none begins another;
* `Lexicon.separable_of_plain` : a lexicon of such patterns and of literals that cannot be taken for quoted texts
  is separable.
-/

namespace Rowlang
open Rowlang.Text Rowlang.Pattern Rowlang.Pattern.Regex

/-! ## Greedy expressions -/

/-- Of a text that begins with a word of it, the expression takes this word, or a longer one. -/
def Pattern.Regex.Greedy (r : Regex) : Prop :=
  ∀ w rest, r.Denotes w → ∃ u v, rest = u ++ v ∧ r.Takes (w ++ u) v

theorem exists_run (set : CharSet) (rest : List Char) : ∃ u v, rest = u ++ v ∧
    (∀ c ∈ u, set.has c = true) ∧ ∀ c ∈ v.head?, set.has c = false := by
  refine ⟨rest.takeWhile set.has, rest.dropWhile set.has, List.takeWhile_append_dropWhile.symm,
    fun c => List.mem_takeWhile_imp, fun c head => ?_⟩
  have stop := List.head?_dropWhile_not set.has rest
  rw [Option.mem_def.1 head] at stop
  simpa using stop

/-- An expression whose words go on with the characters of a set, as long as these last, is greedy. -/
theorem greedy_of_run {r : Regex} (set : CharSet) (more : ∀ w u v, r.Denotes w →
    (∀ c ∈ u, set.has c = true) → (∀ c ∈ v.head?, set.has c = false) → r.Takes (w ++ u) v) : r.Greedy := by
  intro w rest word
  obtain ⟨u, v, same, inside, stop⟩ := exists_run set rest
  exact ⟨u, v, same, more w u v word inside stop⟩

theorem digits_append {ds u : List Char} (digits : ∀ c ∈ ds, c.isDigit = true)
    (inside : ∀ c ∈ u, digitSet.has c = true) : ∀ c ∈ ds ++ u, c.isDigit = true :=
  List.forall_mem_append.2 ⟨digits, fun c listed => digitSet_has ▸ inside c listed⟩

theorem takes_digits {ds rest : List Char} (nonempty : ds ≠ []) (digits : ∀ c ∈ ds, c.isDigit = true)
    (stop : ∀ c ∈ rest.head?, digitSet.has c = false) : (plus true (one digitSet)).Takes ds rest := by
  have each := takes_each_one fun c listed => digitSet_has.trans (digits c listed)
  have whole := takes_plus each (stuck_one stop) (by simpa using nonempty)
  rwa [flatten_singletons] at whole

theorem greedy_nameRegex : nameRegex.Greedy := by
  refine greedy_of_run namePart fun w u v word inside stop => ?_
  obtain ⟨c, part, rfl, start, more⟩ := word.of_seq_one
  exact takes_nameRegex start (List.forall_mem_append.2 ⟨more.of_seq_empty.of_star_one, inside⟩) stop

theorem greedy_numberRegex : numberRegex.Greedy := by
  refine greedy_of_run digitSet fun w u v word inside stop => ?_
  obtain ⟨c, ds, rfl, start, more⟩ := word.of_seq_one
  obtain ⟨digit, nonzero⟩ := countStart_has.1 start
  have digits : ∀ d ∈ ds, d.isDigit = true :=
    fun d listed => digitSet_has ▸ more.of_seq_empty.of_star_one d listed
  exact takes_numberRegex digit nonzero (digits_append digits inside) fun d hd => digitSet_has ▸ stop d hd

theorem greedy_integerRegex : integerRegex.Greedy := by
  refine greedy_of_run digitSet fun w u v word inside stop => ?_
  obtain ⟨nonempty, digits⟩ := digits_of_integer word
  exact (takes_digits (by simp [nonempty]) (digits_append digits inside) stop).seq_empty

theorem greedy_decimalRegex : decimalRegex.Greedy := by
  refine greedy_of_run digitSet fun w u v word inside stop => ?_
  obtain ⟨ws, fs, rfl, whole, nonempty, places⟩ := digits_of_decimal word
  have fraction := (takes_digits (by simp [nonempty]) (digits_append places inside) stop).seq_empty
  have digits : (star true (one digitSet)).Takes ws ('.' :: (fs ++ u) ++ v) :=
    takes_star_one (fun d hd => digitSet_has.trans (whole d hd)) (by rintro _ ⟨⟩; decide)
  rw [List.append_assoc]
  exact takes_seq digits (takes_seq (u := ['.']) (takes_one (by decide)) fraction)

/-! ## Texts between quotes -/

theorem rounds_of_star {greedy : Bool} {r : Regex} {w : List Char} (word : (star greedy r).Denotes w) :
    ∃ rounds : List (List Char), w = rounds.flatten ∧ ∀ u ∈ rounds, r.Denotes u := by
  have some_rounds {w : List Char} (word : (plus greedy r).Denotes w) :
      ∃ rounds : List (List Char), w = rounds.flatten ∧ ∀ u ∈ rounds, r.Denotes u := by
    generalize whole : plus greedy r = s at word
    induction word with
    | @plusOne _ _ u round =>
      cases whole
      exact ⟨[u], by simp, by simpa using round⟩
    | plusMore round _ _ ih =>
      cases whole
      obtain ⟨rounds, same, each⟩ := ih rfl
      exact ⟨_ :: rounds, by rw [same, List.flatten_cons], List.forall_mem_cons.2 ⟨round, each⟩⟩
    | _ => cases whole
  cases word with
  | optNone => exact ⟨[], rfl, List.forall_mem_nil _⟩
  | optSome given => exact some_rounds given

/-- A text between quotes is taken wherever it stands, and nothing more. -/
theorem takes_of_quoted {q : Char} (other : q ≠ '\\') {w : List Char} (word : (quotedRegex q).Denotes w)
    (rest : List Char) : (quotedRegex q).Takes w rest := by
  obtain ⟨c, v, rfl, quote, more⟩ := word.of_seq_one
  obtain rfl := (CharSet.has_single _ _).1 quote
  cases more with
  | seq inner last =>
    obtain ⟨d, v', rfl, quote', nothing⟩ := last.of_seq_one
    obtain rfl := (CharSet.has_single _ _).1 quote'
    cases nothing
    obtain ⟨rounds, rfl, each⟩ := rounds_of_star inner
    refine takes_quotedRegex other fun u listed => ?_
    cases each u listed with
    | altLeft plain =>
      obtain ⟨c, v, rfl, has, nothing⟩ := plain.of_seq_one
      cases nothing
      exact .inl ⟨c, rfl, has⟩
    | altRight escaped =>
      obtain ⟨c, v, rfl, slash, more⟩ := escaped.of_seq_one
      obtain ⟨d, v', rfl, has, nothing⟩ := more.of_seq_one
      obtain rfl := (CharSet.has_single _ _).1 slash
      cases nothing
      exact .inr ⟨d, rfl, has⟩

theorem greedy_quotedRegex {q : Char} (other : q ≠ '\\') : (quotedRegex q).Greedy :=
  fun w rest word => ⟨[], rest, rfl, by rw [List.append_nil]; exact takes_of_quoted other word rest⟩

/-- No text between quotes begins another. -/
theorem quotedRegex_closed {q : Char} (other : q ≠ '\\') {u w : List Char} (word : (quotedRegex q).Denotes u)
    (word' : (quotedRegex q).Denotes w) (front : u <+: w) : u = w := by
  obtain ⟨v, rfl⟩ := front
  have first := (takes_of_quoted other word v).matchRest
  have whole := (takes_of_quoted other word' []).matchRest
  rw [List.append_nil, first] at whole
  rw [Option.some.inj whole, List.append_nil]

theorem greedy_lexicalRegexes : ∀ l ∈ lexicalRegexes, l.2.Greedy := by
  simp only [lexicalRegexes, List.forall_mem_cons, List.not_mem_nil, false_implies, implies_true, and_true]
  exact ⟨greedy_numberRegex, greedy_integerRegex, greedy_decimalRegex, greedy_quotedRegex (by decide),
    greedy_quotedRegex (by decide), greedy_nameRegex⟩

/-! ## Words with blanks -/

theorem not_isBlank_of_namePart {c : Char} (h : namePart.has c = true) : isBlank c = false := by
  have apart : ∀ b ∈ blankRanges, ∀ r ∈ wordRanges, b.2 < r.1 ∨ r.2 < b.1 := by decide +kernel
  rw [Bool.eq_false_iff]
  intro blank
  simp only [namePart, CharSet.has, Bool.false_or, Bool.or_eq_true] at h
  rcases h with dollar | word
  · obtain rfl := (CharSet.has_single _ _).1 dollar
    exact absurd blank (by decide)
  · obtain ⟨b, listed, low, high⟩ := CodeRanges.has_iff.1 blank
    obtain ⟨r, listed', low', high'⟩ := CodeRanges.has_iff.1 word
    rcases apart b listed r listed' with below | above <;> omega

/-- The characters that texts are put between. -/
def quotes : List Char := ['"', '\'']

theorem ne_of_quote {q : Char} (quote : q ∈ quotes) : q ≠ '\\' := by
  rintro rfl
  exact absurd quote (by decide)

theorem LexicalWord.quote_of_blank {name : String} {w : List Char} (word : LexicalWord name w)
    (blank : ∃ c ∈ w, isBlank c = true) : ∃ q ∈ quotes, w.head? = some q := by
  have visible (h : ∀ c ∈ w, isBlank c = false) : ∃ q ∈ quotes, w.head? = some q := by
    obtain ⟨c, listed, blank⟩ := blank
    cases (h c listed).symm.trans blank
  have digit {c : Char} (h : c.isDigit = true) : isBlank c = false :=
    not_isBlank_of_visible (visible_of_isDigit h)
  cases word with
  | name start part =>
    exact visible (List.forall_mem_cons.2 ⟨not_isBlank_of_visible (head_of_nameStart start).2.2,
      fun d hd => not_isBlank_of_namePart (part d hd)⟩)
  | number start _ digits => exact visible (List.forall_mem_cons.2 ⟨digit start, fun d hd => digit (digits d hd)⟩)
  | integer _ digits => exact visible fun d hd => digit (digits d hd)
  | decimal whole _ places =>
    exact visible (List.forall_mem_append.2 ⟨fun d hd => digit (whole d hd),
      List.forall_mem_cons.2 ⟨by decide, fun d hd => digit (places d hd)⟩⟩)
  | string => exact ⟨'"', by decide, rfl⟩
  | quotedString => exact ⟨'\'', by decide, rfl⟩

/-- What a word of a lexical pattern begins with. -/
theorem LexicalWord.head {name : String} {w : List Char} (word : LexicalWord name w) {c : Char}
    (first : w.head? = some c) : (nameStart.has c = true ∨ c.isDigit = true ∨ c = '.') ∨
      name = "String" ∧ c = '"' ∨ name = "QuotedString" ∧ c = '\'' := by
  cases word with
  | name start =>
    cases first
    exact .inl (.inl start)
  | number start =>
    cases first
    exact .inl (.inr (.inl start))
  | integer _ digits => exact .inl (.inr (.inl (digits c (List.mem_of_mem_head? first))))
  | @decimal ws fs whole =>
    cases ws with
    | nil =>
      cases first
      exact .inl (.inr (.inr rfl))
    | cons d ws =>
      cases first
      exact .inl (.inr (.inl (whole c List.mem_cons_self)))
  | string =>
    cases first
    exact .inr (.inl ⟨rfl, rfl⟩)
  | quotedString =>
    cases first
    exact .inr (.inr ⟨rfl, rfl⟩)

/-- What a lexical pattern spells that begins with a quote is a text between quotes. -/
theorem quotedRegex_of_head {name : String} (lexical : name ∈ lexicalRegexes.map (·.1)) {w : List Char}
    (spells : (lexicalLeaf name).Spells w) {q : Char} (quote : q ∈ quotes) (first : w.head? = some q) :
    (quotedRegex q).Denotes w := by
  have within : quotes ⊆ ['"', '\'', '.', '/'] := by decide
  rcases (lexicalWord_of_spells lexical spells).head first with
    (start | digit | rfl) | ⟨rfl, rfl⟩ | ⟨rfl, rfl⟩
  · exact absurd (within quote) (head_of_nameStart start).2.1
  · exact absurd (within quote) (head_of_isDigit digit).2
  · exact absurd quote (by decide)
  · exact spells_lexicalLeaf (l := ("String", quotedRegex '"')) (by simp [lexicalRegexes]) spells
  · exact spells_lexicalLeaf (l := ("QuotedString", quotedRegex '\'')) (by simp [lexicalRegexes]) spells

/-! ## Plain lexicons -/

/-- A literal without blanks that does not begin with a quote, or a lexical pattern. -/
def LeafPattern.Plain : LeafPattern → Prop
  | .literal s => s.toList.all (!isBlank ·) = true ∧ s.toList.head?.all (!quotes.contains ·) = true
  | .regex name source => name ∈ lexicalRegexes.map (·.1) ∧ lexicalLeaf name = .regex name source

instance : DecidablePred LeafPattern.Plain
  | .literal s => inferInstanceAs (Decidable
      (s.toList.all (!isBlank ·) = true ∧ s.toList.head?.all (!quotes.contains ·) = true))
  | .regex name source => inferInstanceAs (Decidable
      (name ∈ lexicalRegexes.map (·.1) ∧ lexicalLeaf name = .regex name source))

theorem LeafPattern.plain_literal_iff {s : String} : (LeafPattern.literal s).Plain ↔
    (∀ c ∈ s.toList, isBlank c = false) ∧ ∀ c ∈ s.toList.head?, c ∉ quotes := by
  simp [Plain, Option.all_eq_true]

namespace Lexicon

variable {patterns : List LeafPattern} {lexicon : Lexicon}

theorem separable_of_plain (prepared : ofPatterns? patterns = some lexicon)
    (plain : ∀ p ∈ lexicon.patterns, p.Plain) : lexicon.Separable where
  prepared := ⟨patterns, prepared⟩
  firm p listed := by
    cases p with
    | literal s => rfl
    | regex name source =>
      have firm : ∀ name ∈ lexicalRegexes.map (·.1), (lexicalLeaf name).loose = false := by decide +kernel
      obtain ⟨lexical, same⟩ := plain _ listed
      exact same ▸ firm name lexical
  greedy p listed m made w rest spells := by
    cases p with
    | literal s =>
      obtain rfl : w = s.toList := spells
      exact ⟨_, matchLength_literal made, Nat.le_refl _⟩
    | regex name source =>
      obtain ⟨lexical, same⟩ := plain _ listed
      rw [← same] at made spells
      obtain ⟨⟨name, r⟩, inside, rfl⟩ := List.mem_map.1 lexical
      obtain ⟨u, v, rfl, takes⟩ := greedy_lexicalRegexes _ inside w rest (spells_lexicalLeaf inside spells)
      have taken := matchLength_lexical inside takes made
      rw [List.append_assoc] at taken
      exact ⟨_, taken, by simp⟩
  closed p listed w spells blank p' listed' u spells' nonempty front := by
    have plain' := plain p' listed'
    cases p with
    | literal s =>
      obtain rfl : w = s.toList := spells
      obtain ⟨c, inside, blank⟩ := blank
      cases ((LeafPattern.plain_literal_iff.1 (plain _ listed)).1 c inside).symm.trans blank
    | regex name source =>
      obtain ⟨lexical, same⟩ := plain _ listed
      rw [← same] at spells
      obtain ⟨q, quote, first⟩ := (lexicalWord_of_spells lexical spells).quote_of_blank blank
      have first' : u.head? = some q := by
        obtain ⟨v, rfl⟩ := front
        rwa [List.head?_append_of_ne_nil _ nonempty] at first
      cases p' with
      | literal s =>
        obtain rfl : u = s.toList := spells'
        exact absurd quote ((LeafPattern.plain_literal_iff.1 plain').2 q first')
      | regex name' source' =>
        rw [← plain'.2] at spells'
        exact quotedRegex_closed (ne_of_quote quote) (quotedRegex_of_head plain'.1 spells' quote first')
          (quotedRegex_of_head lexical spells quote first) front

end Lexicon

end Rowlang
