import Rowlang.Proofs.Lexing.Lexemes

/-!
# Spacings between tokens

Blanks and comments that are put in front of the tokens of a text do not change the tokens, if a lexicon is
separable: its patterns take as much as they can, and a word with blanks in it, such as a quoted one, is not
begun by a shorter word.

* `Filler`, `Spacing` : blanks and complete comments, and such a text that begins with a blank;
* `Loosened`, `Cut.exists_loosened` : a text with spacings in front of its tokens, which may be any;
* `AgreesToBlank` : two texts that are the same up to a blank in the second;
* `Lexicon.Separable` : the lexicons that are meant;
* `Lexicon.Separable.longestMatch_eq` : they choose the same match in front of two such texts;
* `Lexicon.Separable.takes_at_blank` : which lexemes they take in front of a blank;
* `Lexicon.Separable.scan_loosened` : the tokens of a loosened text.
-/

namespace Rowlang
open Rowlang.Text

/-! ## Fillers -/

/-- Blanks and complete comments. A comment that goes to the end of its line is ended by that. -/
inductive Filler : List Char → Prop
  | nil : Filler []
  | blank {c cs} (blank : isBlank c = true) (later : Filler cs) : Filler (c :: cs)
  | line {words cs} (inside : '\n' ∉ words) (later : Filler cs) :
      Filler ('/' :: '/' :: (words ++ '\n' :: cs))
  | block {words cs} (inside : ¬ ['*', '/'] <:+: words ++ ['*']) (later : Filler cs) :
      Filler ('/' :: '*' :: (words ++ '*' :: '/' :: cs))

/-- Nothing, or blanks and complete comments of which a blank comes first. -/
structure Spacing (cs : List Char) : Prop where
  filler : Filler cs
  blank : ∀ c ∈ cs.head?, isBlank c = true

theorem spacing_nil : Spacing [] := ⟨.nil, by simp⟩

theorem Filler.append {cs ds : List Char} (h : Filler cs) (h' : Filler ds) : Filler (cs ++ ds) := by
  induction h with
  | nil => exact h'
  | blank blank _ ih => exact .blank blank ih
  | line inside _ ih => simpa using Filler.line inside ih
  | block inside _ ih => simpa using Filler.block inside ih

theorem Gap.filler {mode : CommentMode} {before gap after : List Char} {comments : List Comment}
    (h : Gap mode before gap after comments) (visible : ∃ c ∈ after.head?, isBlank c = false) :
    Filler gap := by
  obtain ⟨d, head, shown⟩ := visible
  induction h with
  | nil => exact .nil
  | blank blank _ ih => exact .blank blank (ih head)
  | @comment before text gap after comments start stop _ complete _ _ _ ih =>
    have later := ih head
    cases complete with
    | block inside => simpa using Filler.block inside later
    | @line words _ inside ended =>
      -- the comment ends with its line, and what is behind the gap begins no new one
      cases gap with
      | nil =>
        rcases ended with ended | ended
        · rw [List.nil_append] at ended
          rw [ended] at head
          cases head
        · rw [List.nil_append, head] at ended
          cases ended
          cases shown
      | cons c gap =>
        obtain rfl : c = '\n' := by simpa using ended
        cases later with
        | blank _ later => exact .line inside later

theorem closeLength_of_inside {words cs : List Char} (inside : ¬ ['*', '/'] <:+: words ++ ['*']) :
    closeLength (words ++ '*' :: '/' :: cs) = some (words.length + 2) := by
  induction words with
  | nil => rfl
  | cons c words ih =>
    rw [List.cons_append, List.infix_cons_iff, not_or] at inside
    have open_ : ∀ rest, c = '*' → words ++ '*' :: '/' :: cs ≠ '/' :: rest := by
      rintro rest rfl same
      cases words with
      | nil => cases same
      | cons d words =>
        obtain ⟨rfl, -⟩ := List.cons.inj same
        exact inside.1 ⟨words ++ ['*'], rfl⟩
    rw [List.cons_append, closeLength, ih inside.2]
    · rfl
    · exact fun rest h => open_ rest h

theorem commentStart_line {words cs : List Char} (inside : '\n' ∉ words) :
    commentStart ('/' :: '/' :: (words ++ '\n' :: cs)) = .complete (2 + words.length) := by
  have same : (words ++ '\n' :: cs).takeWhile (· != '\n') = words := by
    have kept : ∀ c ∈ words, (c != '\n') = true := by
      intro c listed
      rw [bne_iff_ne]
      rintro rfl
      exact inside listed
    rw [List.takeWhile_append_of_pos kept, List.takeWhile_cons_of_neg (by simp), List.append_nil]
  rw [commentStart, same]

theorem commentStart_block {words cs : List Char} (inside : ¬ ['*', '/'] <:+: words ++ ['*']) :
    commentStart ('/' :: '*' :: (words ++ '*' :: '/' :: cs)) = .complete (2 + (words.length + 2)) := by
  rw [commentStart, closeLength_of_inside inside]

theorem commentStart_eq_none_iff {cs : List Char} :
    commentStart cs = .none ↔ ¬ ['/', '/'] <+: cs ∧ ¬ ['/', '*'] <+: cs := by
  unfold commentStart
  split
  · simp
  · split <;> simp
  · rename_i other other'
    refine ⟨fun _ => ⟨?_, ?_⟩, fun _ => rfl⟩
    · rintro ⟨rest, rfl⟩
      exact other rest rfl
    · rintro ⟨rest, rfl⟩
      exact other' rest rfl

/-! ## Passing over fillers -/

section Skipping
open Lexicon (skipBlanks_rest skipTrivia_of_uncommented)

variable {mode : CommentMode} {passed : List Comment} {c d : Cursor} {rest : List Char}

/-- What is passed over is told by what is left behind the blanks. -/
theorem skipTrivia_congr (same : c.skipBlanks = d.skipBlanks) :
    skipTrivia mode passed c = skipTrivia mode passed d := by
  rw [skipTrivia, skipTrivia.eq_def mode passed d]
  dsimp only
  rw [same]

theorem skipBlanks_drop_one {b : Char} (same : c.rest = b :: rest) (blank : isBlank b = true) :
    (c.drop 1).skipBlanks = c.skipBlanks := by
  simp [Cursor.skipBlanks, Cursor.drop, same, blank, Location.advance]

/-- A comment is passed over, and then what is behind it. -/
theorem skipTrivia_of_comment {n : Nat} (passed : List Comment) (on : mode ≠ .off)
    (found : commentStart c.skipBlanks.rest = .complete n) :
    ∃ passed', skipTrivia mode passed c = skipTrivia mode passed' (c.skipBlanks.drop n) := by
  rw [skipTrivia]
  dsimp only
  rw [if_neg on]
  split
  · rename_i h
    cases found.symm.trans h
  · rename_i h
    cases found.symm.trans h
  · rename_i h
    cases found.symm.trans h
    exact ⟨_, rfl⟩

/-- A filler is passed over, up to what is neither a blank nor a comment. -/
theorem Filler.skipTrivia {cs : List Char} (h : Filler cs) (on : mode ≠ .off)
    (visible : ∀ b ∈ rest.head?, isBlank b = false) (uncommented : commentStart rest = .none)
    (passed : List Comment) (c : Cursor) (same : c.rest = cs ++ rest) :
    ∃ comments here, Rowlang.skipTrivia mode passed c = .ok (comments, here) ∧ here.rest = rest := by
  have slash {c : Cursor} {later : List Char} (same : c.rest = '/' :: later) :
      c.skipBlanks.rest = '/' :: later :=
    skipBlanks_rest (List.forall_mem_nil _) same (by rintro _ ⟨⟩; decide)
  induction h generalizing passed c with
  | nil =>
    have here : c.skipBlanks.rest = rest := skipBlanks_rest (List.forall_mem_nil _) same visible
    exact ⟨passed, c.skipBlanks, skipTrivia_of_uncommented (here ▸ uncommented), here⟩
  | blank blank _ ih =>
    rw [← skipTrivia_congr (skipBlanks_drop_one same blank)]
    exact ih passed (c.drop 1) (by simp [Cursor.drop, same])
  | @line words cs inside _ ih =>
    rw [List.cons_append, List.cons_append, List.append_assoc, List.cons_append] at same
    have found : commentStart ('/' :: '/' :: (words ++ '\n' :: (cs ++ rest))) = .complete (2 + words.length) :=
      commentStart_line inside
    rw [← slash same] at found
    obtain ⟨passed', skipped⟩ := skipTrivia_of_comment passed on found
    have behind : (c.skipBlanks.drop (2 + words.length)).rest = '\n' :: (cs ++ rest) := by
      rw [Cursor.drop, slash same, Nat.add_comm]
      simp
    rw [skipped, ← skipTrivia_congr (skipBlanks_drop_one behind (by decide))]
    exact ih passed' _ (by rw [Cursor.drop, behind]; rfl)
  | @block words cs inside _ ih =>
    rw [List.cons_append, List.cons_append, List.append_assoc, List.cons_append, List.cons_append] at same
    have found : commentStart ('/' :: '*' :: (words ++ '*' :: '/' :: (cs ++ rest))) =
        .complete (2 + (words.length + 2)) := commentStart_block inside
    rw [← slash same] at found
    obtain ⟨passed', skipped⟩ := skipTrivia_of_comment passed on found
    rw [skipped]
    refine ih passed' _ ?_
    rw [Cursor.drop, slash same, Nat.add_comm]
    simp

theorem settled_of_skipTrivia {comments : List Comment} {here : Cursor} (on : mode ≠ .off)
    (skipped : skipTrivia mode passed c = .ok (comments, here)) :
    (∀ b ∈ here.rest.head?, isBlank b = false) ∧ commentStart here.rest = .none := by
  fun_induction skipTrivia mode passed c with
  | case1 passed c b off => exact absurd off on
  | case2 passed c b _ none =>
    obtain ⟨-, rfl⟩ := Prod.mk.inj (Except.ok.inj skipped)
    refine ⟨?_, none⟩
    have visible := List.head?_dropWhile_not isBlank c.rest
    rw [← drop_takeWhile] at visible
    show ∀ d ∈ (c.rest.drop _).head?, isBlank d = false
    rintro d head
    rw [Option.mem_def.1 head] at visible
    simpa using visible
  | case3 => cases skipped
  | case4 passed c b _ n found behind comment less ih => exact ih skipped

theorem skipTrivia_of_rest {comments : List Comment} {here : Cursor} (same : d.rest = c.rest)
    (skipped : skipTrivia mode passed c = .ok (comments, here)) (passed' : List Comment) :
    ∃ comments' here', skipTrivia mode passed' d = .ok (comments', here') ∧ here'.rest = here.rest := by
  have blanks {c d : Cursor} (same : d.rest = c.rest) : d.skipBlanks.rest = c.skipBlanks.rest := by
    rw [Cursor.skipBlanks, Cursor.drop, Cursor.skipBlanks, Cursor.drop, same]
  fun_induction skipTrivia mode passed c generalizing passed' d with
  | case1 passed c b =>
    rename_i off
    obtain ⟨-, rfl⟩ := Prod.mk.inj (Except.ok.inj skipped)
    rw [skipTrivia]
    dsimp only
    rw [if_pos off]
    exact ⟨_, _, rfl, blanks same⟩
  | case2 passed c b on =>
    rename_i none
    obtain ⟨-, rfl⟩ := Prod.mk.inj (Except.ok.inj skipped)
    exact ⟨_, _, skipTrivia_of_uncommented (blanks same ▸ none), blanks same⟩
  | case3 => cases skipped
  | case4 passed c b on n found behind comment less =>
    rename_i ih
    obtain ⟨passed'', again⟩ := skipTrivia_of_comment passed' on (blanks same ▸ found)
    rw [again]
    refine ih ?_ skipped _
    rw [Cursor.drop, blanks same]
    rfl

end Skipping

/-! ## Loosened texts -/

/-- A text, `o` bytes behind the beginning, and the same text with a spacing in front of each of the tokens that
it is cut into. -/
inductive Loosened : (o : Nat) → List Char → List Token → (pads : List (List Char)) → List Char → Prop
  | ended {o rest} : Loosened o rest [] [] rest
  | token {o gap pad pads lexeme rest rest' t tokens} (begins : t.start.offset = o + byteLength gap)
      (ends : t.stop = t.start.offset + byteLength lexeme) (spacing : Spacing pad)
      (later : Loosened t.stop rest tokens pads rest') :
      Loosened o (gap ++ (lexeme ++ rest)) (t :: tokens) (pad :: pads) (gap ++ (pad ++ (lexeme ++ rest')))

/-- Any spacings can be put in front of the tokens. -/
theorem Cut.exists_loosened {lexicon : Lexicon} {mode : CommentMode} {before rest : List Char}
    {tokens : List Token} {ending : ScanEnd} (h : Cut lexicon mode before rest tokens ending)
    {pads : List (List Char)} (spacings : ∀ pad ∈ pads, Spacing pad) (each : pads.length = tokens.length) :
    ∃ rest', Loosened (byteLength before) rest tokens pads rest' := by
  induction h generalizing pads with
  | complete | unterminated | unexpected =>
    obtain rfl := List.length_eq_zero_iff.1 each
    exact ⟨_, .ended⟩
  | token between nonempty chosen taken number name text begins ends kept later ih =>
    cases pads with
    | nil => cases each
    | cons pad pads =>
      obtain ⟨spacing, spacings⟩ := List.forall_mem_cons.1 spacings
      obtain ⟨rest', loosened⟩ := ih spacings (Nat.succ.inj each)
      refine ⟨_, .token ?_ ?_ spacing (ends ▸ loosened)⟩
      · rw [begins.offset, byteLength_append]
      · rw [ends, begins.offset, byteLength_append _ (_ : List Char)]

/-- The second text is the first one, up to a blank at most. -/
inductive AgreesToBlank : List Char → List Char → Prop
  | same {cs} : AgreesToBlank cs cs
  | blank {cs c later common} (blank : isBlank c = true) :
      AgreesToBlank (common ++ cs) (common ++ c :: later)

namespace AgreesToBlank

variable {cs cs' w : List Char}

theorem append (h : AgreesToBlank cs cs') (front : List Char) :
    AgreesToBlank (front ++ cs) (front ++ cs') := by
  cases h with
  | same => exact .same
  | blank blank =>
    rw [← List.append_assoc, ← List.append_assoc]
    exact .blank blank

/-- What the second text begins with, the first does as well, unless there is a blank in it. -/
theorem prefix_or (h : AgreesToBlank cs cs') (front : w <+: cs') :
    w <+: cs ∨ ∃ c ∈ w, isBlank c = true := by
  cases h with
  | same => exact .inl front
  | @blank cs c later common blank =>
    obtain ⟨rest, same⟩ := front
    rcases List.append_eq_append_iff.1 same with ⟨v, rfl, -⟩ | ⟨v, rfl, behind⟩
    · exact .inl ⟨v ++ cs, by simp⟩
    · cases v with
      | nil => exact .inl (by simp)
      | cons d v =>
        obtain rfl : c = d := (List.cons.inj behind).1
        exact .inr ⟨c, by simp, blank⟩

theorem commentStart_eq_none (h : AgreesToBlank cs cs') (uncommented : commentStart cs = .none) :
    commentStart cs' = .none := by
  rw [commentStart_eq_none_iff] at uncommented ⊢
  have visible {w : List Char} (none : ¬ w <+: cs) (shown : ∀ c ∈ w, isBlank c = false) : ¬ w <+: cs' := by
    intro front
    rcases h.prefix_or front with front | ⟨c, listed, blank⟩
    · exact none front
    · rw [shown c listed] at blank
      cases blank
  have slash : isBlank '/' = false := by decide
  have star : isBlank '*' = false := by decide
  exact ⟨visible uncommented.1 (by simp [slash]), visible uncommented.2 (by simp [slash, star])⟩

end AgreesToBlank

theorem Loosened.agreesToBlank {o : Nat} {cs cs' : List Char} {tokens : List Token} {pads : List (List Char)}
    (h : Loosened o cs tokens pads cs') : AgreesToBlank cs cs' := by
  induction h with
  | ended => exact .same
  | @token o gap pad pads lexeme rest rest' t tokens _ _ spacing _ ih =>
    cases pad with
    | nil => exact (ih.append lexeme).append gap
    | cons c pad => exact .blank (spacing.blank c rfl)

theorem eq_of_byteLength_eq {u v u' v' : List Char} (same : u ++ v = u' ++ v')
    (bytes : byteLength u = byteLength u') : u = u' ∧ v = v' := by
  have short {u v : List Char} {w : List Char} (h : w = u ++ v) (bytes : byteLength w = byteLength u) :
      v = [] := by
    by_contra nonempty
    have := byteLength_pos nonempty
    rw [h, byteLength_append] at bytes
    omega
  rcases List.append_eq_append_iff.1 same with ⟨w, rfl, rfl⟩ | ⟨w, rfl, rfl⟩
  · obtain rfl := short rfl bytes.symm
    simp
  · obtain rfl := short rfl bytes
    simp

/-- The first token of a loosened text is where it begins and as long as it is. -/
theorem Loosened.first {o : Nat} {gap lexeme rest cs' : List Char} {t : Token} {tokens : List Token}
    {pads : List (List Char)} (h : Loosened o (gap ++ (lexeme ++ rest)) (t :: tokens) pads cs')
    (begins : t.start.offset = o + byteLength gap) (ends : t.stop = t.start.offset + byteLength lexeme) :
    ∃ pad pads' rest', cs' = gap ++ (pad ++ (lexeme ++ rest')) ∧ Spacing pad ∧
      Loosened t.stop rest tokens pads' rest' := by
  generalize same : gap ++ (lexeme ++ rest) = cs at h
  cases h with
  | token begins' ends' spacing later =>
    obtain ⟨gaps, same⟩ := eq_of_byteLength_eq same (by omega)
    obtain ⟨lexemes, rests⟩ := eq_of_byteLength_eq same (by omega)
    subst gaps lexemes rests
    exact ⟨_, _, _, rfl, spacing, later⟩

/-! ## Separable lexicons -/

namespace Lexicon

/-- Every pattern takes as much as it can, no fixed beginning may be left out, and a word with blanks in it
is not begun by another word. -/
structure Separable (lexicon : Lexicon) : Prop where
  prepared : ∃ patterns, ofPatterns? patterns = some lexicon
  firm : ∀ p ∈ lexicon.patterns, p.loose = false
  greedy : ∀ p ∈ lexicon.patterns, ∀ m, Matcher.ofPattern? p = some m → ∀ w rest, p.Spells w →
    ∃ n, m.matchLength (w ++ rest) = some n ∧ w.length ≤ n
  closed : ∀ p ∈ lexicon.patterns, ∀ w, p.Spells w → (∃ c ∈ w, isBlank c = true) →
    ∀ p' ∈ lexicon.patterns, ∀ u, p'.Spells u → u ≠ [] → u <+: w → u = w

variable {lexicon : Lexicon} {cs cs' : List Char} {m : Match}

theorem mem_patterns_of_numbered {id : Nat} {matcher : Matcher} {p : LeafPattern}
    (numbered : lexicon.matchers[id]? = some matcher) (made : Matcher.ofPattern? p = some matcher) :
    p ∈ lexicon.patterns := by
  rw [← Matcher.pattern_eq made]
  exact List.mem_map_of_mem (List.mem_of_getElem? numbered)

namespace Separable
variable {k : Match} (separable : lexicon.Separable)
include separable

theorem not_overlooked (offered : lexicon.Offers cs m) : ¬ m.matcher.Overlooked cs := by
  obtain ⟨patterns, prepared⟩ := separable.prepared
  obtain ⟨p, made⟩ := ofPattern?_of_numbered prepared offered.numbered
  rintro ⟨loose, -⟩
  rw [Matcher.pattern_eq made, separable.firm p (mem_patterns_of_numbered offered.numbered made)] at loose
  cases loose

/-- A pattern takes in front of another text what it takes in front of one, if it stands there, or more. -/
theorem offers_again (offered : lexicon.Offers cs m) (front : cs.take m.length <+: cs') :
    ∃ n, m.length ≤ n ∧ lexicon.Offers cs' ⟨m.id, m.matcher, n⟩ := by
  obtain ⟨patterns, prepared⟩ := separable.prepared
  obtain ⟨p, made⟩ := ofPattern?_of_numbered prepared offered.numbered
  obtain ⟨le, spells⟩ := Matcher.spells made offered.taken
  obtain ⟨rest, rfl⟩ := front
  obtain ⟨n, taken, more⟩ :=
    separable.greedy p (mem_patterns_of_numbered offered.numbered made) _ made _ rest spells
  rw [List.length_take_of_le le] at more
  exact ⟨n, more, offered.numbered, taken, Nat.lt_of_lt_of_le offered.nonempty more⟩

/-- What is taken of the second text stands in the first, if what is taken of the first stands in the second. -/
theorem stands (h : AgreesToBlank cs cs') (offered : lexicon.Offers cs m) (front : cs.take m.length <+: cs')
    (offered' : lexicon.Offers cs' k) : cs'.take k.length <+: cs := by
  obtain ⟨patterns, prepared⟩ := separable.prepared
  obtain ⟨p, made⟩ := ofPattern?_of_numbered prepared offered.numbered
  obtain ⟨p', made'⟩ := ofPattern?_of_numbered prepared offered'.numbered
  obtain ⟨le, spells⟩ := Matcher.spells made offered.taken
  obtain ⟨-, spells'⟩ := Matcher.spells made' offered'.taken
  rcases h.prefix_or (List.take_prefix k.length cs') with stands | blank
  · exact stands
  rcases Nat.le_total (cs.take m.length).length (cs'.take k.length).length with short | long
  · have begun := List.prefix_of_prefix_length_le front (List.take_prefix _ _) short
    have nonempty : cs.take m.length ≠ [] :=
      List.ne_nil_of_length_pos (by rw [List.length_take_of_le le]; exact offered.nonempty)
    rw [← separable.closed p' (mem_patterns_of_numbered offered'.numbered made') _ spells' blank p
      (mem_patterns_of_numbered offered.numbered made) _ spells nonempty begun]
    exact List.take_prefix _ _
  · exact (List.prefix_of_prefix_length_le (List.take_prefix _ _) front long).trans (List.take_prefix _ _)

/-- In front of two texts that are the same up to a blank, a separable lexicon chooses the same match. -/
theorem longestMatch_eq (h : AgreesToBlank cs cs') (chosen : lexicon.longestMatch cs = some m)
    (front : cs.take m.length <+: cs') : lexicon.longestMatch cs' = some m := by
  obtain ⟨patterns, prepared⟩ := separable.prepared
  obtain ⟨⟨offered, -⟩, best⟩ := (longestMatch_eq_some_iff prepared).1 chosen
  have back {k : Match} (other : lexicon.Offers cs' k) :
      ∃ n, k.length ≤ n ∧ lexicon.Offers cs ⟨k.id, k.matcher, n⟩ :=
    separable.offers_again other (separable.stands h offered front other)
  have offered' : lexicon.Offers cs' m := by
    obtain ⟨n, more, again⟩ := separable.offers_again offered front
    obtain ⟨n', more', first⟩ := back again
    cases offered.taken.symm.trans first.taken
    cases Nat.le_antisymm more more'
    exact again
  refine (longestMatch_eq_some_iff prepared).2 ⟨⟨offered', separable.not_overlooked offered'⟩, ?_⟩
  rintro k ⟨other, -⟩
  obtain ⟨n, more, first⟩ := back other
  have beaten := best _ ⟨first, separable.not_overlooked first⟩
  unfold Match.AtLeast at beaten ⊢
  dsimp only at more beaten
  omega

/-- In front of a blank or the end, a separable lexicon takes a word for the pattern with the longest fixed
beginning of those that spell it. -/
theorem takes_at_blank (distinct : lexicon.patterns.Nodup) {l : Lexeme}
    (listed : l.leaf ∈ lexicon.patterns) (spelled : l.leaf.Spells l.text) {rest : List Char}
    (visible : ∃ c cs, l.text = c :: cs ∧ isBlank c = false)
    (uncommented : commentStart (l.text ++ rest) = .none) (stop : ∀ c ∈ rest.head?, isBlank c = true)
    (best : ∀ p ∈ lexicon.patterns, p ≠ l.leaf → p.Spells l.text → p.weight < l.leaf.weight) :
    lexicon.Takes l rest := by
  obtain ⟨patterns, prepared⟩ := separable.prepared
  have nonempty : l.text ≠ [] := by
    obtain ⟨c, cs, text, -⟩ := visible
    rw [text]
    exact List.cons_ne_nil c cs
  -- a longer word goes on with the blank, so that the lexeme would be that word
  have bounded (p : LeafPattern) (listed' : p ∈ lexicon.patterns) (w : List Char) (spells : p.Spells w)
      (front : w <+: l.text ++ rest) : w.length ≤ l.text.length := by
    by_contra longer
    obtain ⟨v, rfl⟩ := List.prefix_of_prefix_length_le (List.prefix_append l.text rest) front (by omega)
    have behind := (List.prefix_append_right_inj l.text).1 front
    cases v with
    | nil => simp at longer
    | cons d v =>
      obtain ⟨more, rfl⟩ := behind
      have blank := stop d rfl
      have same := separable.closed p listed' _ spells ⟨d, by simp, blank⟩ l.leaf listed l.text spelled nonempty
        (List.prefix_append _ _)
      simp at same
  refine ⟨visible, uncommented, exists_longestMatch prepared distinct separable.firm listed
    (List.length_pos_iff.2 nonempty) (fun m made => ?_) fun p listed' other w spells front => ?_⟩
  · obtain ⟨n, taken, long⟩ := separable.greedy l.leaf listed m made l.text rest spelled
    obtain ⟨inside, spells⟩ := Matcher.spells made taken
    have short := bounded l.leaf listed _ spells (List.take_prefix _ _)
    rw [List.length_take_of_le inside] at short
    rw [taken, Nat.le_antisymm short long]
  · rcases Nat.lt_or_eq_of_le (bounded p listed' w spells front) with shorter | same
    · exact .inl shorter
    · refine .inr ⟨same, best p listed' other ?_⟩
      rwa [← (List.prefix_of_prefix_length_le front (List.prefix_append _ _) (Nat.le_of_eq same)).eq_of_length same]

end Separable

/-! ## The tokens of a loosened text -/

theorem skipTrivia_spaced {mode : CommentMode} (on : mode ≠ .off) {before gap pad after : List Char}
    {c c' here : Cursor} {comments found : List Comment} {d : Char}
    (skipped : skipTrivia mode [] c = .ok (comments, here))
    (passes : Passes mode before c gap here.place here.rest found) (begins : d ∈ here.rest.head?)
    (spacing : Spacing pad) (agrees : AgreesToBlank here.rest after) (begins' : d ∈ after.head?)
    (same : c'.rest = gap ++ (pad ++ after)) :
    ∃ comments' here', skipTrivia mode [] c' = .ok (comments', here') ∧ here'.rest = after := by
  obtain ⟨visible, uncommented⟩ := settled_of_skipTrivia on skipped
  have shown : isBlank d = false := visible d begins
  have filler := (passes.between.filler ⟨d, begins, shown⟩).append spacing.filler
  rw [← List.append_assoc] at same
  refine filler.skipTrivia on ?_ (agrees.commentStart_eq_none uncommented) [] c' same
  rw [Option.mem_def.1 begins']
  rintro _ ⟨⟩
  exact shown

/-- A loosened text has tokens that differ in their places and comments only. -/
theorem Separable.scanFrom_loosened (separable : lexicon.Separable) {mode : CommentMode} (on : mode ≠ .off)
    {before : List Char} {c c' : Cursor} {pads : List (List Char)} (there : c.place.Behind before)
    (complete : ∃ place, (lexicon.scanFrom mode c).ending = .complete place)
    (loosened : Loosened c.place.offset c.rest (lexicon.scanFrom mode c).tokens pads c'.rest) :
    (∃ place, (lexicon.scanFrom mode c').ending = .complete place) ∧
      List.Forall₂ Token.SameWord (lexicon.scanFrom mode c).tokens
        (lexicon.scanFrom mode c').tokens := by
  fun_induction scanFrom lexicon mode c generalizing before c' pads with
  | case1 => obtain ⟨_, ⟨⟩⟩ := complete
  | case2 c comments here skipped ended =>
    have same : c'.rest = c.rest := by
      generalize c.rest = cs at loosened ⊢
      cases loosened
      rfl
    obtain ⟨comments', here', skipped', rest⟩ := skipTrivia_of_rest same skipped []
    rw [scanFrom_of_ended skipped' (rest.trans ended)]
    exact ⟨⟨_, rfl⟩, .nil⟩
  | case3 => obtain ⟨_, ⟨⟩⟩ := complete
  | case4 c comments here skipped d rest more m chosen behind token =>
    rename_i ih
    obtain ⟨gap, found, passes, -⟩ := skipTrivia_gap there skipped
    obtain ⟨patterns, prepared⟩ := separable.prepared
    have le := length_longestMatch_le prepared chosen
    have lexeme : (here.rest.take m.length).length = m.length := List.length_take_of_le le
    have behindThere := Cursor.drop_behind passes.there m.length
    have begins : here.place.offset = c.place.offset + byteLength gap := by
      rw [passes.there.offset, there.offset, byteLength_append]
    have ends : behind.place.offset = here.place.offset + byteLength (here.rest.take m.length) := by
      rw [behindThere.offset, passes.there.offset, byteLength_append]
    -- the spacing stands between the gap and the token
    rw [passes.same, ← List.take_append_drop m.length here.rest] at loosened
    obtain ⟨pad, pads', rest', same, spacing, looser⟩ := loosened.first begins ends
    have agrees := looser.agreesToBlank.append (here.rest.take m.length)
    rw [List.take_append_drop] at agrees
    have begun : here.rest.take m.length = d :: rest.take (m.length - 1) := by
      rw [more, List.take_cons (length_pos_of_longestMatch chosen)]
    obtain ⟨comments', here', skipped', there'⟩ :=
      skipTrivia_spaced on skipped passes (by rw [more]; rfl) spacing agrees (by rw [begun]; rfl) same
    have chosen' : lexicon.longestMatch here'.rest = some m :=
      there' ▸ separable.longestMatch_eq agrees chosen (List.prefix_append _ _)
    have more' : here'.rest = d :: (rest.take (m.length - 1) ++ rest') := by
      rw [there', begun, List.cons_append]
    have took : here'.rest.take m.length = here.rest.take m.length := by
      rw [there', List.take_left' lexeme]
    have left : (here'.drop m.length).rest = rest' := by
      rw [Cursor.drop, there', List.drop_left' lexeme]
    obtain ⟨ending, words⟩ := ih behindThere complete (left.symm ▸ looser)
    rw [scanFrom_of_chosen skipped' more' chosen']
    refine ⟨ending, .cons ?_ words⟩
    rw [took]
    rfl

/-- **A loosened text** has the tokens of the text, at other places and with other comments. -/
theorem Separable.scan_loosened (separable : lexicon.Separable) {mode : CommentMode} (on : mode ≠ .off)
    {text text' : String} {pads : List (List Char)}
    (complete : ∃ place, (lexicon.scan mode text).ending = .complete place)
    (loosened : Loosened 0 text.toList (lexicon.scan mode text).tokens pads text'.toList) :
    (∃ place, (lexicon.scan mode text').ending = .complete place) ∧
      List.Forall₂ Token.SameWord (lexicon.scan mode text).tokens (lexicon.scan mode text').tokens :=
  separable.scanFrom_loosened on Location.behind_start complete loosened

end Lexicon

end Rowlang
