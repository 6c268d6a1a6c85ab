import Mathlib.Data.List.Chain
import Rowlang.Proofs.Lexing.Spacing

/-!
# Texts without comments

* `Lexicon.Lone` : a character that is a literal of its own, and begins nothing else;
* `Lexicon.Uncommented` : no slash stands right in front of what would make a comment of it;
* `Lexicon.scanFrom_of_off` : then the text is cut as if comments were not recognised.
-/

namespace Rowlang
open Rowlang.Text

namespace Lexicon

/-- Whatever begins with the character is spelled by the literal of it alone. -/
def Lone (lexicon : Lexicon) (d : Char) : Prop :=
  ∀ p ∈ lexicon.patterns, ∀ w, p.Spells w → w.head? = some d → p = .literal (String.singleton d)

/-- No slash stands right in front of a slash or a star. -/
def Uncommented (lexicon : Lexicon) (tokens : List Token) : Prop :=
  tokens.IsChain fun t t' => lexicon.patterns[t.pattern]? = some (.literal "/") →
    ∀ d ∈ ['/', '*'], lexicon.patterns[t'.pattern]? ≠ some (.literal (String.singleton d))

variable {patterns : List LeafPattern} {lexicon : Lexicon} {c : Cursor} {d : Char} {rest : List Char}

theorem skipTrivia_off (c : Cursor) : skipTrivia .off [] c = .ok ([], c.skipBlanks) := by
  rw [skipTrivia]
  rfl

/-- A lone character is a token of its own, in a text that can be cut to its end. -/
theorem Lone.first (prepared : ofPatterns? patterns = some lexicon) (lone : lexicon.Lone d)
    (more : c.skipBlanks.rest = d :: rest)
    (complete : ∃ place, (lexicon.scanFrom .off c).ending = .complete place) :
    ∃ t c', (lexicon.scanFrom .off c).tokens = t :: (lexicon.scanFrom .off c').tokens ∧
      (lexicon.scanFrom .off c).ending = (lexicon.scanFrom .off c').ending ∧
      lexicon.patterns[t.pattern]? = some (.literal (String.singleton d)) ∧ c'.rest = rest := by
  cases chosen : lexicon.longestMatch c.skipBlanks.rest with
  | none =>
    rw [scanFrom_of_unexpected (skipTrivia_off c) more chosen] at complete
    obtain ⟨_, ⟨⟩⟩ := complete
  | some m =>
    obtain ⟨⟨offered, -⟩, -⟩ := (longestMatch_eq_some_iff prepared).1 chosen
    obtain ⟨p, made⟩ := ofPattern?_of_numbered prepared offered.numbered
    obtain ⟨le, spells⟩ := Matcher.spells made offered.taken
    have begun : (c.skipBlanks.rest.take m.length).head? = some d := by
      rw [more, List.take_cons offered.nonempty, List.head?_cons]
    obtain rfl := lone p (mem_patterns_of_numbered offered.numbered made) _ spells begun
    have length : m.length = 1 := by
      rw [← List.length_take_of_le le, show c.skipBlanks.rest.take m.length = _ from spells]
      simp
    rw [scanFrom_of_chosen (skipTrivia_off c) more chosen]
    refine ⟨_, _, rfl, rfl, ?_, ?_⟩
    · rw [Lexicon.patterns, List.getElem?_map, offered.numbered, Option.map_some, Matcher.pattern_eq made]
    · rw [Cursor.drop, length, more, List.drop_one, List.tail_cons]

section Slashes
variable (prepared : ofPatterns? patterns = some lexicon) (lone : ∀ d ∈ ['/', '*'], lexicon.Lone d)
include prepared lone

/-- No comment begins with the next token. -/
theorem commentStart_of_uncommented
    (complete : ∃ place, (lexicon.scanFrom .off c).ending = .complete place)
    (uncommented : lexicon.Uncommented (lexicon.scanFrom .off c).tokens) :
    commentStart c.skipBlanks.rest = .none := by
  have other : ∀ d ∈ ['/', '*'], ¬ ['/', d] <+: c.skipBlanks.rest := by
    rintro d behind ⟨rest, same⟩
    obtain ⟨t, c', tokens, ending, slash, left⟩ := (lone '/' (by decide)).first prepared same.symm complete
    have visible : isBlank d = false := by rcases List.mem_pair.1 behind with rfl | rfl <;> decide
    have more : c'.skipBlanks.rest = d :: rest :=
      skipBlanks_rest (List.forall_mem_nil _) left (by rintro _ ⟨⟩; exact visible)
    obtain ⟨t', c'', tokens', -, mark, -⟩ := (lone d behind).first prepared more (ending ▸ complete)
    rw [tokens, tokens'] at uncommented
    exact (List.isChain_cons_cons.1 uncommented).1 slash d behind mark
  exact commentStart_eq_none_iff.2 ⟨other '/' (by decide), other '*' (by decide)⟩

/-- A text without comments is cut as if they were not recognised. -/
theorem scanFrom_of_off (mode : CommentMode)
    (complete : ∃ place, (lexicon.scanFrom .off c).ending = .complete place)
    (uncommented : lexicon.Uncommented (lexicon.scanFrom .off c).tokens) :
    lexicon.scanFrom mode c = lexicon.scanFrom .off c := by
  have skipped : skipTrivia mode [] c = .ok ([], c.skipBlanks) :=
    skipTrivia_of_uncommented (commentStart_of_uncommented prepared lone complete uncommented)
  fun_induction scanFrom lexicon .off c with
  | case1 => obtain ⟨_, ⟨⟩⟩ := complete
  | case2 c comments here skipped' ended =>
    cases (skipTrivia_off c).symm.trans skipped'
    exact scanFrom_of_ended skipped ended
  | case3 => obtain ⟨_, ⟨⟩⟩ := complete
  | case4 c comments here skipped' d rest more m chosen behind token less =>
    rename_i ih
    cases (skipTrivia_off c).symm.trans skipped'
    have later : lexicon.Uncommented (lexicon.scanFrom .off behind).tokens := List.IsChain.tail uncommented
    rw [scanFrom_of_chosen skipped more chosen, ih complete later
      (skipTrivia_of_uncommented (commentStart_of_uncommented prepared lone complete later))]

end Slashes

end Lexicon

end Rowlang
