import Rowlang.Proofs.Lexing.Choice
import Rowlang.Proofs.Lexing.Trivia

/-!
# The partition of a text into tokens

* `Cut` : a text is cut into gaps and tokens, up to its end or to a fault;
* `Lexicon.scan_cut` : this is what a scan does;
* `Cut.slices`, `Cut.ordered`, `Cut.length_le` : the tokens are parts of the text, one behind the other;
* `Cut.spelled` : each token is spelled as its pattern tells;
* `Lexicon.scan_partition` : all of it together.
-/

namespace Rowlang
open Rowlang.Text Rowlang.Pattern

/-- The text `rest`, with `before` in front of it, is cut into gaps and tokens. It ends with a gap, or
behind a gap there is a comment that is never closed, or a character where no pattern takes anything
that is not overlooked. -/
inductive Cut (lexicon : Lexicon) (mode : CommentMode) :
    (before rest : List Char) → List Token → ScanEnd → Prop
  | complete {before gap found place} (between : Gap mode before gap [] found)
      (there : Location.Behind place (before ++ gap)) : Cut lexicon mode before gap [] (.complete place)
  | unterminated {before gap words found place} (recognised : mode ≠ .off)
      (between : Gap mode before gap ('/' :: '*' :: words) found) (opened : ¬ ['*', '/'] <:+: words)
      (there : Location.Behind place (before ++ gap)) :
      Cut lexicon mode before (gap ++ '/' :: '*' :: words) [] (.failed (.unterminatedComment place))
  | unexpected {before gap c rest found place} (between : Gap mode before gap (c :: rest) found)
      (nothing : ∀ m, lexicon.Offers (c :: rest) m → m.matcher.Overlooked (c :: rest))
      (there : Location.Behind place (before ++ gap)) :
      Cut lexicon mode before (gap ++ c :: rest) [] (.failed (.unexpectedCharacter c place))
  | token {before gap lexeme rest found m tokens ending} {t : Token}
      (between : Gap mode before gap (lexeme ++ rest) found) (nonempty : lexeme ≠ [])
      (chosen : lexicon.longestMatch (lexeme ++ rest) = some m) (taken : m.length = lexeme.length)
      (number : t.pattern = m.id) (name : t.name = m.matcher.pattern.name)
      (text : t.text = String.ofList lexeme) (begins : t.start.Behind (before ++ gap))
      (ends : t.stop = byteLength (before ++ gap ++ lexeme))
      (kept : t.comments = if mode = .attach then found.reverse else [])
      (later : Cut lexicon mode (before ++ gap ++ lexeme) rest tokens ending) :
      Cut lexicon mode before (gap ++ (lexeme ++ rest)) (t :: tokens) ending

/-! ## Scans -/

namespace Lexicon

variable {patterns : List LeafPattern} {lexicon : Lexicon} {mode : CommentMode} {c : Cursor}
  {before cs : List Char} {m : Match}

theorem length_longestMatch_le (h : ofPatterns? patterns = some lexicon)
    (chosen : lexicon.longestMatch cs = some m) : m.length ≤ cs.length := by
  obtain ⟨⟨offered, -⟩, -⟩ := (longestMatch_eq_some_iff h).1 chosen
  obtain ⟨p, prepared⟩ := ofPattern?_of_numbered h offered.numbered
  exact (Matcher.certain_prefix prepared offered.taken).1

/-- A scan from a cursor cuts the text that is left. -/
theorem scanFrom_cut (h : ofPatterns? patterns = some lexicon) (there : c.place.Behind before) :
    Cut lexicon mode before c.rest (lexicon.scanFrom mode c).tokens
      (lexicon.scanFrom mode c).ending := by
  fun_induction scanFrom lexicon mode c generalizing before with
  | case1 c e skipped =>
    obtain ⟨on, gap, found, words, passes, same, opened⟩ := skipTrivia_unterminated there skipped
    rw [passes.same, same]
    exact .unterminated on passes.between opened passes.there
  | case2 c comments here skipped ended =>
    obtain ⟨gap, found, passes, -⟩ := skipTrivia_gap there skipped
    rw [passes.same, ended, List.append_nil]
    exact .complete (ended ▸ passes.between) passes.there
  | case3 c comments here skipped d rest more none =>
    obtain ⟨gap, found, passes, -⟩ := skipTrivia_gap there skipped
    rw [more] at none
    rw [passes.same, more]
    exact .unexpected (more ▸ passes.between) ((longestMatch_eq_none_iff h).1 none) passes.there
  | case4 c comments here skipped d rest more m chosen behind token less =>
    rename_i ih
    obtain ⟨gap, found, passes, kept⟩ := skipTrivia_gap there skipped
    have taken : m.length = (here.rest.take m.length).length := by
      rw [List.length_take, Nat.min_eq_left (length_longestMatch_le h chosen)]
    have nonempty : here.rest.take m.length ≠ [] := by
      intro nothing
      rw [nothing, List.length_nil] at taken
      exact absurd (length_pos_of_longestMatch chosen) (by omega)
    have behindThere := Cursor.drop_behind passes.there m.length
    rw [passes.same, ← List.take_append_drop m.length here.rest]
    rw [← List.take_append_drop m.length here.rest] at chosen
    have between := passes.between
    rw [← List.take_append_drop m.length here.rest] at between
    exact .token between nonempty chosen taken rfl rfl rfl passes.there behindThere.offset
      (by simpa using kept) (ih behindThere)

/-- A scan cuts the whole text. -/
theorem scan_cut (h : ofPatterns? patterns = some lexicon) (mode : CommentMode) (text : String) :
    Cut lexicon mode [] text.toList (lexicon.scan mode text).tokens
      (lexicon.scan mode text).ending :=
  scanFrom_cut (c := .ofText text.toList) h Location.behind_start

end Lexicon

/-! ## Tokens as parts of a text -/

/-- A token is a part of the text `cs` that is not empty, and its places are those of that part. -/
structure Token.PartOf (t : Token) (cs : List Char) : Prop where
  slice : ∃ before after, cs = before ++ t.text.toList ++ after ∧ t.start.Behind before ∧
    t.stop = byteLength (before ++ t.text.toList)
  nonempty : t.start.offset < t.stop

namespace Cut

variable {lexicon : Lexicon} {mode : CommentMode} {before rest : List Char} {tokens : List Token}
  {ending : ScanEnd}

theorem slices (h : Cut lexicon mode before rest tokens ending) :
    ∀ t ∈ tokens, t.PartOf (before ++ rest) := by
  induction h with
  | complete | unterminated | unexpected => intro t ht; cases ht
  | @token before gap lexeme rest found m tokens ending t between nonempty chosen taken number name
      text begins ends kept later ih =>
    intro t' ht
    rcases List.mem_cons.1 ht with rfl | ht
    · have same : t'.text.toList = lexeme := by rw [text, String.toList_ofList]
      refine ⟨⟨before ++ gap, rest, by simp [same], begins, by rw [ends, same]⟩, ?_⟩
      have := byteLength_pos nonempty
      rw [begins.offset, ends, byteLength_append _ lexeme]
      omega
    · simpa using ih t' ht

theorem start_ge (h : Cut lexicon mode before rest tokens ending) :
    ∀ t ∈ tokens, byteLength before ≤ t.start.offset := by
  induction h with
  | complete | unterminated | unexpected => intro t ht; cases ht
  | token between nonempty chosen taken number name text begins ends kept later ih =>
    intro t' ht
    rcases List.mem_cons.1 ht with rfl | ht
    · rw [begins.offset, byteLength_append]; omega
    · have := ih t' ht
      simp only [byteLength_append] at this
      omega

theorem ordered (h : Cut lexicon mode before rest tokens ending) :
    tokens.Pairwise fun a b => a.stop ≤ b.start.offset := by
  induction h with
  | complete | unterminated | unexpected => exact .nil
  | token between nonempty chosen taken number name text begins ends kept later ih =>
    exact .cons (fun t ht => ends ▸ later.start_ge t ht) ih

theorem length_le (h : Cut lexicon mode before rest tokens ending) :
    tokens.length ≤ rest.length := by
  induction h with
  | complete | unterminated | unexpected => exact Nat.zero_le _
  | token between nonempty chosen taken number name text begins ends kept later ih =>
    have := List.length_pos_iff.2 nonempty
    simp only [List.length_cons, List.length_append]
    omega

/-- A token has the name of its pattern, and a text that this pattern spells. -/
theorem spelled {patterns : List LeafPattern} (prepared : Lexicon.ofPatterns? patterns = some lexicon)
    (h : Cut lexicon mode before rest tokens ending) :
    ∀ t ∈ tokens, ∃ p, lexicon.patterns[t.pattern]? = some p ∧ t.name = p.name ∧
      p.Spells t.text.toList := by
  induction h with
  | complete | unterminated | unexpected => intro t ht; cases ht
  | @token before gap lexeme rest found m tokens ending t between nonempty chosen taken number name
      text begins ends kept later ih =>
    intro t' ht
    rcases List.mem_cons.1 ht with rfl | ht
    · obtain ⟨⟨offered, -⟩, -⟩ := (Lexicon.longestMatch_eq_some_iff prepared).1 chosen
      obtain ⟨p, made⟩ := Lexicon.ofPattern?_of_numbered prepared offered.numbered
      have spells := (Matcher.spells made offered.taken).2
      rw [taken, List.take_left] at spells
      refine ⟨p, ?_, by rw [name, Matcher.pattern_eq made], by rwa [text, String.toList_ofList]⟩
      rw [Lexicon.patterns, List.getElem?_map, number, offered.numbered, ← Matcher.pattern_eq made]
      rfl
    · exact ih t' ht

end Cut

/-! ## Comments that are not kept -/

def Token.bare (t : Token) : Token := { t with comments := [] }

/-- A token without its place and its comments. -/
def Token.placeless (t : Token) : Token := ⟨t.pattern, t.name, t.text, .start, 0, []⟩

/-- The tokens differ in their places and comments only. -/
abbrev Token.SameWord (t t' : Token) : Prop := t'.placeless = t.placeless

/-- A scan whose tokens carry no comments. -/
def Scan.bare (s : Scan) : Scan := { s with tokens := s.tokens.map Token.bare }

namespace Lexicon

variable {patterns : List LeafPattern} {lexicon : Lexicon}

section Stages
variable {mode : CommentMode} {c here : Cursor} {comments : List Comment} {d : Char}
  {rest : List Char} {m : Match}

theorem scanFrom_of_unterminated {e : LexError} (skipped : skipTrivia mode [] c = .error e) :
    lexicon.scanFrom mode c = ⟨[], .failed e⟩ := by
  unfold scanFrom
  split
  · simp_all
  · simp_all

theorem scanFrom_of_ended (skipped : skipTrivia mode [] c = .ok (comments, here))
    (ended : here.rest = []) : lexicon.scanFrom mode c = ⟨[], .complete here.place⟩ := by
  unfold scanFrom
  split
  · simp_all
  · rename_i skipped'
    cases skipped.symm.trans skipped'
    split
    · rfl
    · simp_all

theorem scanFrom_of_unexpected (skipped : skipTrivia mode [] c = .ok (comments, here))
    (more : here.rest = d :: rest) (none : lexicon.longestMatch here.rest = none) :
    lexicon.scanFrom mode c = ⟨[], .failed (.unexpectedCharacter d here.place)⟩ := by
  unfold scanFrom
  split
  · simp_all
  · rename_i skipped'
    cases skipped.symm.trans skipped'
    split
    · simp_all
    · rename_i more'
      cases more.symm.trans more'
      split
      · rfl
      · rename_i chosen
        cases none.symm.trans chosen

theorem scanFrom_of_chosen (skipped : skipTrivia mode [] c = .ok (comments, here))
    (more : here.rest = d :: rest) (chosen : lexicon.longestMatch here.rest = some m) :
    lexicon.scanFrom mode c =
      ⟨⟨m.id, m.matcher.pattern.name, String.ofList (here.rest.take m.length), here.place,
        (here.drop m.length).place.offset, comments⟩ ::
          (lexicon.scanFrom mode (here.drop m.length)).tokens,
        (lexicon.scanFrom mode (here.drop m.length)).ending⟩ := by
  conv => lhs; unfold scanFrom
  split
  · simp_all
  · rename_i skipped'
    cases skipped.symm.trans skipped'
    split
    · simp_all
    · rename_i more'
      cases more.symm.trans more'
      split
      · simp_all
      · rename_i chosen'
        cases chosen.symm.trans chosen'
        rfl

end Stages

theorem scanFrom_skip (lexicon : Lexicon) (c : Cursor) :
    lexicon.scanFrom .skip c = (lexicon.scanFrom .attach c).bare := by
  have same (c : Cursor) := skipTrivia_skip [] [] c
  fun_induction scanFrom lexicon .attach c with
  | case1 c e skipped =>
    rw [scanFrom_of_unterminated (by rw [same, skipped]; rfl)]
    rfl
  | case2 c comments here skipped ended =>
    rw [scanFrom_of_ended (by rw [same, skipped]; rfl) ended]
    rfl
  | case3 c comments here skipped d rest more none =>
    rw [scanFrom_of_unexpected (by rw [same, skipped]; rfl) more none]
    rfl
  | case4 c comments here skipped d rest more m chosen behind token less =>
    rename_i ih
    rw [scanFrom_of_chosen (by rw [same, skipped]; rfl) more chosen, ih]
    rfl

/-- **A scan partitions the text.** It cuts the text into gaps and tokens; the tokens are parts of the
text one behind the other, and no more than it has characters; and they are the same ones whether or
not they carry the comments. -/
theorem scan_partition (h : ofPatterns? patterns = some lexicon) (mode : CommentMode)
    (text : String) :
    Cut lexicon mode [] text.toList (lexicon.scan mode text).tokens
      (lexicon.scan mode text).ending ∧
    (∀ t ∈ (lexicon.scan mode text).tokens, t.PartOf text.toList) ∧
    ((lexicon.scan mode text).tokens.Pairwise fun a b => a.stop ≤ b.start.offset) ∧
    (lexicon.scan mode text).tokens.length ≤ text.toList.length ∧
    lexicon.scan .skip text = (lexicon.scan .attach text).bare := by
  have cut := scan_cut h mode text
  exact ⟨cut, cut.slices, cut.ordered, cut.length_le, scanFrom_skip lexicon _⟩

/-- Two tokens with a comment between them, and a character that the overlooked pattern would take. -/
theorem scan_partition_piled : ∃ lexicon : Lexicon,
    ofPatterns? [.regex "P" "a+*b"] = some lexicon ∧
    (lexicon.scan .attach "ab /* é\n */aab\nb").tokens.map Token.text = ["ab", "aab"] ∧
    (lexicon.scan .attach "ab /* é\n */aab\nb").ending =
      .failed (.unexpectedCharacter 'b' ⟨16, 3, 1⟩) ∧
    Cut lexicon .attach [] "ab /* é\n */aab\nb".toList
      (lexicon.scan .attach "ab /* é\n */aab\nb").tokens
      (lexicon.scan .attach "ab /* é\n */aab\nb").ending := by
  have run : (ofPatterns? [.regex "P" "a+*b"]).map (fun lexicon =>
      ((lexicon.scan .attach "ab /* é\n */aab\nb").tokens.map Token.text,
        (lexicon.scan .attach "ab /* é\n */aab\nb").ending)) =
      some (["ab", "aab"], .failed (.unexpectedCharacter 'b' ⟨16, 3, 1⟩)) := by decide +kernel
  obtain ⟨lexicon, h, run⟩ := Option.map_eq_some_iff.1 run
  obtain ⟨tokens, ending⟩ := Prod.mk.inj run
  exact ⟨lexicon, h, tokens, ending, (scan_partition h .attach _).1⟩

end Lexicon

end Rowlang
