import Rowlang.Proofs.Expr.Precedence

/-!
# Literal texts of expressions

A literal text is printed between quotes, in a form made for messages, which knows more escapes than the
reader of expressions does. Characters that are printed by their code points are read back as the escape
without its backslash.

* `isCoded` : the characters printed by their code points, or as a NUL;
* `reread` : what is read back of a text as it is printed;
* `Shown` : a character as it is printed and as it is read back;
* `spells_quote` : every printed text is one token;
* `reread_eq_iff` : the texts that are read back as they were;
* `Expr.ofText_quoted` : what the printed form of a literal text is read as.
-/

namespace Rowlang
open Rowlang.Text Rowlang.Pattern Rowlang.Pattern.Regex

/-! ## Characters -/

/-- Whether a character between quotes is printed by its code point, or as a NUL. -/
def isCoded (c : Char) : Bool :=
  !(['\t', '\r', '\n'].contains c) && (extendsGrapheme c || !isPrintable c)

/-- What is read back of a character as it is printed. -/
def rereadChar (c : Char) : List Char := if isCoded c then (escape '"' c).drop 1 else [c]

def reread (s : String) : String := .ofList (s.toList.flatMap rereadChar)

example : reread "\x01é\n" = "u\x7b1\x7dé\n" := by decide +kernel

/-- The characters that end a text between quotes, or may not stand in it as they are. -/
def quotationMarks : List Char := ['"', '\\', '\n']

/-- The character `c` is printed as `w`, and read back as `v`. -/
inductive Shown (c : Char) : List Char → List Char → Prop
  | plain (notQuote : c ≠ '"') (notSlash : c ≠ '\\') (uncoded : isCoded c = false) : Shown c [c] [c]
  | escaped {d} (reads : unescapedChar d = c) (inline : d ≠ '\n') (uncoded : isCoded c = false) :
      Shown c ['\\', d] [c]
  | coded {d ds} (reads : unescapedChar d = d) (apart : isCoded d = false)
      (calm : ∀ a ∈ d :: ds, a ∉ quotationMarks) (coded : isCoded c = true) :
      Shown c ('\\' :: d :: ds) (d :: ds)

theorem calm_of_mem_toDigits {b n : Nat} {c : Char} (listed : c ∈ Nat.toDigits b n) :
    c ∉ quotationMarks := by
  have each (m : Nat) : m.digitChar ∉ quotationMarks := by
    simp only [quotationMarks, List.mem_cons, List.not_mem_nil, or_false, not_or]
    exact ⟨Nat.digitChar_ne _ (by decide), Nat.digitChar_ne _ (by decide), Nat.digitChar_ne _ (by decide)⟩
  suffices ∀ (fuel n : Nat) (cs : List Char), (∀ d ∈ cs, d ∉ quotationMarks) →
      ∀ d ∈ Nat.toDigitsCore b fuel n cs, d ∉ quotationMarks from
    this _ _ [] (by simp) c listed
  intro fuel
  induction fuel with
  | zero => exact fun _ _ calm => calm
  | succ fuel ih =>
    intro n cs calm
    have more : ∀ d ∈ (n % b).digitChar :: cs, d ∉ quotationMarks :=
      List.forall_mem_cons.2 ⟨each (n % b), calm⟩
    rw [Nat.toDigitsCore]
    split
    · exact more
    · exact ih _ _ more

theorem shown (c : Char) : Shown c (escape '"' c) (rereadChar c) := by
  have known : isCoded '\t' = false ∧ isCoded '\r' = false ∧ isCoded '\n' = false ∧
      isCoded '\\' = false ∧ isCoded '"' = false ∧ isCoded '0' = false ∧ isCoded 'u' = false := by
    decide +kernel
  obtain ⟨tab, feed, line, slash, quote, zero, code⟩ := known
  by_cases coded : isCoded c = true
  · have other {d : Char} (uncoded : isCoded d = false) : ¬ (c == d) = true := by
      rw [beq_iff_eq]
      rintro rfl
      rw [coded] at uncoded
      cases uncoded
    have byCode : (extendsGrapheme c || !isPrintable c) = true := (Bool.and_eq_true_iff.1 coded).2
    rw [rereadChar, if_pos coded, escape]
    by_cases nul : (c == '\x00') = true
    · rw [if_pos nul]
      exact .coded rfl zero (by simp [quotationMarks]) coded
    · rw [if_neg nul, if_neg (other tab), if_neg (other feed), if_neg (other line),
        if_neg (by rw [Bool.or_eq_true]; exact not_or.2 ⟨other slash, other quote⟩), if_pos byCode]
      refine .coded rfl code (fun a listed => ?_) coded
      have listed : a ∈ 'u' :: '\x7b' :: (Nat.toDigits 16 c.toNat ++ ['\x7d']) := listed
      simp only [List.mem_cons, List.mem_append, List.not_mem_nil, or_false] at listed
      rcases listed with rfl | rfl | digit | rfl
      · decide
      · decide
      · exact calm_of_mem_toDigits digit
      · decide
  · have nul : isCoded '\x00' = true := by decide +kernel
    rw [rereadChar, if_neg coded, escape, if_neg (by rw [beq_iff_eq]; rintro rfl; exact coded nul)]
    have uncoded : isCoded c = false := Bool.eq_false_iff.2 coded
    split
    · rename_i same
      cases beq_iff_eq.1 same
      exact .escaped rfl (by decide) tab
    split
    · rename_i same
      cases beq_iff_eq.1 same
      exact .escaped rfl (by decide) feed
    split
    · rename_i same
      cases beq_iff_eq.1 same
      exact .escaped rfl (by decide) line
    split
    · rename_i same
      rw [Bool.or_eq_true, beq_iff_eq, beq_iff_eq] at same
      rcases same with rfl | rfl
      · exact .escaped rfl (by decide) slash
      · exact .escaped rfl (by decide) quote
    · rename_i notTab notFeed notLine notMark
      have shownAsIs : (extendsGrapheme c || !isPrintable c) = false := by
        rw [beq_iff_eq] at notTab notFeed notLine
        simpa [isCoded, notTab, notFeed, notLine] using uncoded
      simp only [Bool.or_eq_true, beq_iff_eq, not_or] at notMark
      rw [shownAsIs, if_neg Bool.false_ne_true]
      exact .plain notMark.2 notMark.1 uncoded

theorem unescape_calm {cs : List Char} (calm : ∀ a ∈ cs, a ∉ quotationMarks) (rest : List Char) :
    unescape (cs ++ rest) = cs ++ unescape rest := by
  induction cs with
  | nil => rfl
  | cons c cs ih =>
    have notSlash : c ≠ '\\' := by
      rintro rfl
      exact calm _ List.mem_cons_self (by decide)
    rw [List.cons_append, unescape_cons notSlash, ih fun a listed => calm a (List.mem_cons_of_mem c listed),
      List.cons_append]

/-- What may stand between quotes: a plain character, or any but the end of a line behind a backslash. -/
def IsItem (w : List Char) : Prop :=
  (∃ c, w = [c] ∧ (plainSet '"').has c = true) ∨
    ∃ c, w = ['\\', c] ∧ CharSet.notNewline.has c = true

namespace Shown

variable {c : Char} {w v : List Char}

theorem unescape (h : Shown c w v) (rest : List Char) :
    Text.unescape (w ++ rest) = v ++ Text.unescape rest := by
  cases h with
  | plain _ notSlash => exact unescape_cons notSlash rest
  | escaped reads =>
    rw [List.cons_append, List.singleton_append, unescape_pair, reads, List.singleton_append]
  | @coded d ds reads _ calm =>
    rw [List.cons_append, List.cons_append, unescape_pair, reads,
      unescape_calm (fun a listed => calm a (List.mem_cons_of_mem d listed)) rest, List.cons_append]

theorem items (h : Shown c w v) : ∃ items : List (List Char), w = items.flatten ∧ ∀ u ∈ items, IsItem u := by
  cases h with
  | plain notQuote notSlash =>
    exact ⟨[[c]], rfl, List.forall_mem_singleton.2 (.inl ⟨c, rfl, has_plainSet notQuote notSlash⟩)⟩
  | @escaped d _ inline =>
    exact ⟨[['\\', d]], rfl, List.forall_mem_singleton.2 (.inr ⟨d, rfl, has_notNewline inline⟩)⟩
  | @coded d ds _ _ calm =>
    have other {a : Char} (listed : a ∈ d :: ds) : a ≠ '"' ∧ a ≠ '\\' ∧ a ≠ '\n' := by
      simpa [quotationMarks] using calm a listed
    refine ⟨['\\', d] :: ds.map ([·]), by rw [List.flatten_cons, flatten_singletons]; rfl,
      List.forall_mem_cons.2 ⟨.inr ⟨d, rfl, has_notNewline (other List.mem_cons_self).2.2⟩,
        List.forall_mem_map.2 fun a listed => .inl ⟨a, rfl, ?_⟩⟩⟩
    obtain ⟨notQuote, notSlash, -⟩ := other (List.mem_cons_of_mem d listed)
    exact has_plainSet notQuote notSlash

/-- The character itself is read back only where it is not printed by its code point: such an escape begins
with a character that is not. -/
theorem cons_eq_iff (h : Shown c w v) {cs ds : List Char} :
    v ++ ds = c :: cs ↔ isCoded c = false ∧ ds = cs := by
  cases h with
  | plain _ _ uncoded | escaped _ _ uncoded => simp [uncoded]
  | coded _ apart _ coded =>
    refine iff_of_false (fun same => ?_) fun h => ?_
    · obtain ⟨rfl, -⟩ := List.cons.inj same
      rw [coded] at apart
      cases apart
    · rw [coded] at h
      cases h.1

end Shown

/-! ## Texts -/

/-- What is printed of some characters is read back as what is read back of each. -/
theorem unescape_escape (cs : List Char) :
    unescape (cs.flatMap (escape '"')) = cs.flatMap rereadChar := by
  induction cs with
  | nil => rfl
  | cons c cs ih => rw [List.flatMap_cons, List.flatMap_cons, (shown c).unescape, ih]

theorem exists_items (cs : List Char) :
    ∃ items : List (List Char), cs.flatMap (escape '"') = items.flatten ∧ ∀ w ∈ items, IsItem w := by
  induction cs with
  | nil => exact ⟨[], rfl, by simp⟩
  | cons c cs ih =>
    obtain ⟨later, same, each⟩ := ih
    obtain ⟨here, same', each'⟩ := (shown c).items
    exact ⟨here ++ later, by rw [List.flatMap_cons, same, same', List.flatten_append],
      List.forall_mem_append.2 ⟨each', each⟩⟩

/-- A printed text is spelled like a quoted token. -/
theorem spells_quote (s : String) : (lexicalLeaf "String").Spells (quote s).toList := by
  obtain ⟨items, same, each⟩ := exists_items s.toList
  rw [quote, String.toList_ofList, same]
  exact Lexicon.spells_of_takes (by simp [lexicalRegexes]) (takes_quotedRegex (by decide) each)

/-- What is read from between the quotes of a printed text. -/
theorem unquote_quote (s : String) : String.ofList (unquote (quote s).toList) = reread s := by
  have whole : (quote s).toList = '"' :: (s.toList.flatMap (escape '"') ++ ['"']) := String.toList_ofList
  rw [whole, unquote_quoted, unescape_escape, reread]

theorem flatMap_rereadChar_eq_iff {cs : List Char} :
    cs.flatMap rereadChar = cs ↔ ∀ c ∈ cs, isCoded c = false := by
  induction cs with
  | nil => simp
  | cons c cs ih => rw [List.flatMap_cons, List.forall_mem_cons, (shown c).cons_eq_iff, ih]

/-- **The texts that are read back as they were** have no character that is printed by its code point. -/
theorem reread_eq_iff {s : String} : reread s = s ↔ ∀ c ∈ s.toList, isCoded c = false := by
  rw [← flatMap_rereadChar_eq_iff, ← String.toList_inj, reread, String.toList_ofList]

/-! ## Expressions -/

/-- A literal text as it is printed. -/
def Atom.quoted (s : String) : Atom :=
  ⟨lexicalLeaf "String", quote s, .literal (.text (.ofList (unquote (quote s).toList))),
    .text (by decide) (spells_quote s)⟩

/-- **What is read of a printed literal text** is a literal again: that of the text in which each character
printed by its code point, or as a NUL, has been replaced by its escape without the backslash. Texts without
such characters are read back as they were, and no others. -/
theorem Expr.ofText_quoted (mode : CommentMode) (s : String) :
    ofText (expressionGrammar.withComments mode) (Expr.literal (.text s)).render =
        .ok (.literal (.text (reread s))) ∧
      (reread s = s ↔ ∀ c ∈ s.toList, isCoded c = false) := by
  obtain ⟨e, read, tree⟩ :=
    ofText_of_lexes expressionGrammar_compiles mode (lexes_operations (.quoted s) [])
  have operand : e = .literal (.text (reread s)) := by
    rw [← unquote_quote]
    exact eq_operand_of_inOrder tree.inOrder
  have printed : (Expr.literal (.text s)).render = operationsText (.quoted s) [] := by
    simp only [render, renderLiteral, operationsText, Atom.quoted]
  rw [printed, read, operand]
  exact ⟨rfl, reread_eq_iff⟩

end Rowlang
