import Mathlib.Data.List.TakeWhile
import Rowlang.Lexer

/-!
# Places, comments and gaps

* `Location.Behind` : a location is that behind some characters of a text;
* `IsComment` : a complete comment, given what stands behind it;
* `Gap` : a stretch of blanks and comments, with the comments found in it;
* `skipTrivia_gap`, `skipTrivia_unterminated` : what is passed over is a gap.
-/

namespace Rowlang.Text

def byteLength (cs : List Char) : Nat := (String.ofList cs).utf8ByteSize

@[simp] theorem byteLength_append (as bs : List Char) :
    byteLength (as ++ bs) = byteLength as + byteLength bs := by
  simp [byteLength]

@[simp] theorem byteLength_singleton (c : Char) : byteLength [c] = c.utf8Size := by
  simp [byteLength]

theorem byteLength_pos {cs : List Char} (h : cs ≠ []) : 0 < byteLength cs := by
  cases cs with
  | nil => exact absurd rfl h
  | cons c cs =>
    have step : byteLength (c :: cs) = c.utf8Size + byteLength cs := by
      rw [← List.singleton_append, byteLength_append, byteLength_singleton]
    have := c.utf8Size_pos
    omega

/-- A location behind the characters `before`, counted from the beginning of a text. -/
structure Location.Behind (l : Location) (before : List Char) : Prop where
  offset : l.offset = byteLength before
  line : l.line = 1 + before.count '\n'
  column : l.column = 1 + (before.reverse.takeWhile (· != '\n')).length

namespace Location

variable {l : Location} {before cs : List Char}

theorem behind_start : start.Behind [] := ⟨rfl, rfl, rfl⟩

theorem Behind.step (h : l.Behind before) (c : Char) : (l.step c).Behind (before ++ [c]) := by
  have bytes : byteLength (before ++ [c]) = l.offset + c.utf8Size := by
    simp [h.offset]
  unfold Location.step
  split
  · rename_i newline
    obtain rfl : c = '\n' := by simpa using newline
    exact ⟨bytes.symm, by simp [h.line]; omega, by simp⟩
  · rename_i same
    refine ⟨bytes.symm, ?_, ?_⟩
    · have : c ≠ '\n' := by simpa using same
      simp [h.line, this]
    · have : (c != '\n') = true := by simpa using same
      simp only [List.reverse_append, List.reverse_singleton, List.singleton_append,
        List.takeWhile_cons, this, if_true, List.length_cons, h.column]
      omega

theorem Behind.advance (h : l.Behind before) : (l.advance cs).Behind (before ++ cs) := by
  induction cs generalizing l before with
  | nil => simpa using h
  | cons c cs ih => simpa using ih (h.step c)

end Location

end Rowlang.Text

namespace Rowlang
open Rowlang.Text

/-! ## Comments -/

/-- A complete comment: `//` and the rest of the line, or the text from `/*` up to the next `*/`. The
second list is what stands behind it. -/
inductive IsComment : List Char → List Char → Prop
  | line {words after} (inside : '\n' ∉ words) (ended : after = [] ∨ after.head? = some '\n') :
      IsComment ('/' :: '/' :: words) after
  | block {words after} (inside : ¬ ['*', '/'] <:+: words ++ ['*']) :
      IsComment ('/' :: '*' :: words ++ ['*', '/']) after

section Comments
variable {cs : List Char} {n : Nat}

theorem closeLength_eq_none (h : closeLength cs = none) : ¬ ['*', '/'] <:+: cs := by
  fun_induction closeLength cs with
  | case1 => simp
  | case2 => cases h
  | case3 c rest open_ ih =>
    rw [List.infix_cons_iff]
    rintro (⟨after, same⟩ | within)
    · cases same
      exact open_ _ rfl rfl
    · exact ih (by simpa using h) within

theorem closeLength_eq_some (h : closeLength cs = some n) :
    ∃ words after, cs = words ++ '*' :: '/' :: after ∧ n = words.length + 2 ∧
      ¬ ['*', '/'] <:+: words ++ ['*'] := by
  fun_induction closeLength cs generalizing n with
  | case1 => cases h
  | case2 rest =>
    cases h
    exact ⟨[], rest, rfl, rfl, by decide⟩
  | case3 c rest open_ ih =>
    obtain ⟨k, found, rfl⟩ := Option.map_eq_some_iff.1 h
    obtain ⟨words, after, rfl, rfl, inside⟩ := ih found
    refine ⟨c :: words, after, rfl, rfl, ?_⟩
    rw [List.cons_append, List.infix_cons_iff]
    rintro (⟨more, same⟩ | within)
    · obtain ⟨rfl, same⟩ := List.cons.inj same
      cases words with
      | nil => cases same
      | cons d words =>
        cases same
        exact open_ _ rfl rfl
    · exact inside within

theorem isComment_of_commentStart (h : commentStart cs = .complete n) :
    IsComment (cs.take n) (cs.drop n) := by
  unfold commentStart at h
  split at h
  · rename_i rest
    cases h
    have take : ('/' :: '/' :: rest).take (2 + (rest.takeWhile (· != '\n')).length) =
        '/' :: '/' :: rest.takeWhile (· != '\n') := by
      rw [Nat.add_comm, ← take_takeWhile (· != '\n') rest]; simp
    have drop : ('/' :: '/' :: rest).drop (2 + (rest.takeWhile (· != '\n')).length) =
        rest.dropWhile (· != '\n') := by
      rw [Nat.add_comm, ← drop_takeWhile (· != '\n') rest]; rfl
    rw [take, drop]
    refine .line (fun inside => by simpa using List.mem_takeWhile_imp inside) ?_
    have newline := List.head?_dropWhile_not (· != '\n') rest
    cases behind : rest.dropWhile (· != '\n') with
    | nil => exact .inl rfl
    | cons c after =>
      rw [behind] at newline
      exact .inr (by simpa using newline)
  · rename_i rest
    split at h
    · rename_i k found
      cases h
      obtain ⟨words, after, rfl, rfl, inside⟩ := closeLength_eq_some found
      have take : ('/' :: '*' :: (words ++ '*' :: '/' :: after)).take (2 + (words.length + 2)) =
          '/' :: '*' :: words ++ ['*', '/'] := by
        rw [Nat.add_comm]; simp [List.take_length_add_append]
      have drop : ('/' :: '*' :: (words ++ '*' :: '/' :: after)).drop (2 + (words.length + 2)) =
          after := by
        rw [Nat.add_comm]; simp
      rw [take, drop]
      exact .block inside
    · cases h
  · cases h

theorem open_of_commentStart (h : commentStart cs = .unterminated) :
    ∃ words, cs = '/' :: '*' :: words ∧ ¬ ['*', '/'] <:+: words := by
  unfold commentStart at h
  split at h
  · cases h
  · split at h
    · cases h
    · exact ⟨_, rfl, closeLength_eq_none ‹_›⟩
  · cases h

end Comments

/-! ## Gaps -/

/-- A stretch `gap` of blanks and, where comments are recognised, complete comments, with `before` in
front of it and `after` behind it. The comments are listed in order, each with its place. -/
inductive Gap (mode : CommentMode) :
    (before gap after : List Char) → (comments : List Comment) → Prop
  | nil {before after} : Gap mode before [] after []
  | blank {before c gap after comments} (blank : isBlank c = true)
      (later : Gap mode (before ++ [c]) gap after comments) :
      Gap mode before (c :: gap) after comments
  | comment {before text gap after comments start stop} (recognised : mode ≠ .off)
      (complete : IsComment text (gap ++ after)) (begins : Location.Behind start before)
      (ends : stop = byteLength (before ++ text))
      (later : Gap mode (before ++ text) gap after comments) :
      Gap mode before (text ++ gap) after (⟨String.ofList text, start, stop⟩ :: comments)

theorem Gap.blanks {mode : CommentMode} {before blanks gap after : List Char}
    {comments : List Comment} (blank : ∀ c ∈ blanks, isBlank c = true)
    (later : Gap mode (before ++ blanks) gap after comments) :
    Gap mode before (blanks ++ gap) after comments := by
  induction blanks generalizing before with
  | nil => simpa using later
  | cons c blanks ih =>
    refine .blank (blank c (by simp)) (ih (fun d hd => blank d (by simp [hd])) ?_)
    simpa using later

namespace Cursor

variable {c : Cursor} {before : List Char} {n : Nat}

theorem drop_behind (h : c.place.Behind before) (n : Nat) :
    (c.drop n).place.Behind (before ++ c.rest.take n) := h.advance

theorem rest_skipBlanks (c : Cursor) :
    c.rest = c.rest.takeWhile isBlank ++ c.skipBlanks.rest := by
  rw [skipBlanks, drop, drop_takeWhile, List.takeWhile_append_dropWhile]

theorem skipBlanks_behind (h : c.place.Behind before) :
    c.skipBlanks.place.Behind (before ++ c.rest.takeWhile isBlank) := by
  have := drop_behind h (c.rest.takeWhile isBlank).length
  rwa [take_takeWhile] at this

end Cursor

section Skipping
variable {mode : CommentMode} {passed : List Comment} {c : Cursor} {before : List Char}

/-- What stands between a cursor and a place further on is a gap, with the comments in it. -/
structure Passes (mode : CommentMode) (before : List Char) (c : Cursor) (gap : List Char)
    (place : Location) (after : List Char) (comments : List Comment) : Prop where
  same : c.rest = gap ++ after
  between : Gap mode before gap after comments
  there : place.Behind (before ++ gap)

theorem passes_skipBlanks (h : c.place.Behind before) :
    Passes mode before c (c.rest.takeWhile isBlank) c.skipBlanks.place c.skipBlanks.rest [] where
  same := c.rest_skipBlanks
  between := by
    have nothing : Gap mode (before ++ c.rest.takeWhile isBlank) [] c.skipBlanks.rest [] := .nil
    simpa using Gap.blanks (fun _ => List.mem_takeWhile_imp) nothing
  there := Cursor.skipBlanks_behind h

theorem Passes.comment {n : Nat} {gap after : List Char} {place : Location}
    {comments : List Comment} (h : c.place.Behind before) (recognised : mode ≠ .off)
    (found : commentStart c.skipBlanks.rest = .complete n)
    (later : Passes mode (before ++ c.rest.takeWhile isBlank ++ c.skipBlanks.rest.take n)
      (c.skipBlanks.drop n) gap place after comments) :
    Passes mode before c (c.rest.takeWhile isBlank ++ (c.skipBlanks.rest.take n ++ gap)) place after
      (⟨String.ofList (c.skipBlanks.rest.take n), c.skipBlanks.place,
        (c.skipBlanks.drop n).place.offset⟩ :: comments) where
  same := by
    have rest := c.rest_skipBlanks
    rw [← List.take_append_drop n c.skipBlanks.rest] at rest
    rw [List.append_assoc, List.append_assoc, ← later.same]
    exact rest
  between := by
    refine Gap.blanks (fun _ => List.mem_takeWhile_imp) (.comment recognised ?_ ?_ ?_ later.between)
    · rw [← later.same]
      exact isComment_of_commentStart found
    · exact Cursor.skipBlanks_behind h
    · exact (Cursor.drop_behind (Cursor.skipBlanks_behind h) n).offset
  there := by simpa using later.there

/-- What is passed over is a gap. Its comments are kept where they are to be attached. -/
theorem skipTrivia_gap {comments : List Comment} {c' : Cursor} (h : c.place.Behind before)
    (skipped : skipTrivia mode passed c = .ok (comments, c')) :
    ∃ gap found, Passes mode before c gap c'.place c'.rest found ∧
      comments = if mode = .attach then found.reverse ++ passed else passed := by
  fun_induction skipTrivia mode passed c generalizing before with
  | case1 passed c b =>
    obtain ⟨rfl, rfl⟩ := Prod.mk.inj (Except.ok.inj skipped)
    exact ⟨_, [], passes_skipBlanks h, by simp⟩
  | case2 passed c b =>
    obtain ⟨rfl, rfl⟩ := Prod.mk.inj (Except.ok.inj skipped)
    exact ⟨_, [], passes_skipBlanks h, by simp⟩
  | case3 => cases skipped
  | case4 passed c b on n found behind comment less =>
    rename_i ih
    obtain ⟨gap, later, passes, rfl⟩ :=
      ih (Cursor.drop_behind (Cursor.skipBlanks_behind h) n) (by simpa using skipped)
    refine ⟨_, _, passes.comment h on found, ?_⟩
    split <;> simp_all [comment, behind, b]

/-- A comment that is never closed stands behind a gap. -/
theorem skipTrivia_unterminated {e : LexError} (h : c.place.Behind before)
    (skipped : skipTrivia mode passed c = .error e) :
    mode ≠ .off ∧ ∃ gap found words, Passes mode before c gap e.place ('/' :: '*' :: words) found ∧
      e = .unterminatedComment e.place ∧ ¬ ['*', '/'] <:+: words := by
  fun_induction skipTrivia mode passed c generalizing before with
  | case1 => cases skipped
  | case2 => cases skipped
  | case3 passed c b on =>
    rename_i opened
    cases skipped
    obtain ⟨words, same, inside⟩ := open_of_commentStart opened
    have passes : Passes mode before c _ b.place _ [] := passes_skipBlanks h
    exact ⟨on, _, [], words, same ▸ passes, rfl, inside⟩
  | case4 passed c b on n found behind comment less =>
    rename_i ih
    obtain ⟨-, gap, later, words, passes, same, inside⟩ :=
      ih (Cursor.drop_behind (Cursor.skipBlanks_behind h) n) (by simpa using skipped)
    exact ⟨on, _, _, words, passes.comment h on found, same, inside⟩

end Skipping

/-! ## Comments that are not kept -/

theorem skipTrivia_skip (passed kept : List Comment) (c : Cursor) :
    skipTrivia .skip passed c =
      (skipTrivia .attach kept c).map fun found => (passed, found.2) := by
  fun_induction skipTrivia .attach kept c with
  | case1 kept c b off => cases off
  | case2 kept c b on =>
    rename_i none
    unfold skipTrivia
    simp only [reduceCtorEq, if_false]
    split
    · rfl
    · simp_all [b]
    · simp_all [b]
  | case3 kept c b on =>
    rename_i opened
    unfold skipTrivia
    simp only [reduceCtorEq, if_false]
    split
    · simp_all [b]
    · rfl
    · simp_all [b]
  | case4 kept c b on n found behind comment less =>
    rename_i ih
    conv => lhs; unfold skipTrivia
    simp only [reduceCtorEq, if_false]
    split
    · simp_all [b]
    · simp_all [b]
    · rename_i n' found'
      obtain rfl : n' = n := by simp_all [b]
      simpa using ih

end Rowlang
