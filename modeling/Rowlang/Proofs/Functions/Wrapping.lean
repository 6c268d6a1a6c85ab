import Mathlib.Data.List.Basic
import Mathlib.Data.List.Forall2
import Mathlib.Data.List.TakeWhile
import Rowlang.Functions.Text

/-!
# Wrapped texts

A text is broken between words into lines of a given width. The words stay, each line of the text is broken
by itself, and a line is as full as the width allows: it is longer only if it is a single word, and the first
word of the line behind it would not have fitted.

* `IsWord`, `words_append_blank`, `words_unwords` : the words of a text that is put together;
* `flatMap_words_lines`, `lines_joined` : the lines of a text, and of lines that are put together;
* `Fills` : rows of words that are as full as a width allows;
* `fills_wrapWords` : words are laid out in such rows;
* `Wrapped`, `wrap_wrapped` : what a wrapped text is, and that it is given.
-/

namespace Rowlang
open Rowlang.Text

namespace Text

/-! ## Words -/

/-- A run of characters that are not blank. -/
def IsWord (w : List Char) : Prop := w ≠ [] ∧ ∀ c ∈ w, isBlank c = false

/-- Words with single spaces between them. -/
def unwords (ws : List (List Char)) : List Char := [' '].intercalate ws

theorem words_of_blank {cs : List Char} (none : cs.dropWhile isBlank = []) : words cs = [] := by
  rw [words]
  split
  · rfl
  · rename_i found
    rw [none] at found
    cases found

theorem words_of_begin {cs rest : List Char} {c : Char} (begins : cs.dropWhile isBlank = c :: rest) :
    words cs = (c :: rest.takeWhile (!isBlank ·)) :: words (rest.dropWhile (!isBlank ·)) := by
  rw [words]
  split
  · rename_i none
    rw [begins] at none
    cases none
  · rename_i found
    rw [begins] at found
    cases found
    rfl

theorem words_nil : words [] = [] := words_of_blank rfl

/-- A blank in front belongs to no word. -/
theorem words_blank {c : Char} (blank : isBlank c = true) (cs : List Char) : words (c :: cs) = words cs := by
  have same : (c :: cs).dropWhile isBlank = cs.dropWhile isBlank := List.dropWhile_cons_of_pos blank
  cases found : cs.dropWhile isBlank with
  | nil => rw [words_of_blank found, words_of_blank (same.trans found)]
  | cons d rest => rw [words_of_begin found, words_of_begin (same.trans found)]

theorem words_begin {c : Char} (plain : isBlank c = false) (cs : List Char) :
    words (c :: cs) = (c :: cs.takeWhile (!isBlank ·)) :: words (cs.dropWhile (!isBlank ·)) :=
  words_of_begin (List.dropWhile_cons_of_neg (by simp [plain]))

/-- **A blank parts words**: those before it and those behind it are the words of the whole. -/
theorem words_append_blank {c : Char} (blank : isBlank c = true) (a b : List Char) :
    words (a ++ c :: b) = words a ++ words b := by
  match a with
  | [] => rw [List.nil_append, words_blank blank, words_nil, List.nil_append]
  | d :: rest =>
    by_cases front : isBlank d = true
    · rw [List.cons_append, words_blank front, words_blank front]
      exact words_append_blank blank rest b
    · have plain : isBlank d = false := by simpa using front
      have shorter : (rest.dropWhile (!isBlank ·)).length < (d :: rest).length :=
        Nat.lt_succ_of_le (length_dropWhile_le _ _)
      have run : ∀ x ∈ rest.takeWhile (!isBlank ·), (!isBlank x) = true := fun x => List.mem_takeWhile_imp
      have stop : ∀ x ∈ (rest.dropWhile (!isBlank ·)).head?, ¬ (!isBlank x) = true := by
        intro x first
        have := List.head?_dropWhile_not (!isBlank ·) rest
        rw [Option.mem_def.1 first] at this
        simp [this]
      have later := words_append_blank blank (rest.dropWhile (!isBlank ·)) b
      -- the word of `d` ends in front of the blank at the latest
      have cut : (rest ++ c :: b).takeWhile (!isBlank ·) = rest.takeWhile (!isBlank ·) ∧
          (rest ++ c :: b).dropWhile (!isBlank ·) = rest.dropWhile (!isBlank ·) ++ c :: b := by
        have split : rest ++ c :: b =
            rest.takeWhile (!isBlank ·) ++ (rest.dropWhile (!isBlank ·) ++ c :: b) := by
          rw [← List.append_assoc, List.takeWhile_append_dropWhile]
        rw [split, List.takeWhile_append_of_pos run, List.dropWhile_append_of_pos run]
        cases more : rest.dropWhile (!isBlank ·) with
        | nil => simp [blank]
        | cons x xs =>
          have here : isBlank x = true := by simpa using stop x (by rw [more]; rfl)
          simp [here]
      rw [List.cons_append, words_begin plain, words_begin plain, cut.1, cut.2, later, List.cons_append]
termination_by a.length
decreasing_by all_goals simp only [List.length_cons] at *; omega

theorem isWord_of_mem_words {cs : List Char} : ∀ w ∈ words cs, IsWord w := by
  fun_induction words cs with
  | case1 cs none => exact List.forall_mem_nil _
  | case2 cs c rest found _ ih =>
    refine List.forall_mem_cons.2 ⟨⟨by simp, List.forall_mem_cons.2 ⟨?_, fun x run => ?_⟩⟩, ih⟩
    · have first := List.head?_dropWhile_not isBlank cs
      rw [found] at first
      exact first
    · simpa using List.mem_takeWhile_imp run

theorem words_word {w : List Char} (h : IsWord w) : words w = [w] := by
  obtain ⟨nonempty, plain⟩ := h
  obtain ⟨c, rest, rfl⟩ := List.exists_cons_of_ne_nil nonempty
  obtain ⟨first, later⟩ := List.forall_mem_cons.1 plain
  have all : rest.takeWhile (!isBlank ·) = rest :=
    List.takeWhile_eq_self_iff.2 fun x listed => by simp [later x listed]
  have none : rest.dropWhile (!isBlank ·) = [] :=
    List.dropWhile_eq_nil_iff.2 fun x listed => by simp [later x listed]
  rw [words_begin first, all, none, words_nil]

theorem isBlank_space : isBlank ' ' = true := by decide

theorem isBlank_newline : isBlank '\n' = true := by decide

theorem words_intercalate {c : Char} (blank : isBlank c = true) (texts : List (List Char)) :
    words ([c].intercalate texts) = texts.flatMap words := by
  induction texts with
  | nil => rw [List.intercalate_nil, words_nil, List.flatMap_nil]
  | cons t rest ih =>
    cases rest with
    | nil => simp
    | cons u rest =>
      rw [List.intercalate_cons_cons, List.append_assoc, List.singleton_append, words_append_blank blank, ih,
        List.flatMap_cons, List.flatMap_cons, List.flatMap_cons]

/-- Words that are put together are the words of the whole. -/
theorem words_unwords {ws : List (List Char)} (each : ∀ w ∈ ws, IsWord w) : words (unwords ws) = ws := by
  rw [unwords, words_intercalate isBlank_space]
  induction ws with
  | nil => rfl
  | cons w rest ih =>
    obtain ⟨first, later⟩ := List.forall_mem_cons.1 each
    rw [List.flatMap_cons, words_word first, ih later, List.singleton_append]

theorem unwords_concat {ws : List (List Char)} (some_word : ws ≠ []) (w : List Char) :
    unwords (ws ++ [w]) = unwords ws ++ ' ' :: w := by
  unfold unwords
  induction ws with
  | nil => exact absurd rfl some_word
  | cons v rest ih =>
    cases rest with
    | nil => simp
    | cons u rest =>
      have later := ih (by simp)
      rw [List.cons_append] at later
      rw [List.cons_append, List.cons_append, List.intercalate_cons_cons, later, List.intercalate_cons_cons]
      simp

theorem unwords_eq_nil_iff {ws : List (List Char)} (each : ∀ w ∈ ws, IsWord w) : unwords ws = [] ↔ ws = [] := by
  constructor
  · intro nothing
    rw [← words_unwords each, nothing, words_nil]
  · rintro rfl
    rfl

/-! ## Lines -/

/-- A carriage return at the end belongs to no word. -/
theorem words_dropReturn (cs : List Char) : words (dropReturn cs) = words cs := by
  unfold dropReturn
  split
  · rename_i last
    have split : cs = cs.dropLast ++ ['\r'] := by
      obtain ⟨front, rfl⟩ := List.getLast?_eq_some_iff.1 (by simpa using last)
      simp
    rw [split, words_append_blank (by decide), words_nil, List.append_nil, List.dropLast_concat]
  · rfl

theorem flatMap_words_linesFrom (line cs : List Char) :
    (linesFrom line cs).flatMap words = words (line.reverse ++ cs) := by
  fun_induction linesFrom line cs with
  | case1 line empty =>
    obtain rfl : line = [] := by simpa using empty
    rw [List.flatMap_nil, List.reverse_nil, List.nil_append, words_nil]
  | case2 line more => simp
  | case3 line c cs feed ih =>
    obtain rfl : c = '\n' := by simpa using feed
    rw [List.flatMap_cons, ih, words_dropReturn, words_append_blank isBlank_newline, List.reverse_nil,
      List.nil_append]
  | case4 line c cs other ih => rw [ih, List.reverse_cons, List.append_assoc, List.singleton_append]

/-- The words of the lines of a text are its words. -/
theorem flatMap_words_lines (cs : List Char) : (lines cs).flatMap words = words cs :=
  flatMap_words_linesFrom [] cs

/-- A line of words: no line feed is in it, and no carriage return at its end. -/
def IsLine (l : List Char) : Prop := '\n' ∉ l ∧ l.getLast? ≠ some '\r'

theorem linesFrom_line {l : List Char} (plain : '\n' ∉ l) (line rest : List Char) :
    linesFrom line (l ++ rest) = linesFrom (l.reverse ++ line) rest := by
  induction l generalizing line with
  | nil => rfl
  | cons c l ih =>
    obtain ⟨first, later⟩ := not_or.1 (mt List.mem_cons.2 plain)
    have other : (c == '\n') = false := beq_eq_false_iff_ne.2 (Ne.symm first)
    rw [List.cons_append, linesFrom, other, if_neg (by simp), ih later, List.reverse_cons, List.append_assoc,
      List.singleton_append]

/-- The lines of lines that are put together are these, but for an empty last one. -/
theorem lines_joined {ls : List (List Char)} (each : ∀ l ∈ ls, IsLine l) :
    ls = lines (['\n'].intercalate ls) ∨ ls = lines (['\n'].intercalate ls) ++ [[]] := by
  induction ls with
  | nil => exact .inl rfl
  | cons l rest ih =>
    obtain ⟨⟨plain, open'⟩, later⟩ := List.forall_mem_cons.1 each
    cases rest with
    | nil =>
      have whole := linesFrom_line plain [] []
      rw [List.append_nil, List.append_nil] at whole
      rw [List.intercalate_singleton, lines, whole, linesFrom, List.reverse_reverse]
      by_cases empty : l = []
      · subst empty
        exact .inr rfl
      · rw [if_neg (by simpa using empty)]
        exact .inl rfl
    | cons m rest =>
      have kept : dropReturn l = l := by
        rw [dropReturn, if_neg (by simpa using open')]
      have first : lines (['\n'].intercalate (l :: m :: rest)) = l :: lines (['\n'].intercalate (m :: rest)) := by
        rw [List.intercalate_cons_cons, List.append_assoc, lines, linesFrom_line plain, List.append_nil,
          List.singleton_append, linesFrom, if_pos (by simp), List.reverse_reverse, kept]
        rfl
      rw [first, List.cons_append]
      exact (ih later).imp (congrArg (l :: ·)) (congrArg (l :: ·))

theorem isLine_unwords {ws : List (List Char)} (each : ∀ w ∈ ws, IsWord w) : IsLine (unwords ws) := by
  have inside : ∀ c ∈ unwords ws, c = ' ' ∨ isBlank c = false := by
    unfold unwords
    induction ws with
    | nil => exact List.forall_mem_nil _
    | cons w rest ih =>
      obtain ⟨first, later⟩ := List.forall_mem_cons.1 each
      cases rest with
      | nil =>
        rw [List.intercalate_singleton]
        exact fun c listed => .inr (first.2 c listed)
      | cons v rest =>
        rw [List.intercalate_cons_cons, List.append_assoc]
        refine List.forall_mem_append.2 ⟨fun c listed => .inr (first.2 c listed), ?_⟩
        exact List.forall_mem_cons.2 ⟨.inl rfl, ih later⟩
  have none {c : Char} (blank : isBlank c = true) (other : c ≠ ' ') : c ∉ unwords ws := by
    intro listed
    rcases inside c listed with rfl | plain
    · exact other rfl
    · rw [plain] at blank
      cases blank
  exact ⟨none isBlank_newline (by decide), fun last =>
    none (by decide) (by decide) (List.mem_of_getLast? last)⟩

end Text

/-! ## Rows of words -/

namespace Functions

/-- The rows hold the words, in order. A row is longer than the width only if it is a single word, and the
first word of the next row would not have fitted. -/
structure Fills (width : Nat) (ws : List (List Char)) (rows : List (List (List Char))) : Prop where
  flatten : rows.flatten = ws
  narrow : ∀ row ∈ rows, (unwords row).length ≤ width ∨ ∃ w, row = [w]
  full : rows.IsChain fun row next => ∃ w, next.head? = some w ∧ width < (unwords row).length + 1 + w.length

/-- Words are laid out in such rows, the first of which begins with what it has so far. -/
theorem fills_wrapWords {width : Nat} {ws row : List (List Char)} (each : ∀ w ∈ ws, IsWord w)
    (so_far : ∀ w ∈ row, IsWord w) (narrow : (unwords row).length ≤ width ∨ ∃ w, row = [w]) :
    ∃ first later, wrapWords width (unwords row) ws = (first :: later).map unwords ∧ row <+: first ∧
      Fills width (row ++ ws) (first :: later) := by
  induction ws generalizing row with
  | nil =>
    refine ⟨row, [], by simp [wrapWords], List.prefix_rfl, ?_, ?_, .singleton row⟩
    · simp
    · exact List.forall_mem_singleton.2 narrow
  | cons w ws ih =>
    obtain ⟨word, words⟩ := List.forall_mem_cons.1 each
    have single : ∀ v ∈ [w], IsWord v := List.forall_mem_singleton.2 word
    have alone : unwords [w] = w := List.intercalate_singleton
    by_cases empty : row = []
    · -- the first word of a row always stands there
      subst empty
      obtain ⟨first, later, laid, begins, fills⟩ := ih words single (.inr ⟨w, rfl⟩)
      rw [alone] at laid
      exact ⟨first, later, by rw [← laid]; rfl, List.nil_prefix, fills⟩
    · have some_line : (unwords row).isEmpty = false := by
        rw [List.isEmpty_eq_false_iff]
        exact mt (unwords_eq_nil_iff so_far).1 empty
      by_cases fits : (unwords row).length + 1 + w.length ≤ width
      · have longer : unwords (row ++ [w]) = unwords row ++ ' ' :: w := unwords_concat empty w
        have still : (unwords (row ++ [w])).length ≤ width := by
          rw [longer, List.length_append, List.length_cons]
          omega
        obtain ⟨first, later, laid, begins, fills⟩ :=
          ih words (List.forall_mem_append.2 ⟨so_far, single⟩) (.inl still)
        rw [longer] at laid
        refine ⟨first, later, ?_, (List.prefix_append row [w]).trans begins, ?_⟩
        · rw [wrapWords, some_line, if_neg (by simp), if_neg (by omega), laid]
        · simpa only [List.append_assoc, List.singleton_append] using fills
      · -- the row ends, and the word begins the next one
        obtain ⟨first, later, laid, begins, fills⟩ := ih words single (.inr ⟨w, rfl⟩)
        rw [alone] at laid
        obtain ⟨more, rfl⟩ := begins
        refine ⟨row, ([w] ++ more) :: later, ?_, List.prefix_rfl, ?_, ?_, ?_⟩
        · rw [wrapWords, some_line, if_neg (by simp), if_pos (by omega), laid, List.map_cons, List.map_cons,
            List.map_cons]
        · rw [List.flatten_cons, fills.flatten, List.singleton_append]
        · exact List.forall_mem_cons.2 ⟨narrow, fills.narrow⟩
        · exact .cons_cons ⟨w, rfl, by omega⟩ fills.full

/-! ## Wrapped texts -/

/-- The text `out` is the text `cs` broken into lines of the given width, `blocks` being the lines that each
line of `cs` has been broken into. -/
structure Wrapped (width : Nat) (cs out : List Char) (blocks : List (List (List Char))) : Prop where
  joined : out = ['\n'].intercalate blocks.flatten
  /-- these are the lines of the text, which does not count an empty last one -/
  lines : blocks.flatten = lines out ∨ blocks.flatten = lines out ++ [[]]
  words : words out = words cs
  /-- the lines of different lines of `cs` are kept apart -/
  apart : List.Forall₂ (fun line block => block ≠ [] ∧ block.flatMap Text.words = Text.words line)
    (Text.lines cs) blocks
  spaced : ∀ l ∈ blocks.flatten, l = unwords (Text.words l)
  narrow : ∀ l ∈ blocks.flatten, l.length ≤ width ∨ Text.words l = [l]
  /-- the first word of the next line of a block would not have fitted -/
  full : ∀ block ∈ blocks, block.IsChain fun l next =>
    ∃ w, (Text.words next).head? = some w ∧ width < l.length + 1 + w.length

theorem wrapWords_line (width : Nat) (line : List Char) :
    ∃ rows, wrapWords width [] (words line) = rows.map unwords ∧ rows ≠ [] ∧
      (∀ row ∈ rows, ∀ w ∈ row, IsWord w) ∧ Fills width (words line) rows := by
  have each : ∀ w ∈ words line, IsWord w := isWord_of_mem_words
  have none : ∀ w ∈ ([] : List (List Char)), IsWord w := List.forall_mem_nil _
  obtain ⟨first, later, laid, -, fills⟩ := fills_wrapWords each none (.inl (Nat.zero_le width))
  rw [List.nil_append] at fills
  refine ⟨first :: later, laid, by simp, fun row listed w inside => each w ?_, fills⟩
  rw [← fills.flatten]
  exact List.mem_flatten.2 ⟨row, listed, inside⟩

/-- The lines of a wrapped text, read as words again. -/
theorem chain_unwords {width : Nat} {rows : List (List (List Char))}
    (each : ∀ row ∈ rows, ∀ w ∈ row, IsWord w)
    (full : rows.IsChain fun row next => ∃ w, next.head? = some w ∧ width < (unwords row).length + 1 + w.length) :
    (rows.map unwords).IsChain fun l next =>
      ∃ w, (words next).head? = some w ∧ width < l.length + 1 + w.length := by
  induction rows with
  | nil => exact .nil
  | cons row rest ih =>
    obtain ⟨first, later⟩ := List.forall_mem_cons.1 each
    cases rest with
    | nil => exact .singleton _
    | cons next rest =>
      obtain ⟨⟨w, head, exceeds⟩, full⟩ := List.isChain_cons_cons.1 full
      refine .cons_cons ⟨w, ?_, exceeds⟩ (ih later full)
      rw [words_unwords (later next List.mem_cons_self), head]

/-- The lines of a text, each broken by itself, make a wrapped text. -/
theorem wrapped_wrapLines (width : Nat) (cs : List Char) :
    Wrapped width cs (['\n'].intercalate (wrapLines width cs))
      ((lines cs).map fun line => wrapWords width [] (words line)) := by
  have blocks : ((lines cs).map fun line => wrapWords width [] (words line)).flatten = wrapLines width cs :=
    List.flatMap_def.symm
  have rows : ∀ l ∈ wrapLines width cs, ∃ row, l = unwords row ∧ (∀ w ∈ row, IsWord w) ∧
      ((unwords row).length ≤ width ∨ ∃ w, row = [w]) := by
    intro l listed
    obtain ⟨line, -, inside⟩ := List.mem_flatMap.1 listed
    obtain ⟨rows, laid, -, each, fills⟩ := wrapWords_line width line
    rw [laid] at inside
    obtain ⟨row, here, rfl⟩ := List.mem_map.1 inside
    exact ⟨row, rfl, each row here, fills.narrow row here⟩
  have kept (line : List Char) : (wrapWords width [] (words line)).flatMap words = words line := by
    obtain ⟨rows, laid, -, each, fills⟩ := wrapWords_line width line
    rw [laid, List.flatMap_map, List.flatMap_congr fun row listed => words_unwords (each row listed),
      ← fills.flatten, List.flatMap_id']
  constructor
  · rw [blocks]
  · rw [blocks]
    refine lines_joined fun l listed => ?_
    obtain ⟨row, rfl, each, -⟩ := rows l listed
    exact isLine_unwords each
  · rw [words_intercalate isBlank_newline, wrapLines, List.flatMap_assoc,
      List.flatMap_congr fun line _ => kept line, flatMap_words_lines]
  · rw [List.forall₂_map_right_iff]
    refine List.forall₂_same.2 fun line _ => ⟨?_, kept line⟩
    obtain ⟨rows, laid, some_row, -⟩ := wrapWords_line width line
    rw [laid]
    exact mt List.map_eq_nil_iff.1 some_row
  · intro l listed
    obtain ⟨row, rfl, each, -⟩ := rows l (blocks ▸ listed)
    rw [words_unwords each]
  · intro l listed
    obtain ⟨row, rfl, each, short | ⟨w, rfl⟩⟩ := rows l (blocks ▸ listed)
    · exact .inl short
    · refine .inr ?_
      rw [words_unwords each]
      exact congrArg ([·]) List.intercalate_singleton.symm
  · intro block listed
    obtain ⟨line, -, rfl⟩ := List.mem_map.1 listed
    obtain ⟨rows, laid, -, each, fills⟩ := wrapWords_line width line
    rw [laid]
    exact chain_unwords each fills.full

/-- **A wrapped text** keeps the words and the lines of the subject, and its lines are as full as the width
allows. -/
theorem wrap_wrapped (subject : Value) {args : List Value} {width : Int}
    (given : intArgument args 0 = .ok width) (positive : 1 ≤ width) :
    ∃ out blocks, wrap subject args = .ok (ofChars out) ∧
      Wrapped width.toNat (charsOf subject) out blocks := by
  refine ⟨_, _, ?_, wrapped_wrapLines width.toNat (charsOf subject)⟩
  have some_width : width.toNat ≠ 0 := by omega
  unfold wrap
  rw [given]
  exact if_neg some_width

/-- Two lines with a blank line between them, wrapped at a width that the last word exceeds. -/
theorem wrap_wrapped_lines :
    intArgument [.ofNat 5] 0 = .ok 5 ∧ (1 : Int) ≤ 5 ∧
      ∃ out blocks, wrap (.text "a bc  d\r\n\nlonger x") [.ofNat 5] = .ok (ofChars out) ∧
        Wrapped (5 : Int).toNat (charsOf (.text "a bc  d\r\n\nlonger x")) out blocks := by
  have given : intArgument [.ofNat 5] 0 = .ok 5 := rfl
  exact ⟨given, by decide, wrap_wrapped _ given (by decide)⟩

end Functions

end Rowlang
