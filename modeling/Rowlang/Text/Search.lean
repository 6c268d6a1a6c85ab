/-!
# Searching text

* `cut?` : a text before and behind the first occurrence of another;
* `splitOn` : the parts of a text between the occurrences of another, from left to right;
* `lines` : the lines of a text.
-/

namespace Rowlang.Text

/-! ## Occurrences -/

def cut? (sep : List Char) : List Char → Option (List Char × List Char)
  | [] => if sep.isEmpty then some ([], []) else none
  | c :: cs =>
    if sep.isPrefixOf (c :: cs) then some ([], (c :: cs).drop sep.length)
    else (cut? sep cs).map fun r => (c :: r.1, r.2)

theorem eq_append_of_cut? {sep cs a b : List Char} (h : cut? sep cs = some (a, b)) :
    cs = a ++ sep ++ b := by
  induction cs generalizing a with
  | nil =>
    simp only [cut?] at h
    split at h
    · rename_i hs
      simp_all
    · simp at h
  | cons c cs ih =>
    simp only [cut?] at h
    split at h
    · rename_i hp
      obtain ⟨t, ht⟩ := List.isPrefixOf_iff_prefix.1 hp
      simp only [Option.some.injEq, Prod.mk.injEq] at h
      obtain ⟨rfl, rfl⟩ := h
      simp [← ht]
    · obtain ⟨r, hr, he⟩ := Option.map_eq_some_iff.1 h
      simp only [Prod.mk.injEq] at he
      obtain ⟨rfl, rfl⟩ := he
      simp [ih hr]

def splitOn (sep : List Char) (hs : sep ≠ []) (cs : List Char) : List (List Char) :=
  match h : cut? sep cs with
  | none => [cs]
  | some (a, b) =>
    have : b.length < cs.length := by
      have := eq_append_of_cut? h
      have := List.length_pos_iff.2 hs
      simp_all
      omega
    a :: splitOn sep hs b
termination_by cs.length

/-! ## Lines -/

/-- A line without the carriage return that ends it. -/
def dropReturn (cs : List Char) : List Char :=
  if cs.getLast? == some '\r' then cs.dropLast else cs

/-- The lines of a text, `line` being what has been read of the first one, last character first. A
line feed ends a line, together with a carriage return before it. -/
def linesFrom (line : List Char) : List Char → List (List Char)
  | [] => if line.isEmpty then [] else [line.reverse]
  | c :: cs => if c == '\n' then dropReturn line.reverse :: linesFrom [] cs else linesFrom (c :: line) cs

def lines (cs : List Char) : List (List Char) := linesFrom [] cs

end Rowlang.Text
