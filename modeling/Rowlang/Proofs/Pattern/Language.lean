import Rowlang.Pattern.Regex

/-!
# The language of a regular expression

* `Regex.Denotes r w` : `w` is a word of `r`, with no regard to preferences;
* `Regex.run_denotes`, `Regex.matchRest_denotes` : whatever is matched is a word;
* `Regex.Begins r h` : all words of `r` begin with `h`, and how the combinations of expressions keep to
  it;
* `Denotes.of_plus_one`, `Denotes.of_star_one` : the characters of a repetition.
-/

namespace Rowlang.Pattern.Regex

/-- The words of a regular expression. -/
inductive Denotes : Regex → List Char → Prop
  | empty : Denotes .empty []
  | one {set c} (h : set.has c = true) : Denotes (.one set) [c]
  | seq {a b u v} (first : Denotes a u) (second : Denotes b v) : Denotes (.seq a b) (u ++ v)
  | altLeft {a b u} (chosen : Denotes a u) : Denotes (.alt a b) u
  | altRight {a b u} (chosen : Denotes b u) : Denotes (.alt a b) u
  | optNone {greedy a} : Denotes (.opt greedy a) []
  | optSome {greedy a u} (given : Denotes a u) : Denotes (.opt greedy a) u
  | plusOne {greedy a u} (round : Denotes a u) : Denotes (.plus greedy a) u
  | plusMore {greedy a u v} (round : Denotes a u) (more : Denotes (.plus greedy a) v) :
      Denotes (.plus greedy a) (u ++ v)

/-! ## Matching -/

section Matching
variable {α : Type} {r a : Regex} {s : List Char} {k : List Char → Option α} {x : α}

def Matches (r : Regex) (s : List Char) (k : List Char → Option α) (x : α) : Prop :=
  ∃ u rest, s = u ++ rest ∧ r.Denotes u ∧ k rest = some x

theorem again_denotes {greedy : Bool}
    (round : ∀ {s : List Char} {k : List Char → Option α} {x : α},
      a.run s k = some x → a.Matches s k x) {n : Nat}
    (h : again a.run greedy k n s = some x) :
    k s = some x ∨ (plus greedy a).Matches s k x := by
  induction n generalizing s with
  | zero => exact .inl h
  | succ n ih =>
    have more {s : List Char} (h : (a.run s fun s' =>
        if s'.length < s.length then again a.run greedy k n s' else none) = some x) :
        (plus greedy a).Matches s k x := by
      obtain ⟨u, rest, rfl, word, later⟩ := round h
      dsimp only at later
      split at later
      · rcases ih later with here | ⟨v, rest, rfl, words, there⟩
        · exact ⟨u, rest, rfl, .plusOne word, here⟩
        · exact ⟨u ++ v, rest, by simp, .plusMore word words, there⟩
      · simp at later
    unfold again at h
    split at h
    · rcases Option.or_eq_some_iff.1 h with h | ⟨-, h⟩
      · exact .inr (more h)
      · exact .inl h
    · rcases Option.or_eq_some_iff.1 h with h | ⟨-, h⟩
      · exact .inl h
      · exact .inr (more h)

/-- Whatever is matched is a word. -/
theorem run_denotes (h : r.run s k = some x) : r.Matches s k x := by
  induction r generalizing s k x with
  | empty => exact ⟨[], s, rfl, .empty, h⟩
  | one set =>
    cases s with
    | nil => simp [run] at h
    | cons c rest =>
      simp only [run] at h
      split at h
      · exact ⟨[c], rest, rfl, .one ‹_›, h⟩
      · simp at h
  | seq a b iha ihb =>
    obtain ⟨u, rest, rfl, first, later⟩ := iha h
    obtain ⟨v, rest, rfl, second, there⟩ := ihb later
    exact ⟨u ++ v, rest, by simp, .seq first second, there⟩
  | alt a b iha ihb =>
    rcases Option.or_eq_some_iff.1 h with h | ⟨-, h⟩
    · obtain ⟨u, rest, rfl, word, there⟩ := iha h
      exact ⟨u, rest, rfl, .altLeft word, there⟩
    · obtain ⟨u, rest, rfl, word, there⟩ := ihb h
      exact ⟨u, rest, rfl, .altRight word, there⟩
  | opt greedy a ih =>
    have given (h : a.run s k = some x) : (opt greedy a).Matches s k x := by
      obtain ⟨u, rest, rfl, word, there⟩ := ih h
      exact ⟨u, rest, rfl, .optSome word, there⟩
    have left_out (h : k s = some x) : (opt greedy a).Matches s k x := ⟨[], s, rfl, .optNone, h⟩
    unfold run at h
    split at h
    · rcases Option.or_eq_some_iff.1 h with h | ⟨-, h⟩
      · exact given h
      · exact left_out h
    · rcases Option.or_eq_some_iff.1 h with h | ⟨-, h⟩
      · exact left_out h
      · exact given h
  | plus greedy a ih =>
    obtain ⟨u, rest, rfl, word, later⟩ := ih h
    dsimp only at later
    split at later
    · rcases again_denotes ih later with here | ⟨v, rest, rfl, words, there⟩
      · exact ⟨u, rest, rfl, .plusOne word, here⟩
      · exact ⟨u ++ v, rest, by simp, .plusMore word words, there⟩
    · exact ⟨u, rest, rfl, .plusOne word, later⟩

theorem matchRest_denotes {rest : List Char} (h : r.matchRest s = some rest) :
    ∃ u, s = u ++ rest ∧ r.Denotes u := by
  obtain ⟨u, rest', rfl, word, there⟩ := run_denotes h
  obtain rfl := Option.some.inj there
  exact ⟨u, rfl, word⟩

end Matching

/-! ## Words of single characters -/

section Characters
variable {greedy : Bool} {set : CharSet} {r : Regex} {w : List Char}

/-- Every character of one round or more of a single character is of its set. -/
theorem Denotes.of_plus_one (h : (Regex.plus greedy (.one set)).Denotes w) :
    w ≠ [] ∧ ∀ c ∈ w, set.has c = true := by
  generalize whole : Regex.plus greedy (.one set) = r at h
  induction h with
  | plusOne round =>
    cases whole
    cases round with
    | one h => exact ⟨List.cons_ne_nil _ _, List.forall_mem_singleton.2 h⟩
  | plusMore round _ _ ih =>
    cases whole
    cases round with
    | one h => exact ⟨List.cons_ne_nil _ _, List.forall_mem_cons.2 ⟨h, (ih rfl).2⟩⟩
  | _ => cases whole

theorem Denotes.of_star_one (h : (star greedy (.one set)).Denotes w) :
    ∀ c ∈ w, set.has c = true := by
  cases h with
  | optNone => simp
  | optSome given => exact given.of_plus_one.2

theorem Denotes.of_seq_one (h : (Regex.seq (.one set) r).Denotes w) :
    ∃ c v, w = c :: v ∧ set.has c = true ∧ r.Denotes v := by
  cases h with
  | seq first second =>
    cases first with
    | one has => exact ⟨_, _, rfl, has, second⟩

theorem Denotes.of_seq_empty (h : (Regex.seq r .empty).Denotes w) : r.Denotes w := by
  cases h with
  | seq first nothing =>
    cases nothing
    rwa [List.append_nil]

end Characters

/-! ## Beginnings -/

/-- All words of `r` begin with `h`. -/
def Begins (r : Regex) (h : List Char) : Prop := ∀ w, r.Denotes w → h <+: w

section Beginnings
variable {a b : Regex} {h : List Char}

theorem begins_nil (r : Regex) : r.Begins [] := fun _ _ => List.nil_prefix

theorem begins_single (c : Char) : (one (.single c)).Begins [c] := by
  rintro w (_ | has)
  obtain rfl := (CharSet.has_single _ _).1 has
  exact List.prefix_rfl

theorem Begins.seq_left (begins : a.Begins h) (b : Regex) : (seq a b).Begins h := by
  rintro _ (_ | _ | ⟨first, -⟩)
  exact (begins _ first).trans (List.prefix_append _ _)

theorem Begins.seq_single (c : Char) (begins : b.Begins h) :
    (seq (one (.single c)) b).Begins (c :: h) := by
  rintro _ (_ | _ | ⟨first, second⟩)
  cases first with
  | one has =>
    obtain rfl := (CharSet.has_single _ _).1 has
    exact List.prefix_append_right_inj [_] |>.2 (begins _ second)

theorem Begins.plus (greedy : Bool) (begins : a.Begins h) : (plus greedy a).Begins h := by
  intro w word
  cases word with
  | plusOne round => exact begins _ round
  | plusMore round _ => exact (begins _ round).trans (List.prefix_append _ _)

theorem Begins.times {n : Nat} (positive : 0 < n) (begins : a.Begins h) : (a.times n).Begins h := by
  cases n with
  | zero => exact absurd positive (Nat.lt_irrefl 0)
  | succ n => exact begins.seq_left _

theorem Begins.atLeast (greedy : Bool) {n : Nat} (positive : 0 < n) (begins : a.Begins h) :
    (a.atLeast greedy n).Begins h := by
  match n with
  | 1 =>
    rintro _ (_ | _ | ⟨first, second⟩)
    cases first
    exact begins.plus greedy _ second
  | n + 2 => exact (begins.times (Nat.succ_pos n)).seq_left _

end Beginnings

end Rowlang.Pattern.Regex
