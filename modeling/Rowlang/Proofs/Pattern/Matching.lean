import Rowlang.Pattern.Regex

/-!
# What a regular expression takes first

The other direction of `Regex.run_denotes`: where a word stands in front of what cannot go on with it,
the expression takes that word and nothing else.

* `Regex.Takes` : in front of `rest`, the expression takes `w` first of all;
* `Regex.Stuck` : the expression takes nothing in front of a text;
* `takes_plus`, `takes_star` : a repetition takes all rounds that there are.
-/

namespace Rowlang.Pattern.Regex

/-- In front of `rest`, the first that the expression takes is `w`. -/
def Takes (r : Regex) (w rest : List Char) : Prop :=
  ∀ (α : Type) (k : List Char → Option α) (x : α), k rest = some x → r.run (w ++ rest) k = some x

/-- The expression has no match at the beginning of the text. -/
def Stuck (r : Regex) (s : List Char) : Prop :=
  ∀ (α : Type) (k : List Char → Option α), r.run s k = none

variable {a b : Regex} {u v w rest : List Char} {c : Char} {set : CharSet}

theorem takes_empty : empty.Takes [] rest := fun _ _ _ found => found

theorem takes_one (h : set.has c = true) : (one set).Takes [c] rest := by
  intro _ k x found
  simp [run, h, found]

theorem takes_seq (first : a.Takes u (v ++ rest)) (second : b.Takes v rest) :
    (seq a b).Takes (u ++ v) rest := by
  intro _ k x found
  rw [List.append_assoc]
  exact first _ _ _ (second _ _ _ found)

theorem Takes.seq_empty (first : a.Takes w rest) : (seq a empty).Takes w rest := by
  have whole := takes_seq (v := []) first takes_empty
  rwa [List.append_nil] at whole

theorem takes_altLeft (chosen : a.Takes w rest) : (alt a b).Takes w rest := by
  intro _ k x found
  rw [run, chosen _ _ _ found, Option.some_or]

theorem takes_altRight (stuck : a.Stuck (w ++ rest)) (chosen : b.Takes w rest) :
    (alt a b).Takes w rest := by
  intro _ k x found
  rw [run, stuck, chosen _ _ _ found, Option.none_or]

theorem stuck_one (h : ∀ c ∈ w.head?, set.has c = false) : (one set).Stuck w := by
  intro _ k
  cases w with
  | nil => rfl
  | cons c w => simp [run, h c rfl]

theorem stuck_seq (h : a.Stuck w) : (seq a b).Stuck w := fun _ _ => h _ _

theorem stuck_alt (first : a.Stuck w) (second : b.Stuck w) : (alt a b).Stuck w := by
  intro _ k
  rw [run, first, second, Option.none_or]

section Rounds
variable {rounds : List (List Char)} (each : ∀ w ∈ rounds, w ≠ [] ∧ ∀ rest, a.Takes w rest)
  (stuck : a.Stuck rest)
include each stuck

theorem again_rounds {α : Type} {k : List Char → Option α} {x : α} (found : k rest = some x) {n : Nat}
    (enough : (rounds.flatten ++ rest).length ≤ n) :
    again a.run true k n (rounds.flatten ++ rest) = some x := by
  induction rounds generalizing n with
  | nil =>
    cases n with
    | zero => exact found
    | succ n =>
      simp only [List.flatten_nil, List.nil_append]
      rw [again, if_pos rfl]
      dsimp only
      rw [stuck, found, Option.none_or]
  | cons w rounds ih =>
    obtain ⟨⟨nonempty, takes⟩, each⟩ := List.forall_mem_cons.1 each
    have positive := List.length_pos_iff.2 nonempty
    cases n with
    | zero =>
      simp only [List.flatten_cons, List.length_append] at enough
      omega
    | succ n =>
      simp only [List.flatten_cons, List.append_assoc, List.length_append] at enough ⊢
      have later : (if (rounds.flatten ++ rest).length < (w ++ (rounds.flatten ++ rest)).length then
          again a.run true k n (rounds.flatten ++ rest) else none) = some x := by
        rw [if_pos (by simp only [List.length_append]; omega)]
        exact ih each (by simp only [List.length_append]; omega)
      rw [again, if_pos rfl]
      dsimp only
      rw [takes _ _ _ _ later, Option.some_or]

theorem takes_plus (some_round : rounds ≠ []) : (plus true a).Takes rounds.flatten rest := by
  intro _ k x found
  cases rounds with
  | nil => exact absurd rfl some_round
  | cons w rounds =>
    obtain ⟨⟨nonempty, takes⟩, each⟩ := List.forall_mem_cons.1 each
    have positive := List.length_pos_iff.2 nonempty
    rw [List.flatten_cons, List.append_assoc, run]
    refine takes _ _ _ _ ?_
    rw [if_pos (by simp only [List.length_append]; omega)]
    exact again_rounds each stuck found (Nat.le_refl _)

theorem takes_star : (star true a).Takes rounds.flatten rest := by
  intro _ k x found
  unfold star
  cases rounds with
  | nil =>
    simp only [List.flatten_nil, List.nil_append]
    rw [run, if_pos rfl, run, stuck, found, Option.none_or]
  | cons w rounds =>
    rw [run, if_pos rfl, takes_plus each stuck (List.cons_ne_nil _ _) _ _ _ found, Option.some_or]

end Rounds

theorem flatten_singletons (w : List Char) : (w.map ([·])).flatten = w := by
  rw [← List.flatMap_def, List.flatMap_singleton']

theorem takes_each_one (inside : ∀ c ∈ w, set.has c = true) :
    ∀ u ∈ w.map ([·]), u ≠ [] ∧ ∀ rest, (one set).Takes u rest := by
  simpa using fun c hc _ => takes_one (inside c hc)

theorem takes_star_one (inside : ∀ c ∈ w, set.has c = true)
    (stop : ∀ c ∈ rest.head?, set.has c = false) : (star true (one set)).Takes w rest := by
  have whole := takes_star (takes_each_one inside) (stuck_one stop)
  rwa [flatten_singletons] at whole

theorem Takes.matchRest (h : a.Takes w rest) : a.matchRest (w ++ rest) = some rest := h _ _ _ rfl

end Rowlang.Pattern.Regex
