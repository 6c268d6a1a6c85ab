import Rowlang.Proofs.Number.Order
import Rowlang.Value.Order

/-!
# How far the order of values is one

The order of values can be turned round, and it leads nothing in a circle but numbers that are torn: two
decimals that do not stand to a double as they stand to each other. Values without such numbers in them,
or in texts that read as such, are ordered totally.

* `Value.Kindred` : two values of one place in the order of kinds;
* `Value.numbers` : the numbers that a value is compared by;
* `Value.circular_numbers` : values in a circle have numbers in a circle;
* `Value.Tear` : torn numbers among those of three values;
* `Value.compare_preorder` : the laws of the order, with their one exception.
-/

namespace Rowlang
open Std

instance : TransCmp Moment.compare :=
  inferInstanceAs (TransCmp (compareLex
    (compareLex (compareOn fun m : Moment => m.date.year)
      (compareLex (compareOn fun m => m.date.month) (compareOn fun m => m.date.day)))
    (compareLex (compareOn fun m => m.clock.seconds) (compareOn fun m => m.clock.nanos))))

namespace Value

/-! ## Kinds -/

/-- Two values of one place in the order of kinds. -/
inductive Kindred : Value → Value → Prop
  | null : Kindred .null .null
  | boolean (x y : Bool) : Kindred (.boolean x) (.boolean y)
  | number {a b : Value} {x y : Number} (first : a.numericKey? = some x)
      (second : b.numericKey? = some y) : Kindred a b
  | date (x y : Moment) : Kindred (.date x) (.date y)
  | word {s t : String} (first : Number.ofText? s = none) (second : Number.ofText? t = none) :
      Kindred (.text s) (.text t)
  | list (xs ys : List Value) (j k : Option String) : Kindred (.list xs j) (.list ys k)
  | object (x y : ObjectRef) : Kindred (.object x) (.object y)

theorem orderRank_of_number {v : Value} {x : Number} (h : v.numericKey? = some x) :
    v.orderRank = 2 := by
  rw [orderRank, h]
  rfl

theorem orderRank_of_none {v : Value} (h : v.numericKey? = none) :
    v.orderRank = v.rank ∧ v.rank ≠ 2 := by
  constructor
  · rw [orderRank, h]
    rfl
  · cases v with
    | number n => cases h
    | _ => simp [rank]

theorem kindred_of_rank {a b : Value} (h : a.orderRank = b.orderRank) : Kindred a b := by
  cases first : a.numericKey? with
  | some x =>
    cases second : b.numericKey? with
    | some y => exact .number first second
    | none =>
      obtain ⟨same, other⟩ := orderRank_of_none second
      exact absurd (same.symm.trans (h.symm.trans (orderRank_of_number first))) other
  | none =>
    obtain ⟨same, other⟩ := orderRank_of_none first
    cases second : b.numericKey? with
    | some y => exact absurd (same.symm.trans (h.trans (orderRank_of_number second))) other
    | none =>
      rw [same, (orderRank_of_none second).1] at h
      cases a <;> cases b <;> first
        | exact .null
        | exact .boolean ..
        | exact .date ..
        | exact .word first second
        | exact .list ..
        | exact .object ..
        | (simp [rank] at h; done)
        | cases first

theorem compare_numbers {a b : Value} {x y : Number} (first : a.numericKey? = some x)
    (second : b.numericKey? = some y) : a.compare b = x.compare y := by
  have plain : a.compare b = a.comparePlain b := by
    cases a <;> cases b <;> first | rfl | cases first
  unfold comparePlain at plain
  rw [plain, first, second]

theorem compare_words {s t : String} (first : Number.ofText? s = none)
    (second : Number.ofText? t = none) : (text s).compare (.text t) = Ord.compare s t := by
  show (text s).comparePlain (.text t) = Ord.compare s t
  unfold comparePlain
  rw [show (text s).numericKey? = none from first, show (text t).numericKey? = none from second]

theorem compare_of_rank {a b : Value} (h : a.orderRank ≠ b.orderRank) :
    a.compare b = Ord.compare a.orderRank b.orderRank := by
  have plain : a.compare b = a.comparePlain b := by
    cases a <;> cases b <;> first | rfl | exact absurd rfl h
  rw [plain]
  unfold comparePlain
  split
  · rename_i first second
    exact absurd ((orderRank_of_number first).trans (orderRank_of_number second).symm) h
  · rename_i first second
    split
    · refine absurd ?_ h
      rw [(orderRank_of_none first).1, (orderRank_of_none second).1]
      rfl
    · rfl
  · rfl

/-! ## Turning round -/

mutual

theorem compare_swap (a b : Value) : b.compare a = (a.compare b).swap := by
  by_cases h : a.orderRank = b.orderRank
  · cases kindred_of_rank h with
    | null => rfl
    | boolean x y => exact OrientedOrd.eq_swap
    | number first second =>
      rw [compare_numbers first second, compare_numbers second first]
      exact OrientedCmp.eq_swap
    | date x y => exact @OrientedCmp.eq_swap _ Moment.compare _ _ _
    | word first second =>
      rw [compare_words first second, compare_words second first]
      exact OrientedOrd.eq_swap
    | list xs ys j k => exact compareItems_swap xs ys
    | object x y => exact OrientedOrd.eq_swap
  · rw [compare_of_rank h, compare_of_rank (Ne.symm h)]
    exact OrientedOrd.eq_swap
termination_by sizeOf a

theorem compareItems_swap (xs ys : List Value) : compareItems ys xs = (compareItems xs ys).swap := by
  match xs, ys with
  | [], [] => rfl
  | [], _ :: _ => rfl
  | _ :: _, [] => rfl
  | x :: xs, y :: ys =>
    rw [compareItems, compareItems, compare_swap x y, compareItems_swap xs ys, Ordering.swap_then]
termination_by sizeOf xs

end

instance : OrientedCmp compare := ⟨fun {a b} => compare_swap b a⟩

instance : OrientedCmp compareItems := ⟨fun {xs ys} => compareItems_swap ys xs⟩

/-! ## Numbers in a circle -/

mutual

def numbers : Value → List Number
  | .number n => [n]
  | .text s => (Number.ofText? s).toList
  | .list items _ => numbersOf items
  | _ => []

def numbersOf : List Value → List Number
  | [] => []
  | v :: rest => v.numbers ++ numbersOf rest

end

theorem mem_numbers {v : Value} {x : Number} (h : v.numericKey? = some x) : x ∈ v.numbers := by
  cases v with
  | number n =>
    cases h
    exact List.mem_singleton_self _
  | text s =>
    rw [numbers, show Number.ofText? s = some x from h]
    exact List.mem_singleton_self _
  | _ => cases h

/-- Values of which each is at most the next, in a circle, have one place in the order of kinds. -/
theorem orderRank_of_circular {a b c : Value} (h : Circular compare a b c) :
    a.orderRank = b.orderRank ∧ b.orderRank = c.orderRank := by
  have atMost {u v : Value} (le : (u.compare v).isLE) : u.orderRank ≤ v.orderRank := by
    by_cases same : u.orderRank = v.orderRank
    · exact Nat.le_of_eq same
    · rw [compare_of_rank same] at le
      exact Nat.isLE_compare.1 le
  have ab := atMost h.first
  have bc := atMost h.second
  have ca := atMost h.third
  omega

/-- Three values have numbers in a circle. -/
def CircularNumbers (xs ys zs : List Number) : Prop :=
  ∃ x ∈ xs, ∃ y ∈ ys, ∃ z ∈ zs, Circular Number.compare x y z

mutual

/-- Values in a circle have numbers in a circle. -/
theorem circular_numbers {a b c : Value} (h : Circular compare a b c) :
    CircularNumbers a.numbers b.numbers c.numbers := by
  obtain ⟨ab, bc⟩ := orderRank_of_circular h
  have next := kindred_of_rank bc
  cases kindred_of_rank ab with
  | null =>
    cases next with
    | null => exact absurd ⟨rfl, rfl, rfl⟩ h.strict
    | number key => cases key
  | boolean x y =>
    cases next with
    | boolean _ z =>
      have booleans : Circular Ord.compare x y z := ⟨h.first, h.second, h.third, h.strict⟩
      exact booleans.absurd.elim
    | number key => cases key
  | @number _ _ x y first second =>
    obtain ⟨z, third⟩ : ∃ z, c.numericKey? = some z := by
      cases key : c.numericKey? with
      | some z => exact ⟨z, rfl⟩
      | none =>
        obtain ⟨same, other⟩ := orderRank_of_none key
        exact absurd (same.symm.trans (bc.symm.trans (orderRank_of_number second))) other
    have circle : Circular Number.compare x y z :=
      h.transfer (compare_numbers first second) (compare_numbers second third)
        (compare_numbers third first)
    exact ⟨x, mem_numbers first, y, mem_numbers second, z, mem_numbers third, circle⟩
  | date x y =>
    cases next with
    | date _ z =>
      have dates : Circular Moment.compare x y z := ⟨h.first, h.second, h.third, h.strict⟩
      exact dates.absurd.elim
    | number key => cases key
  | @word s t first second =>
    cases next with
    | @word _ u _ third =>
      have texts : Circular Ord.compare s t u :=
        h.transfer (compare_words first second) (compare_words second third)
          (compare_words third first)
      exact texts.absurd.elim
    | number key => exact absurd (second.symm.trans key) (by simp)
  | list xs ys j k =>
    cases next with
    | list _ zs => exact circular_numbersOf ⟨h.first, h.second, h.third, h.strict⟩
    | number key => cases key
  | object x y =>
    cases next with
    | object _ z =>
      have places : Circular Ord.compare x.id y.id z.id := ⟨h.first, h.second, h.third, h.strict⟩
      exact places.absurd.elim
    | number key => cases key
termination_by sizeOf a

theorem circular_numbersOf {xs ys zs : List Value} (h : Circular compareItems xs ys zs) :
    CircularNumbers (numbersOf xs) (numbersOf ys) (numbersOf zs) := by
  match xs, ys, zs, h with
  | [], [], [], h => exact absurd ⟨rfl, rfl, rfl⟩ h.strict
  | _ :: _, [], _, h => exact absurd h.first (by simp [compareItems])
  | _, _ :: _, [], h => exact absurd h.second (by simp [compareItems])
  | [], _, _ :: _, h => exact absurd h.third (by simp [compareItems])
  | x :: xs, y :: ys, z :: zs, h =>
    obtain ⟨first, second, third, strict⟩ := h
    simp only [compareItems, Ordering.isLE_then_iff_or, Ordering.then_eq_eq] at first second third strict
    by_cases heads : x.compare y = .eq ∧ y.compare z = .eq ∧ z.compare x = .eq
    · obtain ⟨xy, yz, zx⟩ := heads
      have tails : Circular compareItems xs ys zs :=
        ⟨by simpa [xy] using first, by simpa [yz] using second, by simpa [zx] using third,
          fun ⟨first, second, third⟩ => strict ⟨⟨xy, first⟩, ⟨yz, second⟩, ⟨zx, third⟩⟩⟩
      obtain ⟨p, hp, q, hq, r, hr, circle⟩ := circular_numbersOf tails
      exact ⟨p, List.mem_append_right _ hp, q, List.mem_append_right _ hq, r,
        List.mem_append_right _ hr, circle⟩
    · have atMost {o o' : Ordering} (h : o = .lt ∨ o = .eq ∧ o'.isLE) : o.isLE := by
        rcases h with rfl | ⟨rfl, -⟩ <;> rfl
      obtain ⟨p, hp, q, hq, r, hr, circle⟩ :=
        circular_numbers ⟨atMost first, atMost second, atMost third, heads⟩
      exact ⟨p, List.mem_append_left _ hp, q, List.mem_append_left _ hq, r,
        List.mem_append_left _ hr, circle⟩
termination_by sizeOf xs

end

/-! ## The laws of the order -/

/-- Among the numbers of three values, in the order of the values or turned on from it, are two decimals
that are torn by the third number. -/
def Tear (a b c : Value) : Prop :=
  ∃ p q f, Number.Torn p q f ∧
    ((.decimal p ∈ a.numbers ∧ .decimal q ∈ b.numbers ∧ f ∈ c.numbers) ∨
      (f ∈ a.numbers ∧ .decimal p ∈ b.numbers ∧ .decimal q ∈ c.numbers) ∨
      (.decimal q ∈ a.numbers ∧ f ∈ b.numbers ∧ .decimal p ∈ c.numbers))

theorem tear_of_circular {a b c : Value} (h : Circular compare a b c) : Tear a b c := by
  obtain ⟨x, hx, y, hy, z, hz, circle⟩ := circular_numbers h
  obtain ⟨p, q, f, torn, place⟩ := Number.circular_iff.1 circle
  refine ⟨p, q, f, torn, ?_⟩
  rcases place with ⟨rfl, rfl, rfl⟩ | ⟨rfl, rfl, rfl⟩ | ⟨rfl, rfl, rfl⟩
  · exact .inl ⟨hx, hy, hz⟩
  · exact .inr (.inl ⟨hx, hy, hz⟩)
  · exact .inr (.inr ⟨hx, hy, hz⟩)

/-- Every value equals itself, the order can be turned round, and what is at most a value that is at
most a third is at most the third, unless there is a tear in the numbers of the three. Torn numbers are
themselves led in a circle. -/
theorem compare_preorder (a b c : Value) :
    a.compare a = .eq ∧ b.compare a = (a.compare b).swap ∧
    ((a.compare b).isLE → (b.compare c).isLE → (a.compare c).isLE ∨ Tear a b c) ∧
    ∀ p q f, Number.Torn p q f →
      Circular compare (.number (.decimal p)) (.number (.decimal q)) (.number f) := by
  refine ⟨ReflCmp.compare_self, compare_swap a b, fun first second => ?_, fun p q f torn => ?_⟩
  · cases behind : a.compare c with
    | lt => exact .inl rfl
    | eq => exact .inl rfl
    | gt =>
      have third : c.compare a = .lt := by rw [compare_swap a c, behind]; rfl
      refine .inr (tear_of_circular ⟨first, second, by rw [third]; rfl, fun ⟨_, _, same⟩ => ?_⟩)
      rw [third] at same
      cases same
  · exact (Number.circular_of_torn torn).transfer (compare_numbers rfl rfl).symm
      (compare_numbers rfl rfl).symm (compare_numbers rfl rfl).symm

/-- The decimals at and above `2 ^ 53` are one double. -/
theorem compare_preorder_torn :
    let p : Decimal := ⟨false, 9007199254740992, 0, by decide, by decide⟩
    let q : Decimal := ⟨false, 9007199254740993, 0, by decide, by decide⟩
    let f : Number := .double p.toDouble
    Number.Torn p q f ∧
      Circular compare (.number (.decimal p)) (.number (.decimal q)) (.number f) := by
  intro p q f
  have torn : Number.Torn p q f :=
    ⟨by simp [Number.IsOther, f], by decide +kernel, by decide +kernel, by decide +kernel,
      by decide +kernel⟩
  exact ⟨torn, (compare_preorder .null .null .null).2.2.2 p q f torn⟩

end Value

end Rowlang
