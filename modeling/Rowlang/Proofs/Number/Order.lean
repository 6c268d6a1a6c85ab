import Rowlang.Number.Basic
import Mathlib.Tactic.Ring

/-!
# The order of numbers

Doubles are ordered among each other, and so are decimals. A decimal is compared with a double as a
double, though, which two decimals of one double have no part in.

* `Double.compare_eq` : the order of doubles is that of their places;
* `Decimal.compare_eq` : the order of decimals is that of their values in units of the last place;
* `Number.byDouble` : the order in which every number stands as its double;
* `Circular` : three values that an order leads in a circle;
* `Number.Torn` : two decimals and another number that do not stand to it as they stand to each other;
* `Number.circular_iff` : numbers go in a circle where some are torn, and nowhere else.
-/

namespace Rowlang
open Std

/-! ## Doubles -/

theorem compare_neg (a b : Int) : compare (-a) (-b) = (compare a b).swap := by
  rw [← OrientedOrd.eq_swap]
  simp only [compare, compareOfLessAndEq, Int.neg_lt_neg_iff, Int.neg_inj, eq_comm]

theorem compare_mul_right (a b : Int) {k : Int} (h : 0 < k) :
    compare (a * k) (b * k) = compare a b := by
  simp only [compare, compareOfLessAndEq, Int.mul_lt_mul_right h, Int.mul_eq_mul_right_iff (Int.ne_of_gt h)]

theorem compare_natCast (a b : Nat) : compare (a : Int) (b : Int) = compare a b := by
  simp only [compare, compareOfLessAndEq, Int.ofNat_lt, Int.natCast_inj]

namespace Double
open Float.Model

/-- The place among all numbers: by the class first, then by the exponent, then by the significand. -/
def placeOf : UnpackedFloat → List Int
  | .infinity .negative => [-2]
  | .finite .negative m e _ => [-1, -e, -m]
  | .zero _ => [0]
  | .finite .positive m e _ => [1, e, m]
  | .infinity .positive => [2]
  | .notANumber => [3]

theorem compare_triple (s a b a' b' : Int) :
    Ord.compare [s, a, b] [s, a', b'] = (Ord.compare a a').then (Ord.compare b b') := by
  simp

theorem compare_positive (e e' : Int) (m m' : Nat) :
    (Ord.compare e e').then (Ord.compare m m') =
      Ord.compare [1, e, (m : Int)] [1, e', (m' : Int)] := by
  rw [compare_triple, compare_natCast]

theorem compare_negative (e e' : Int) (m m' : Nat) :
    ((Ord.compare e e').then (Ord.compare m m')).swap =
      Ord.compare [-1, -e, -(m : Int)] [-1, -e', -(m' : Int)] := by
  rw [compare_triple, compare_neg, compare_neg, compare_natCast, Ordering.swap_then]

theorem compare_unpacked {u v : UnpackedFloat} (hu : u ≠ .notANumber) (hv : v ≠ .notANumber) :
    u.compare v = some (Ord.compare (placeOf u) (placeOf v)) := by
  rcases u with (_ | _) | _ | s | ⟨(_ | _), m, e, -⟩ <;>
    rcases v with (_ | _) | _ | s' | ⟨(_ | _), m', e', -⟩ <;>
      first | rfl | exact absurd rfl hu | exact absurd rfl hv | skip
  · exact congrArg some (compare_negative e e' m m')
  · exact congrArg some (compare_positive e e' m m')

theorem compare_notANumber {u : UnpackedFloat} (hu : u ≠ .notANumber) :
    Ord.compare (placeOf .notANumber) (placeOf u) = .gt := by
  rcases u with (_ | _) | _ | s | ⟨(_ | _), m, e, -⟩ <;> first | rfl | exact absurd rfl hu

theorem dite_ne {α : Type} {p : Prop} [Decidable p] {a : p → α} {b : ¬ p → α} {c : α}
    (ha : ∀ h, a h ≠ c) (hb : ∀ h, b h ≠ c) : dite p a b ≠ c := by
  split
  · exact ha _
  · exact hb _

/-- What is no number by its bits is none for the comparisons. -/
theorem value_eq_nan {x : Float} : value x = .nan ↔ x.toModel.unpack = .notANumber := by
  have bits : x.toBits.toNat = x.toModel.toBits.toBitVec.toNat := rfl
  have exponent : @UnpackedFloat.unpackExponent .binary64 x.toModel.toBits.toBitVec = -1#_ ↔
      x.toBits.toNat / 2 ^ 52 % 2 ^ 11 = 2047 := by
    rw [← BitVec.toNat_inj, bits]
    simp [UnpackedFloat.unpackExponent, Nat.shiftRight_eq_div_pow]
  have mantissa : @UnpackedFloat.unpackMantissa .binary64 x.toModel.toBits.toBitVec = 0#_ ↔
      x.toBits.toNat % 2 ^ 52 = 0 := by
    rw [← BitVec.toNat_inj, bits]
    simp [UnpackedFloat.unpackMantissa]
  unfold Float.Model.unpack UnpackedFloat.unpack value
  by_cases special : x.toBits.toNat / 2 ^ 52 % 2 ^ 11 = 2047
  · rw [if_pos special, if_pos (exponent.2 special)]
    by_cases infinite : x.toBits.toNat % 2 ^ 52 = 0
    · rw [if_pos infinite, if_pos (mantissa.2 infinite)]
      exact iff_of_false nofun nofun
    · rw [if_neg infinite, if_neg (mt mantissa.1 infinite)]
      exact iff_of_true rfl rfl
  · rw [if_neg special, if_neg (mt exponent.1 special)]
    refine iff_of_false ?_ ?_
    · split <;> nofun
    · refine dite_ne (fun _ => dite_ne (fun _ => ?_) fun _ => ?_) fun _ => ?_ <;> nofun

/-- The place of a double among all numbers. -/
def place (x : Float) : List Int := placeOf x.toModel.unpack

theorem lt_iff {x y : Float} : x < y ↔ x.toModel.unpack.compare y.toModel.unpack = some .lt := by
  show x.lt y = true ↔ _
  unfold Float.lt
  rw [decide_eq_true_iff]
  show Float.Model.lt _ _ = true ↔ _
  unfold Float.Model.lt UnpackedFloat.lt
  rw [beq_iff_eq]

theorem beq_iff {x y : Float} :
    (x == y) = true ↔ x.toModel.unpack.compare y.toModel.unpack = some .eq := by
  show Float.Model.beq _ _ = true ↔ _
  unfold Float.Model.beq UnpackedFloat.beq
  rw [beq_iff_eq]

/-- The order of doubles is that of their places. -/
theorem compare_eq (x y : Float) : compare x y = Ord.compare (place x) (place y) := by
  unfold compare place
  by_cases hx : value x = .nan
  · by_cases hy : value y = .nan
    · rw [hx, hy, value_eq_nan.1 hx, value_eq_nan.1 hy]
      rfl
    · rw [hx, value_eq_nan.1 hx, compare_notANumber (mt value_eq_nan.2 hy)]
      split <;> simp_all
  · by_cases hy : value y = .nan
    · rw [hy, value_eq_nan.1 hy, OrientedOrd.eq_swap, compare_notANumber (mt value_eq_nan.2 hx)]
      split <;> simp_all
    · have ordered := compare_unpacked (mt value_eq_nan.2 hx) (mt value_eq_nan.2 hy)
      have less := @lt_iff x y
      have same := @beq_iff x y
      rw [ordered, Option.some_inj] at less same
      split
      · contradiction
      · contradiction
      · contradiction
      · cases place : Ord.compare (placeOf x.toModel.unpack) (placeOf y.toModel.unpack) <;>
          simp [less, same, place]

instance : TransCmp compare := by
  have eq : compare = compareOn place := funext fun x => funext fun y => compare_eq x y
  rw [eq]
  infer_instance

end Double

/-! ## Decimals -/

namespace Decimal

/-- The value in units of the last place that a decimal can have. -/
def units (d : Decimal) : Int := d.signedCoefficient * 10 ^ (28 - d.scale)

/-- The order of decimals is that of their values. -/
theorem compare_eq (a b : Decimal) : a.compare b = Ord.compare a.units b.units := by
  have scaled (x y : Decimal) :
      x.units * 10 ^ (x.scale + y.scale) = x.signedCoefficient * 10 ^ y.scale * 10 ^ 28 := by
    have sum : 28 - x.scale + (x.scale + y.scale) = y.scale + 28 := by
      have := x.scale_le
      omega
    rw [units, mul_assoc, ← pow_add, sum, pow_add, mul_assoc]
  have positive : (0 : Int) < 10 ^ (a.scale + b.scale) := Int.pow_pos (by decide)
  rw [← compare_mul_right a.units b.units positive, scaled a b, Nat.add_comm a.scale b.scale, scaled b a,
    compare_mul_right _ _ (by decide), compare]

instance : TransCmp compare := by
  have eq : compare = compareOn units := funext fun a => funext fun b => compare_eq a b
  rw [eq]
  infer_instance

end Decimal

/-! ## Circles -/

/-- Three values that an order leads in a circle: each is at most the next, and yet not all are equal. -/
structure Circular {α : Type} (cmp : α → α → Ordering) (a b c : α) : Prop where
  first : (cmp a b).isLE
  second : (cmp b c).isLE
  third : (cmp c a).isLE
  strict : ¬ (cmp a b = .eq ∧ cmp b c = .eq ∧ cmp c a = .eq)

namespace Circular

variable {α : Type} {cmp : α → α → Ordering} {a b c : α}

theorem rotate (h : Circular cmp a b c) : Circular cmp b c a :=
  ⟨h.second, h.third, h.first, fun ⟨bc, ca, ab⟩ => h.strict ⟨ab, bc, ca⟩⟩

/-- Values that stand to each other as those of a circle do are in a circle. -/
theorem transfer {β : Type} {cmp' : β → β → Ordering} {x y z : β} (h : Circular cmp a b c)
    (first : cmp a b = cmp' x y) (second : cmp b c = cmp' y z) (third : cmp c a = cmp' z x) :
    Circular cmp' x y z :=
  ⟨first ▸ h.first, second ▸ h.second, third ▸ h.third, first ▸ second ▸ third ▸ h.strict⟩

theorem absurd [TransCmp cmp] (h : Circular cmp a b c) : False := by
  have ac := TransCmp.isLE_trans h.first h.second
  have ba := TransCmp.isLE_trans h.second h.third
  have cb := TransCmp.isLE_trans h.third h.first
  exact h.strict ⟨OrientedCmp.isLE_antisymm h.first ba, OrientedCmp.isLE_antisymm h.second cb,
    OrientedCmp.isLE_antisymm h.third ac⟩

end Circular

/-! ## Numbers -/

namespace Number

/-- The order in which every number stands as its double. -/
def byDouble (a b : Number) : Ordering :=
  (Ord.compare a.rank b.rank).then (Double.compare a.toDouble b.toDouble)

instance : TransCmp byDouble := by
  have eq : byDouble = compareLex (compareOn rank) (compareOn fun a => Double.place a.toDouble) :=
    funext fun a => funext fun b => congrArg (Ord.compare a.rank b.rank).then (Double.compare_eq ..)
  rw [eq]
  infer_instance

/-- No decimal. -/
def IsOther (f : Number) : Prop := ∀ d, f ≠ .decimal d

theorem compare_other {a b : Number} (h : a.IsOther ∨ b.IsOther) : a.compare b = a.byDouble b := by
  unfold compare
  split
  · rcases h with h | h <;> exact absurd rfl (h _)
  · rfl

theorem decimal_or_other (a : Number) : (∃ d, a = .decimal d) ∨ a.IsOther := by
  cases a with
  | decimal d => exact .inl ⟨d, rfl⟩
  | _ => exact .inr (by simp [IsOther])

instance : OrientedCmp compare where
  eq_swap {a b} := by
    rcases a.decimal_or_other with ⟨p, rfl⟩ | other
    · rcases b.decimal_or_other with ⟨q, rfl⟩ | other
      · exact @OrientedCmp.eq_swap _ Decimal.compare _ _ _
      · rw [compare_other (.inr other), compare_other (.inl other)]
        exact @OrientedCmp.eq_swap _ byDouble _ _ _
    · rw [compare_other (.inl other), compare_other (.inr other)]
      exact @OrientedCmp.eq_swap _ byDouble _ _ _

/-- Two decimals, and another number that they do not stand to as they stand to each other: the first is
at most the second, and yet by their doubles the second comes before the other number, or with it, and
the first behind it, or with it. -/
structure Torn (p q : Decimal) (f : Number) : Prop where
  other : f.IsOther
  exact : (p.compare q).isLE
  before : ((decimal q).byDouble f).isLE
  behind : (f.byDouble (.decimal p)).isLE
  strict : ¬ (p.compare q = .eq ∧ (decimal q).byDouble (.decimal p) = .eq)

theorem circular_of_torn {p q : Decimal} {f : Number} (h : Torn p q f) :
    Circular compare (.decimal p) (.decimal q) f := by
  have qf : (decimal q).compare f = (decimal q).byDouble f := compare_other (.inr h.other)
  have fp : f.compare (.decimal p) = f.byDouble (.decimal p) := compare_other (.inl h.other)
  refine ⟨h.exact, qf ▸ h.before, fp ▸ h.behind, fun ⟨pq, same, same'⟩ => h.strict ⟨pq, ?_⟩⟩
  exact TransCmp.eq_trans (qf ▸ same) (fp ▸ same')

/-- Two decimals that another number closes a circle with. -/
theorem torn_of_circular {p q : Decimal} {f : Number}
    (h : Circular compare (.decimal p) (.decimal q) f) : Torn p q f := by
  rcases f.decimal_or_other with ⟨d, rfl⟩ | other
  · have exact : Circular Decimal.compare p q d := ⟨h.first, h.second, h.third, h.strict⟩
    exact exact.absurd.elim
  have qf : (decimal q).compare f = (decimal q).byDouble f := compare_other (.inr other)
  have fp : f.compare (.decimal p) = f.byDouble (.decimal p) := compare_other (.inl other)
  have before : ((decimal q).byDouble f).isLE := qf ▸ h.second
  have behind : (f.byDouble (.decimal p)).isLE := fp ▸ h.third
  refine ⟨other, h.first, before, behind, fun ⟨pq, same⟩ => h.strict ⟨pq, ?_, ?_⟩⟩
  · -- the other number stands between two doubles that are equal
    rw [qf]
    exact OrientedCmp.isLE_antisymm before
      (TransCmp.isLE_trans behind (by rw [OrientedCmp.eq_symm same]; rfl))
  · rw [fp]
    exact OrientedCmp.isLE_antisymm behind
      (TransCmp.isLE_trans (by rw [OrientedCmp.eq_symm same]; rfl) before)

/-- Three numbers go in a circle where two of them are decimals that are torn by the third. -/
theorem circular_iff {x y z : Number} : Circular compare x y z ↔ ∃ p q f, Torn p q f ∧
    ((x = .decimal p ∧ y = .decimal q ∧ z = f) ∨ (x = f ∧ y = .decimal p ∧ z = .decimal q) ∨
      (x = .decimal q ∧ y = f ∧ z = .decimal p)) := by
  constructor
  · intro h
    -- with two numbers that are no decimals, all three stand as their doubles
    have two (xy : x.IsOther ∨ y.IsOther) (yz : y.IsOther ∨ z.IsOther) (zx : z.IsOther ∨ x.IsOther) :
        False := by
      obtain ⟨first, second, third, strict⟩ := h
      rw [compare_other xy] at first strict
      rw [compare_other yz] at second strict
      rw [compare_other zx] at third strict
      exact Circular.absurd ⟨first, second, third, strict⟩
    rcases x.decimal_or_other with ⟨p, rfl⟩ | ox
    · rcases y.decimal_or_other with ⟨q, rfl⟩ | oy
      · exact ⟨p, q, z, torn_of_circular h, .inl ⟨rfl, rfl, rfl⟩⟩
      · rcases z.decimal_or_other with ⟨r, rfl⟩ | oz
        · exact ⟨r, p, y, torn_of_circular h.rotate.rotate, .inr (.inr ⟨rfl, rfl, rfl⟩)⟩
        · exact (two (.inr oy) (.inl oy) (.inl oz)).elim
    · rcases y.decimal_or_other with ⟨q, rfl⟩ | oy
      · rcases z.decimal_or_other with ⟨r, rfl⟩ | oz
        · exact ⟨q, r, x, torn_of_circular h.rotate, .inr (.inl ⟨rfl, rfl, rfl⟩)⟩
        · exact (two (.inl ox) (.inr oz) (.inl oz)).elim
      · exact (two (.inl ox) (.inl oy) (.inr ox)).elim
  · rintro ⟨p, q, f, torn, ⟨rfl, rfl, rfl⟩ | ⟨rfl, rfl, rfl⟩ | ⟨rfl, rfl, rfl⟩⟩
    · exact circular_of_torn torn
    · exact (circular_of_torn torn).rotate.rotate
    · exact (circular_of_torn torn).rotate

end Number

end Rowlang
