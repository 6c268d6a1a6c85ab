import Mathlib.Data.List.TakeWhile
import Rowlang.Pattern.Head
import Rowlang.Pattern.Reading

/-!
# Steps of the reader of expressions

* `Reader.Step` : what one step does to the open groups and brackets;
* `Reader.Quiet` : no bar stands outside brackets in what is left to be read;
* `Reader.Founded base` : the outermost group begins with the items `base`, and they are out of the
  reach of quantifiers;
* `Reader.Founded.items_of_readRest` : then the expression read begins with these items as well.
-/

namespace Rowlang.Pattern
open Rowlang.Text

def isQuantifier (c : Char) : Bool := c == '*' || c == '+' || c == '?' || c == '{'

namespace Reader

variable {r r' : Reader} {c : Char} {rest cs : List Char} {n : Nat}

/-- What one step at the character `c` may do. -/
inductive Step (r : Reader) (c : Char) : Reader → Prop
  | within {brackets} (inside : brackets ≠ []) : Step r c { r with brackets }
  | item {item} : Step r c { r.add item with brackets := [] }
  | opened (outside : r.brackets = []) :
      Step r c { r with group := .empty, outer := r.group :: r.outer }
  | closed {parent outer} (nested : r.outer = parent :: outer) :
      Step r c { r with group := parent.add r.group.close, outer }
  | bar (outside : r.brackets = []) (found : c = '|') : Step r c { r with group := r.group.bar }
  | quantified {f group} (outside : r.brackets = []) (found : isQuantifier c = true)
      (given : r.group.quantify f = some group) : Step r c { r with group }

theorem step_of_stepClass {current : OpenSet} {outer : List OpenSet}
    (h : r.stepClass current outer c rest = some (n, r')) : Step r c r' := by
  unfold stepClass at h
  split at h
  · split at h
    · cases h; exact .item
    · cases h; exact .within (List.cons_ne_nil _ _)
  · split at h
    · cases h; exact .within (List.cons_ne_nil _ _)
    · cases h; exact .within (List.cons_ne_nil _ _)
  · cases h; exact .within (List.cons_ne_nil _ _)
  · cases h; exact .within (List.cons_ne_nil _ _)
  · cases h; exact .within (List.cons_ne_nil _ _)
  · obtain ⟨⟨s, n⟩, -, h⟩ := Option.map_eq_some_iff.1 h
    cases h; exact .within (List.cons_ne_nil _ _)

theorem step_of_quantify {f : Bool → Regex → Regex} {k : Nat} (outside : r.brackets = [])
    (found : isQuantifier c = true) (h : r.quantify k rest f = some (n, r')) : Step r c r' := by
  obtain ⟨g, given, h⟩ := Option.map_eq_some_iff.1 h
  cases h; exact .quantified outside found given

theorem step_of_stepPlain (outside : r.brackets = [])
    (h : r.stepPlain c rest = some (n, r')) : Step r c r' := by
  have item (a : Regex) : Step r c (r.add a) := by
    have same : ({ r.add a with brackets := [] } : Reader) = r.add a := by
      simp only [add, outside]
    exact same ▸ @Step.item r c a
  unfold stepPlain at h
  split at h
  · split at h
    · cases h; exact .opened outside
    · cases h
    · cases h; exact .opened outside
  · split at h
    · cases h
    · cases h; exact .closed ‹_›
  · cases h; exact .bar outside rfl
  · exact step_of_quantify outside rfl h
  · exact step_of_quantify outside rfl h
  · exact step_of_quantify outside rfl h
  · dsimp only at h
    split at h
    · obtain ⟨⟨low, high⟩, -, h⟩ := Option.bind_eq_some_iff.1 h
      exact step_of_quantify outside rfl h
    · cases h
  · cases h; exact .within (List.cons_ne_nil _ _)
  · cases h; exact item _
  · cases h
  · cases h
  · obtain ⟨⟨i, n⟩, -, h⟩ := Option.map_eq_some_iff.1 h
    cases h; exact item _

theorem step_of_step (h : r.step c rest = some (n, r')) : Step r c r' := by
  unfold step at h
  split at h
  · exact step_of_stepPlain ‹_› h
  · exact step_of_stepClass h

/-! ## Bars -/

/-- No bar stands outside brackets, `bracketed` telling whether one is open. -/
def Calm (bracketed : Bool) (cs : List Char) : Prop := alternates false bracketed cs = false

theorem alternates_mono {escaped : Bool} (h : alternates escaped false cs = false) :
    alternates escaped true cs = false := by
  induction cs generalizing escaped with
  | nil => rfl
  | cons c rest ih =>
    unfold alternates at h ⊢
    split
    · rw [if_pos ‹_›] at h; exact ih h
    rw [if_neg ‹_›] at h
    split
    · rw [if_pos ‹_›] at h; exact ih h
    rw [if_neg ‹_›] at h
    split
    · rw [if_pos ‹_›] at h; exact h
    rw [if_neg ‹_›] at h
    split
    · rw [if_pos ‹_›] at h; exact h
    rw [if_neg ‹_›] at h
    split at h
    · cases h
    · simpa using ih h

theorem Calm.bracketed {b : Bool} (h : Calm b cs) : Calm true cs := by
  cases b
  · exact alternates_mono h
  · exact h

theorem Calm.behind_escape {b : Bool} {e : Char} (h : Calm b ('\\' :: e :: cs)) : Calm b cs := by
  simpa [Calm, alternates] using h

theorem Calm.behind_close {b : Bool} (h : Calm b (']' :: cs)) : Calm false cs := by
  simpa [Calm, alternates] using h

/-- A character other than a backslash leaves a calm text, at least within brackets. -/
theorem Calm.tail {b : Bool} (plain : c ≠ '\\') (h : Calm b (c :: cs)) : Calm true cs := by
  unfold Calm alternates at h
  rw [if_neg Bool.false_ne_true, if_neg (by simpa using plain)] at h
  split at h
  · exact h
  split at h
  · exact alternates_mono h
  split at h
  · cases h
  · exact Calm.bracketed h

/-- A character that neither escapes nor opens a bracket leaves a calm text outside brackets. -/
theorem Calm.tail_outside (plain : c ≠ '\\') (closed : c ≠ '[') (h : Calm false (c :: cs)) :
    c ≠ '|' ∧ Calm false cs := by
  unfold Calm alternates at h
  rw [if_neg Bool.false_ne_true, if_neg (by simpa using plain), if_neg (by simpa using closed)] at h
  split at h
  · exact ⟨by rintro rfl; simp_all, h⟩
  split at h
  · cases h
  · exact ⟨by rintro rfl; simp_all, h⟩

theorem Calm.drop (h : Calm true cs) (plain : ∀ c ∈ cs.take n, c ≠ '\\') :
    Calm true (cs.drop n) := by
  induction n generalizing cs with
  | zero => exact h
  | succ n ih =>
    cases cs with
    | nil => exact h
    | cons c cs =>
      exact ih (h.tail (plain c (by simp))) fun d hd => plain d (by simp [hd])

theorem Calm.drop_outside (h : Calm false cs)
    (plain : ∀ c ∈ cs.take n, c ≠ '\\' ∧ c ≠ '[') : Calm false (cs.drop n) := by
  induction n generalizing cs with
  | zero => exact h
  | succ n ih =>
    cases cs with
    | nil => exact h
    | cons c cs =>
      obtain ⟨unescaped, closed⟩ := plain c (by simp)
      exact ih (h.tail_outside unescaped closed).2 fun d hd => plain d (by simp [hd])

/-! ## Characters passed over -/

theorem plain_of_hexChar? {a : Char} (h : hexChar? cs = some a) (hc : c ∈ cs) : c ≠ '\\' ∧ c ≠ '[' := by
  unfold hexChar? at h
  dsimp only at h
  split at h
  · rename_i valid
    have digits : cs.all (fun d => (hexDigit? d).isSome) = true := (Bool.and_eq_true_iff.1
      (Bool.and_eq_true_iff.1 valid).1).2
    have digit := List.all_eq_true.1 digits c hc
    constructor <;> (rintro rfl; revert digit; decide)
  · cases h

theorem plain_of_readHex {length : Nat} {a : Char} (h : readHex length cs = some (a, n)) :
    ∀ c ∈ cs.take n, c ≠ '\\' ∧ c ≠ '[' := by
  unfold readHex at h
  intro c hc
  split at h
  · rename_i body
    dsimp only at h
    split at h
    · obtain ⟨a, read, h⟩ := Option.map_eq_some_iff.1 h
      cases h
      rcases List.mem_cons.1 hc with rfl | hc
      · decide
      rw [List.take_add, take_takeWhile, drop_takeWhile] at hc
      rcases List.mem_append.1 hc with hc | hc
      · exact plain_of_hexChar? read hc
      · have brace := List.head?_dropWhile_not (· != '}') body
        rw [List.take_one, Option.mem_toList] at hc
        rw [hc] at brace
        obtain rfl : c = '}' := by simpa using brace
        decide
    · cases h
  · split at h
    · obtain ⟨a, read, h⟩ := Option.map_eq_some_iff.1 h
      cases h
      exact plain_of_hexChar? read hc
    · cases h

theorem plain_of_read {i : Item} (h : Item.read c rest = some (i, n)) :
    (∃ e more k, c = '\\' ∧ rest = e :: more ∧ n = k + 1 ∧ ∀ d ∈ more.take k, d ≠ '\\' ∧ d ≠ '[') ∨
      c ≠ '\\' ∧ n = 0 := by
  unfold Item.read at h
  split at h
  · rename_i escape
    cases rest with
    | nil => cases h
    | cons e more =>
      dsimp only at h
      split at h
      · obtain ⟨⟨a, k⟩, read, h⟩ := Option.map_eq_some_iff.1 h
        cases h
        exact .inl ⟨e, more, k, by simpa using escape, rfl, rfl, plain_of_readHex read⟩
      · obtain ⟨i, -, h⟩ := Option.map_eq_some_iff.1 h
        cases h
        exact .inl ⟨e, more, 0, by simpa using escape, rfl, rfl, by simp⟩
  · rename_i single
    cases h
    exact .inr ⟨by simpa using single, rfl⟩

theorem calm_of_read {b : Bool} {i : Item} (h : Item.read c rest = some (i, n))
    (calm : Calm b (c :: rest)) : Calm true (rest.drop n) := by
  obtain ⟨e, more, k, rfl, rfl, rfl, plain⟩ | ⟨unescaped, rfl⟩ := plain_of_read h
  · exact calm.behind_escape.bracketed.drop fun d hd => (plain d hd).1
  · exact calm.tail unescaped

theorem calm_outside_of_read {i : Item} (h : Item.read c rest = some (i, n))
    (closed : c ≠ '[') (calm : Calm false (c :: rest)) : Calm false (rest.drop n) := by
  obtain ⟨e, more, k, rfl, rfl, rfl, plain⟩ | ⟨unescaped, rfl⟩ := plain_of_read h
  · exact calm.behind_escape.drop_outside plain
  · exact (calm.tail_outside unescaped closed).2

theorem calm_of_readRange {s : CharSet} (h : OpenSet.readRange c rest = some (s, n))
    (calm : Calm true (c :: rest)) : Calm true (rest.drop n) := by
  obtain ⟨⟨first, k⟩, read, h⟩ := Option.bind_eq_some_iff.1 h
  have behind := calm_of_read read calm
  dsimp only at h
  split at h
  · rename_i d more split
    by_cases alone : (d == ']' || d == '-') = true
    · rw [if_pos alone] at h
      cases h; exact behind
    · rw [if_neg alone] at h
      obtain ⟨⟨last, m⟩, read', h⟩ := Option.bind_eq_some_iff.1 h
      rw [split] at behind
      have ended := calm_of_read read' (behind.tail (by decide))
      have same : rest.drop (k + 2 + m) = more.drop m := by
        rw [← List.drop_drop, ← List.drop_drop, split]; rfl
      dsimp only at h
      split at h
      · split at h
        · cases h; exact same ▸ ended
        · cases h
      · cases h
  · cases h; exact behind

/-- Neither a caret that comes first nor what stands behind it is a backslash, if the latter is not. -/
theorem plain_of_mark {k mark : Nat} (first : mark = if cs.head? == some '^' then 1 else 0)
    (plain : ∀ c ∈ (cs.drop mark).take k, c ≠ '\\') : ∀ c ∈ cs.take (mark + k), c ≠ '\\' := by
  intro c hc
  rw [List.take_add] at hc
  rcases List.mem_append.1 hc with hc | hc
  · cases cs with
    | nil => simp at hc
    | cons d cs =>
      split at first
      · subst first
        obtain rfl : d = '^' := by simp_all
        obtain rfl : c = '^' := by simpa using hc
        decide
      · simp [first] at hc
  · exact plain c hc

theorem plain_of_begin {inner : OpenSet} (h : OpenSet.begin cs = (inner, n)) :
    ∀ c ∈ cs.take n, c ≠ '\\' := by
  unfold OpenSet.begin at h
  obtain ⟨mark, first⟩ : ∃ mark, mark = if cs.head? == some '^' then 1 else 0 := ⟨_, rfl⟩
  dsimp only at h
  rw [← first] at h
  split at h
  · cases h
    refine plain_of_mark first fun c hc => ?_
    rw [take_takeWhile] at hc
    have := List.mem_takeWhile_imp hc
    rintro rfl; simp at this
  · split at h
    · rename_i close
      cases h
      refine plain_of_mark first fun c hc => ?_
      rintro rfl
      rw [List.take_one, Option.mem_toList] at hc
      simp_all
    · cases h
      exact @plain_of_mark cs 0 _ first (by simp)

theorem name_of_namedSet? {name : String} {s : CharSet} (h : namedSet? name = some s) :
    ∀ c ∈ name.toList, c ≠ '\\' := by
  suffices plain : name.toList.all (· != '\\') = true by simpa using plain
  unfold namedSet? at h
  dsimp only at h
  split at h
  all_goals first | decide | cases h

theorem plain_of_readNamedSet {s : CharSet} (h : readNamedSet cs = some (s, n)) :
    ∀ c ∈ cs.take n, c ≠ '\\' := by
  unfold readNamedSet at h
  obtain ⟨mark, first⟩ : ∃ mark, mark = if cs.head? == some '^' then 1 else 0 := ⟨_, rfl⟩
  have behind : (if (cs.head? == some '^') = true then cs.drop 1 else cs) = cs.drop mark := by
    rw [first]; split <;> rfl
  dsimp only at h
  rw [← first, behind, Nat.add_comm _ mark] at h
  split at h
  · rename_i ended
    obtain ⟨s, known, h⟩ := Option.map_eq_some_iff.1 h
    cases h
    rw [Nat.add_assoc]
    refine plain_of_mark first fun c hc => ?_
    rw [List.take_add, take_takeWhile, List.drop_drop] at hc
    rcases List.mem_append.1 hc with hc | hc
    · exact name_of_namedSet? known c (by simpa using hc)
    · rw [eq_of_beq ended] at hc
      rcases List.mem_cons.1 hc with rfl | hc
      · decide
      · obtain rfl := List.mem_singleton.1 hc
        decide
  · cases h

theorem blank_or_mem_trim (h : c ∈ cs) : isBlank c = true ∨ c ∈ trim cs := by
  rw [← List.takeWhile_append_dropWhile (p := isBlank) (l := cs)] at h
  rcases List.mem_append.1 h with h | h
  · exact .inl (List.mem_takeWhile_imp h)
  · rw [← List.mem_reverse, ← List.takeWhile_append_dropWhile (p := isBlank)
      (l := (cs.dropWhile isBlank).reverse)] at h
    rcases List.mem_append.1 h with h | h
    · exact .inl (List.mem_takeWhile_imp h)
    · exact .inr (by simpa [trim, trimEnd, trimStart] using h)

theorem figure_of_readCount {k : Nat} (h : readCount cs = some k) (hc : c ∈ cs) :
    isBlank c = true ∨ c.isDigit = true := by
  unfold readCount at h
  dsimp only at h
  split at h
  · cases h
  · rename_i digits
    rcases blank_or_mem_trim hc with blank | inside
    · exact .inl blank
    · have all : (trim cs).all Char.isDigit = true := by simp_all
      exact .inr (List.all_eq_true.1 all c inside)

theorem figure_of_readBounds {bounds : Nat × Option Nat} (h : readBounds cs = some bounds)
    (hc : c ∈ cs) : isBlank c = true ∨ c.isDigit = true ∨ c = ',' := by
  obtain ⟨low, counted, h⟩ := Option.bind_eq_some_iff.1 h
  rw [← List.takeWhile_append_dropWhile (p := (· != ',')) (l := cs)] at hc
  rcases List.mem_append.1 hc with hc | hc
  · exact (figure_of_readCount counted hc).imp_right .inl
  have comma := List.head?_dropWhile_not (· != ',') cs
  generalize cs.dropWhile (· != ',') = behind at h hc comma
  cases behind with
  | nil => simp at hc
  | cons d rest =>
    obtain rfl : d = ',' := by simpa using comma
    rcases List.mem_cons.1 hc with rfl | hc
    · exact .inr (.inr rfl)
    cases rest with
    | nil => simp at hc
    | cons e rest =>
      dsimp only at h
      split at h
      · rename_i empty
        rcases blank_or_mem_trim hc with blank | inside
        · exact .inl blank
        · simp_all
      · obtain ⟨high, counted, -⟩ := Option.bind_eq_some_iff.1 h
        exact (figure_of_readCount counted hc).imp_right .inl

theorem plain_of_readBounds {bounds : Nat × Option Nat} (h : readBounds cs = some bounds)
    (hc : c ∈ cs) : c ≠ '\\' ∧ c ≠ '[' := by
  rcases figure_of_readBounds h hc with blank | figure | rfl
  · constructor <;> (rintro rfl; revert blank; decide)
  · constructor <;> (rintro rfl; revert figure; decide)
  · decide

/-! ## Quiet readers -/

/-- No bar stands outside brackets in what is left to be read. -/
def Quiet (r : Reader) (cs : List Char) : Prop := Calm (!r.brackets.isEmpty) cs

theorem Quiet.bracketed (h : r.Quiet cs) : Calm true cs := Calm.bracketed h

theorem Quiet.outside (outside : r.brackets = []) (h : r.Quiet cs) : Calm false cs := by
  simpa [Quiet, outside] using h

theorem quiet_of_outside (outside : r.brackets = []) (h : Calm false cs) : r.Quiet cs := by
  simpa [Quiet, outside] using h

theorem quiet_of_within (inside : r.brackets ≠ []) (h : Calm true cs) : r.Quiet cs := by
  have : r.brackets.isEmpty = false := by simpa using inside
  simpa [Quiet, this] using h

theorem quiet_of_stepClass {current : OpenSet} {outer : List OpenSet}
    (h : r.stepClass current outer c rest = some (n, r')) (calm : Calm true (c :: rest)) :
    r'.Quiet (rest.drop n) := by
  unfold stepClass at h
  split at h
  · split at h
    · cases h; exact quiet_of_outside rfl calm.behind_close
    · cases h; exact quiet_of_within (List.cons_ne_nil _ _) calm.behind_close.bracketed
  · have behind := calm.tail (by decide)
    split at h
    · rename_i s k named
      cases h
      refine quiet_of_within (List.cons_ne_nil _ _) (behind.drop fun c hc => ?_)
      split at named
      · cases rest with
        | nil => simp at hc
        | cons d rest =>
          obtain rfl : d = ':' := by simp_all
          rcases List.mem_cons.1 hc with rfl | hc
          · decide
          · exact plain_of_readNamedSet named c hc
      · cases named
    · cases h
      exact quiet_of_within (List.cons_ne_nil _ _) (behind.drop (plain_of_begin rfl))
  · cases h
    exact quiet_of_within (List.cons_ne_nil _ _) ((calm.tail (by decide)).tail (by decide))
  · cases h
    exact quiet_of_within (List.cons_ne_nil _ _) ((calm.tail (by decide)).tail (by decide))
  · cases h
    exact quiet_of_within (List.cons_ne_nil _ _) ((calm.tail (by decide)).tail (by decide))
  · obtain ⟨⟨s, n⟩, read, h⟩ := Option.map_eq_some_iff.1 h
    cases h
    exact quiet_of_within (List.cons_ne_nil _ _) (calm_of_readRange read calm)

theorem quiet_of_quantify {f : Bool → Regex → Regex} {k : Nat} (outside : r.brackets = [])
    (calm : Calm false (rest.drop k)) (h : r.quantify k rest f = some (n, r')) :
    r'.Quiet (rest.drop n) := by
  obtain ⟨g, given, h⟩ := Option.map_eq_some_iff.1 h
  simp only [Prod.mk.injEq] at h
  obtain ⟨rfl, rfl⟩ := h
  refine quiet_of_outside outside ?_
  split
  · rename_i mark
    rw [← List.drop_drop]
    refine calm.drop_outside fun c hc => ?_
    cases behind : rest.drop k with
    | nil => simp [behind] at hc
    | cons d more =>
      obtain rfl : d = '?' := by simpa [behind] using mark
      obtain rfl : c = '?' := by simpa [behind] using hc
      decide
  · exact calm

theorem quiet_of_stepPlain (outside : r.brackets = []) (h : r.stepPlain c rest = some (n, r'))
    (calm : Calm false (c :: rest)) : r'.Quiet (rest.drop n) := by
  have tail (plain : c ≠ '\\' ∧ c ≠ '[') : Calm false rest :=
    (calm.tail_outside plain.1 plain.2).2
  have quantified {f : Bool → Regex → Regex} (plain : c ≠ '\\' ∧ c ≠ '[')
      (h : r.quantify 0 rest f = some (n, r')) : r'.Quiet (rest.drop n) :=
    quiet_of_quantify (k := 0) outside (tail plain) h
  unfold stepPlain at h
  split at h
  · have behind := tail (by decide)
    split at h
    · cases h
      exact quiet_of_outside outside
        ((behind.tail_outside (by decide) (by decide)).2.tail_outside (by decide) (by decide)).2
    · cases h
    · cases h; exact quiet_of_outside outside behind
  · split at h
    · cases h
    · cases h; exact quiet_of_outside outside (tail (by decide))
  · cases h; exact quiet_of_outside outside (tail (by decide))
  · exact quantified (by decide) h
  · exact quantified (by decide) h
  · exact quantified (by decide) h
  · dsimp only at h
    split at h
    · obtain ⟨⟨low, high⟩, counted, h⟩ := Option.bind_eq_some_iff.1 h
      refine quiet_of_quantify outside ((tail (by decide)).drop_outside fun c hc => ?_) h
      rw [List.take_add, take_takeWhile, drop_takeWhile] at hc
      rcases List.mem_append.1 hc with hc | hc
      · exact plain_of_readBounds counted hc
      · have brace := List.head?_dropWhile_not (· != '}') rest
        rw [List.take_one, Option.mem_toList] at hc
        rw [hc] at brace
        obtain rfl : c = '}' := by simpa using brace
        decide
    · cases h
  · cases h
    exact quiet_of_within (List.cons_ne_nil _ _) ((calm.tail (by decide)).drop (plain_of_begin rfl))
  · cases h; exact quiet_of_outside outside (tail (by decide))
  · cases h
  · cases h
  · rename_i closed _ _ _
    obtain ⟨⟨i, n⟩, read, h⟩ := Option.map_eq_some_iff.1 h
    cases h
    exact quiet_of_outside outside (calm_outside_of_read read closed calm)

/-- One step leaves a quiet reader. -/
theorem quiet_step (h : r.step c rest = some (n, r')) (quiet : r.Quiet (c :: rest)) :
    r'.Quiet (rest.drop n) := by
  unfold step at h
  split at h
  · exact quiet_of_stepPlain ‹_› h (quiet.outside ‹_›)
  · exact quiet_of_stepClass h quiet.bracketed

theorem Quiet.not_bar (outside : r.brackets = []) (quiet : r.Quiet (c :: rest)) : c ≠ '|' := by
  rintro rfl
  exact (Calm.tail_outside (by decide) (by decide) (quiet.outside outside)).1 rfl

/-! ## The outermost group -/

/-- The outermost of the open groups. -/
def bottom (r : Reader) : OpenGroup := r.outer.getLastD r.group

/-- No bar has been read in the outermost group, and its items, last item first, end with `base`. -/
def Rests (base : List Regex) (r : Reader) : Prop := ∃ newer, r.bottom = ⟨none, newer ++ base⟩

/-- The outermost group ends with `base`, and a quantifier that comes next would not repeat the last
item of `base`. -/
def Founded (base : List Regex) (r : Reader) : Prop :=
  ∃ newer, r.bottom = ⟨none, newer ++ base⟩ ∧
    (r.outer = [] → r.brackets = [] → newer = [] → base = [])

variable {base : List Regex}

theorem Founded.rests (h : r.Founded base) : r.Rests base := by
  obtain ⟨newer, bottom, -⟩ := h
  exact ⟨newer, bottom⟩

/-- One more item of the innermost group puts `base` out of reach. -/
theorem founded_of_add {group : OpenGroup} {outer : List OpenGroup} {brackets : List OpenSet}
    (item : Regex) {newer : List Regex} (h : outer.getLastD group = ⟨none, newer ++ base⟩) :
    Founded base ⟨group.add item, outer, brackets⟩ := by
  cases outer with
  | nil =>
    refine ⟨item :: newer, ?_, fun _ _ h => absurd h (List.cons_ne_nil _ _)⟩
    simp only [List.getLastD_nil] at h
    simp [bottom, OpenGroup.add, h]
  | cons parent outer =>
    rw [List.getLastD_cons] at h
    exact ⟨newer, by rw [bottom, List.getLastD_cons, h],
      fun h => absurd h (List.cons_ne_nil _ _)⟩

/-- A step that neither reads a bar nor repeats the last item of `base` puts `base` out of reach. -/
theorem founded_of_step (step : Step r c r') (rests : r.Rests base)
    (bar : r.brackets = [] → c ≠ '|') (safe : isQuantifier c = true → r.Founded base) :
    r'.Founded base := by
  obtain ⟨newer, bottom⟩ := rests
  cases step with
  | within inside => exact ⟨newer, bottom, fun _ h => absurd h inside⟩
  | item => exact founded_of_add _ bottom
  | opened outside =>
    exact ⟨newer, by rw [Reader.bottom, List.getLastD_cons]; exact bottom,
      fun h => absurd h (List.cons_ne_nil _ _)⟩
  | @closed parent outer nested =>
    rw [Reader.bottom, nested, List.getLastD_cons] at bottom
    exact founded_of_add _ bottom
  | bar outside found => exact absurd found (bar outside)
  | @quantified f group outside found given =>
    obtain ⟨newer, bottom, reach⟩ := safe found
    cases outer : r.outer with
    | cons parent outer' =>
      rw [Reader.bottom, outer, List.getLastD_cons] at bottom
      exact ⟨newer, by rw [Reader.bottom, List.getLastD_cons, bottom],
        fun h => absurd h (List.cons_ne_nil _ _)⟩
    | nil =>
      simp only [Reader.bottom, outer, List.getLastD_nil] at bottom
      cases newer with
      | nil =>
        obtain rfl := reach outer outside rfl
        simp [OpenGroup.quantify, bottom] at given
      | cons last newer =>
        simp only [OpenGroup.quantify, bottom, List.cons_append, Option.some.injEq] at given
        subst given
        exact ⟨f last :: newer, by simp [Reader.bottom], by simp⟩

/-- Reading on, the items stay where they are. -/
theorem Founded.items_of_readRest {e : Regex} (founded : r.Founded base) (quiet : r.Quiet cs)
    (h : r.readRest cs = some e) : ∃ newer, e = OpenGroup.close ⟨none, newer ++ base⟩ := by
  fun_induction readRest r cs with
  | case1 r =>
    unfold finish at h
    split at h
    · rename_i outer
      cases h
      obtain ⟨newer, bottom, -⟩ := founded
      simp only [Reader.bottom, outer, List.getLastD_nil] at bottom
      exact ⟨newer, by rw [bottom]⟩
    · cases h
  | case2 => cases h
  | case3 r c rest n r' step ih =>
    exact ih (founded_of_step (step_of_step step) founded.rests (fun outside => quiet.not_bar outside)
      fun _ => founded) (quiet_step step quiet) h

end Reader

end Rowlang.Pattern
