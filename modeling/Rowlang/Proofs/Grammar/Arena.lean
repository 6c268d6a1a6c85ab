import Mathlib.Data.List.Forall2
import Rowlang.Grammar.Definition

/-!
# The rules of a body

The table of rules that a list of definitions fills, and what can be read back from it.

* `Arena.Unfolds` : a rule stands for a body, down to its leaves and to the names in it;
* `GrammarBuilder.Sound` : what holds of the tables of a builder, however far it has come;
* `GrammarBuilder.Adds` : what adding a body does, which `Body.addTo_adds` proves of every body;
* `noted` : the leaf patterns and the names of a builder are those of the bodies, each at its first
  occurrence.
-/

namespace Rowlang

/-! ## Tables of rules -/

/-- What the numbers in a table of rules stand for. -/
structure Arena where
  shape? : Nat → Option Shape
  /-- the leaf pattern of a number -/
  leaf? : Nat → Option LeafPattern
  /-- the rule of a name -/
  rule? : String → Option Nat

namespace Arena

/-- The rule stands for the body: it is made as the body is, and so are its parts. -/
inductive Unfolds (a : Arena) : Body → Nat → Prop
  | literal {text id k} (shape : a.shape? id = some (.token k))
      (leaf : a.leaf? k = some (.literal text)) : Unfolds a (.literal text) id
  | lexical {n source id k} (known : lexicalPatterns.lookup n = some source)
      (shape : a.shape? id = some (.token k)) (leaf : a.leaf? k = some (.regex n source)) :
      Unfolds a (.name n) id
  | rule {n id} (other : lexicalPatterns.lookup n = none) (found : a.rule? n = some id) :
      Unfolds a (.name n) id
  | seq {x y id l r} (shape : a.shape? id = some (.seq l r)) (first : Unfolds a x l)
      (second : Unfolds a y r) : Unfolds a (.seq x y) id
  | alt {x y id l r} (shape : a.shape? id = some (.alt l r)) (first : Unfolds a x l)
      (second : Unfolds a y r) : Unfolds a (.alt x y) id
  | opt {x id c} (shape : a.shape? id = some (.opt c)) (inner : Unfolds a x c) :
      Unfolds a (.opt x) id
  | star {x id c} (shape : a.shape? id = some (.star c)) (inner : Unfolds a x c) :
      Unfolds a (.star x) id
  | plus {x id c} (shape : a.shape? id = some (.plus c)) (inner : Unfolds a x c) :
      Unfolds a (.plus x) id
  | ahead {count id} (shape : a.shape? id = some (.ahead count)) : Unfolds a (.ahead count) id
  | guarded {x id c} (shape : a.shape? id = some (.guarded c Body.unbounded))
      (inner : Unfolds a x c) : Unfolds a (.guarded x) id

/-- All that the first table says, the second says too. -/
structure Within (a a' : Arena) : Prop where
  shape : ∀ {id s}, a.shape? id = some s → a'.shape? id = some s
  leaf : ∀ {k p}, a.leaf? k = some p → a'.leaf? k = some p
  rule : ∀ {n id}, a.rule? n = some id → a'.rule? n = some id

theorem Within.trans {a a' a'' : Arena} (h : a.Within a') (h' : a'.Within a'') : a.Within a'' :=
  ⟨fun s => h'.shape (h.shape s), fun s => h'.leaf (h.leaf s), fun s => h'.rule (h.rule s)⟩

/-- A rule goes on to stand for its body while the table grows. -/
theorem Unfolds.mono {a a' : Arena} (within : a.Within a') {x : Body} {id : Nat}
    (h : a.Unfolds x id) : a'.Unfolds x id := by
  induction h with
  | literal shape leaf => exact .literal (within.shape shape) (within.leaf leaf)
  | lexical known shape leaf => exact .lexical known (within.shape shape) (within.leaf leaf)
  | rule other found => exact .rule other (within.rule found)
  | seq shape _ _ ihx ihy => exact .seq (within.shape shape) ihx ihy
  | alt shape _ _ ihx ihy => exact .alt (within.shape shape) ihx ihy
  | opt shape _ ih => exact .opt (within.shape shape) ih
  | star shape _ ih => exact .star (within.shape shape) ih
  | plus shape _ ih => exact .plus (within.shape shape) ih
  | ahead shape => exact .ahead (within.shape shape)
  | guarded shape _ ih => exact .guarded (within.shape shape) ih

end Arena

/-! ## First occurrences -/

/-- The list with an entry at its end, unless it is there already. -/
def noted {α : Type} [DecidableEq α] (seen : List α) (x : α) : List α :=
  if x ∈ seen then seen else seen ++ [x]

section
variable {α : Type} [DecidableEq α] {seen xs : List α} {x y : α}

theorem mem_noted : y ∈ noted seen x ↔ y ∈ seen ∨ y = x := by
  unfold noted
  split
  · refine ⟨.inl, ?_⟩
    rintro (listed | rfl)
    · exact listed
    · assumption
  · simp

theorem mem_foldl_noted : y ∈ xs.foldl noted seen ↔ y ∈ seen ∨ y ∈ xs := by
  induction xs generalizing seen with
  | nil => simp
  | cons x xs ih => rw [List.foldl_cons, ih, mem_noted, List.mem_cons, or_assoc]

end

namespace Body

def leaves : Body → List LeafPattern
  | .literal text => [.literal text]
  | .name n =>
    match lexicalPatterns.lookup n with
    | some source => [.regex n source]
    | none => []
  | .seq x y | .alt x y => x.leaves ++ y.leaves
  | .opt x | .star x | .plus x | .guarded x => x.leaves
  | .ahead _ => []

def mentions : Body → List String
  | .literal _ => []
  | .name n =>
    match lexicalPatterns.lookup n with
    | some _ => []
    | none => [n]
  | .seq x y | .alt x y => x.mentions ++ y.mentions
  | .opt x | .star x | .plus x | .guarded x => x.mentions
  | .ahead _ => []

def repeated : Body → List Body
  | .literal _ | .name _ | .ahead _ => []
  | .seq x y | .alt x y => x.repeated ++ y.repeated
  | .opt x | .guarded x => x.repeated
  | .star x | .plus x => x :: x.repeated

end Body

/-- What is repeated in a body, is repeated by a rule. -/
theorem Arena.Unfolds.repeated {a : Arena} {x y : Body} {id : Nat} (h : a.Unfolds x id)
    (listed : y ∈ x.repeated) :
    ∃ id s c, a.shape? id = some s ∧ s.repeated? = some c ∧ a.Unfolds y c := by
  induction h with
  | literal | lexical | rule | ahead => cases listed
  | seq _ _ _ ihx ihy | alt _ _ _ ihx ihy => exact (List.mem_append.1 listed).elim ihx ihy
  | opt _ _ ih | guarded _ _ ih => exact ih listed
  | star shape inner ih | plus shape inner ih =>
    rcases List.mem_cons.1 listed with rfl | listed
    · exact ⟨_, _, _, shape, rfl, inner⟩
    · exact ih listed

theorem Shape.mem_parts_of_repeated? {s : Shape} {c : Nat} (h : s.repeated? = some c) :
    c ∈ s.parts := by
  cases s <;> simp_all [Shape.repeated?, Shape.parts]

/-! ## Builders -/

/-- Whether the slot is one of a named rule, defined or not. -/
def Slot.isRule (s : Slot) : Bool :=
  match s.shape with
  | none | some (.named _) => true
  | _ => false

namespace GrammarBuilder

def arena (b : GrammarBuilder) : Arena where
  shape? id := b.slots[id]?.bind (·.shape)
  leaf? k := b.leaves[k]?.map (·.1)
  rule? n := b.names.lookup n

/-- The tables of a builder agree with each other. -/
structure Sound (b : GrammarBuilder) : Prop where
  leaf : ∀ {k : Nat} {p : LeafPattern} {id : Nat}, b.leaves[k]? = some (p, id) →
    b.slots[id]? = some ⟨some p.name, some (.token k)⟩
  named : ∀ {n : String} {id : Nat}, b.names.lookup n = some id →
    ∃ slot, b.slots[id]? = some slot ∧ slot.name = some n ∧ slot.isRule = true
  rule : ∀ {id : Nat} {slot : Slot}, b.slots[id]? = some slot → slot.isRule = true →
    ∃ n, b.names.lookup n = some id
  order : ∀ {id : Nat}, id ∈ b.order ↔ ∃ name body, b.slots[id]? = some ⟨name, some (.named body)⟩

/-- The second builder has all that the first has, and has defined nothing more. -/
structure Grows (b b' : GrammarBuilder) : Prop where
  slots : ∀ {id : Nat} {slot : Slot}, b.slots[id]? = some slot → b'.slots[id]? = some slot
  leaves : b.leaves <+: b'.leaves
  names : ∀ {n id}, b.names.lookup n = some id → b'.names.lookup n = some id
  order : b'.order = b.order

variable {b b' b'' : GrammarBuilder}

theorem Grows.refl (b : GrammarBuilder) : b.Grows b := ⟨id, List.prefix_refl _, id, rfl⟩

theorem Grows.trans (h : b.Grows b') (h' : b'.Grows b'') : b.Grows b'' :=
  ⟨fun s => h'.slots (h.slots s), h.leaves.trans h'.leaves, fun s => h'.names (h.names s),
    h'.order.trans h.order⟩

theorem Grows.within (h : b.Grows b') : b.arena.Within b'.arena where
  shape := by
    intro id s found
    obtain ⟨slot, found, shape⟩ := Option.bind_eq_some_iff.1 found
    exact Option.bind_eq_some_iff.2 ⟨slot, h.slots found, shape⟩
  leaf := by
    intro k p known
    obtain ⟨entry, found, same⟩ := Option.map_eq_some_iff.1 known
    obtain ⟨inside, rfl⟩ := List.getElem?_eq_some_iff.1 found
    exact Option.map_eq_some_iff.2 ⟨_, List.prefix_iff_getElem?.1 h.leaves k inside, same⟩
  rule := h.names

theorem sound_empty : empty.Sound := by
  constructor <;> simp [empty]

/-- Adding a body: what the builder is then, and what the rule stands for. -/
structure Adds (b : GrammarBuilder) (e : Extension b) (x : Body) : Prop where
  sound : e.builder.Sound
  grows : b.Grows e.builder
  unfolds : e.builder.arena.Unfolds x e.id
  leaves : e.builder.leaves.map (·.1) = x.leaves.foldl noted (b.leaves.map (·.1))
  names : e.builder.names.map (·.1) = x.mentions.foldl noted (b.names.map (·.1))
  repeats : ∀ {id s c}, e.builder.arena.shape? id = some s → s.repeated? = some c →
    b.arena.shape? id = some s ∨ ∃ y ∈ x.repeated, e.builder.arena.Unfolds y c

/-! ## One more rule -/

section
variable {slot : Slot} (parts : ∀ c ∈ slot.parts, c < b.size)
include parts

theorem slots_push : (b.push slot parts).builder.slots = b.slots.push slot := rfl

theorem shape?_push : (b.push slot parts).builder.arena.shape? (b.push slot parts).id = slot.shape := by
  change (b.slots.push slot)[b.slots.size]?.bind _ = _
  simp

theorem grows_push : b.Grows (b.push slot parts).builder where
  slots := by
    intro id slot' found
    have inside := (Array.getElem?_eq_some_iff.1 found).1
    rw [slots_push, Array.getElem?_push, if_neg (Nat.ne_of_lt inside), found]
  leaves := List.prefix_refl _
  names := id
  order := rfl

theorem shape?_of_push {id : Nat} {s : Shape}
    (h : (b.push slot parts).builder.arena.shape? id = some s) :
    b.arena.shape? id = some s ∨ slot.shape = some s := by
  change (b.slots.push slot)[id]?.bind _ = _ at h
  rw [Array.getElem?_push] at h
  split at h
  · exact .inr h
  · exact .inl h

theorem Sound.push (h : b.Sound) (other : slot.isRule = false) :
    (b.push slot parts).builder.Sound where
  leaf listed := (grows_push parts).slots (h.leaf listed)
  named listed := by
    obtain ⟨slot, found, rest⟩ := h.named listed
    exact ⟨slot, (grows_push parts).slots found, rest⟩
  rule := by
    intro id slot' found isRule
    rw [slots_push, Array.getElem?_push] at found
    split at found
    · cases found
      rw [other] at isRule
      cases isRule
    · exact h.rule found isRule
  order := by
    intro id
    change id ∈ b.order ↔ _
    rw [h.order]
    constructor
    · rintro ⟨name, body, found⟩
      exact ⟨name, body, (grows_push parts).slots found⟩
    · rintro ⟨name, body, found⟩
      rw [slots_push, Array.getElem?_push] at found
      split at found
      · cases found
        cases other
      · exact ⟨name, body, found⟩

end

theorem Sound.newLeaf (h : b.Sound) {p : LeafPattern}
    (slots : b'.slots = b.slots.push ⟨some p.name, some (.token b.leaves.length)⟩)
    (leaves : b'.leaves = b.leaves ++ [(p, b.size)]) (names : b'.names = b.names)
    (order : b'.order = b.order) : b'.Sound := by
  have parts : ∀ c ∈ (⟨some p.name, some (.token b.leaves.length)⟩ : Slot).parts, c < b.size := by
    simp [Slot.parts, Shape.parts]
  have pushed := h.push parts rfl
  refine ⟨fun {k q id} listed => ?_, fun {n id} => ?_, fun {id slot} => ?_, fun {id} => ?_⟩
  · rw [slots]
    rw [leaves, List.getElem?_append] at listed
    split at listed
    · exact (grows_push parts).slots (h.leaf listed)
    · rw [List.getElem?_singleton] at listed
      split at listed
      · cases listed
        obtain rfl : k = b.leaves.length := by omega
        exact Array.getElem?_push_size
      · cases listed
  · rw [names, slots]
    exact pushed.named
  · rw [names, slots]
    exact pushed.rule
  · rw [order, slots]
    exact pushed.order

theorem lookup_append_of_some {l l' : List (String × Nat)} {n : String} {id : Nat}
    (known : l.lookup n = some id) : (l ++ l').lookup n = some id := by
  rw [List.lookup_append, known]
  rfl

theorem lookup_append_of_none {l : List (String × Nat)} {n : String} {id : Nat}
    (unknown : l.lookup n = none) : (l ++ [(n, id)]).lookup n = some id := by
  rw [List.lookup_append, unknown]
  simp

theorem Sound.newName (h : b.Sound) {n : String} (unknown : b.names.lookup n = none)
    (slots : b'.slots = b.slots.push ⟨some n, none⟩) (leaves : b'.leaves = b.leaves)
    (names : b'.names = b.names ++ [(n, b.size)]) (order : b'.order = b.order) : b'.Sound := by
  have parts : ∀ c ∈ (⟨some n, none⟩ : Slot).parts, c < b.size := by simp [Slot.parts]
  have pushed := grows_push parts
  refine ⟨fun {k q id} listed => ?_, fun {m id} listed => ?_, fun {id slot} place isRule => ?_, fun {id} => ?_⟩
  · rw [slots]
    exact pushed.slots (h.leaf (leaves ▸ listed))
  · rw [slots]
    rw [names, List.lookup_append] at listed
    cases known : b.names.lookup m with
    | some id' =>
      rw [known] at listed
      cases listed
      obtain ⟨slot, found, rest⟩ := h.named known
      exact ⟨slot, pushed.slots found, rest⟩
    | none =>
      rw [known, Option.none_or, List.lookup_cons] at listed
      split at listed
      · cases listed
        obtain rfl : m = n := by simpa using ‹(m == n) = true›
        exact ⟨⟨some m, none⟩, Array.getElem?_push_size, rfl, rfl⟩
      · cases listed
  · rw [names]
    rw [slots, Array.getElem?_push] at place
    split at place
    · subst id
      exact ⟨n, lookup_append_of_none unknown⟩
    · obtain ⟨m, known⟩ := h.rule place isRule
      exact ⟨m, lookup_append_of_some known⟩
  · rw [order, h.order]
    simp only [slots, Array.getElem?_push]
    constructor
    · rintro ⟨name, body, place⟩
      have inside := (Array.getElem?_eq_some_iff.1 place).1
      exact ⟨name, body, by rw [if_neg (Nat.ne_of_lt inside), place]⟩
    · rintro ⟨name, body, place⟩
      split at place
      · cases place
      · exact ⟨name, body, place⟩

theorem exists_of_lookup {α β : Type} [DecidableEq α] {l : List (α × β)} {k : α} {v : β}
    (h : l.lookup k = some v) : ∃ i : Nat, l[i]? = some (k, v) := by
  obtain ⟨l₁, l₂, rfl, -⟩ := List.lookup_eq_some_iff.1 h
  exact List.mem_iff_getElem?.1 (by simp)

theorem mem_keys_iff {α β : Type} [DecidableEq α] {l : List (α × β)} {k : α} :
    k ∈ l.map (·.1) ↔ ∃ v, l.lookup k = some v := by
  rw [← Option.isSome_iff_exists, List.lookup_isSome_iff]
  simp only [List.mem_map, beq_iff_eq]
  exact ⟨fun ⟨p, listed, same⟩ => ⟨p, listed, same.symm⟩, fun ⟨p, listed, same⟩ => ⟨p, listed, same.symm⟩⟩

theorem Sound.leaf_adds (h : b.Sound) {p : LeafPattern} {x : Body} (leaves : x.leaves = [p])
    (mentions : x.mentions = [])
    (unfolds : ∀ {a : Arena} {id k}, a.shape? id = some (.token k) → a.leaf? k = some p →
      a.Unfolds x id) : b.Adds (b.leaf p) x := by
  unfold GrammarBuilder.leaf
  split
  · rename_i id known
    obtain ⟨k, listed⟩ := exists_of_lookup known
    refine ⟨h, .refl b, unfolds (k := k) ?_ ?_, ?_, by rw [mentions]; rfl, fun found _ => .inl found⟩
    · change b.slots[id]?.bind _ = _
      rw [h.leaf listed]
      rfl
    · change b.leaves[k]?.map _ = _
      rw [listed]
      rfl
    · rw [leaves, List.foldl_cons, List.foldl_nil, noted, if_pos (mem_keys_iff.2 ⟨id, known⟩)]
  · rename_i unknown
    have fresh : p ∉ b.leaves.map (·.1) := by
      intro listed
      obtain ⟨id, known⟩ := mem_keys_iff.1 listed
      cases known.symm.trans unknown
    have parts : ∀ c ∈ (⟨some p.name, some (.token b.leaves.length)⟩ : Slot).parts, c < b.size := by
      simp [Slot.parts, Shape.parts]
    refine ⟨h.newLeaf rfl rfl rfl rfl,
      ⟨(grows_push parts).slots, List.prefix_append _ _, id, rfl⟩,
      unfolds (k := b.leaves.length) (shape?_push parts) ?_, ?_, by rw [mentions]; rfl, ?_⟩
    · change (b.leaves ++ [(p, b.size)])[b.leaves.length]?.map _ = _
      simp
    · change (b.leaves ++ [(p, b.size)]).map _ = _
      rw [leaves, List.foldl_cons, List.foldl_nil, noted, if_neg fresh, List.map_append]
      rfl
    · intro id s c found repeated
      refine (shape?_of_push parts found).imp_right fun same => ?_
      cases same
      cases repeated

theorem Sound.reference_adds (h : b.Sound) {n : String} (other : lexicalPatterns.lookup n = none) :
    b.Adds (b.reference n) (.name n) := by
  have leaves : (Body.name n).leaves = [] := by rw [Body.leaves, other]
  have mentions : (Body.name n).mentions = [n] := by rw [Body.mentions, other]
  unfold reference
  split
  · rename_i id known
    refine ⟨h, .refl b, .rule other known, by rw [leaves]; rfl, ?_, fun found _ => .inl found⟩
    rw [mentions, List.foldl_cons, List.foldl_nil, noted, if_pos (mem_keys_iff.2 ⟨id, known⟩)]
  · rename_i unknown
    have fresh : n ∉ b.names.map (·.1) := by
      intro listed
      obtain ⟨id, known⟩ := mem_keys_iff.1 listed
      cases known.symm.trans unknown
    have parts : ∀ c ∈ (⟨some n, none⟩ : Slot).parts, c < b.size := by simp [Slot.parts]
    refine ⟨h.newName unknown rfl rfl rfl rfl,
      ⟨(grows_push parts).slots, List.prefix_refl _, lookup_append_of_some, rfl⟩,
      .rule other (lookup_append_of_none unknown), by rw [leaves]; rfl, ?_, ?_⟩
    · change (b.names ++ [(n, b.size)]).map _ = _
      rw [mentions, List.foldl_cons, List.foldl_nil, noted, if_neg fresh, List.map_append]
      rfl
    · intro id s c found repeated
      refine (shape?_of_push parts found).imp_right fun same => ?_
      cases same

/-! ## Bodies -/

section
variable {s : Shape}

theorem isRule_combine (other : ∀ body, s ≠ .named body) : (⟨none, some s⟩ : Slot).isRule = false := by
  unfold Slot.isRule
  split
  · rename_i same
    cases same
  · rename_i body same
    cases same
    exact absurd rfl (other body)
  · rfl

theorem Adds.wrapped {x y : Body} {l : Extension b} (h : b.Adds l x) (parts : ∀ c ∈ s.parts, c = l.id)
    (other : ∀ body, s ≠ .named body) (leaves : y.leaves = x.leaves)
    (mentions : y.mentions = x.mentions)
    (repeated : ∀ z ∈ x.repeated, z ∈ y.repeated) (itself : ∀ c, s.repeated? = some c → x ∈ y.repeated)
    (unfolds : ∀ {a : Arena} {id}, a.shape? id = some s → a.Unfolds x l.id → a.Unfolds y id) :
    b.Adds (Body.addTo.wrapped l s parts) y := by
  have inside : ∀ c ∈ (⟨none, some s⟩ : Slot).parts, c < l.builder.size :=
    fun c hc => parts c (by simpa [Slot.parts] using hc) ▸ l.id_lt
  have grows : l.builder.Grows (l.builder.push ⟨none, some s⟩ inside).builder := grows_push inside
  refine ⟨h.sound.push inside (isRule_combine other), h.grows.trans grows,
    unfolds (shape?_push inside) (h.unfolds.mono grows.within), leaves ▸ h.leaves,
    mentions ▸ h.names, fun {id s' c} found repeats => ?_⟩
  rcases shape?_of_push inside found with old | same
  · refine (h.repeats old repeats).imp_right ?_
    rintro ⟨z, listed, stands⟩
    exact ⟨z, repeated z listed, stands.mono grows.within⟩
  · cases same
    obtain rfl := parts c (Shape.mem_parts_of_repeated? repeats)
    exact .inr ⟨x, itself _ repeats, h.unfolds.mono grows.within⟩

theorem Adds.joined {x y z : Body} {l : Extension b} {r : Extension l.builder} (h : b.Adds l x)
    (h' : l.builder.Adds r y) (parts : ∀ c ∈ s.parts, c = l.id ∨ c = r.id)
    (other : ∀ body, s ≠ .named body) (leaves : z.leaves = x.leaves ++ y.leaves)
    (mentions : z.mentions = x.mentions ++ y.mentions)
    (repeated : z.repeated = x.repeated ++ y.repeated) (single : s.repeated? = none)
    (unfolds : ∀ {a : Arena} {id}, a.shape? id = some s → a.Unfolds x l.id → a.Unfolds y r.id →
      a.Unfolds z id) : b.Adds (Body.addTo.joined l r s parts) z := by
  have inside : ∀ c ∈ (⟨none, some s⟩ : Slot).parts, c < r.builder.size := by
    intro c hc
    rcases parts c (by simpa [Slot.parts] using hc) with rfl | rfl
    · exact Nat.lt_of_lt_of_le l.id_lt r.size_le
    · exact r.id_lt
  have grows : r.builder.Grows (r.builder.push ⟨none, some s⟩ inside).builder := grows_push inside
  refine ⟨h'.sound.push inside (isRule_combine other),
    h.grows.trans (h'.grows.trans grows), unfolds (shape?_push inside)
      (h.unfolds.mono (h'.grows.trans grows).within) (h'.unfolds.mono grows.within), ?_, ?_,
    fun {id s' c} found repeats => ?_⟩
  · rw [leaves, List.foldl_append, ← h.leaves]
    exact h'.leaves
  · rw [mentions, List.foldl_append, ← h.names]
    exact h'.names
  · rw [repeated]
    rcases shape?_of_push inside found with old | same
    · rcases h'.repeats old repeats with older | ⟨w, listed, stands⟩
      · refine (h.repeats older repeats).imp_right ?_
        rintro ⟨w, listed, stands⟩
        exact ⟨w, List.mem_append_left _ listed, stands.mono (h'.grows.trans grows).within⟩
      · exact .inr ⟨w, List.mem_append_right _ listed, stands.mono grows.within⟩
    · cases same
      cases single.symm.trans repeats

end

end GrammarBuilder

/-- A name adds the pattern of a lexical rule, or a reference to a rule. -/
theorem Body.addTo_name (n : String) (b : GrammarBuilder) :
    (∀ source, lexicalPatterns.lookup n = some source → (name n).addTo b = b.pattern n source) ∧
      (lexicalPatterns.lookup n = none → (name n).addTo b = b.reference n) := by
  have made : (name n).addTo b = match lexicalPatterns.lookup n with
    | some source => b.pattern n source
    | none => b.reference n := rfl
  exact ⟨fun source known => by rw [made, known], fun other => by rw [made, other]⟩

open GrammarBuilder in
/-- **Adding a body** makes a rule that stands for it. -/
theorem Body.addTo_adds (x : Body) {b : GrammarBuilder} (h : b.Sound) : b.Adds (x.addTo b) x := by
  induction x generalizing b with
  | literal text => exact h.leaf_adds rfl rfl .literal
  | name n =>
    obtain ⟨lexical, rule⟩ := Body.addTo_name n b
    cases known : lexicalPatterns.lookup n with
    | some source =>
      rw [lexical source known]
      exact h.leaf_adds (by rw [leaves, known]) (by rw [mentions, known]) (.lexical known)
    | none =>
      rw [rule known]
      exact h.reference_adds known
  | seq x y ihx ihy =>
    exact (ihx h).joined (ihy (ihx h).sound) (by simp [Shape.parts]) (by simp) rfl rfl rfl rfl .seq
  | alt x y ihx ihy =>
    exact (ihx h).joined (ihy (ihx h).sound) (by simp [Shape.parts]) (by simp) rfl rfl rfl rfl .alt
  | opt x ih => exact (ih h).wrapped (by simp [Shape.parts]) (by simp) rfl rfl (fun _ => id) nofun .opt
  | star x ih =>
    exact (ih h).wrapped (by simp [Shape.parts]) (by simp) rfl rfl
      (fun _ => List.mem_cons_of_mem _) (fun _ _ => List.mem_cons_self) .star
  | plus x ih =>
    exact (ih h).wrapped (by simp [Shape.parts]) (by simp) rfl rfl
      (fun _ => List.mem_cons_of_mem _) (fun _ _ => List.mem_cons_self) .plus
  | guarded x ih => exact (ih h).wrapped (by simp [Shape.parts]) (by simp) rfl rfl (fun _ => id) nofun .guarded
  | ahead count =>
    have parts : ∀ c ∈ (⟨none, some (.ahead count)⟩ : Slot).parts, c < b.size := by
      simp [Slot.parts, Shape.parts]
    refine ⟨h.push parts rfl, grows_push parts, .ahead (shape?_push parts), rfl, rfl, ?_⟩
    intro id s c found repeats
    refine (shape?_of_push parts found).imp_right fun same => ?_
    cases same
    cases repeats

end Rowlang
