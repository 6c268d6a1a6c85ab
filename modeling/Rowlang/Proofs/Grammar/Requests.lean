import Mathlib.Data.List.Chain
import Mathlib.Data.List.Nodup
import Rowlang.Proofs.Grammar.Build

/-!
# What a builder is asked for

A builder is asked for one rule after the other, and each request names only rules that earlier requests have
returned. Whatever is asked for in whatever order, and whichever requests fail, the grammar that comes of it can
be used without checks: every number in it is one of a rule, and a leaf pattern, a name and a definition each
have one rule.

* `GrammarBuilder.Request`, `GrammarBuilder.answer` : the requests, and what they do;
* `GrammarBuilder.Dialogue` : the requests so far and what they have returned;
* `GrammarBuilder.Tidy` : what every request keeps up (`Tidy.advances`);
* `GrammarBuilder.Dialogue.Remembered` : the builder holds all that it has returned;
* `GrammarBuilder.Dialogue.Resolves` : what a grammar is to the dialogue that it comes of;
* `GrammarBuilder.Dialogue.resolves_of_build` : that holds of every grammar that is built.
-/

namespace Rowlang

/-- Whether a rule is made by joining others, so that it is neither a leaf nor bound to a name. -/
def Shape.isJoint : Shape → Bool
  | .token _ | .named _ => false
  | _ => true

theorem Shape.references_eq_parts {s : Shape} (other : ∀ body, s ≠ .named body) : s.references = s.parts := by
  cases s with
  | named body => exact absurd rfl (other body)
  | _ => rfl

namespace GrammarBuilder

/-! ## Requests -/

/-- What a builder can be asked for. -/
inductive Request where
  | literal (text : String)
  | pattern (name source : String)
  | lexical (name : String)
  | joint (s : Shape) (isJoint : s.isJoint = true)
  | sequence (items : List Nat)
  | choice (items : List Nat)
  | reference (name : String)
  | define (name : String) (body : Nat)
  /-- that comments be treated as `mode` says -/
  | comments (mode : CommentMode)

namespace Request

def uses : Request → List Nat
  | joint s _ => s.parts
  | sequence items | choice items => items
  | define _ body => [body]
  | _ => []

def leaf? : Request → Option LeafPattern
  | literal text => some (.literal text)
  | pattern name source => some (.regex name source)
  | lexical name => (lexicalPatterns.lookup name).map (.regex name)
  | _ => none

end Request

/-- What a builder returns to a request, and the builder behind it. -/
structure Answer (b : GrammarBuilder) where
  id? : Option Nat
  builder : GrammarBuilder
  size_le : b.size ≤ builder.size
  id_lt : ∀ id, id? = some id → id < builder.size

theorem Extension.lt_of_some {b : GrammarBuilder} (e : Extension b) (id : Nat) (returned : some e.id = some id) :
    id < e.builder.size :=
  Option.some.inj returned ▸ e.id_lt

theorem lt_of_none (b : GrammarBuilder) (id : Nat) (returned : none = some id) : id < b.size :=
  absurd returned (Option.some_ne_none id).symm

theorem size_le_self (b : GrammarBuilder) : b.size ≤ b.size := Nat.le_refl _

theorem size_le_withComments (b : GrammarBuilder) (mode : CommentMode) : b.size ≤ (b.withComments mode).size :=
  Nat.le_refl _

/-- The answer to a request for a rule. A request that fails leaves the builder as it is. -/
def Answer.ofExtension? {b : GrammarBuilder} : Option (Extension b) → Answer b
  | some e => ⟨some e.id, e.builder, e.size_le, e.lt_of_some⟩
  | none => ⟨none, b, b.size_le_self, b.lt_of_none⟩

/-- The answer to a request that names rules the builder has. -/
def answer (b : GrammarBuilder) (r : Request) (known : ∀ id ∈ r.uses, id < b.size) : Answer b :=
  match r, known with
  | .literal text, _ => .ofExtension? (some (b.literal text))
  | .pattern name source, _ => .ofExtension? (some (b.pattern name source))
  | .lexical name, _ => .ofExtension? (b.lexical name).toOption
  | .joint s _, known => .ofExtension? (some (b.combine s known))
  | .sequence items, known => .ofExtension? (b.sequence items known)
  | .choice items, known => .ofExtension? (b.choice items known)
  | .reference name, _ => .ofExtension? (some (b.reference name))
  | .define name body, _ => .ofExtension? (b.define name body).toOption
  | .comments mode, _ => ⟨none, b.withComments mode, b.size_le_withComments mode, lt_of_none _⟩

/-- The requests that a builder has been asked, with the rules that it has returned. -/
structure Dialogue where
  builder : GrammarBuilder
  log : List (Request × Option Nat)
  returned_lt : ∀ id, some id ∈ log.map (·.2) → id < builder.size

namespace Dialogue

def start : Dialogue := ⟨.empty, [], by simp⟩

/-- One more request, which names only rules that have been returned before. -/
def ask (d : Dialogue) (r : Request) (returned : ∀ id ∈ r.uses, some id ∈ d.log.map (·.2)) : Dialogue :=
  let a := d.builder.answer r fun id used => d.returned_lt id (returned id used)
  { builder := a.builder
    log := d.log ++ [(r, a.id?)]
    returned_lt := by
      intro id listed
      rw [List.map_append, List.mem_append] at listed
      rcases listed with listed | listed
      · exact Nat.lt_of_lt_of_le (d.returned_lt id listed) a.size_le
      · exact a.id_lt id (List.mem_singleton.1 listed).symm }

/-- The dialogues that come of the first by one request after the other. -/
inductive Held : Dialogue → Prop
  | start : Held start
  | ask {d} (held : Held d) (r : Request) (returned : ∀ id ∈ r.uses, some id ∈ d.log.map (·.2)) :
      Held (d.ask r returned)

end Dialogue

/-! ## What every request keeps up -/

/-- The tables of a builder are sound, and nothing is in them twice. -/
structure Tidy (b : GrammarBuilder) : Prop where
  sound : b.Sound
  leaves : (b.leaves.map (·.1)).Nodup
  token : ∀ {id k : Nat}, b.arena.shape? id = some (.token k) → ∃ p, b.leaves[k]? = some (p, id)
  references_lt : ∀ {id s}, b.arena.shape? id = some s → ∀ c ∈ s.references, c < b.size
  order : b.order.Nodup

/-- A builder grows by a rule and is as tidy as before. -/
structure Kept (b : GrammarBuilder) (e : Extension b) : Prop where
  tidy : e.builder.Tidy
  grows : b.Grows e.builder

theorem tidy_empty : empty.Tidy :=
  ⟨sound_empty, List.nodup_nil, by simp [arena, empty], by simp [arena, empty], List.nodup_nil⟩

variable {b : GrammarBuilder}

theorem Tidy.withComments (h : b.Tidy) (mode : CommentMode) : (b.withComments mode).Tidy :=
  ⟨⟨h.sound.leaf, h.sound.named, h.sound.rule, h.sound.order⟩, h.leaves, h.token, h.references_lt, h.order⟩

theorem Tidy.combine (h : b.Tidy) {s : Shape} (joint : s.isJoint = true) (inside : ∀ c ∈ s.parts, c < b.size) :
    b.Kept (b.combine s inside) := by
  have parts : ∀ c ∈ (⟨none, some s⟩ : Slot).parts, c < b.size := by simpa [Slot.parts] using inside
  have other : ∀ body, s ≠ .named body := by
    rintro body rfl
    cases joint
  refine ⟨⟨h.sound.push parts (isRule_combine other), h.leaves, fun {id k} found => ?_,
    fun {id s'} found c named => ?_, h.order⟩, grows_push parts⟩
  · rcases shape?_of_push parts found with old | same
    · exact h.token old
    · cases same
      cases joint
  · have size_le : b.size ≤ (b.push ⟨none, some s⟩ parts).builder.size := Extension.size_le _
    refine Nat.lt_of_lt_of_le ?_ size_le
    rcases shape?_of_push parts found with old | same
    · exact h.references_lt old c named
    · cases same
      exact inside c (Shape.references_eq_parts other ▸ named)

theorem Kept.combine {e : Extension b} (h : b.Kept e) {s : Shape} (joint : s.isJoint = true)
    (inside : ∀ c ∈ s.parts, c < e.builder.size) :
    let f := e.builder.combine s inside
    b.Kept ⟨f.builder, f.id, Nat.le_trans e.size_le f.size_le, f.id_lt⟩ :=
  have joined := h.tidy.combine joint inside
  ⟨joined.tidy, h.grows.trans joined.grows⟩

theorem Tidy.joinRight (h : b.Tidy) {join : Nat → Nat → Shape} {parts_join : ∀ l r, (join l r).parts = [l, r]}
    (joint : ∀ l r, (join l r).isJoint = true) {last : Nat} {hl : last < b.size} {earlier : List Nat}
    (inside : ∀ i ∈ earlier, i < b.size) : b.Kept (joinRight join parts_join b last hl earlier inside) := by
  induction earlier with
  | nil => exact ⟨h, .refl b⟩
  | cons i rest ih =>
    have later := ih fun j listed => inside j (List.mem_cons_of_mem _ listed)
    exact later.combine (joint i _) _

theorem nodup_keys_append {α β : Type} [DecidableEq α] {l : List (α × β)} {k : α} {v : β}
    (distinct : (l.map (·.1)).Nodup) (unknown : l.lookup k = none) : ((l ++ [(k, v)]).map (·.1)).Nodup := by
  have fresh : k ∉ l.map (·.1) := by
    intro listed
    obtain ⟨v', known⟩ := mem_keys_iff.1 listed
    cases known.symm.trans unknown
  rw [List.map_append]
  exact List.Nodup.append distinct (List.nodup_singleton k) (List.disjoint_singleton.2 fresh)

theorem Tidy.leaf (h : b.Tidy) (p : LeafPattern) :
    b.Kept (b.leaf p) ∧ (p, (b.leaf p).id) ∈ (b.leaf p).builder.leaves := by
  unfold GrammarBuilder.leaf
  split
  · rename_i id known
    obtain ⟨k, listed⟩ := exists_of_lookup known
    exact ⟨⟨h, .refl b⟩, List.mem_of_getElem? listed⟩
  · rename_i unknown
    have parts : ∀ c ∈ (⟨some p.name, some (.token b.leaves.length)⟩ : Slot).parts, c < b.size := by
      simp [Slot.parts, Shape.parts]
    refine ⟨⟨⟨h.sound.newLeaf rfl rfl rfl rfl, nodup_keys_append h.leaves unknown, fun {id k} found => ?_,
      fun {id s} found c named => ?_, h.order⟩,
      ⟨(grows_push parts).slots, List.prefix_append _ _, id, rfl⟩⟩, by simp⟩
    · change (b.slots.push _)[id]?.bind _ = _ at found
      rw [Array.getElem?_push] at found
      split at found
      · subst id
        cases found
        exact ⟨p, List.getElem?_concat_length⟩
      · obtain ⟨p', listed⟩ := h.token found
        exact ⟨p', List.getElem?_append_left (List.getElem?_eq_some_iff.1 listed).1 ▸ listed⟩
    · rcases shape?_of_push parts found with old | same
      · exact Nat.lt_of_lt_of_le (h.references_lt old c named) (Extension.size_le (b.push _ parts))
      · cases same
        cases named

theorem Tidy.reference (h : b.Tidy) (n : String) :
    b.Kept (b.reference n) ∧ (b.reference n).builder.names.lookup n = some (b.reference n).id := by
  unfold GrammarBuilder.reference
  split
  · exact ⟨⟨h, .refl b⟩, ‹_›⟩
  · rename_i unknown
    have parts : ∀ c ∈ (⟨some n, none⟩ : Slot).parts, c < b.size := by simp [Slot.parts]
    have old {id s} (found : (b.push _ parts).builder.arena.shape? id = some s) : b.arena.shape? id = some s :=
      (shape?_of_push parts found).resolve_right nofun
    refine ⟨⟨⟨h.sound.newName unknown rfl rfl rfl rfl, h.leaves, fun {id k} found => h.token (old found),
      fun {id s} found c named => ?_, h.order⟩,
      ⟨(grows_push parts).slots, List.prefix_refl _, lookup_append_of_some, rfl⟩⟩,
      lookup_append_of_none unknown⟩
    exact Nat.lt_of_lt_of_le (h.references_lt (old found) c named) (Extension.size_le (b.push _ parts))

theorem Tidy.bind (h : b.Tidy) {n : Option String} {id body : Nat} (unbound : b.slots[id]? = some ⟨n, none⟩)
    (inside : body < b.size) : (b.bind id body).Tidy where
  sound := h.sound.bind unbound
  leaves := h.leaves
  token {i k} found := by
    rw [shape?_bind unbound] at found
    split at found
    · cases found
    · exact h.token found
  references_lt {i s} found c named := by
    rw [size_bind]
    rw [shape?_bind unbound] at found
    split at found
    · cases found
      exact List.mem_singleton.1 named ▸ inside
    · exact h.references_lt found c named
  order := by
    have fresh : id ∉ b.order := by
      rw [h.sound.order, unbound]
      rintro ⟨name, body, ⟨⟩⟩
    exact List.Nodup.append h.order (List.nodup_singleton id) (List.disjoint_singleton.2 fresh)

theorem Tidy.define_eq (h : b.Tidy) {name : String} {body : Nat} {e : Extension b}
    (defines : b.define name body = .ok e) :
    let r := b.reference name
    r.builder.slots[r.id]? = some ⟨some name, none⟩ ∧ e.builder = r.builder.bind r.id body ∧ e.id = r.id := by
  intro r
  obtain ⟨kept, found⟩ := h.reference name
  obtain ⟨⟨_, shape⟩, place, rfl, -⟩ := kept.tidy.sound.named found
  unfold GrammarBuilder.define at defines
  split at defines
  · cases defines
  dsimp only at defines
  rw [place] at defines
  cases shape with
  | some s => cases defines
  | none =>
    cases defines
    exact ⟨place, rfl, rfl⟩

/-! ## One request -/

/-- The rule that has been defined, if a definition was asked for. -/
def defined? : Request × Option Nat → Option Nat
  | (.define .., id?) => id?
  | _ => none

/-- What a request does to a builder: it adds what is asked for, and takes nothing away. -/
structure Advances (b : GrammarBuilder) (r : Request) (id? : Option Nat) (b' : GrammarBuilder) : Prop where
  tidy : b'.Tidy
  leaves : b.leaves <+: b'.leaves
  leaf : ∀ {p id}, r.leaf? = some p → id? = some id → (p, id) ∈ b'.leaves
  bound : ∀ {id body : Nat} {name : Option String}, b.slots[id]? = some ⟨name, some (.named body)⟩ →
    b'.slots[id]? = some ⟨name, some (.named body)⟩
  order : b'.order = b.order ++ (defined? (r, id?)).toList
  define : ∀ {name : String} {body id : Nat}, r = .define name body → id? = some id →
    b'.slots[id]? = some ⟨some name, some (.named body)⟩

theorem Tidy.unchanged (h : b.Tidy) (r : Request) : b.Advances r none b :=
  ⟨h, List.prefix_refl _, nofun, id, by cases r <;> simp [defined?], nofun⟩

/-- A request for a rule that is not a definition. -/
theorem Kept.advances {e : Extension b} (h : b.Kept e) {r : Request}
    (leaf : ∀ p, r.leaf? = some p → (p, e.id) ∈ e.builder.leaves) (other : ∀ name body, r ≠ .define name body) :
    b.Advances r (some e.id) e.builder where
  tidy := h.tidy
  leaves := h.grows.leaves
  leaf asked returned := Option.some.inj returned ▸ leaf _ asked
  bound := h.grows.slots
  order := by
    rw [h.grows.order]
    cases r with
    | define name body => exact absurd rfl (other name body)
    | _ => simp [defined?]
  define asked := absurd asked (other _ _)

theorem Tidy.advances_define (h : b.Tidy) {name : String} {body : Nat} (inside : body < b.size) {e : Extension b}
    (defines : b.define name body = .ok e) : b.Advances (.define name body) (some e.id) e.builder := by
  obtain ⟨kept, -⟩ := h.reference name
  obtain ⟨unbound, behind, returned⟩ := h.define_eq defines
  have inside : body < (b.reference name).builder.size :=
    Nat.lt_of_lt_of_le inside (Extension.size_le (b.reference name))
  rw [behind, returned]
  refine ⟨kept.tidy.bind unbound inside, kept.grows.leaves, nofun, fun {id m body'} place => ?_, ?_, ?_⟩
  · have place := kept.grows.slots place
    rw [slots_bind, if_neg, place]
    rintro rfl
    cases place.symm.trans unbound
  · rw [show ((b.reference name).builder.bind _ body).order = _ ++ [_] from rfl, kept.grows.order]
    rfl
  · rintro _ _ _ ⟨⟩ ⟨⟩
    rw [slots_bind, if_pos rfl, unbound]
    rfl

theorem Tidy.attempt (h : b.Tidy) {r : Request} {e? : Option (Extension b)}
    (given : ∀ e, e? = some e → b.Advances r (some e.id) e.builder) :
    b.Advances r (Answer.ofExtension? e?).id? (Answer.ofExtension? e?).builder := by
  cases e? with
  | none => exact h.unchanged r
  | some e => exact given e rfl

theorem Tidy.advances_leaf (h : b.Tidy) {r : Request} {p : LeafPattern} (asked : r.leaf? = some p)
    (other : ∀ name body, r ≠ .define name body) : b.Advances r (some (b.leaf p).id) (b.leaf p).builder := by
  obtain ⟨kept, listed⟩ := h.leaf p
  refine kept.advances (fun q same => ?_) other
  cases asked.symm.trans same
  exact listed

/-- **Every request** keeps up what holds of a builder. -/
theorem Tidy.advances (h : b.Tidy) (r : Request) (known : ∀ id ∈ r.uses, id < b.size) :
    b.Advances r (b.answer r known).id? (b.answer r known).builder := by
  cases r with
  | literal text => exact h.advances_leaf rfl nofun
  | pattern name source => exact h.advances_leaf rfl nofun
  | lexical name =>
    refine h.attempt fun e given => ?_
    unfold GrammarBuilder.lexical at given
    split at given <;> cases given
    exact h.advances_leaf (by simp [Request.leaf?, *]) nofun
  | joint s joint => exact (h.combine joint known).advances nofun nofun
  | sequence items =>
    refine h.attempt fun e given => ?_
    unfold GrammarBuilder.sequence at given
    split at given <;> cases given
    exact (h.joinRight (fun _ _ => rfl) _).advances nofun nofun
  | choice items =>
    refine h.attempt fun e given => ?_
    unfold GrammarBuilder.choice at given
    split at given <;> cases given
    exact (h.joinRight (fun _ _ => rfl) _).advances nofun nofun
  | reference name => exact (h.reference name).1.advances nofun nofun
  | define name body =>
    refine h.attempt fun e given => ?_
    cases result : b.define name body with
    | error e' =>
      rw [result] at given
      cases given
    | ok e' =>
      rw [result] at given
      cases given
      exact h.advances_define (known body (List.mem_singleton_self body)) result
  | comments mode =>
    exact ⟨h.withComments mode, List.prefix_refl _, nofun, id, (List.append_nil b.order).symm, nofun⟩

/-! ## Dialogues -/

namespace Dialogue

/-- The builder holds all that it has returned. -/
structure Remembered (d : Dialogue) : Prop where
  tidy : d.builder.Tidy
  leaf : ∀ {r p id}, (r, some id) ∈ d.log → r.leaf? = some p → (p, id) ∈ d.builder.leaves
  define : ∀ {name : String} {body id : Nat}, (.define name body, some id) ∈ d.log →
    d.builder.slots[id]? = some ⟨some name, some (.named body)⟩
  order : d.builder.order = d.log.filterMap defined?

theorem Remembered.ask {d : Dialogue} (h : d.Remembered) (r : Request)
    (returned : ∀ id ∈ r.uses, some id ∈ d.log.map (·.2)) : (d.ask r returned).Remembered := by
  have advances := h.tidy.advances r fun id used => d.returned_lt id (returned id used)
  refine ⟨advances.tidy, fun {r' p id} listed asked => ?_, fun {name body id} listed => ?_, ?_⟩
  · rcases List.mem_append.1 listed with old | new
    · exact advances.leaves.subset (h.leaf old asked)
    · obtain ⟨rfl, returned⟩ := Prod.mk.inj (List.mem_singleton.1 new)
      exact advances.leaf asked returned.symm
  · rcases List.mem_append.1 listed with old | new
    · exact advances.bound (h.define old)
    · obtain ⟨rfl, returned⟩ := Prod.mk.inj (List.mem_singleton.1 new)
      exact advances.define rfl returned.symm
  · refine advances.order.trans ?_
    rw [h.order, Dialogue.ask, List.filterMap_append, List.filterMap_cons, List.filterMap_nil]
    cases defined? (r, _) <;> rfl

theorem Held.remembered {d : Dialogue} (held : d.Held) : d.Remembered := by
  induction held with
  | start => exact ⟨tidy_empty, nofun, nofun, rfl⟩
  | ask _ r returned ih => exact ih.ask r returned

end Dialogue

end GrammarBuilder

/-! ## Grammars -/

namespace Grammar

/-- A rule refers to another one, as a part or as its body. -/
def Refers (g : Grammar) (id c : Nat) : Prop := ∃ s, g.shape? id = some s ∧ c ∈ s.references

/-- Only a named rule refers to one that does not stand before it. -/
theorem Refers.lt {g : Grammar} {id c : Nat} (h : g.Refers id c)
    (unnamed : ∀ body, g.shape? id ≠ some (.named body)) : c < id := by
  obtain ⟨s, shape, named⟩ := h
  have other : ∀ body, s ≠ .named body := by
    rintro body rfl
    exact unnamed body shape
  exact g.part_lt shape (Shape.references_eq_parts other ▸ named)

/-- A cycle of references passes through a named rule. -/
theorem exists_named_of_cycle {g : Grammar} {first : Nat} {rest : List Nat}
    (chain : (first :: rest).IsChain g.Refers) (closed : rest.getLast? = some first) :
    ∃ id ∈ first :: rest, ∃ body, g.shape? id = some (.named body) := by
  by_contra unnamed
  -- the numbers descend all the way round
  have descends : (first :: rest).IsChain (· > ·) :=
    chain.imp_of_mem_imp fun id c inside _ refers => refers.lt fun body named => unnamed ⟨id, inside, body, named⟩
  have below := (List.pairwise_cons.1 descends.pairwise).1
  exact Nat.lt_irrefl first (below first (List.mem_of_getLast? closed))

end Grammar

namespace GrammarBuilder

section
variable {b : GrammarBuilder}

theorem size_rules_assemble (b : GrammarBuilder) (lexicon : Lexicon) (start : Nat) :
    (b.assemble lexicon start).rules.size = b.size := by
  simp [assemble, rules, size]

theorem lt_size_of_mem_order (h : b.Sound) {id : Nat} (ordered : id ∈ b.order) : id < b.size := by
  obtain ⟨_, body, place⟩ := h.order.1 ordered
  exact (Array.getElem?_eq_some_iff.1 place).1

end

namespace Dialogue

/-- What a grammar is to the dialogue that it comes of. Its names are those of the builder. -/
structure Resolves (d : Dialogue) (g : Grammar) : Prop where
  references_lt : ∀ {id s}, g.shape? id = some s → ∀ c ∈ s.references, c < g.rules.size
  names_lt : ∀ entry ∈ d.builder.names, entry.2 < g.rules.size
  find?_eq : ∀ name, g.find? name = d.builder.names.lookup name
  order_lt : ∀ id ∈ g.order, id < g.rules.size
  start_lt : g.start < g.rules.size
  token_lt : ∀ {id k : Nat}, g.shape? id = some (.token k) → k < g.lexicon.size
  token_iff : ∀ {i j k l : Nat}, g.shape? i = some (.token k) → g.shape? j = some (.token l) →
    (k = l ↔ g.lexicon.patterns[k]? = g.lexicon.patterns[l]?)
  /-- the rule that is returned for a leaf pattern is its leaf -/
  leaf : ∀ {r p id}, (r, some id) ∈ d.log → r.leaf? = some p →
    ∃ k, g.shape? id = some (.token k) ∧ g.lexicon.patterns[k]? = some p
  /-- a name is bound to what it was defined as -/
  define : ∀ {name : String} {body id : Nat}, (.define name body, some id) ∈ d.log →
    g.name? id = some name ∧ g.find? name = some id ∧ g.shape? id = some (.named body)
  /-- the rules are listed in the order in which they were defined -/
  order_eq : g.order = d.log.filterMap defined?
  /-- a named rule was defined by one request, and is listed once -/
  named : ∀ {id body : Nat}, g.shape? id = some (.named body) →
    (∃ name, (.define name body, some id) ∈ d.log) ∧ (d.log.filterMap defined?).count id = 1 ∧
      g.order.count id = 1
  cycle : ∀ {first : Nat} {rest : List Nat}, (first :: rest).IsChain g.Refers → rest.getLast? = some first →
    ∃ id ∈ first :: rest, ∃ body, g.shape? id = some (.named body)

variable {d : Dialogue} {g : Grammar}

theorem exists_define {log : List (Request × Option Nat)} {id : Nat} (h : id ∈ log.filterMap defined?) :
    ∃ name body, (.define name body, some id) ∈ log := by
  obtain ⟨⟨r, id?⟩, listed, same⟩ := List.mem_filterMap.1 h
  cases r with
  | define name body =>
    cases same
    exact ⟨name, body, listed⟩
  | _ => cases same

theorem Remembered.resolves (h : d.Remembered) {start : Nat} (start_lt : start < d.builder.size)
    (built : d.builder.buildFrom start = .ok g) : d.Resolves g := by
  obtain ⟨defined, lexicon, prepared, rfl⟩ := eq_assemble_of_buildFrom built
  have patterns := patterns_of_ofPatterns? prepared
  have size := size_rules_assemble d.builder lexicon start
  have sound := h.tidy.sound
  have token_lt {id k : Nat} (shape : (d.builder.assemble lexicon start).shape? id = some (.token k)) :
      k < lexicon.patterns.length := by
    obtain ⟨p, listed⟩ := h.tidy.token (shape?_of_assemble defined shape)
    rw [patterns, List.length_map]
    exact (List.getElem?_eq_some_iff.1 listed).1
  refine {
    references_lt := fun shape c named => size ▸ h.tidy.references_lt (shape?_of_assemble defined shape) c named
    names_lt := fun entry listed => size ▸ d.builder.names_lt entry listed
    find?_eq := sound.find?_eq_lookup defined
    order_lt := fun id ordered => size ▸ lt_size_of_mem_order sound ordered
    start_lt := size ▸ start_lt
    token_lt := fun shape => Nat.lt_of_lt_of_eq (token_lt shape) (List.length_map _)
    token_iff := fun shape _ => (List.getElem?_inj (token_lt shape) (patterns ▸ h.tidy.leaves)).symm
    leaf := fun listed asked => ?_
    define := fun {name body id} listed => ?_
    order_eq := h.order
    named := fun {id body} shape => ?_
    cycle := Grammar.exists_named_of_cycle }
  · obtain ⟨k, place⟩ := List.mem_iff_getElem?.1 (h.leaf listed asked)
    refine ⟨k, (slot_of_assemble (sound.leaf place)).1, ?_⟩
    show lexicon.patterns[k]? = _
    rw [patterns, List.getElem?_map, place]
    rfl
  · have place := h.define listed
    obtain ⟨shape, name⟩ : (d.builder.assemble lexicon start).shape? id = _ ∧ _ := slot_of_assemble place
    have known := sound.lookup_of_name? (sound.order.2 ⟨_, body, place⟩) name
    exact ⟨name, (sound.find?_eq_lookup defined _).trans known, shape⟩
  · obtain ⟨⟨name, _⟩, place, rfl⟩ := Option.bind_eq_some_iff.1 (shape?_of_assemble defined shape)
    have ordered : id ∈ d.builder.order := sound.order.2 ⟨name, body, place⟩
    have once : d.builder.order.count id = 1 := List.count_eq_one_of_mem h.tidy.order ordered
    obtain ⟨name', body', listed⟩ := exists_define (h.order ▸ ordered)
    cases place.symm.trans (h.define listed)
    exact ⟨⟨name', listed⟩, h.order ▸ once, once⟩

/-- **What is built can be used without checks**, whatever the builder has been asked for, in whatever order, and
whichever requests have failed. The rules that are referred to, named, listed and begun with are rules of the
grammar. The leaves have patterns of its lexicon, the same if these are equal. A named rule was defined by one
request and is listed once, and every cycle of references passes through a named rule. -/
theorem resolves_of_build (held : d.Held)
    (built : d.builder.build = .ok g ∨ ∃ name, d.builder.buildStartingAt name = .ok g) : d.Resolves g := by
  have remembered := held.remembered
  rcases built with built | ⟨name, built⟩
  · unfold build at built
    split at built
    · cases built
    · rename_i start later ordered
      have inside := lt_size_of_mem_order remembered.tidy.sound (ordered ▸ List.mem_cons_self)
      exact remembered.resolves inside built
  · unfold buildStartingAt at built
    split at built
    · rename_i start known
      obtain ⟨k, listed⟩ := exists_of_lookup known
      exact remembered.resolves (d.builder.names_lt _ (List.mem_of_getElem? listed)) built
    · cases built

/-- Integers with `+` between them, asked for out of order and with requests that fail among the others. -/
def sums : Dialogue :=
  start
    |>.ask (.reference "Sum") nofun
    |>.ask (.literal "+") nofun
    |>.ask (.lexical "Word") nofun
    |>.ask (.lexical "Integer") nofun
    |>.ask (.literal "+") nofun
    |>.ask (.sequence [1, 0]) (by decide +kernel)
    |>.ask (.joint (.opt 3) rfl) (by decide +kernel)
    |>.ask (.sequence []) nofun
    |>.ask (.sequence [2, 4]) (by decide +kernel)
    |>.ask (.define "Integer" 5) (by decide +kernel)
    |>.ask (.define "Sum" 5) (by decide +kernel)
    |>.ask (.define "Sum" 2) (by decide +kernel)

/-- What is returned to the requests, none to those that fail, and the grammar of them. -/
theorem resolves_of_build_sums :
    sums.log.map (·.2) =
        [some 0, some 1, none, some 2, some 1, some 3, some 4, none, some 5, none, some 0, none] ∧
      ∃ g, sums.builder.build = .ok g ∧ sums.Resolves g := by
  have held : sums.Held := by
    iterate 12 refine .ask ?_ _ _
    exact .start
  have builds : sums.builder.build.toOption.isSome = true := by decide +kernel
  have built := eq_ok_get builds
  exact ⟨by decide +kernel, _, built, resolves_of_build held (.inl built)⟩

end Dialogue

end GrammarBuilder

end Rowlang
