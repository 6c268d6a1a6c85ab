import Rowlang.Proofs.Grammar.Arena
import Rowlang.Proofs.Lexing.Choice

/-!
# The grammar of a list of definitions

* `GrammarBuilder.Records` : what a builder holds once some definitions have been added, which each
  definition keeps (`Records.addDefinition`);
* `Grammar.Compiles` : a grammar has one rule to each definition, in order, that stands for its body;
* `Definition.Wellnamed` : names are distinct, none of them that of a lexical pattern, and every name
  in a body is one of them;
* `Grammar.ofDefinitions_cases` : definitions that are named well are compiled, unless a repetition can go
  on without consuming anything, and no others are.
-/

namespace Rowlang

theorem isLexical_eq_false_iff {n : String} :
    isLexical n = false ↔ lexicalPatterns.lookup n = none := by
  rw [isLexical, List.any_eq_false, List.lookup_eq_none_iff]
  refine forall₂_congr fun p _ => ?_
  rw [bne_iff_ne, beq_iff_eq, ne_comm]

namespace GrammarBuilder

variable {b : GrammarBuilder} {ds : List Definition} {id body : Nat}

/-! ## Binding a name -/

theorem slots_bind {i : Nat} : (b.bind id body).slots[i]? =
    if id = i then b.slots[i]?.map fun s => { s with shape := some (.named body) } else b.slots[i]? :=
  Array.getElem?_modify

section
variable {n : Option String} (unbound : b.slots[id]? = some ⟨n, none⟩)
include unbound

theorem shape?_bind {i : Nat} : (b.bind id body).arena.shape? i =
    if id = i then some (.named body) else b.arena.shape? i := by
  change (b.bind id body).slots[i]?.bind _ = _
  rw [slots_bind]
  split
  · subst i
    rw [unbound]
    rfl
  · rfl

/-- Binding a name that is not bound keeps what the table says. -/
theorem within_bind : b.arena.Within (b.bind id body).arena := by
  refine ⟨fun {i s} found => ?_, fun found => found, fun found => found⟩
  rw [shape?_bind unbound, if_neg]
  · exact found
  · rintro rfl
    change b.slots[id]?.bind _ = _ at found
    rw [unbound] at found
    cases found

theorem Sound.bind (h : b.Sound) : (b.bind id body).Sound where
  leaf := by
    intro k p i listed
    have place := h.leaf listed
    rw [slots_bind, if_neg, place]
    rintro rfl
    cases place.symm.trans unbound
  named := by
    intro m i listed
    obtain ⟨slot, place, name, isRule⟩ := h.named listed
    rw [slots_bind, place]
    split
    · exact ⟨_, rfl, name, rfl⟩
    · exact ⟨slot, rfl, name, isRule⟩
  rule := by
    intro i slot place isRule
    rw [slots_bind] at place
    split at place
    · subst i
      exact h.rule unbound rfl
    · exact h.rule place isRule
  order := by
    intro i
    change i ∈ b.order ++ [id] ↔ _
    rw [List.mem_append, List.mem_singleton, h.order]
    simp only [slots_bind]
    by_cases same : id = i
    · subst i
      simp [unbound]
    · simp [same, Ne.symm same]

end

/-! ## Definitions, one after the other -/

/-- What the builder holds when the definitions have been added. -/
structure Records (b : GrammarBuilder) (ds : List Definition) : Prop where
  sound : b.Sound
  rules : List.Forall₂ (fun d id => b.names.lookup d.name = some id ∧
    ∃ body, b.arena.shape? id = some (.named body) ∧ b.arena.Unfolds d.body body) ds b.order
  leaves : b.leaves.map (·.1) = (ds.flatMap (·.body.leaves)).foldl noted []
  names : b.names.map (·.1) = (ds.flatMap fun d => d.body.mentions ++ [d.name]).foldl noted []
  repeats : ∀ {id s c}, b.arena.shape? id = some s → s.repeated? = some c →
    ∃ d ∈ ds, ∃ y ∈ d.body.repeated, b.arena.Unfolds y c

theorem records_empty : empty.Records [] :=
  ⟨sound_empty, .nil, rfl, rfl, by simp [arena, empty]⟩

theorem exists_of_forall₂_left {α β : Type} {R : α → β → Prop} {l : List α} {m : List β}
    (h : List.Forall₂ R l m) {x : α} (listed : x ∈ l) : ∃ y ∈ m, R x y := by
  induction h with
  | nil => cases listed
  | cons related _ ih =>
    rcases List.mem_cons.1 listed with rfl | listed
    · exact ⟨_, List.mem_cons_self, related⟩
    · obtain ⟨y, inside, related⟩ := ih listed
      exact ⟨y, List.mem_cons_of_mem _ inside, related⟩

/-- A slot of a name is not bound, or the name has been defined. -/
theorem Records.bound_iff (h : b.Records ds) {b' : GrammarBuilder} (sound : b'.Sound)
    (grows : b.Grows b') {name : String} (found : b'.names.lookup name = some id) :
    (name ∉ ds.map (·.name) ∧ b'.slots[id]? = some ⟨some name, none⟩) ∨
      name ∈ ds.map (·.name) ∧ ∃ body, b'.slots[id]? = some ⟨some name, some (.named body)⟩ := by
  obtain ⟨⟨_, shape⟩, place, rfl, isRule⟩ := sound.named found
  match shape, isRule with
  | none, _ =>
    refine .inl ⟨fun listed => ?_, place⟩
    obtain ⟨d, defined, rfl⟩ := List.mem_map.1 listed
    obtain ⟨id', -, known, body, bound, -⟩ := exists_of_forall₂_left h.rules defined
    cases found.symm.trans (grows.names known)
    have bound : b'.slots[id]?.bind _ = _ := grows.within.shape bound
    rw [place] at bound
    cases bound
  | some (.named body), _ =>
    refine .inr ⟨?_, body, place⟩
    have ordered : id ∈ b.order := grows.order ▸ sound.order.2 ⟨_, body, place⟩
    obtain ⟨d, listed, known, -⟩ := exists_of_forall₂_left h.rules.flip ordered
    obtain ⟨slot, place', name', -⟩ := sound.named (grows.names known)
    cases place.symm.trans place'
    cases name'
    exact List.mem_map_of_mem listed

/-- A definition whose name is not reserved is bound to the rule of its body, if it is not bound yet. -/
theorem addDefinition_eq {d : Definition} (unreserved : isLexical d.name = false) :
    b.addDefinition d =
      let e := d.body.addTo b
      let r := e.builder.reference d.name
      match r.builder.slots[r.id]? with
      | some ⟨_, some _⟩ => .error (.duplicateRule d.name)
      | _ => .ok (r.builder.bind r.id e.id) := by
  unfold GrammarBuilder.addDefinition GrammarBuilder.define
  dsimp only
  rw [if_neg (by simp [unreserved])]
  rcases ((d.body.addTo b).builder.reference d.name).builder.slots[
    ((d.body.addTo b).builder.reference d.name).id]? with _ | ⟨_, _ | _⟩ <;> rfl

/-- **A definition is added**, unless its name is reserved or taken. -/
theorem Records.addDefinition (h : b.Records ds) (d : Definition) :
    ((∃ e, b.addDefinition d = .error e) ∧ (isLexical d.name = true ∨ d.name ∈ ds.map (·.name))) ∨
      (isLexical d.name = false ∧ d.name ∉ ds.map (·.name)) ∧
        ∃ b', b.addDefinition d = .ok b' ∧ b'.Records (ds ++ [d]) := by
  cases reserved : isLexical d.name with
  | true =>
    refine .inl ⟨⟨.reservedName d.name, ?_⟩, .inl rfl⟩
    unfold GrammarBuilder.addDefinition GrammarBuilder.define
    dsimp only
    rw [if_pos reserved]
    rfl
  | false =>
    rw [addDefinition_eq reserved]
    have adds := d.body.addTo_adds h.sound
    generalize d.body.addTo b = e at adds
    have refers := adds.sound.reference_adds (isLexical_eq_false_iff.1 reserved)
    dsimp only
    generalize e.builder.reference d.name = r at refers
    have grows := adds.grows.trans refers.grows
    have found : r.builder.names.lookup d.name = some r.id := by
      cases refers.unfolds with
      | lexical known => cases known.symm.trans (isLexical_eq_false_iff.1 reserved)
      | rule _ found => exact found
    rcases h.bound_iff refers.sound grows found with ⟨fresh, unbound⟩ | ⟨taken, body, place⟩
    · rw [unbound]
      refine .inr ⟨⟨rfl, fresh⟩, _, rfl, ?_⟩
      have within : r.builder.arena.Within (r.builder.bind r.id e.id).arena := within_bind unbound
      have stands := adds.unfolds.mono (refers.grows.within.trans within)
      refine ⟨refers.sound.bind unbound, ?_, ?_, ?_, fun {i s c} shape repeats => ?_⟩
      · change List.Forall₂ _ _ (r.builder.order ++ [r.id])
        rw [refers.grows.order, adds.grows.order]
        refine List.rel_append (h.rules.imp fun d' i => ?_) (.cons ?_ .nil)
        · rintro ⟨known, body, shape, inner⟩
          have within := grows.within.trans within
          exact ⟨grows.names known, body, within.shape shape, inner.mono within⟩
        · exact ⟨found, e.id, by rw [shape?_bind unbound, if_pos rfl], stands⟩
      · change r.builder.leaves.map _ = _
        rw [refers.leaves, adds.leaves, h.leaves]
        simp [Body.leaves, isLexical_eq_false_iff.1 reserved]
      · change r.builder.names.map _ = _
        rw [refers.names, adds.names, h.names]
        simp [Body.mentions, isLexical_eq_false_iff.1 reserved]
      · rw [shape?_bind unbound] at shape
        split at shape
        · cases shape
          cases repeats
        · rcases refers.repeats shape repeats with shape | ⟨y, listed, -⟩
          · rcases adds.repeats shape repeats with shape | ⟨y, listed, inner⟩
            · obtain ⟨d', listed, y, inside, inner⟩ := h.repeats shape repeats
              exact ⟨d', List.mem_append_left _ listed, y, inside,
                inner.mono (grows.within.trans within)⟩
            · exact ⟨d, by simp, y, listed, inner.mono (refers.grows.within.trans within)⟩
          · cases listed
    · rw [place]
      exact .inl ⟨⟨_, rfl⟩, .inr taken⟩

end GrammarBuilder

/-! ## Names -/

/-- Names are distinct, none of them that of a lexical pattern, and every name in a body is one of
them or that of a lexical pattern. There is at least one definition. -/
structure Definition.Wellnamed (ds : List Definition) : Prop where
  nonempty : ds ≠ []
  distinct : (ds.map (·.name)).Nodup
  unreserved : ∀ d ∈ ds, isLexical d.name = false
  closed : ∀ d ∈ ds, ∀ n ∈ d.body.mentions, n ∈ ds.map (·.name)

open GrammarBuilder in
/-- Definitions can be added if their names are distinct and none of them is reserved. -/
theorem GrammarBuilder.Records.foldlM {b : GrammarBuilder} {ds : List Definition}
    (h : b.Records ds) (distinct : (ds.map (·.name)).Nodup) (more : List Definition) :
    (∀ b', more.foldlM GrammarBuilder.addDefinition b = .ok b' → b'.Records (ds ++ more) ∧
      ((ds ++ more).map (·.name)).Nodup ∧ ∀ d ∈ more, isLexical d.name = false) ∧
    (((ds ++ more).map (·.name)).Nodup → (∀ d ∈ more, isLexical d.name = false) →
      ∃ b', more.foldlM GrammarBuilder.addDefinition b = .ok b') := by
  induction more generalizing b ds with
  | nil =>
    rw [List.append_nil]
    refine ⟨?_, fun _ _ => ⟨b, rfl⟩⟩
    rintro _ ⟨⟩
    exact ⟨h, distinct, by simp⟩
  | cons d more ih =>
    rw [List.foldlM_cons]
    rcases h.addDefinition d with ⟨⟨e, failed⟩, taken⟩ | ⟨⟨unreserved, fresh⟩, b₁, added, h₁⟩
    · rw [failed]
      refine ⟨by rintro _ ⟨⟩, fun apart unreserved => ?_⟩
      rcases taken with reserved | listed
      · rw [unreserved d List.mem_cons_self] at reserved
        cases reserved
      · rw [List.map_append, List.map_cons] at apart
        exact absurd rfl ((List.nodup_append.1 apart).2.2 _ listed _ List.mem_cons_self)
    · rw [added]
      have distinct : ((ds ++ [d]).map (·.name)).Nodup := by
        rw [List.map_append]
        exact List.nodup_append.2 ⟨distinct, by simp,
          by simpa using fun d' listed same => fresh (List.mem_map.2 ⟨d', listed, same⟩)⟩
      obtain ⟨sound, complete⟩ := ih h₁ distinct
      rw [List.append_assoc, List.singleton_append] at sound complete
      refine ⟨fun b' result => ?_, fun apart each => ?_⟩
      · obtain ⟨records, apart, each⟩ := sound b' result
        exact ⟨records, apart, List.forall_mem_cons.2 ⟨unreserved, each⟩⟩
      · exact complete apart (List.forall_mem_cons.1 each).2

/-! ## The finished grammar -/

namespace Grammar

def arena (g : Grammar) : Arena where
  shape? := g.shape?
  leaf? k := g.lexicon.patterns[k]?
  rule? := g.find?

/-- The grammar has one named rule to each definition, in order, that stands for its body, and begins
with the first. -/
structure Compiles (g : Grammar) (ds : List Definition) : Prop where
  rules : List.Forall₂ (fun d id => g.name? id = some d.name ∧ g.find? d.name = some id ∧
    ∃ body, g.shape? id = some (.named body) ∧ g.arena.Unfolds d.body body) ds g.order
  start : g.order.head? = some g.start
  patterns : Lexicon.ofPatterns? ((ds.flatMap (·.body.leaves)).foldl noted []) = some g.lexicon
  repeats : ∀ {id s c}, g.shape? id = some s → s.repeated? = some c →
    ∃ d ∈ ds, ∃ y ∈ d.body.repeated, g.arena.Unfolds y c

theorem Compiles.withComments {g : Grammar} {ds : List Definition} (h : g.Compiles ds)
    (mode : CommentMode) : (g.withComments mode).Compiles ds :=
  ⟨h.rules, h.start, h.patterns, h.repeats⟩

end Grammar

namespace GrammarBuilder
variable {b : GrammarBuilder} {ds : List Definition}

/-- All that has been referred to has been defined, if all that is mentioned has. -/
theorem Records.firstUndefined_iff (h : b.Records ds) : b.firstUndefined = none ↔
    ∀ d ∈ ds, ∀ n ∈ d.body.mentions, n ∈ ds.map (·.name) := by
  have listed (n : String) : n ∈ b.names.map (·.1) ↔
      (∃ d ∈ ds, n ∈ d.body.mentions) ∨ n ∈ ds.map (·.name) := by
    rw [h.names, mem_foldl_noted, List.mem_flatMap]
    simp only [List.not_mem_nil, List.mem_append, List.mem_singleton, false_or, List.mem_map]
    constructor
    · rintro ⟨d, listed, mentioned | rfl⟩
      · exact .inl ⟨d, listed, mentioned⟩
      · exact .inr ⟨d, listed, rfl⟩
    · rintro (⟨d, listed, mentioned⟩ | ⟨d, listed, rfl⟩)
      · exact ⟨d, listed, .inl mentioned⟩
      · exact ⟨d, listed, .inr rfl⟩
  rw [firstUndefined, List.find?_eq_none]
  constructor
  · intro defined d inside n mentioned
    obtain ⟨id, found⟩ := mem_keys_iff.1 ((listed n).2 (.inl ⟨d, inside, mentioned⟩))
    rcases h.bound_iff h.sound (.refl b) found with ⟨-, unbound⟩ | ⟨known, -⟩
    · exact absurd rfl (defined _ (Array.mem_toList_iff.2 (Array.mem_of_getElem? unbound)))
    · exact known
  · rintro closed ⟨name, shape⟩ inside isNone
    obtain rfl := Option.isNone_iff_eq_none.1 isNone
    obtain ⟨id, place⟩ := List.mem_iff_getElem?.1 inside
    rw [Array.getElem?_toList] at place
    obtain ⟨n, found⟩ := h.sound.rule place rfl
    rcases h.bound_iff h.sound (.refl b) found with ⟨fresh, -⟩ | ⟨-, body, bound⟩
    · rcases (listed n).1 (mem_keys_iff.2 ⟨id, found⟩) with ⟨d, inside, mentioned⟩ | known
      · exact fresh (closed d inside n mentioned)
      · exact fresh known
    · cases place.symm.trans bound

theorem prepares_leaves (x : Body) : ∀ p ∈ x.leaves, (Matcher.ofPattern? p).isSome = true := by
  have lexical : ∀ l ∈ lexicalPatterns, (Matcher.ofPattern? (.regex l.1 l.2)).isSome = true := by
    decide +kernel
  induction x with
  | literal text => simp [Body.leaves, Matcher.ofPattern?]
  | name n =>
    unfold Body.leaves
    split
    · rename_i source known
      obtain ⟨i, place⟩ := exists_of_lookup known
      simpa using lexical _ (List.mem_of_getElem? place)
    · simp
  | seq x y ihx ihy | alt x y ihx ihy =>
    exact fun p listed => (List.mem_append.1 listed).elim (ihx p) (ihy p)
  | opt x ih | star x ih | plus x ih | guarded x ih => exact ih
  | ahead count => simp [Body.leaves]

theorem patterns_of_ofPatterns? {patterns : List LeafPattern} {lexicon : Lexicon}
    (h : Lexicon.ofPatterns? patterns = some lexicon) : lexicon.patterns = patterns := by
  obtain ⟨matchers, made, rfl⟩ := Option.map_eq_some_iff.1 h
  show matchers.map (·.pattern) = patterns
  clear h
  induction patterns generalizing matchers with
  | nil =>
    cases made
    rfl
  | cons p patterns ih =>
    rw [List.mapM_cons] at made
    obtain ⟨first, prepared, made⟩ := Option.bind_eq_some_iff.1 made
    obtain ⟨later, made', together⟩ := Option.bind_eq_some_iff.1 made
    cases together
    rw [List.map_cons, Matcher.pattern_eq prepared, ih later made']

theorem exists_ofPatterns? {patterns : List LeafPattern}
    (each : ∀ p ∈ patterns, (Matcher.ofPattern? p).isSome = true) :
    ∃ lexicon, Lexicon.ofPatterns? patterns = some lexicon := by
  suffices ∃ matchers, patterns.mapM Matcher.ofPattern? = some matchers by
    obtain ⟨matchers, made⟩ := this
    exact ⟨⟨matchers⟩, by rw [Lexicon.ofPatterns?, made]; rfl⟩
  induction patterns with
  | nil => exact ⟨[], rfl⟩
  | cons p patterns ih =>
    obtain ⟨first, each⟩ := List.forall_mem_cons.1 each
    obtain ⟨m, made⟩ := Option.isSome_iff_exists.1 first
    obtain ⟨ms, later⟩ := ih each
    exact ⟨m :: ms, by rw [List.mapM_cons, made, later]; rfl⟩

theorem Records.exists_lexicon (h : b.Records ds) :
    ∃ lexicon, Lexicon.ofPatterns? (b.leaves.map (·.1)) = some lexicon := by
  refine exists_ofPatterns? fun p listed => ?_
  rw [h.leaves, mem_foldl_noted, List.mem_flatMap] at listed
  rcases listed with listed | ⟨d, -, listed⟩
  · cases listed
  · exact prepares_leaves d.body p listed

section
variable {lexicon : Lexicon} {start : Nat}

theorem slot_of_assemble {id : Nat} {slot : Slot} (place : b.slots[id]? = some slot) :
    (b.assemble lexicon start).shape? id = some (slot.shape.getD (.ahead 0)) ∧
      (b.assemble lexicon start).name? id = slot.name := by
  simp [Grammar.shape?, Grammar.name?, assemble, rules, place]

/-- Where nothing is undefined, every slot has a shape. -/
theorem exists_shape (defined : b.firstUndefined = none) {id : Nat} {slot : Slot}
    (place : b.slots[id]? = some slot) : ∃ s, slot.shape = some s := by
  rw [firstUndefined, List.find?_eq_none] at defined
  have given := defined slot (Array.mem_toList_iff.2 (Array.mem_of_getElem? place))
  exact Option.isSome_iff_exists.1 (by simpa [Option.isSome_iff_ne_none] using given)

theorem shape?_of_assemble (defined : b.firstUndefined = none) {id : Nat} {s : Shape}
    (h : (b.assemble lexicon start).shape? id = some s) : b.arena.shape? id = some s := by
  simp only [Grammar.shape?, assemble, rules, Array.getElem?_map, Option.map_map,
    Option.map_eq_some_iff] at h
  obtain ⟨⟨name, shape⟩, place, rfl⟩ := h
  obtain ⟨s, rfl⟩ := exists_shape defined place
  change b.slots[id]?.bind _ = _
  rw [place]
  rfl

theorem Sound.lookup_of_name? (h : b.Sound) {n : String} {id : Nat} (ordered : id ∈ b.order)
    (name : (b.assemble lexicon start).name? id = some n) : b.names.lookup n = some id := by
  obtain ⟨_, body, bound⟩ := h.order.1 ordered
  obtain ⟨m, known⟩ := h.rule bound rfl
  obtain ⟨slot, place, same, -⟩ := h.named known
  rw [(slot_of_assemble place).2, same] at name
  cases name
  exact known

theorem named_of_isRule {name : Option String} {s : Shape} (h : (⟨name, some s⟩ : Slot).isRule = true) :
    ∃ body, s = .named body := by
  cases s with
  | named body => exact ⟨body, rfl⟩
  | _ => cases h

/-- Where nothing is undefined, every name is that of a defined rule. -/
theorem Sound.mem_order_of_lookup (h : b.Sound) (defined : b.firstUndefined = none) {n : String} {id : Nat}
    (found : b.names.lookup n = some id) : id ∈ b.order := by
  obtain ⟨⟨name, shape⟩, place, -, isRule⟩ := h.named found
  obtain ⟨s, rfl⟩ := exists_shape defined place
  obtain ⟨body, rfl⟩ := named_of_isRule isRule
  exact h.order.2 ⟨name, body, place⟩

/-- The names of a grammar are those of the builder. -/
theorem Sound.find?_eq_lookup (h : b.Sound) (defined : b.firstUndefined = none) (n : String) :
    (b.assemble lexicon start).find? n = b.names.lookup n := by
  cases result : (b.assemble lexicon start).find? n with
  | some id =>
    have name := List.find?_some result
    exact (h.lookup_of_name? (List.mem_of_find?_eq_some result) (by simpa using name)).symm
  | none =>
    cases found : b.names.lookup n with
    | none => rfl
    | some id =>
      obtain ⟨slot, place, same, -⟩ := h.named found
      have other := List.find?_eq_none.1 result id (h.mem_order_of_lookup defined found)
      rw [(slot_of_assemble place).2, same] at other
      exact absurd (beq_self_eq_true _) other

/-- **A grammar is built** of what a builder holds, if all that it refers to has been defined. -/
theorem Records.compiles (h : b.Records ds) (defined : b.firstUndefined = none)
    (prepared : Lexicon.ofPatterns? (b.leaves.map (·.1)) = some lexicon) (first : b.order.head? = some start) :
    (b.assemble lexicon start).Compiles ds := by
  have names (n : String) : (b.assemble lexicon start).find? n = b.names.lookup n :=
    h.sound.find?_eq_lookup defined n
  have within : b.arena.Within (b.assemble lexicon start).arena := by
    refine ⟨fun {id s} found => ?_, fun {k p} found => ?_, fun found => (names _).trans found⟩
    · obtain ⟨slot, place, shape⟩ := Option.bind_eq_some_iff.1 found
      exact (slot_of_assemble place).1.trans (by rw [shape]; rfl)
    · change lexicon.patterns[k]? = _
      rw [patterns_of_ofPatterns? prepared, List.getElem?_map]
      exact found
  refine ⟨h.rules.imp fun d id => ?_, first, h.leaves ▸ prepared, fun shape repeats => ?_⟩
  · rintro ⟨found, body, shape, inner⟩
    obtain ⟨slot, place, same, -⟩ := h.sound.named found
    exact ⟨(slot_of_assemble place).2.trans same, (names d.name).trans found, body,
      within.shape shape, inner.mono within⟩
  · obtain ⟨d, listed, y, inside, inner⟩ := h.repeats (shape?_of_assemble defined shape) repeats
    exact ⟨d, listed, y, inside, inner.mono within⟩

end

/-- What is built is what the builder holds, where nothing is undefined. -/
theorem eq_assemble_of_buildFrom {start : Nat} {g : Grammar} (h : b.buildFrom start = .ok g) :
    b.firstUndefined = none ∧ ∃ lexicon, Lexicon.ofPatterns? (b.leaves.map (·.1)) = some lexicon ∧
      g = b.assemble lexicon start := by
  unfold buildFrom at h
  split at h
  · cases h
  rename_i defined
  split at h
  · cases h
  rename_i lexicon prepared
  dsimp only at h
  split at h <;> cases h
  exact ⟨defined, lexicon, prepared, rfl⟩

/-- What becomes of a builder depends on whether all that it refers to has been defined, and then on the
repetitions in it. -/
theorem Records.build_cases (h : b.Records ds) :
    ((∃ e, b.build = .error e) ∧
        ¬ (ds ≠ [] ∧ ∀ d ∈ ds, ∀ n ∈ d.body.mentions, n ∈ ds.map (·.name))) ∨
      (ds ≠ [] ∧ ∀ d ∈ ds, ∀ n ∈ d.body.mentions, n ∈ ds.map (·.name)) ∧
        ∃ g : Grammar, g.Compiles ds ∧ b.build = match firstEmptyRepetition g with
          | some id => .error (.nullableRepetition (g.describe id))
          | none => .ok g := by
  have rules := h.rules
  unfold build
  cases ordered : b.order with
  | nil =>
    rw [ordered] at rules
    cases rules
    exact .inl ⟨⟨_, rfl⟩, fun named => named.1 rfl⟩
  | cons start order =>
    dsimp only
    unfold buildFrom
    cases undefined : b.firstUndefined with
    | some slot =>
      refine .inl ⟨⟨_, rfl⟩, fun named => ?_⟩
      cases undefined.symm.trans (h.firstUndefined_iff.2 named.2)
    | none =>
      obtain ⟨lexicon, prepared⟩ := h.exists_lexicon
      rw [prepared]
      refine .inr ⟨⟨?_, h.firstUndefined_iff.1 undefined⟩, _,
        h.compiles undefined prepared (by rw [ordered]; rfl), rfl⟩
      rintro rfl
      rw [ordered] at rules
      cases rules

end GrammarBuilder

open GrammarBuilder in
/-- **Definitions that are named well are compiled**, unless a repetition can go on without consuming
anything. No others are. -/
theorem Grammar.ofDefinitions_cases (ds : List Definition) :
    ((∃ e, Grammar.ofDefinitions ds = .error e) ∧ ¬ Definition.Wellnamed ds) ∨
      Definition.Wellnamed ds ∧ ∃ g : Grammar, g.Compiles ds ∧
        Grammar.ofDefinitions ds = match firstEmptyRepetition g with
          | some id => .error (.nullableRepetition (g.describe id))
          | none => .ok g := by
  obtain ⟨sound, complete⟩ := records_empty.foldlM List.nodup_nil ds
  cases added : ds.foldlM GrammarBuilder.addDefinition .empty with
  | error e =>
    refine .inl ⟨⟨e, by rw [ofDefinitions, added]; rfl⟩, fun named => ?_⟩
    obtain ⟨b, done⟩ := complete named.distinct named.unreserved
    cases added.symm.trans done
  | ok b =>
    obtain ⟨records, distinct, unreserved⟩ := sound b added
    have result : Grammar.ofDefinitions ds = b.build := by
      rw [ofDefinitions, added]
      rfl
    rw [result]
    exact records.build_cases.imp
      (fun ⟨failed, unfit⟩ => ⟨failed, fun named => unfit ⟨named.nonempty, named.closed⟩⟩)
      fun ⟨⟨nonempty, closed⟩, built⟩ => ⟨⟨nonempty, distinct, unreserved, closed⟩, built⟩

/-- What definitions are put together to, without a look at the repetitions in it. -/
def Grammar.assembled? (ds : List Definition) : Option Grammar := do
  let b ← (ds.foldlM GrammarBuilder.addDefinition .empty).toOption
  let lexicon ← Lexicon.ofPatterns? (b.leaves.map (·.1))
  let start ← b.order.head?
  return b.assemble lexicon start

open GrammarBuilder in
theorem Grammar.assembled?_of_ofDefinitions {ds : List Definition} {g : Grammar}
    (h : Grammar.ofDefinitions ds = .ok g) : Grammar.assembled? ds = some g := by
  unfold Grammar.ofDefinitions at h
  unfold Grammar.assembled?
  cases added : ds.foldlM GrammarBuilder.addDefinition .empty with
  | error e =>
    rw [added] at h
    cases h
  | ok b =>
    rw [added] at h
    have built : b.build = .ok g := h
    unfold build at built
    split at built
    · cases built
    · rename_i start order first
      obtain ⟨-, lexicon, prepared, rfl⟩ := eq_assemble_of_buildFrom built
      simp [Except.toOption, prepared, first]

end Rowlang
