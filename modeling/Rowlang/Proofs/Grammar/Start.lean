import Rowlang.Proofs.Grammar.Build

/-!
# The start of a grammar

Whatever the order in which the operations of building are used, the rule that a grammar begins with is a
named rule, with a body.

* `GrammarBuilder.Made` : the builders that come of the empty one;
* `GrammarBuilder.Lists` : what is listed under a name, or as defined, is a named rule;
* `Grammar.Built` : the grammars that can be built, whose start is named (`Grammar.Built.start_named`).
-/

namespace Rowlang

namespace GrammarBuilder

/-- The builders that come of the empty one by the operations of building. A sequence and a choice are combinations,
one after the other. -/
inductive Made : GrammarBuilder → Prop
  | empty : Made .empty
  | leaf {b} (made : Made b) (p : LeafPattern) : Made (b.leaf p).builder
  | combine {b} (made : Made b) (s : Shape) (inside : ∀ c ∈ s.parts, c < b.size) :
      Made (b.combine s inside).builder
  | reference {b} (made : Made b) (name : String) : Made (b.reference name).builder
  | define {b name body e} (made : Made b) (defines : b.define name body = .ok e) : Made e.builder
  | withComments {b} (made : Made b) (mode : CommentMode) : Made (b.withComments mode)

variable {b : GrammarBuilder}

/-- A rule is one of a name, defined or not. -/
def HasRule (b : GrammarBuilder) (id : Nat) : Prop := ∃ slot, b.slots[id]? = some slot ∧ slot.isRule = true

/-- What is listed under a name, or as defined, is a named rule. -/
structure Lists (b : GrammarBuilder) : Prop where
  names : ∀ entry ∈ b.names, b.HasRule entry.2
  order : ∀ id ∈ b.order, b.HasRule id

theorem HasRule.push {slot : Slot} {parts : ∀ c ∈ slot.parts, c < b.size} {id : Nat}
    (h : b.HasRule id) : (b.push slot parts).builder.HasRule id := by
  obtain ⟨found, place, isRule⟩ := h
  exact ⟨found, (grows_push parts).slots place, isRule⟩

theorem HasRule.bind {id body : Nat} {id' : Nat} (h : b.HasRule id') : (b.bind id body).HasRule id' := by
  obtain ⟨slot, place, isRule⟩ := h
  show ∃ slot, (b.slots.modify id _)[id']? = some slot ∧ _
  rw [Array.getElem?_modify, place]
  split
  · exact ⟨_, rfl, rfl⟩
  · exact ⟨slot, rfl, isRule⟩

theorem Lists.push {s : Slot} (h : b.Lists) (parts : ∀ c ∈ s.parts, c < b.size) :
    (b.push s parts).builder.Lists where
  names entry listed := (h.names entry listed).push
  order id listed := (h.order id listed).push

theorem Lists.leaf (h : b.Lists) (p : LeafPattern) : (b.leaf p).builder.Lists := by
  unfold GrammarBuilder.leaf
  split
  · exact h
  · have pushed := h.push (s := ⟨some p.name, some (.token b.leaves.length)⟩)
      (by simp [Slot.parts, Shape.parts])
    exact ⟨pushed.names, pushed.order⟩

theorem Lists.reference (h : b.Lists) (name : String) : (b.reference name).builder.Lists := by
  unfold GrammarBuilder.reference
  split
  · exact h
  · have pushed := h.push (s := ⟨some name, none⟩) (by simp [Slot.parts])
    refine ⟨fun entry listed => ?_, pushed.order⟩
    rcases List.mem_append.1 listed with listed | listed
    · exact pushed.names entry listed
    · obtain rfl := List.mem_singleton.1 listed
      exact ⟨⟨some name, none⟩, Array.getElem?_push_size, rfl⟩

theorem Lists.hasRule_reference (h : b.Lists) (name : String) :
    (b.reference name).builder.HasRule (b.reference name).id := by
  unfold GrammarBuilder.reference
  split
  · rename_i id known
    obtain ⟨l₁, l₂, listed, -⟩ := List.lookup_eq_some_iff.1 known
    exact h.names (name, id) (by simp [listed])
  · exact ⟨⟨some name, none⟩, Array.getElem?_push_size, rfl⟩

theorem Lists.define {name : String} {body : Nat} {e : Extension b} (h : b.Lists)
    (defines : b.define name body = .ok e) : e.builder.Lists := by
  unfold GrammarBuilder.define at defines
  split at defines
  · cases defines
  dsimp only at defines
  split at defines <;> cases defines
  refine ⟨fun entry listed => ((h.reference name).names entry listed).bind, fun id listed => ?_⟩
  rcases List.mem_append.1 listed with listed | listed
  · exact ((h.reference name).order id listed).bind
  · obtain rfl := List.mem_singleton.1 listed
    exact (h.hasRule_reference name).bind

/-- Every operation of building keeps to it. -/
theorem Made.lists (made : b.Made) : b.Lists := by
  induction made with
  | empty => exact ⟨by simp [GrammarBuilder.empty], by simp [GrammarBuilder.empty]⟩
  | leaf _ p ih => exact ih.leaf p
  | combine _ s inside ih => exact ih.push _
  | reference _ name ih => exact ih.reference name
  | define _ defines ih => exact ih.define defines
  | withComments _ mode ih => exact ⟨ih.names, ih.order⟩

theorem HasRule.named {start : Nat} {g : Grammar} (h : b.HasRule start) (built : b.buildFrom start = .ok g) :
    ∃ body, g.shape? g.start = some (.named body) := by
  obtain ⟨defined, lexicon, -, rfl⟩ := eq_assemble_of_buildFrom built
  obtain ⟨⟨name, shape⟩, place, isRule⟩ := h
  obtain ⟨s, rfl⟩ := exists_shape defined place
  obtain ⟨body, rfl⟩ := named_of_isRule isRule
  exact ⟨body, (slot_of_assemble place).1⟩

end GrammarBuilder

/-- The grammars that can be built. -/
inductive Grammar.Built : Grammar → Prop
  | build {b g} (made : GrammarBuilder.Made b) (h : b.build = .ok g) : Built g
  | buildStartingAt {b g name} (made : GrammarBuilder.Made b) (h : b.buildStartingAt name = .ok g) :
      Built g
  | withComments {g} (built : Built g) (mode : CommentMode) : Built (g.withComments mode)

/-- A grammar that is built begins with a named rule. -/
theorem Grammar.Built.start_named {g : Grammar} (built : g.Built) :
    ∃ body, g.shape? g.start = some (.named body) := by
  induction built with
  | @build b g made h =>
    unfold GrammarBuilder.build at h
    split at h
    · cases h
    · rename_i start later order
      exact (made.lists.order start (by simp [order])).named h
  | @buildStartingAt b g name made h =>
    unfold GrammarBuilder.buildStartingAt at h
    split at h
    · rename_i start known
      obtain ⟨l₁, l₂, listed, -⟩ := List.lookup_eq_some_iff.1 known
      exact (made.lists.names (name, start) (by simp [listed])).named h
    · cases h
  | withComments built mode ih => exact ih

/-! ## Grammars of definitions -/

namespace GrammarBuilder

variable {b : GrammarBuilder}

theorem Made.wrapped {l : Extension b} {s : Shape} (made : l.builder.Made)
    (h : ∀ c ∈ s.parts, c = l.id) : (Body.addTo.wrapped l s h).builder.Made :=
  made.combine s fun c hc => h c hc ▸ l.id_lt

theorem Made.joined {l : Extension b} {r : Extension l.builder} {s : Shape} (made : r.builder.Made)
    (h : ∀ c ∈ s.parts, c = l.id ∨ c = r.id) : (Body.addTo.joined l r s h).builder.Made := by
  refine made.combine s fun c hc => ?_
  rcases h c hc with rfl | rfl
  · exact Nat.lt_of_lt_of_le l.id_lt r.size_le
  · exact r.id_lt

/-- Bodies are added by the operations of building. -/
theorem Made.addTo (x : Body) {b : GrammarBuilder} (made : b.Made) : (x.addTo b).builder.Made := by
  induction x generalizing b with
  | literal text => exact made.leaf _
  | name n =>
    obtain ⟨lexical, rule⟩ := Body.addTo_name n b
    cases known : lexicalPatterns.lookup n with
    | some source =>
      rw [lexical source known]
      exact made.leaf _
    | none =>
      rw [rule known]
      exact made.reference n
  | seq x y ihx ihy | alt x y ihx ihy =>
    exact (ihy (ihx made)).joined (by simp [Shape.parts])
  | opt x ih | star x ih | plus x ih | guarded x ih =>
    exact (ih made).wrapped (by simp [Shape.parts])
  | ahead count => exact made.combine (.ahead count) (by simp [Shape.parts])

theorem Made.addDefinition {d : Definition} {b' : GrammarBuilder} (made : b.Made)
    (h : b.addDefinition d = .ok b') : b'.Made := by
  unfold GrammarBuilder.addDefinition at h
  dsimp only at h
  cases defines : (d.body.addTo b).builder.define d.name (d.body.addTo b).id with
  | error e =>
    rw [defines] at h
    cases h
  | ok e =>
    rw [defines] at h
    cases h
    exact (made.addTo d.body).define defines

theorem Made.foldlM {ds : List Definition} {b' : GrammarBuilder} (made : b.Made)
    (h : ds.foldlM GrammarBuilder.addDefinition b = .ok b') : b'.Made := by
  induction ds generalizing b with
  | nil =>
    cases h
    exact made
  | cons d ds ih =>
    rw [List.foldlM_cons] at h
    cases first : b.addDefinition d with
    | error e =>
      rw [first] at h
      cases h
    | ok b₁ =>
      rw [first] at h
      exact ih (made.addDefinition first) h

end GrammarBuilder

theorem Grammar.built_ofDefinitions {ds : List Definition} {g : Grammar}
    (h : Grammar.ofDefinitions ds = .ok g) : g.Built := by
  unfold ofDefinitions at h
  cases added : ds.foldlM GrammarBuilder.addDefinition .empty with
  | error e =>
    rw [added] at h
    cases h
  | ok b =>
    rw [added] at h
    exact .build (.foldlM .empty added) h

end Rowlang
