import Rowlang.Proofs.Parsing.Soundness

/-!
# Definitions as a notation for languages

* `Body.Derives` : the words of a body, checks of what comes next being left out;
* `Grammar.realises`, `Grammar.Defines`, `Grammar.DefinesOnly` : a grammar has the rules that some
  definitions ask for, and no others;
* `Grammar.Builds.derives` : what such a grammar derives, the definitions derive.
-/

namespace Rowlang

/-- The words of a body, its names standing for the bodies that `rules` give them. `is` tells the
symbols of a leaf pattern. Checks of what comes next are left out. -/
inductive Body.Derives {τ : Type} (rules : List Definition) (is : LeafPattern → τ → Prop) :
    Body → List τ → Prop
  | literal {text t} (h : is (.literal text) t) : Derives rules is (.literal text) [t]
  | lexical {n source t} (known : lexicalPatterns.lookup n = some source)
      (h : is (.regex n source) t) : Derives rules is (.name n) [t]
  | rule {d w} (other : lexicalPatterns.lookup d.name = none) (defined : d ∈ rules)
      (inner : Derives rules is d.body w) : Derives rules is (.name d.name) w
  | seq {x y u v} (first : Derives rules is x u) (second : Derives rules is y v) :
      Derives rules is (.seq x y) (u ++ v)
  | altLeft {x y w} (chosen : Derives rules is x w) : Derives rules is (.alt x y) w
  | altRight {x y w} (chosen : Derives rules is y w) : Derives rules is (.alt x y) w
  | optNone {x} : Derives rules is (.opt x) []
  | optSome {x w} (given : Derives rules is x w) : Derives rules is (.opt x) w
  | star {x} {ws : List (List τ)} (each : ∀ w ∈ ws, Derives rules is x w) :
      Derives rules is (.star x) ws.flatten
  | plus {x} {ws : List (List τ)} (some_round : ws ≠ []) (each : ∀ w ∈ ws, Derives rules is x w) :
      Derives rules is (.plus x) ws.flatten
  | ahead {count} : Derives rules is (.ahead count) []
  | guarded {x w} (inner : Derives rules is x w) : Derives rules is (.guarded x) w

theorem Body.Derives.of_lexical {τ : Type} {rules : List Definition} {is : LeafPattern → τ → Prop}
    {n source : String} {w : List τ} (known : lexicalPatterns.lookup n = some source)
    (h : (Body.name n).Derives rules is w) : ∃ t, w = [t] ∧ is (.regex n source) t := by
  cases h with
  | lexical known' is =>
    cases known.symm.trans known'
    exact ⟨_, rfl, is⟩
  | rule other => cases known.symm.trans other

theorem Body.Derives.of_seq_opt {τ : Type} {rules : List Definition} {is : LeafPattern → τ → Prop}
    {x y : Body} {w : List τ} (h : (Body.seq x (.opt y)).Derives rules is w) :
    ∃ u v, w = u ++ v ∧ x.Derives rules is u ∧ (v = [] ∨ y.Derives rules is v) := by
  cases h with
  | seq first second =>
    refine ⟨_, _, rfl, first, ?_⟩
    cases second with
    | optNone => exact .inl rfl
    | optSome given => exact .inr given

namespace Grammar

/-- The token belongs to the leaf pattern. -/
def Is (g : Grammar) (leaf : LeafPattern) (t : Token) : Prop :=
  g.lexicon.patterns[t.pattern]? = some leaf

theorem Is.unique {g : Grammar} {a b : LeafPattern} {t : Token} (ha : g.Is a t) (hb : g.Is b t) :
    a = b :=
  Option.some.inj (ha.symm.trans hb)

/-- Whether the rule `id` is one token of the leaf pattern. -/
def isLeaf (g : Grammar) (leaf : LeafPattern) (id : Nat) : Bool :=
  match g.shape? id with
  | some (.token k) => g.lexicon.patterns[k]? == some leaf
  | _ => false

/-- Whether the rule `id` is made as the body says, the names in it being those of `rules`. -/
def realises (g : Grammar) (rules : List Definition) : Body → Nat → Bool
  | .literal text, id => g.isLeaf (.literal text) id
  | .name n, id =>
    match lexicalPatterns.lookup n with
    | some source => g.isLeaf (.regex n source) id
    | none => rules.any (·.name == n) && g.find? n == some id
  | .seq x y, id =>
    match g.shape? id with
    | some (.seq l r) => g.realises rules x l && g.realises rules y r
    | _ => false
  | .alt x y, id =>
    match g.shape? id with
    | some (.alt l r) => g.realises rules x l && g.realises rules y r
    | _ => false
  | .opt x, id =>
    match g.shape? id with
    | some (.opt c) => g.realises rules x c
    | _ => false
  | .star x, id =>
    match g.shape? id with
    | some (.star c) => g.realises rules x c
    | _ => false
  | .plus x, id =>
    match g.shape? id with
    | some (.plus c) => g.realises rules x c
    | _ => false
  | .ahead count, id => g.shape? id == some (.ahead count)
  | .guarded x, id =>
    match g.shape? id with
    | some (.guarded c _) => g.realises rules x c
    | _ => false

/-- Whether the named rule of a definition has the body it asks for. -/
def realisesDefinition (g : Grammar) (rules : List Definition) (d : Definition) : Bool :=
  match g.find? d.name with
  | some id =>
    match g.shape? id with
    | some (.named body) => g.ruleName id == d.name && g.realises rules d.body body
    | _ => false
  | none => false

/-- The grammar has the rules that the definitions ask for. -/
def Defines (g : Grammar) (rules : List Definition) : Prop :=
  ∀ d ∈ rules, g.realisesDefinition rules d = true

instance (g : Grammar) (rules : List Definition) : Decidable (g.Defines rules) :=
  inferInstanceAs (Decidable (∀ d ∈ rules, _))

/-- Whether the rule `id`, if it has a name, is that of a definition. -/
def isDefined (g : Grammar) (rules : List Definition) (id : Nat) : Bool :=
  match g.shape? id with
  | some (.named _) => rules.any fun d => g.find? d.name == some id
  | _ => true

/-- The grammar has no named rules but those of the definitions. -/
def DefinesOnly (g : Grammar) (rules : List Definition) : Prop :=
  ∀ id < g.rules.size, g.isDefined rules id = true

instance (g : Grammar) (rules : List Definition) : Decidable (g.DefinesOnly rules) :=
  inferInstanceAs (Decidable (∀ id < g.rules.size, _))

/-- How the rule `id` is made as a body asks. -/
inductive Made (g : Grammar) (rules : List Definition) (id : Nat) : Body → Shape → Prop
  | literal {text k} (leaf : g.lexicon.patterns[k]? = some (.literal text)) :
      Made g rules id (.literal text) (.token k)
  | lexical {n source k} (known : lexicalPatterns.lookup n = some source)
      (leaf : g.lexicon.patterns[k]? = some (.regex n source)) : Made g rules id (.name n) (.token k)
  | rule {d body} (other : lexicalPatterns.lookup d.name = none) (defined : d ∈ rules)
      (name : g.ruleName id = d.name) (inner : g.realises rules d.body body = true) :
      Made g rules id (.name d.name) (.named body)
  | seq {x y l r} (first : g.realises rules x l = true) (second : g.realises rules y r = true) :
      Made g rules id (.seq x y) (.seq l r)
  | alt {x y l r} (first : g.realises rules x l = true) (second : g.realises rules y r = true) :
      Made g rules id (.alt x y) (.alt l r)
  | opt {x c} (inner : g.realises rules x c = true) : Made g rules id (.opt x) (.opt c)
  | star {x c} (inner : g.realises rules x c = true) : Made g rules id (.star x) (.star c)
  | plus {x c} (inner : g.realises rules x c = true) : Made g rules id (.plus x) (.plus c)
  | ahead {count} : Made g rules id (.ahead count) (.ahead count)
  | guarded {x c count} (inner : g.realises rules x c = true) :
      Made g rules id (.guarded x) (.guarded c count)

section Realised
variable {g : Grammar} {rules : List Definition} {id : Nat}

theorem shape?_of_isLeaf {leaf : LeafPattern} (h : g.isLeaf leaf id = true) :
    ∃ k, g.shape? id = some (.token k) ∧ g.lexicon.patterns[k]? = some leaf := by
  unfold isLeaf at h
  split at h
  · exact ⟨_, ‹_›, by simpa using h⟩
  · cases h

theorem DefinesOnly.named (only : g.DefinesOnly rules) {body : Nat}
    (h : g.shape? id = some (.named body)) : ∃ d ∈ rules, g.find? d.name = some id := by
  have bound : id < g.rules.size := by
    simp only [shape?, Option.map_eq_some_iff] at h
    obtain ⟨r, hr, -⟩ := h
    exact (Array.getElem?_eq_some_iff.1 hr).1
  have defined := only id bound
  rw [isDefined, h] at defined
  simpa using defined

theorem find?_of_realises {name : String} (other : lexicalPatterns.lookup name = none)
    (h : g.realises rules (.name name) id = true) : g.find? name = some id := by
  simp only [realises, other, Bool.and_eq_true, beq_iff_eq] at h
  exact h.2

theorem realises_of_find? {d : Definition} (other : lexicalPatterns.lookup d.name = none)
    (defined : d ∈ rules) (found : g.find? d.name = some id) :
    g.realises rules (.name d.name) id = true := by
  simp only [realises, other, found, Bool.and_eq_true, List.any_eq_true, beq_iff_eq, and_true]
  exact ⟨d, defined, rfl⟩

theorem Defines.named (defines : g.Defines rules) {d : Definition} (defined : d ∈ rules) :
    ∃ id body, g.find? d.name = some id ∧ g.shape? id = some (.named body) ∧
      g.ruleName id = d.name ∧ g.realises rules d.body body = true := by
  have h := defines d defined
  unfold realisesDefinition at h
  split at h
  · split at h
    · simp only [Bool.and_eq_true, beq_iff_eq] at h
      exact ⟨_, _, ‹_›, ‹_›, h.1, h.2⟩
    · cases h
  · cases h

theorem Defines.body (defines : g.Defines rules) {d : Definition} (defined : d ∈ rules)
    (found : g.find? d.name = some id) :
    ∃ body, g.shape? id = some (.named body) ∧ g.realises rules d.body body = true := by
  obtain ⟨id', body, found', shape, -, realised⟩ := defines.named defined
  cases found.symm.trans found'
  exact ⟨body, shape, realised⟩

theorem Defines.made (defines : g.Defines rules) {body : Body}
    (h : g.realises rules body id = true) :
    ∃ s, g.shape? id = some s ∧ g.Made rules id body s := by
  cases body with
  | literal text =>
    obtain ⟨k, shape, leaf⟩ := shape?_of_isLeaf h
    exact ⟨_, shape, .literal leaf⟩
  | name n =>
    unfold realises at h
    split at h
    · obtain ⟨k, shape, leaf⟩ := shape?_of_isLeaf h
      exact ⟨_, shape, .lexical ‹_› leaf⟩
    · simp only [Bool.and_eq_true, List.any_eq_true, beq_iff_eq] at h
      obtain ⟨⟨d, defined, rfl⟩, found⟩ := h
      obtain ⟨id', body, found', shape, name, inner⟩ := defines.named defined
      cases found.symm.trans found'
      exact ⟨_, shape, .rule ‹_› defined name inner⟩
  | ahead count => exact ⟨_, by simpa [realises] using h, .ahead⟩
  | seq | alt =>
    unfold realises at h
    split at h
    · simp only [Bool.and_eq_true] at h
      first | exact ⟨_, ‹_›, .seq h.1 h.2⟩ | exact ⟨_, ‹_›, .alt h.1 h.2⟩
    · cases h
  | opt | star | plus | guarded =>
    unfold realises at h
    split at h
    · first
        | exact ⟨_, ‹_›, .opt h⟩ | exact ⟨_, ‹_›, .star h⟩ | exact ⟨_, ‹_›, .plus h⟩
        | exact ⟨_, ‹_›, .guarded h⟩
    · cases h

theorem Defines.made_of_shape (defines : g.Defines rules) {body : Body} {s : Shape}
    (shape : g.shape? id = some s) (h : g.realises rules body id = true) :
    g.Made rules id body s := by
  obtain ⟨s', shape', made⟩ := defines.made h
  cases shape.symm.trans shape'
  exact made

/-- What a grammar derives, the definitions derive. -/
theorem Builds.derives {σ ν : Type} {b : TreeBuilder σ ν} {tokens : List Token} {nodes : List ν}
    (defines : g.Defines rules) (h : g.Builds b id tokens nodes) :
    ∀ body, g.realises rules body id = true → body.Derives rules g.Is tokens := by
  induction h with
  | token shape =>
    intro body realised
    cases defines.made_of_shape shape realised with
    | literal leaf => exact .literal leaf
    | lexical known leaf => exact .lexical known leaf
  | seq shape _ _ ihl ihr =>
    intro body realised
    cases defines.made_of_shape shape realised with
    | seq first second => exact .seq (ihl _ first) (ihr _ second)
  | altLeft shape _ ih =>
    intro body realised
    cases defines.made_of_shape shape realised with
    | alt first second => exact .altLeft (ih _ first)
  | altRight shape _ ih =>
    intro body realised
    cases defines.made_of_shape shape realised with
    | alt first second => exact .altRight (ih _ second)
  | optNone shape =>
    intro body realised
    cases defines.made_of_shape shape realised with
    | opt inner => exact .optNone
  | optSome shape _ ih =>
    intro body realised
    cases defines.made_of_shape shape realised with
    | opt inner => exact .optSome (ih _ inner)
  | @star id child rounds shape _ ih =>
    intro body realised
    cases defines.made_of_shape shape realised with
    | star inner =>
      rw [List.flatMap_def]
      refine .star fun w hw => ?_
      obtain ⟨r, hr, rfl⟩ := List.mem_map.1 hw
      exact ih r hr _ inner
  | @plus id child rounds shape some_round _ ih =>
    intro body realised
    cases defines.made_of_shape shape realised with
    | plus inner =>
      rw [List.flatMap_def]
      refine .plus (by simpa using some_round) fun w hw => ?_
      obtain ⟨r, hr, rfl⟩ := List.mem_map.1 hw
      exact ih r hr _ inner
  | ahead shape =>
    intro body realised
    cases defines.made_of_shape shape realised with
    | ahead => exact .ahead
  | guarded shape _ ih =>
    intro body realised
    cases defines.made_of_shape shape realised with
    | guarded inner => exact .guarded (ih _ inner)
  | named shape _ built ih =>
    intro body realised
    cases defines.made_of_shape shape realised with
    | rule other defined name inner => exact .rule other defined (ih _ inner)

end Realised

end Grammar

end Rowlang
