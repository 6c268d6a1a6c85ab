import Rowlang.Proofs.Parsing.Progress

/-!
# Parsing by the next token

Where the next token tells which way to go, the parser finds every word of a body.

* `Tables` : what is known of the named rules, the tokens that their words begin with and those that
  may follow a word within a longer one;
* `Body.first`, `Body.extend` : the same for a body, and `Body.predictive`, which compares the tables
  where the parser has to choose;
* `Body.Derives.begins` : words begin as the tables say;
* `Parser.declines_of_decided`, `Parser.reads_of_predictive` : the parser consumes every word of such a
  body, and nothing where the next token begins none.
-/

namespace Rowlang

/-- What is known of the named rules. -/
structure Tables where
  /-- what their words begin with -/
  first : String → List LeafPattern
  /-- what may stand behind a word in a longer word -/
  extend : String → List LeafPattern
  /-- the rules of which the parser finds every word -/
  settled : String → Bool

def disjoint (as bs : List LeafPattern) : Bool := as.all fun a => !bs.contains a

namespace Body

/-- Whether a body has the empty word, no named rule having it. -/
def nullable : Body → Bool
  | .literal _ => false
  | .name _ => false
  | .seq x y => x.nullable && y.nullable
  | .alt x y => x.nullable || y.nullable
  | .opt _ => true
  | .star _ => true
  | .plus x => x.nullable
  | .ahead _ => true
  | .guarded x => x.nullable

/-- The leaf patterns that words of a body begin with. -/
def first (t : Tables) : Body → List LeafPattern
  | .literal text => [.literal text]
  | .name n =>
    match lexicalPatterns.lookup n with
    | some source => [.regex n source]
    | none => t.first n
  | .seq x y => x.first t ++ if x.nullable then y.first t else []
  | .alt x y => x.first t ++ y.first t
  | .opt x => x.first t
  | .star x => x.first t
  | .plus x => x.first t
  | .ahead _ => []
  | .guarded x => x.first t

/-- The leaf patterns that may stand behind a word of a body in a longer word of it. -/
def extend (t : Tables) : Body → List LeafPattern
  | .literal _ => []
  | .name n =>
    match lexicalPatterns.lookup n with
    | some _ => []
    | none => t.extend n
  | .seq x y => y.extend t ++ if y.nullable then x.extend t else []
  | .alt x y => x.extend t ++ y.extend t
  | .opt x => x.first t ++ x.extend t
  | .star x => x.first t ++ x.extend t
  | .plus x => x.first t ++ x.extend t
  | .ahead _ => []
  | .guarded x => x.extend t

/-- Whether the next token alone tells that a body does not match. -/
def decided : Body → Bool
  | .literal _ => true
  | .name _ => true
  | .seq x _ => x.decided
  | .alt x y => x.decided && y.decided
  | .opt _ => false
  | .star _ => false
  | .plus x => x.decided
  | .ahead _ => false
  | .guarded _ => false

/-- Whether the next token tells the parser, at every choice, which way to go. -/
def predictive (t : Tables) : Body → Bool
  | .literal _ => true
  | .name n => (lexicalPatterns.lookup n).isSome || t.settled n
  | .seq x y => x.predictive t && y.predictive t && disjoint (x.extend t) (y.first t)
  | .alt x y => x.predictive t && y.predictive t && x.decided && y.decided &&
      disjoint (x.first t) (y.first t)
  | .opt x => x.predictive t && x.decided
  | .star x => x.predictive t && x.decided && disjoint (x.extend t) (x.first t)
  | .plus x => x.predictive t && x.decided && disjoint (x.extend t) (x.first t)
  | .ahead _ => false
  | .guarded _ => false

section Names
variable {t : Tables} {n : String} (rule : lexicalPatterns.lookup n = none)
include rule

theorem first_rule : (Body.name n).first t = t.first n := by simp [first, rule]

theorem extend_rule : (Body.name n).extend t = t.extend n := by simp [extend, rule]

end Names

theorem nullable_of_decided {b : Body} (h : b.decided = true) : b.nullable = false := by
  induction b with
  | literal | name => rfl
  | seq x y ihx => simp [nullable, ihx h]
  | alt x y ihx ihy =>
    simp only [decided, Bool.and_eq_true] at h
    simp [nullable, ihx h.1, ihy h.2]
  | plus x ih => exact ih h
  | opt | star | ahead | guarded => cases h

end Body

/-- What the tables say of the beginnings is so, and no named rule has the empty word. -/
def Tables.Lawful (t : Tables) (rules : List Definition) : Prop :=
  ∀ d ∈ rules, d.body.nullable = false ∧ ∀ leaf ∈ d.body.first t, leaf ∈ t.first d.name

instance (t : Tables) (rules : List Definition) : Decidable (t.Lawful rules) :=
  inferInstanceAs (Decidable
    (∀ d ∈ rules, d.body.nullable = false ∧ ∀ leaf ∈ d.body.first t, leaf ∈ t.first d.name))

/-! ## Beginnings of words -/

section Words
variable {g : Grammar} {rules : List Definition} {t : Tables} {as bs : List LeafPattern}
  {w v : List Token} {b : Body}

def Grammar.IsOf (g : Grammar) (leaves : List LeafPattern) (t : Token) : Prop :=
  ∃ leaf ∈ leaves, g.Is leaf t

/-- The tokens begin with one of a leaf pattern. -/
def Grammar.Begins (g : Grammar) (leaves : List LeafPattern) (w : List Token) : Prop :=
  ∃ t rest, w = t :: rest ∧ g.IsOf leaves t

def Grammar.Avoids (g : Grammar) (leaves : List LeafPattern) (w : List Token) : Prop :=
  ∀ t ∈ w.head?, ¬ g.IsOf leaves t

theorem Grammar.Begins.of_subset (h : g.Begins as w) (more : as ⊆ bs) : g.Begins bs w := by
  obtain ⟨t, rest, rfl, leaf, listed, is⟩ := h
  exact ⟨t, rest, rfl, leaf, more listed, is⟩

theorem Grammar.Begins.append (h : g.Begins as w) (v : List Token) : g.Begins as (w ++ v) := by
  obtain ⟨t, rest, rfl, is⟩ := h
  exact ⟨t, rest ++ v, rfl, is⟩

theorem Grammar.Begins.ne_nil (h : g.Begins as w) : w ≠ [] := by
  obtain ⟨t, rest, rfl, -⟩ := h
  exact List.cons_ne_nil _ _

theorem Grammar.Begins.length_lt (h : g.Begins as w) (v : List Token) :
    v.length < (w ++ v).length := by
  obtain ⟨t, rest, rfl, -⟩ := h
  simp only [List.cons_append, List.length_cons, List.length_append]
  omega

theorem Grammar.avoids_nil : g.Avoids [] w := by
  rintro t - ⟨leaf, listed, -⟩
  cases listed

theorem Grammar.Avoids.of_subset (h : g.Avoids bs w) (fewer : as ⊆ bs) : g.Avoids as w := by
  rintro t head ⟨leaf, listed, is⟩
  exact h t head ⟨leaf, fewer listed, is⟩

theorem Grammar.Avoids.left (h : g.Avoids (as ++ bs) w) : g.Avoids as w :=
  h.of_subset (List.subset_append_left _ _)

theorem Grammar.Avoids.right (h : g.Avoids (as ++ bs) w) : g.Avoids bs w :=
  h.of_subset (List.subset_append_right _ _)

theorem Grammar.Begins.avoids (h : g.Begins bs w) (apart : disjoint as bs = true) :
    g.Avoids as w := by
  obtain ⟨t, rest, rfl, leaf, listed, is⟩ := h
  rintro t' ⟨⟩ ⟨leaf', listed', is'⟩
  cases is.unique is'
  have := List.all_eq_true.1 apart leaf listed'
  simp [listed] at this

theorem Grammar.IsOf.avoids {t : Token} (h : g.IsOf bs t) (apart : disjoint as bs = true) :
    g.Avoids as (t :: w) :=
  Grammar.Begins.avoids ⟨t, w, rfl, h⟩ apart

theorem Grammar.Is.avoids {leaf : LeafPattern} {t : Token} (h : g.Is leaf t)
    (apart : disjoint as [leaf] = true) : g.Avoids as (t :: w) :=
  Grammar.IsOf.avoids ⟨leaf, List.mem_singleton_self _, h⟩ apart

theorem begins_flatten {ws : List (List Token)} (each : ∀ w ∈ ws, w = [] ∨ g.Begins as w) :
    ws.flatten = [] ∨ g.Begins as ws.flatten := by
  induction ws with
  | nil => exact .inl rfl
  | cons w ws ih =>
    rcases each w List.mem_cons_self with rfl | begins
    · exact ih fun w hw => each w (List.mem_cons_of_mem _ hw)
    · exact .inr (begins.append _)

/-- A word of a body is empty, or begins as the tables say. -/
theorem Body.Derives.begins (lawful : t.Lawful rules) (h : b.Derives rules g.Is w) :
    (w = [] ∧ b.nullable = true) ∨ g.Begins (b.first t) w := by
  induction h with
  | literal is => exact .inr ⟨_, [], rfl, _, List.mem_singleton_self _, is⟩
  | lexical known is =>
    refine .inr ⟨_, [], rfl, _, ?_, is⟩
    simp [Body.first, known]
  | @rule d w other defined _ ih =>
    obtain ⟨inhabited, first⟩ := lawful d defined
    rcases ih with ⟨-, empty⟩ | begins
    · rw [inhabited] at empty
      cases empty
    · refine .inr (begins.of_subset ?_)
      intro leaf listed
      simpa [Body.first, other] using first leaf listed
  | @seq x y u v _ _ ihx ihy =>
    rcases ihx with ⟨rfl, empty⟩ | begins
    · rcases ihy with ⟨rfl, empty'⟩ | begins
      · exact .inl ⟨rfl, by simp [Body.nullable, empty, empty']⟩
      · refine .inr (begins.of_subset ?_)
        simp [Body.first, empty]
    · exact .inr ((begins.append v).of_subset (List.subset_append_left _ _))
  | altLeft _ ih =>
    rcases ih with ⟨rfl, empty⟩ | begins
    · exact .inl ⟨rfl, by simp [Body.nullable, empty]⟩
    · exact .inr (begins.of_subset (List.subset_append_left _ _))
  | altRight _ ih =>
    rcases ih with ⟨rfl, empty⟩ | begins
    · exact .inl ⟨rfl, by simp [Body.nullable, empty]⟩
    · exact .inr (begins.of_subset (List.subset_append_right _ _))
  | optNone => exact .inl ⟨rfl, rfl⟩
  | optSome _ ih =>
    rcases ih with ⟨rfl, -⟩ | begins
    · exact .inl ⟨rfl, rfl⟩
    · exact .inr begins
  | star _ ih =>
    rcases begins_flatten fun w hw => (ih w hw).imp And.left id with empty | begins
    · exact .inl ⟨empty, rfl⟩
    · exact .inr begins
  | @plus x ws some_round _ ih =>
    rcases begins_flatten fun w hw => (ih w hw).imp And.left id with empty | begins
    · obtain ⟨w, hw⟩ := List.exists_mem_of_ne_nil ws some_round
      rcases ih w hw with ⟨-, nullable⟩ | begins
      · exact .inl ⟨empty, nullable⟩
      · exact absurd (List.flatten_eq_nil_iff.1 empty w hw) begins.ne_nil
    · exact .inr begins
  | ahead => exact .inl ⟨rfl, rfl⟩
  | guarded _ ih => exact ih

theorem Body.Derives.begins_of_decided (lawful : t.Lawful rules) (h : b.Derives rules g.Is w)
    (decided : b.decided = true) : g.Begins (b.first t) w := by
  rcases h.begins lawful with ⟨-, nullable⟩ | begins
  · rw [Body.nullable_of_decided decided] at nullable
    cases nullable
  · exact begins

end Words

/-! ## Words that the parser finds -/

namespace Parser

variable {σ ν : Type} {p : Parser σ ν} {rules : List Definition} {t : Tables} {depth id : Nat}
  {b : Body} {u v w : List Token}

/-- The next token alone tells the parser that the body does not match. -/
structure Declines (p : Parser σ ν) (t : Tables) (depth : Nat) (b : Body) (id : Nat) : Prop where
  refuses : ∀ {w}, p.grammar.Avoids (b.first t) w → p.Refuses depth (.once id) w

/-- The parser consumes every word of the body that nothing behind it may extend. -/
structure Reads (p : Parser σ ν) (rules : List Definition) (t : Tables) (depth : Nat) (b : Body)
    (id : Nat) : Prop where
  takes : ∀ {u v}, b.Derives rules p.grammar.Is u → p.grammar.Avoids (b.extend t) v →
    p.Ends depth (.once id) (u ++ v) (· = v)

/-- The patterns of the grammar are different ones. -/
def Distinct (p : Parser σ ν) : Prop := p.grammar.lexicon.patterns.Nodup

theorem Distinct.same {i j : Nat} {leaf : LeafPattern} (distinct : p.Distinct)
    (hi : p.grammar.lexicon.patterns[i]? = some leaf)
    (hj : p.grammar.lexicon.patterns[j]? = some leaf) : i = j :=
  (List.getElem?_inj (List.getElem?_eq_some_iff.1 hi).1 distinct).1 (hi.trans hj.symm)

theorem ends_leaf (distinct : p.Distinct) {leaf : LeafPattern} {k : Nat} {token : Token}
    (shape : p.grammar.shape? id = some (.token k))
    (pattern : p.grammar.lexicon.patterns[k]? = some leaf) (is : p.grammar.Is leaf token) :
    p.Ends depth (.once id) (token :: v) (· = v) := by
  obtain rfl := distinct.same pattern is
  exact ends_token shape

theorem refuses_leaf {leaf : LeafPattern} {k : Nat} (shape : p.grammar.shape? id = some (.token k))
    (pattern : p.grammar.lexicon.patterns[k]? = some leaf) (avoids : p.grammar.Avoids [leaf] w) :
    p.Refuses depth (.once id) w := by
  refine refuses_token shape fun t head same => avoids t head ?_
  subst same
  exact ⟨leaf, List.mem_singleton_self _, pattern⟩

theorem guard?_of_ne_ahead (defines : p.grammar.Defines rules) {x : Body} {l r : Nat}
    (shape : p.grammar.shape? id = some (.seq l r)) (realised : p.grammar.realises rules x l = true)
    (other : ∀ count, x ≠ .ahead count) : p.grammar.guard? id = none := by
  refine guard?_eq_none_of_seq shape fun count ahead => ?_
  cases defines.made_of_shape ahead realised with
  | ahead => exact other count rfl

/-- **What the next token decides**, the parser declines, if it does so for the named rules. -/
theorem declines_of_decided (defines : p.grammar.Defines rules)
    (names : ∀ d ∈ rules, ∀ id, p.grammar.find? d.name = some id →
      p.Declines t depth (.name d.name) id) (b : Body) (id : Nat)
    (realised : p.grammar.realises rules b id = true) (decided : b.decided = true) :
    p.Declines t depth b id := by
  induction b generalizing id with
  | literal text =>
    obtain ⟨_, shape, made⟩ := defines.made realised
    cases made with
    | literal leaf => exact ⟨refuses_leaf shape leaf⟩
  | name n =>
    obtain ⟨_, shape, made⟩ := defines.made realised
    cases made with
    | lexical known leaf =>
      exact ⟨fun avoids => refuses_leaf shape leaf (by simpa [Body.first, known] using avoids)⟩
    | rule other defined =>
      exact names _ defined id (Grammar.find?_of_realises other realised)
  | seq x y ihx =>
    obtain ⟨_, shape, made⟩ := defines.made realised
    cases made with
    | seq first second =>
      have plain := guard?_of_ne_ahead defines shape first (by rintro _ rfl; cases decided)
      exact ⟨fun avoids => refuses_seq shape plain ((ihx _ first decided).refuses avoids.left)⟩
  | alt x y ihx ihy =>
    simp only [Body.decided, Bool.and_eq_true] at decided
    obtain ⟨_, shape, made⟩ := defines.made realised
    cases made with
    | alt first second =>
      exact ⟨fun avoids => refuses_alt shape ((ihx _ first decided.1).refuses avoids.left)
        ((ihy _ second decided.2).refuses avoids.right)⟩
  | plus x ih =>
    obtain ⟨_, shape, made⟩ := defines.made realised
    cases made with
    | plus inner => exact ⟨fun avoids => refuses_plus shape ((ih _ inner decided).refuses avoids)⟩
  | opt | star | ahead | guarded => cases decided

theorem reads_seq (lawful : t.Lawful rules) {x y : Body} {l r : Nat}
    (shape : p.grammar.shape? id = some (.seq l r)) (plain : p.grammar.guard? id = none)
    (apart : disjoint (x.extend t) (y.first t) = true) (first : p.Reads rules t depth x l)
    (second : p.Reads rules t depth y r) : p.Reads rules t depth (.seq x y) id where
  takes := by
    intro u v word avoids
    cases word with
    | @seq _ _ u u' word word' =>
      have behind : p.grammar.Avoids (x.extend t) (u' ++ v) := by
        rcases word'.begins lawful with ⟨rfl, empty⟩ | begins
        · simp only [Body.extend, empty, if_true] at avoids
          exact avoids.right
        · exact (begins.append v).avoids apart
      rw [List.append_assoc]
      exact ends_seq shape plain (first.takes word behind)
        fun _ same => same ▸ second.takes word' avoids.left

theorem reads_alt (lawful : t.Lawful rules) {x y : Body} {l r : Nat}
    (shape : p.grammar.shape? id = some (.alt l r)) (decided : y.decided = true)
    (apart : disjoint (x.first t) (y.first t) = true) (declines : p.Declines t depth x l)
    (first : p.Reads rules t depth x l) (second : p.Reads rules t depth y r) :
    p.Reads rules t depth (.alt x y) id where
  takes := by
    intro u v word avoids
    cases word with
    | altLeft word => exact ends_altLeft shape (first.takes word avoids.left)
    | altRight word =>
      have begins := (word.begins_of_decided lawful decided).append v
      exact ends_altRight shape (declines.refuses (begins.avoids apart))
        (second.takes word avoids.right)

theorem reads_opt {x : Body} {c : Nat} (shape : p.grammar.shape? id = some (.opt c))
    (declines : p.Declines t depth x c) (inner : p.Reads rules t depth x c) :
    p.Reads rules t depth (.opt x) id where
  takes := by
    intro u v word avoids
    cases word with
    | optNone => exact ends_opt_none shape (declines.refuses avoids.left)
    | optSome word => exact ends_opt shape (inner.takes word avoids.right)

theorem ends_rounds (lawful : t.Lawful rules) {x : Body} {c : Nat} (decided : x.decided = true)
    (apart : disjoint (x.extend t) (x.first t) = true) (declines : p.Declines t depth x c)
    (inner : p.Reads rules t depth x c) {ws : List (List Token)}
    (each : ∀ w ∈ ws, x.Derives rules p.grammar.Is w)
    (avoids : p.grammar.Avoids (x.first t ++ x.extend t) v) :
    p.Ends depth (.many c) (ws.flatten ++ v) (· = v) ∧
      p.grammar.Avoids (x.extend t) (ws.flatten ++ v) := by
  induction ws with
  | nil => exact ⟨ends_many_nil (declines.refuses avoids.left), avoids.right⟩
  | cons w ws ih =>
    obtain ⟨word, each⟩ := List.forall_mem_cons.1 each
    obtain ⟨later, behind⟩ := ih each
    have begins := word.begins_of_decided lawful decided
    rw [List.flatten_cons, List.append_assoc]
    refine ⟨ends_many_cons (inner.takes word behind) ?_ fun _ same => same ▸ later,
      (begins.append _).avoids apart⟩
    rintro _ rfl
    have := List.length_pos_iff.2 begins.ne_nil
    simp only [List.length_append]
    omega

theorem reads_star (lawful : t.Lawful rules) {x : Body} {c : Nat}
    (shape : p.grammar.shape? id = some (.star c)) (decided : x.decided = true)
    (apart : disjoint (x.extend t) (x.first t) = true) (declines : p.Declines t depth x c)
    (inner : p.Reads rules t depth x c) : p.Reads rules t depth (.star x) id where
  takes := by
    intro u v word avoids
    cases word with
    | star each =>
      exact ends_star shape (ends_rounds lawful decided apart declines inner each avoids).1

theorem reads_plus (lawful : t.Lawful rules) {x : Body} {c : Nat}
    (shape : p.grammar.shape? id = some (.plus c)) (decided : x.decided = true)
    (apart : disjoint (x.extend t) (x.first t) = true) (declines : p.Declines t depth x c)
    (inner : p.Reads rules t depth x c) : p.Reads rules t depth (.plus x) id where
  takes := by
    intro u v word avoids
    cases word with
    | @plus _ ws some_round each =>
      cases ws with
      | nil => exact absurd rfl some_round
      | cons w ws =>
        obtain ⟨word, each⟩ := List.forall_mem_cons.1 each
        obtain ⟨later, behind⟩ := ends_rounds lawful decided apart declines inner each avoids
        rw [List.flatten_cons, List.append_assoc]
        exact ends_plus shape (inner.takes word behind) fun _ same => same ▸ later

/-- **The parser finds every word of a predictive body**, if it does of the named rules in it. -/
theorem reads_of_predictive (defines : p.grammar.Defines rules) (distinct : p.Distinct)
    (lawful : t.Lawful rules)
    (declines : ∀ d ∈ rules, ∀ id, p.grammar.find? d.name = some id →
      p.Declines t depth (.name d.name) id)
    (names : ∀ d ∈ rules, ∀ id, t.settled d.name = true → p.grammar.find? d.name = some id →
      p.Reads rules t depth (.name d.name) id) (b : Body) (id : Nat)
    (realised : p.grammar.realises rules b id = true) (predictive : b.predictive t = true) :
    p.Reads rules t depth b id := by
  have declines := declines_of_decided defines declines
  induction b generalizing id with
  | literal text =>
    obtain ⟨_, shape, made⟩ := defines.made realised
    cases made with
    | literal leaf =>
      refine ⟨fun word _ => ?_⟩
      cases word with
      | literal is => exact ends_leaf distinct shape leaf is
  | name n =>
    obtain ⟨_, shape, made⟩ := defines.made realised
    cases made with
    | lexical known leaf =>
      refine ⟨fun word _ => ?_⟩
      cases word with
      | lexical known' is =>
        cases known.symm.trans known'
        exact ends_leaf distinct shape leaf is
      | rule other => cases known.symm.trans other
    | rule other defined =>
      simp only [Body.predictive, other, Option.isSome_none, Bool.false_or] at predictive
      exact names _ defined id predictive (Grammar.find?_of_realises other realised)
  | seq x y ihx ihy =>
    simp only [Body.predictive, Bool.and_eq_true] at predictive
    obtain ⟨⟨px, py⟩, apart⟩ := predictive
    obtain ⟨_, shape, made⟩ := defines.made realised
    cases made with
    | seq first second =>
      have plain := guard?_of_ne_ahead defines shape first (by rintro _ rfl; cases px)
      exact reads_seq lawful shape plain apart (ihx _ first px) (ihy _ second py)
  | alt x y ihx ihy =>
    simp only [Body.predictive, Bool.and_eq_true] at predictive
    obtain ⟨⟨⟨⟨px, py⟩, dx⟩, dy⟩, apart⟩ := predictive
    obtain ⟨_, shape, made⟩ := defines.made realised
    cases made with
    | alt first second =>
      exact reads_alt lawful shape dy apart (declines _ _ first dx) (ihx _ first px)
        (ihy _ second py)
  | opt x ih =>
    simp only [Body.predictive, Bool.and_eq_true] at predictive
    obtain ⟨px, dx⟩ := predictive
    obtain ⟨_, shape, made⟩ := defines.made realised
    cases made with
    | opt inner => exact reads_opt shape (declines _ _ inner dx) (ih _ inner px)
  | star x ih =>
    simp only [Body.predictive, Bool.and_eq_true] at predictive
    obtain ⟨⟨px, dx⟩, apart⟩ := predictive
    obtain ⟨_, shape, made⟩ := defines.made realised
    cases made with
    | star inner =>
      exact reads_star lawful shape dx apart (declines _ _ inner dx) (ih _ inner px)
  | plus x ih =>
    simp only [Body.predictive, Bool.and_eq_true] at predictive
    obtain ⟨⟨px, dx⟩, apart⟩ := predictive
    obtain ⟨_, shape, made⟩ := defines.made realised
    cases made with
    | plus inner =>
      exact reads_plus lawful shape dx apart (declines _ _ inner dx) (ih _ inner px)
  | ahead | guarded => cases predictive

end Parser

end Rowlang
