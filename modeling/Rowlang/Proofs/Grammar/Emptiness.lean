import Mathlib.Data.Finset.Card
import Rowlang.Proofs.Grammar.Build
import Rowlang.Proofs.Parsing.Ebnf

/-!
# Rules that can match nothing

* `Grammar.isOptional_eq` : the rounds by which the rules that can match nothing are found come to an
  end, and what they have found then is closed;
* `Body.CanBeEmpty` : a body has the empty word;
* `Grammar.Compiles.isOptional_iff` : the rounds find the rules whose bodies have the empty word, and no
  others;
* `Definition.Admissible` : the definitions that make a grammar (`Grammar.compiles_of_ofDefinitions`,
  `Grammar.exists_of_admissible`).
-/

namespace Rowlang

/-! ## Rounds -/

section
variable {rules : Array Rule} {n id : Nat}

/-- Whether the rule is known to match nothing after so many rounds. -/
def knownAfter (rules : Array Rule) (n id : Nat) : Bool := (nullableAfter rules n).getD id false

theorem knownAfter_zero : knownAfter rules 0 id = false := by
  simp [knownAfter, nullableAfter, Array.getD_eq_getD_getElem?, Array.getElem?_replicate]
  split <;> rfl

theorem knownAfter_succ : knownAfter rules (n + 1) id =
    match rules[id]? with
    | some r => r.shape.isNullable (knownAfter rules n)
    | none => false := by
  rw [knownAfter, nullableAfter, nullableRound, Array.getD_eq_getD_getElem?, Array.getElem?_map]
  cases rules[id]? <;> rfl

theorem Shape.isNullable_mono {known known' : Nat → Bool}
    (more : ∀ i, known i = true → known' i = true) (s : Shape) (h : s.isNullable known = true) :
    s.isNullable known' = true := by
  cases s with
  | token => cases h
  | seq l r =>
    simp only [isNullable, Bool.and_eq_true] at h ⊢
    exact h.imp (more l) (more r)
  | alt l r =>
    simp only [isNullable, Bool.or_eq_true] at h ⊢
    exact h.imp (more l) (more r)
  | opt | star | ahead => rfl
  | plus c | guarded c | named c => exact more c h

theorem knownAfter_mono (h : knownAfter rules n id = true) : knownAfter rules (n + 1) id = true := by
  induction n generalizing id with
  | zero =>
    rw [knownAfter_zero] at h
    cases h
  | succ n ih =>
    rw [knownAfter_succ] at h ⊢
    split at h
    · exact Shape.isNullable_mono (fun _ => ih) _ h
    · cases h

def foundAfter (rules : Array Rule) (n : Nat) : Finset Nat :=
  (Finset.range rules.size).filter fun id => knownAfter rules n id = true

theorem mem_foundAfter : id ∈ foundAfter rules n ↔ knownAfter rules n id = true := by
  rw [foundAfter, Finset.mem_filter, Finset.mem_range, and_iff_right_iff_imp]
  intro known
  cases n with
  | zero =>
    rw [knownAfter_zero] at known
    cases known
  | succ n =>
    rw [knownAfter_succ] at known
    split at known
    · exact (Array.getElem?_eq_some_iff.1 ‹_›).1
    · cases known

theorem known_eq_of_found_eq (h : foundAfter rules (n + 1) = foundAfter rules n) :
    knownAfter rules (n + 1) = knownAfter rules n := by
  funext id
  rw [Bool.eq_iff_iff, ← mem_foundAfter, ← mem_foundAfter, h]

/-- Either a round finds nothing new, or each round so far has found a rule. -/
theorem settled_or_card (rules : Array Rule) (n : Nat) :
    knownAfter rules (n + 1) = knownAfter rules n ∨ n + 1 ≤ (foundAfter rules (n + 1)).card := by
  have grows (n : Nat) : foundAfter rules n ⊆ foundAfter rules (n + 1) :=
    fun _ known => mem_foundAfter.2 (knownAfter_mono (mem_foundAfter.1 known))
  have new (n : Nat) : knownAfter rules (n + 1) = knownAfter rules n ∨
      (foundAfter rules n).card + 1 ≤ (foundAfter rules (n + 1)).card := by
    by_cases same : foundAfter rules (n + 1) = foundAfter rules n
    · exact .inl (known_eq_of_found_eq same)
    · exact .inr (Finset.card_lt_card (lt_of_le_of_ne (grows n) (Ne.symm same)))
  induction n with
  | zero => exact (new 0).imp_right fun more => by omega
  | succ n ih =>
    rcases ih with settled | enough
    · refine .inl (funext fun id => ?_)
      rw [knownAfter_succ (n := n + 1), settled, ← knownAfter_succ, settled]
    · exact (new (n + 1)).imp_right fun more => by omega

/-- After as many rounds as there are rules, nothing new is found. -/
theorem settled_of_size (rules : Array Rule) :
    knownAfter rules (rules.size + 1) = knownAfter rules rules.size := by
  refine (settled_or_card rules rules.size).resolve_right fun more => ?_
  have bound : (foundAfter rules (rules.size + 1)).card ≤ rules.size := by
    simpa [foundAfter] using
      Finset.card_filter_le (Finset.range rules.size) fun id => knownAfter rules (rules.size + 1) id = true
  omega

end

/-- **A rule can match nothing** if it can by what is known of the rules it refers to. -/
theorem Grammar.isOptional_eq (g : Grammar) (id : Nat) : g.isOptional id =
    match g.shape? id with
    | some s => s.isNullable g.isOptional
    | none => false := by
  have settled := congrFun (settled_of_size g.rules) id
  rw [knownAfter_succ] at settled
  refine settled.symm.trans ?_
  rw [shape?]
  cases g.rules[id]? <;> rfl

/-! ## Bodies that have the empty word -/

/-- The body can match nothing, the names in it standing for the bodies that `ds` give them. -/
def Body.CanBeEmpty (ds : List Definition) (x : Body) : Prop :=
  x.Derives (τ := Empty) ds (fun _ _ => False) []

namespace Grammar
variable {g : Grammar} {ds : List Definition} {x : Body} {id : Nat}

theorem Compiles.rule (h : g.Compiles ds) {d : Definition} (defined : d ∈ ds) :
    ∃ id body, g.find? d.name = some id ∧ g.name? id = some d.name ∧
      g.shape? id = some (.named body) ∧ g.arena.Unfolds d.body body := by
  obtain ⟨id, -, name, found, body, shape, inner⟩ :=
    GrammarBuilder.exists_of_forall₂_left h.rules defined
  exact ⟨id, body, found, name, shape, inner⟩

theorem Compiles.defined (h : g.Compiles ds) {n : String} (found : g.find? n = some id) :
    ∃ d ∈ ds, d.name = n ∧ ∃ body, g.shape? id = some (.named body) ∧
      g.arena.Unfolds d.body body := by
  have ordered := List.mem_of_find?_eq_some found
  have name : g.name? id = some n := by simpa using List.find?_some found
  obtain ⟨d, listed, same, -, body, shape, inner⟩ :=
    GrammarBuilder.exists_of_forall₂_left h.rules.flip ordered
  rw [name] at same
  cases same
  exact ⟨d, listed, rfl, body, shape, inner⟩

/-- The leaf patterns of the lexicon are those of the bodies, each at its first occurrence. -/
theorem Compiles.lexicon_patterns (h : g.Compiles ds) :
    g.lexicon.patterns = (ds.flatMap (·.body.leaves)).foldl noted [] :=
  GrammarBuilder.patterns_of_ofPatterns? h.patterns

theorem Compiles.start_rule {d : Definition} (h : g.Compiles (d :: ds)) :
    g.find? d.name = some g.start ∧ g.name? g.start = some d.name := by
  have start := h.start
  have rules := h.rules
  generalize g.order = ids at start rules
  cases rules with
  | cons rule _ =>
    cases start
    exact ⟨rule.2.1, rule.1⟩

theorem isOptional_of_shape {s : Shape} (shape : g.shape? id = some s) :
    g.isOptional id = s.isNullable g.isOptional := by
  rw [isOptional_eq, shape]

/-- What is found to match nothing has the empty word. -/
theorem Compiles.canBeEmpty (h : g.Compiles ds) {n : Nat} (known : knownAfter g.rules n id = true)
    (stands : g.arena.Unfolds x id) : x.CanBeEmpty ds := by
  induction n generalizing x id with
  | zero =>
    rw [knownAfter_zero] at known
    cases known
  | succ n ihn =>
    have step {id : Nat} {s : Shape} (shape : g.arena.shape? id = some s)
        (known : knownAfter g.rules (n + 1) id = true) :
        s.isNullable (knownAfter g.rules n) = true := by
      obtain ⟨r, place, rfl⟩ := Option.map_eq_some_iff.1 shape
      rwa [knownAfter_succ, place] at known
    cases stands with
    | literal shape | lexical _ shape => cases step shape known
    | rule other found =>
      obtain ⟨d, listed, rfl, body, shape, inner⟩ := h.defined found
      exact .rule other listed (ihn (step shape known) inner)
    | seq shape first second =>
      obtain ⟨left, right⟩ := Bool.and_eq_true_iff.1 (step shape known)
      exact .seq (u := []) (v := []) (ihn left first) (ihn right second)
    | alt shape first second =>
      rcases Bool.or_eq_true_iff.1 (step shape known) with left | right
      · exact .altLeft (ihn left first)
      · exact .altRight (ihn right second)
    | opt => exact .optNone
    | @star x =>
      have none : ∀ w ∈ ([] : List (List Empty)), x.Derives ds (fun _ _ => False) w := by simp
      exact .star none
    | @plus x _ _ shape inner =>
      have round : x.Derives ds (fun _ _ => False) ([] : List Empty) := ihn (step shape known) inner
      have once : ∀ w ∈ ([[]] : List (List Empty)), x.Derives ds (fun _ _ => False) w := by
        simpa using round
      exact .plus (by simp) once
    | ahead => exact .ahead
    | guarded shape inner => exact .guarded (ihn (step shape known) inner)

/-- **The rules that can match nothing** are those whose bodies have the empty word. -/
theorem Compiles.isOptional_iff (h : g.Compiles ds) (stands : g.arena.Unfolds x id) :
    g.isOptional id = true ↔ x.CanBeEmpty ds := by
  refine ⟨fun known => h.canBeEmpty known stands, fun empty => ?_⟩
  suffices ∀ (w : List Empty), x.Derives ds (fun _ _ => False) w → g.isOptional id = true from
    this [] empty
  intro w word
  clear empty
  induction word generalizing id with
  | literal is | lexical _ is => exact is.elim
  | rule other defined _ ih =>
    cases stands with
    | lexical known => cases known.symm.trans other
    | rule _ found =>
      obtain ⟨id', body, found', -, shape, inner⟩ := h.rule defined
      cases found.symm.trans found'
      rw [isOptional_of_shape shape]
      exact ih inner
  | seq _ _ ihx ihy =>
    cases stands with
    | seq shape first second =>
      rw [isOptional_of_shape shape]
      exact Bool.and_eq_true_iff.2 ⟨ihx first, ihy second⟩
  | altLeft _ ih =>
    cases stands with
    | alt shape first second =>
      rw [isOptional_of_shape shape]
      exact Bool.or_eq_true_iff.2 (.inl (ih first))
  | altRight _ ih =>
    cases stands with
    | alt shape first second =>
      rw [isOptional_of_shape shape]
      exact Bool.or_eq_true_iff.2 (.inr (ih second))
  | optNone | optSome =>
    cases stands with
    | opt shape => rw [isOptional_of_shape shape]; rfl
  | star =>
    cases stands with
    | star shape => rw [isOptional_of_shape shape]; rfl
  | plus some_round _ ih =>
    cases stands with
    | plus shape inner =>
      obtain ⟨w, round⟩ := List.exists_mem_of_ne_nil _ some_round
      rw [isOptional_of_shape shape]
      exact ih w round inner
  | ahead =>
    cases stands with
    | ahead shape => rw [isOptional_of_shape shape]; rfl
  | guarded _ ih =>
    cases stands with
    | guarded shape inner =>
      rw [isOptional_of_shape shape]
      exact ih inner

end Grammar

/-! ## Definitions that make a grammar -/

/-- The definitions make a grammar: they are named well, and each round of a repetition in them consumes
something. -/
structure Definition.Admissible (ds : List Definition) : Prop extends Definition.Wellnamed ds where
  consuming : ∀ d ∈ ds, ∀ x ∈ d.body.repeated, ¬ x.CanBeEmpty ds

theorem GrammarBuilder.firstEmptyRepetition_eq_none {g : Grammar} :
    GrammarBuilder.firstEmptyRepetition g = none ↔
      ∀ {id s c}, g.shape? id = some s → s.repeated? = some c → g.isOptional c = false := by
  unfold firstEmptyRepetition
  rw [List.find?_eq_none]
  constructor
  · intro none id s c shape repeats
    have inside : id < g.rules.size := by
      obtain ⟨r, place, -⟩ := Option.map_eq_some_iff.1 shape
      exact (Array.getElem?_eq_some_iff.1 place).1
    have none := none id (List.mem_range.2 inside)
    rw [shape, Option.bind_some, repeats] at none
    exact Bool.eq_false_iff.2 none
  · intro none id _
    split
    · rename_i c found
      obtain ⟨s, shape, repeats⟩ := Option.bind_eq_some_iff.1 found
      exact Bool.eq_false_iff.1 (none shape repeats)
    · exact Bool.false_ne_true

theorem Grammar.Compiles.firstEmptyRepetition_iff {g : Grammar} {ds : List Definition}
    (h : g.Compiles ds) : GrammarBuilder.firstEmptyRepetition g = none ↔
      ∀ d ∈ ds, ∀ x ∈ d.body.repeated, ¬ x.CanBeEmpty ds := by
  rw [GrammarBuilder.firstEmptyRepetition_eq_none]
  constructor
  · intro none d defined x listed empty
    obtain ⟨-, body, -, -, -, inner⟩ := h.rule defined
    obtain ⟨id, s, c, shape, repeats, stands⟩ := inner.repeated listed
    exact Bool.eq_false_iff.1 (none shape repeats) ((h.isOptional_iff stands).2 empty)
  · intro consuming id s c shape repeats
    obtain ⟨d, defined, x, listed, stands⟩ := h.repeats shape repeats
    exact Bool.eq_false_iff.2 fun known =>
      consuming d defined x listed ((h.isOptional_iff stands).1 known)

/-- **The definitions that make a grammar**, and what the grammar is made of. -/
theorem Grammar.compiles_of_ofDefinitions {ds : List Definition} {g : Grammar}
    (h : Grammar.ofDefinitions ds = .ok g) : g.Compiles ds ∧ Definition.Admissible ds := by
  rcases ofDefinitions_cases ds with ⟨⟨e, failed⟩, -⟩ | ⟨named, g', compiles, result⟩
  · cases failed.symm.trans h
  · rw [result] at h
    split at h
    · cases h
    · cases h
      exact ⟨compiles, named, compiles.firstEmptyRepetition_iff.1 ‹_›⟩

theorem Grammar.exists_of_admissible {ds : List Definition} (h : Definition.Admissible ds) :
    ∃ g, Grammar.ofDefinitions ds = .ok g := by
  rcases ofDefinitions_cases ds with ⟨-, unfit⟩ | ⟨-, g, compiles, result⟩
  · exact absurd h.toWellnamed unfit
  · rw [compiles.firstEmptyRepetition_iff.2 h.consuming] at result
    exact ⟨g, result⟩

end Rowlang
