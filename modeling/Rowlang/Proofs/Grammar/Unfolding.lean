import Rowlang.Proofs.Grammar.Emptiness

/-!
# The bodies of a grammar

* `Grammar.unfold` : the body that a rule stands for, read off the table of rules;
* `Grammar.definitions` : the definitions of the named rules, in their order;
* `Grammar.Compiles.definitions_eq` : of a grammar that was compiled, they are those it was compiled of.
-/

namespace Rowlang

def LeafPattern.body : LeafPattern → Body
  | .literal text => .literal text
  | .regex name _ => .name name

namespace Grammar

/-- The body that a rule stands for. A named rule is not entered, and a check of what follows has no
bound on the tokens it looks at. -/
def unfold (g : Grammar) (id : Nat) : Option Body :=
  match h : g.shape? id with
  | none => none
  | some (.token k) => g.lexicon.patterns[k]?.map (·.body)
  | some (.named _) => (g.name? id).map .name
  | some (.seq l r) =>
    have := g.part_lt h (c := l) (by simp [Shape.parts])
    have := g.part_lt h (c := r) (by simp [Shape.parts])
    (g.unfold l).bind fun x => (g.unfold r).map (.seq x)
  | some (.alt l r) =>
    have := g.part_lt h (c := l) (by simp [Shape.parts])
    have := g.part_lt h (c := r) (by simp [Shape.parts])
    (g.unfold l).bind fun x => (g.unfold r).map (.alt x)
  | some (.opt c) =>
    have := g.part_lt h (c := c) (by simp [Shape.parts])
    (g.unfold c).map .opt
  | some (.star c) =>
    have := g.part_lt h (c := c) (by simp [Shape.parts])
    (g.unfold c).map .star
  | some (.plus c) =>
    have := g.part_lt h (c := c) (by simp [Shape.parts])
    (g.unfold c).map .plus
  | some (.ahead count) => some (.ahead count)
  | some (.guarded c count) =>
    have := g.part_lt h (c := c) (by simp [Shape.parts])
    if count = Body.unbounded then (g.unfold c).map .guarded else none
termination_by id

def definition? (g : Grammar) (id : Nat) : Option Definition :=
  match g.shape? id with
  | some (.named body) => (g.name? id).bind fun name => (g.unfold body).map (⟨name, ·⟩)
  | _ => none

def definitions (g : Grammar) : Option (List Definition) := g.order.mapM g.definition?

variable {g : Grammar} {ds : List Definition} {id : Nat}

theorem unfold_of_shape {s : Shape} (shape : g.shape? id = some s) : g.unfold id = match s with
    | .token k => g.lexicon.patterns[k]?.map (·.body)
    | .named _ => (g.name? id).map .name
    | .seq l r => (g.unfold l).bind fun x => (g.unfold r).map (.seq x)
    | .alt l r => (g.unfold l).bind fun x => (g.unfold r).map (.alt x)
    | .opt c => (g.unfold c).map .opt
    | .star c => (g.unfold c).map .star
    | .plus c => (g.unfold c).map .plus
    | .ahead count => some (.ahead count)
    | .guarded c count => if count = Body.unbounded then (g.unfold c).map .guarded else none := by
  rw [unfold]
  split <;> rename_i shape' <;> cases shape.symm.trans shape' <;> rfl

theorem Compiles.unfold_eq (h : g.Compiles ds) {x : Body} (stands : g.arena.Unfolds x id) :
    g.unfold id = some x := by
  induction stands with
  | literal shape leaf | lexical _ shape leaf =>
    have leaf : g.lexicon.patterns[_]? = some _ := leaf
    simp only [unfold_of_shape shape, leaf, Option.map_some, LeafPattern.body]
  | @rule n id _ found =>
    obtain ⟨-, -, -, body, shape, -⟩ := h.defined found
    have name : g.name? id = some n := by simpa using List.find?_some found
    simp only [unfold_of_shape shape, name, Option.map_some]
  | seq shape _ _ ihx ihy | alt shape _ _ ihx ihy =>
    simp only [unfold_of_shape shape, ihx, ihy, Option.bind_some, Option.map_some]
  | opt shape _ ih | star shape _ ih | plus shape _ ih =>
    simp only [unfold_of_shape shape, ih, Option.map_some]
  | ahead shape => simp only [unfold_of_shape shape]
  | guarded shape _ ih => simp only [unfold_of_shape shape, ih, reduceIte, Option.map_some]

/-- **The definitions that a grammar was compiled of** are read off its table. -/
theorem Compiles.definitions_eq (h : g.Compiles ds) : g.definitions = some ds := by
  have each : List.Forall₂ (fun d id => g.definition? id = some d) ds g.order := by
    refine h.rules.imp ?_
    rintro d id ⟨name, -, body, shape, inner⟩
    simp only [definition?, shape, name, h.unfold_eq inner, Option.bind_some, Option.map_some]
  rw [definitions]
  clear h
  generalize g.order = ids at each
  induction each with
  | nil => rfl
  | cons definition _ ih =>
    rw [List.mapM_cons, definition, ih]
    rfl

theorem Compiles.ruleNames_eq (h : g.Compiles ds) : g.ruleNames = ds.map (·.name) := by
  have rules := h.rules
  rw [ruleNames]
  clear h
  generalize g.order = ids at rules
  induction rules with
  | nil => rfl
  | cons rule _ ih => rw [List.filterMap_cons_some rule.1, ih, List.map_cons]

theorem Compiles.start_name (h : g.Compiles ds) : g.name? g.start = (ds.map (·.name)).head? := by
  cases ds with
  | nil =>
    have start := h.start
    rw [List.forall₂_nil_left_iff.1 h.rules] at start
    cases start
  | cons d ds => exact h.start_rule.2

end Grammar

end Rowlang
