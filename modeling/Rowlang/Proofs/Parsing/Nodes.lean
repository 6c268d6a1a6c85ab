import Rowlang.Proofs.Grammar.Arena
import Rowlang.Proofs.Parsing.Ebnf

/-!
# The nodes that a rule is given

* `Body.Rows` : the tokens that a body can match, with the nodes that can be made of them, by what is known of
  leaf patterns and of named rules;
* `Grammar.Builds.rows` : what a builder is given, and what it makes, is as known, if it keeps to that for
  each rule;
* `Body.Makes`, `Grammar.Builds.makes` : the same of the nodes alone;
* `Body.Makes.forall`, `Body.Makes.mono` : what holds of them all, and what may be forgotten of them.
-/

namespace Rowlang

variable {σ ν : Type}

/-- The tokens that a body can match, with the nodes that can be made of them: those of a leaf pattern are
as `leaf` tells and those of a named rule as `rule` does. -/
def Body.Rows (leaf : LeafPattern → Token → ν → Prop) (rule : String → List Token → ν → Prop) :
    Body → List Token → List ν → Prop
  | .literal text, tokens, nodes => ∃ t node, tokens = [t] ∧ nodes = [node] ∧ leaf (.literal text) t node
  | .name n, tokens, nodes =>
    match lexicalPatterns.lookup n with
    | some source => ∃ t node, tokens = [t] ∧ nodes = [node] ∧ leaf (.regex n source) t node
    | none => ∃ node, nodes = [node] ∧ rule n tokens node
  | .seq x y, tokens, nodes => ∃ u v us vs, tokens = u ++ v ∧ nodes = us ++ vs ∧
      x.Rows leaf rule u us ∧ y.Rows leaf rule v vs
  | .alt x y, tokens, nodes => x.Rows leaf rule tokens nodes ∨ y.Rows leaf rule tokens nodes
  | .opt x, tokens, nodes => (tokens = [] ∧ nodes = []) ∨ x.Rows leaf rule tokens nodes
  | .star x, tokens, nodes => ∃ rounds : List (List Token × List ν),
      tokens = rounds.flatMap (·.1) ∧ nodes = rounds.flatMap (·.2) ∧
        ∀ r ∈ rounds, x.Rows leaf rule r.1 r.2
  | .plus x, tokens, nodes => ∃ rounds : List (List Token × List ν),
      tokens = rounds.flatMap (·.1) ∧ nodes = rounds.flatMap (·.2) ∧ rounds ≠ [] ∧
        ∀ r ∈ rounds, x.Rows leaf rule r.1 r.2
  | .ahead _, tokens, nodes => tokens = [] ∧ nodes = []
  | .guarded x, tokens, nodes => x.Rows leaf rule tokens nodes

/-- The rows of nodes that the parts of a body make, those of a leaf pattern being as `leaf` tells and
those of a named rule as `rule` does. -/
def Body.Makes (leaf : LeafPattern → ν → Prop) (rule : String → ν → Prop) : Body → List ν → Prop
  | .literal text, nodes => ∃ node, nodes = [node] ∧ leaf (.literal text) node
  | .name n, nodes =>
    match lexicalPatterns.lookup n with
    | some source => ∃ node, nodes = [node] ∧ leaf (.regex n source) node
    | none => ∃ node, nodes = [node] ∧ rule n node
  | .seq x y, nodes => ∃ us vs, nodes = us ++ vs ∧ x.Makes leaf rule us ∧ y.Makes leaf rule vs
  | .alt x y, nodes => x.Makes leaf rule nodes ∨ y.Makes leaf rule nodes
  | .opt x, nodes => nodes = [] ∨ x.Makes leaf rule nodes
  | .star x, nodes => ∃ rounds : List (List ν), nodes = rounds.flatten ∧
      ∀ row ∈ rounds, x.Makes leaf rule row
  | .plus x, nodes => ∃ rounds : List (List ν), nodes = rounds.flatten ∧ rounds ≠ [] ∧
      ∀ row ∈ rounds, x.Makes leaf rule row
  | .ahead _, nodes => nodes = []
  | .guarded x, nodes => x.Makes leaf rule nodes

section Names
variable {n : String} {nodes : List ν}

theorem Body.rows_rule {leaf : LeafPattern → Token → ν → Prop} {rule : String → List Token → ν → Prop}
    {tokens : List Token} (other : lexicalPatterns.lookup n = none) :
    (Body.name n).Rows leaf rule tokens nodes ↔ ∃ node, nodes = [node] ∧ rule n tokens node := by
  simp only [Rows, other]

theorem Body.rows_lexical {leaf : LeafPattern → Token → ν → Prop}
    {rule : String → List Token → ν → Prop} {tokens : List Token} {source : String}
    (known : lexicalPatterns.lookup n = some source) :
    (Body.name n).Rows leaf rule tokens nodes ↔
      ∃ t node, tokens = [t] ∧ nodes = [node] ∧ leaf (.regex n source) t node := by
  simp only [Rows, known]

variable {leaf : LeafPattern → ν → Prop} {rule : String → ν → Prop}

theorem Body.makes_rule (other : lexicalPatterns.lookup n = none) :
    (Body.name n).Makes leaf rule nodes ↔ ∃ node, nodes = [node] ∧ rule n node := by
  simp only [Makes, other]

theorem Body.makes_lexical {source : String} (known : lexicalPatterns.lookup n = some source) :
    (Body.name n).Makes leaf rule nodes ↔ ∃ node, nodes = [node] ∧ leaf (.regex n source) node := by
  simp only [Makes, known]

end Names

/-- The tokens and their nodes are as `leaf` tells, and so are those of all parts of a derivation. -/
theorem Grammar.Builds.rows {g : Grammar} {rules : List Definition} {b : TreeBuilder σ ν}
    {leaf : LeafPattern → Token → ν → Prop} {rule : String → List Token → ν → Prop}
    (defines : g.Defines rules)
    (keeps : ∀ d ∈ rules, ∀ tokens children node before after, d.body.Rows leaf rule tokens children →
      b.rule d.name children before = (.ok node, after) → rule d.name tokens node)
    {id : Nat} {tokens : List Token} {nodes : List ν} (h : g.Builds b id tokens nodes)
    (known : ∀ t ∈ tokens, ∀ p, g.Is p t → leaf p t (b.token t)) :
    ∀ body, g.realises rules body id = true → body.Rows leaf rule tokens nodes := by
  induction h with
  | @token id t shape =>
    intro body realised
    have known := known t (List.mem_singleton_self t)
    cases defines.made_of_shape shape realised with
    | literal is => exact ⟨t, _, rfl, rfl, known _ is⟩
    | lexical lexical is => exact (Body.rows_lexical lexical).2 ⟨t, _, rfl, rfl, known _ is⟩
  | seq shape _ _ ihl ihr =>
    intro body realised
    obtain ⟨known, known'⟩ := List.forall_mem_append.1 known
    cases defines.made_of_shape shape realised with
    | seq first second => exact ⟨_, _, _, _, rfl, rfl, ihl known _ first, ihr known' _ second⟩
  | altLeft shape _ ih =>
    intro body realised
    cases defines.made_of_shape shape realised with
    | alt first second => exact .inl (ih known _ first)
  | altRight shape _ ih =>
    intro body realised
    cases defines.made_of_shape shape realised with
    | alt first second => exact .inr (ih known _ second)
  | optNone shape =>
    intro body realised
    cases defines.made_of_shape shape realised with
    | opt inner => exact .inl ⟨rfl, rfl⟩
  | optSome shape _ ih =>
    intro body realised
    cases defines.made_of_shape shape realised with
    | opt inner => exact .inr (ih known _ inner)
  | @star id child rounds shape _ ih =>
    intro body realised
    cases defines.made_of_shape shape realised with
    | star inner =>
      exact ⟨rounds, rfl, rfl, fun r listed =>
        ih r listed (fun t ht => known t (List.mem_flatMap.2 ⟨r, listed, ht⟩)) _ inner⟩
  | @plus id child rounds shape some_round _ ih =>
    intro body realised
    cases defines.made_of_shape shape realised with
    | plus inner =>
      exact ⟨rounds, rfl, rfl, some_round, fun r listed =>
        ih r listed (fun t ht => known t (List.mem_flatMap.2 ⟨r, listed, ht⟩)) _ inner⟩
  | ahead shape =>
    intro body realised
    cases defines.made_of_shape shape realised with
    | ahead => exact ⟨rfl, rfl⟩
  | guarded shape _ ih =>
    intro body realised
    cases defines.made_of_shape shape realised with
    | guarded inner =>
      have made := ih known _ inner
      exact made
  | named shape _ built ih =>
    intro body realised
    cases defines.made_of_shape shape realised with
    | rule other defined name inner =>
      rw [name] at built
      exact (Body.rows_rule other).2 ⟨_, rfl, keeps _ defined _ _ _ _ _ (ih known _ inner) built⟩

/-- The nodes of a row. -/
theorem Body.Rows.makes {leaf : LeafPattern → ν → Prop} {rule : String → ν → Prop} {x : Body}
    {tokens : List Token} {nodes : List ν}
    (h : x.Rows (fun p _ node => leaf p node) (fun n _ node => rule n node) tokens nodes) :
    x.Makes leaf rule nodes := by
  induction x generalizing tokens nodes with
  | literal text =>
    obtain ⟨_, node, -, rfl, is⟩ := h
    exact ⟨node, rfl, is⟩
  | name n =>
    unfold Rows at h
    split at h
    · obtain ⟨_, node, -, rfl, is⟩ := h
      exact (makes_lexical ‹_›).2 ⟨node, rfl, is⟩
    · exact (makes_rule ‹_›).2 h
  | seq x y ihx ihy =>
    obtain ⟨_, _, us, vs, -, rfl, first, second⟩ := h
    exact ⟨us, vs, rfl, ihx first, ihy second⟩
  | alt x y ihx ihy => exact h.imp ihx ihy
  | opt x ih => exact h.imp And.right ih
  | star x ih =>
    obtain ⟨rounds, -, rfl, each⟩ := h
    refine ⟨rounds.map (·.2), List.flatMap_def, fun row listed => ?_⟩
    obtain ⟨r, hr, rfl⟩ := List.mem_map.1 listed
    exact ih (each r hr)
  | plus x ih =>
    obtain ⟨rounds, -, rfl, some_round, each⟩ := h
    refine ⟨rounds.map (·.2), List.flatMap_def, by simpa using some_round, fun row listed => ?_⟩
    obtain ⟨r, hr, rfl⟩ := List.mem_map.1 listed
    exact ih (each r hr)
  | ahead count => exact h.2
  | guarded x ih =>
    have made := ih h
    exact made

/-- The nodes of tokens are as `leaf` tells, and so are those of all parts of a derivation. -/
theorem Grammar.Builds.makes {g : Grammar} {rules : List Definition} {b : TreeBuilder σ ν}
    {leaf : LeafPattern → ν → Prop} {rule : String → ν → Prop} (defines : g.Defines rules)
    (keeps : ∀ d ∈ rules, ∀ children node before after, d.body.Makes leaf rule children →
      b.rule d.name children before = (.ok node, after) → rule d.name node)
    {id : Nat} {tokens : List Token} {nodes : List ν} (h : g.Builds b id tokens nodes)
    (known : ∀ t ∈ tokens, ∀ p, g.Is p t → leaf p (b.token t)) :
    ∀ body, g.realises rules body id = true → body.Makes leaf rule nodes := by
  intro body realised
  have keeps' : ∀ d ∈ rules, ∀ tokens children node before after,
      d.body.Rows (fun p _ node => leaf p node) (fun n _ node => rule n node) tokens children →
        b.rule d.name children before = (.ok node, after) → rule d.name node :=
    fun d defined _ _ _ _ _ rows => keeps d defined _ _ _ _ rows.makes
  exact (h.rows defines keeps' known body realised).makes

/-- What holds of the nodes of all leaf patterns and of all named rules in a body holds of a row of them. -/
theorem Body.Makes.forall {leaf : LeafPattern → ν → Prop} {rule : String → ν → Prop} {P : ν → Prop} {x : Body}
    (leaves : ∀ p ∈ x.leaves, ∀ node, leaf p node → P node)
    (rules : ∀ n ∈ x.mentions, ∀ node, rule n node → P node) {nodes : List ν} (h : x.Makes leaf rule nodes) :
    ∀ node ∈ nodes, P node := by
  induction x generalizing nodes with
  | literal text =>
    obtain ⟨node, rfl, is⟩ := h
    exact List.forall_mem_singleton.2 (leaves _ (List.mem_singleton_self _) _ is)
  | name n =>
    cases known : lexicalPatterns.lookup n with
    | some source =>
      obtain ⟨node, rfl, is⟩ := (makes_lexical known).1 h
      exact List.forall_mem_singleton.2 (leaves _ (by simp [Body.leaves, known]) _ is)
    | none =>
      obtain ⟨node, rfl, is⟩ := (makes_rule known).1 h
      exact List.forall_mem_singleton.2 (rules _ (by simp [Body.mentions, known]) _ is)
  | seq x y ihx ihy =>
    obtain ⟨us, vs, rfl, first, second⟩ := h
    exact List.forall_mem_append.2
      ⟨ihx (fun p listed => leaves p (List.mem_append_left _ listed))
          (fun n listed => rules n (List.mem_append_left _ listed)) first,
        ihy (fun p listed => leaves p (List.mem_append_right _ listed))
          (fun n listed => rules n (List.mem_append_right _ listed)) second⟩
  | alt x y ihx ihy =>
    exact h.elim
      (ihx (fun p listed => leaves p (List.mem_append_left _ listed))
        fun n listed => rules n (List.mem_append_left _ listed))
      (ihy (fun p listed => leaves p (List.mem_append_right _ listed))
        fun n listed => rules n (List.mem_append_right _ listed))
  | opt x ih =>
    rcases h with rfl | h
    · exact List.forall_mem_nil P
    · exact ih leaves rules h
  | star x ih =>
    obtain ⟨rounds, rfl, each⟩ := h
    exact List.forall_mem_flatten.2 fun row listed => ih leaves rules (each row listed)
  | plus x ih =>
    obtain ⟨rounds, rfl, -, each⟩ := h
    exact List.forall_mem_flatten.2 fun row listed => ih leaves rules (each row listed)
  | ahead count =>
    obtain rfl : nodes = [] := h
    exact List.forall_mem_nil P
  | guarded x ih =>
    have made : x.Makes leaf rule nodes := h
    exact ih leaves rules made

/-- Less may be known of leaf patterns and of named rules. -/
theorem Body.Makes.mono {leaf leaf' : LeafPattern → ν → Prop} {rule rule' : String → ν → Prop}
    (leaves : ∀ p node, leaf p node → leaf' p node) (rules : ∀ n node, rule n node → rule' n node) {x : Body}
    {nodes : List ν} (h : x.Makes leaf rule nodes) : x.Makes leaf' rule' nodes := by
  induction x generalizing nodes with
  | literal text =>
    obtain ⟨node, rfl, is⟩ := h
    exact ⟨node, rfl, leaves _ _ is⟩
  | name n =>
    unfold Makes at h ⊢
    split at h
    · obtain ⟨node, rfl, is⟩ := h
      exact ⟨node, rfl, leaves _ _ is⟩
    · obtain ⟨node, rfl, is⟩ := h
      exact ⟨node, rfl, rules _ _ is⟩
  | seq x y ihx ihy =>
    obtain ⟨us, vs, rfl, first, second⟩ := h
    exact ⟨us, vs, rfl, ihx first, ihy second⟩
  | alt x y ihx ihy => exact h.imp ihx ihy
  | opt x ih => exact h.imp_right ih
  | star x ih =>
    obtain ⟨rounds, rfl, each⟩ := h
    exact ⟨rounds, rfl, fun row listed => ih (each row listed)⟩
  | plus x ih =>
    obtain ⟨rounds, rfl, some_round, each⟩ := h
    exact ⟨rounds, rfl, some_round, fun row listed => ih (each row listed)⟩
  | ahead count => exact h
  | guarded x ih =>
    have made : x.Makes leaf rule nodes := h
    exact ih made

end Rowlang
