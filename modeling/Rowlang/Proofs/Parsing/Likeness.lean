import Mathlib.Data.List.Forall2
import Rowlang.Proofs.Parsing.Simulation

/-!
# Texts with like tokens

A parser asks of a token only which pattern it belongs to; all else of it goes to the builder. So where the
tokens of two texts are of the same patterns, and the builder makes nodes that are alike of tokens that are,
both texts are parsed, and to nodes that are alike, or neither is.

* `Alongside` : two computations that both succeed with related values, or both fail;
* `Stream.Like`, `ParseState.Like` : what is left of two texts with related tokens;
* `TreeBuilder.Respects` : a builder makes related nodes of related ones;
* `Grammar.SameRules` : grammars that may differ in how they treat comments only;
* `Grammar.alongside_lookAhead`, `Parser.alongside_tryParse` : checks, and attempts of a rule;
* `Parser.alongside_parseAll` : and parses of all that is left.
-/

namespace Rowlang
open Rowlang.Text

/-! ## One computation along with another -/

/-- Both computations succeed, with related values and related states behind them, or both fail. -/
inductive Alongside {ε α α' τ τ' : Type} (Q : α → α' → Prop) (S : τ → τ' → Prop) :
    Except ε α × τ → Except ε α' × τ' → Prop
  | ok {x x' s s'} (value : Q x x') (state : S s s') : Alongside Q S (.ok x, s) (.ok x', s')
  | error {e e' s s'} : Alongside Q S (.error e, s) (.error e', s')

theorem Alongside.follow {α α' β β' τ τ' : Type} {Q : α → α' → Prop} {Q' : β → β' → Prop}
    {S : τ → τ' → Prop} {first : Except ParseError α × τ} {first' : Except ParseError α' × τ'}
    {next : α → τ → Except ParseError β × τ} {next' : α' → τ' → Except ParseError β' × τ'}
    (h : Alongside Q S first first')
    (later : ∀ x x' s s', Q x x' → S s s' → Alongside Q' S (next x s) (next' x' s')) :
    Alongside Q' S (andThen first next) (andThen first' next') := by
  cases h with
  | ok value state => exact later _ _ _ _ value state
  | error => exact .error

/-! ## What is left of two texts -/

section
variable {R : Token → Token → Prop}

theorem rel_getElem? {α β : Type} {R : α → β → Prop} {l : List α} {l' : List β} (h : List.Forall₂ R l l')
    (n : Nat) : Option.Rel R l[n]? l'[n]? := by
  induction h generalizing n with
  | nil => exact .none
  | cons first _ ih =>
    cases n with
    | zero => exact .some first
    | succ n => exact ih n

/-- Two streams with related tokens to come, of texts that can be scanned to their ends. -/
structure Stream.Like (R : Token → Token → Prop) (s s' : Stream) : Prop where
  rest : List.Forall₂ R s.rest s'.rest
  complete : s.Complete
  complete' : s'.Complete

namespace Stream.Like

variable {s s' t t' : Stream}

theorem of_agrees (h : s.Like R s') (agrees : s.Agrees t) (agrees' : s'.Agrees t') : t.Like R t' where
  rest := by
    rw [agrees.rest, agrees'.rest]
    exact h.rest
  complete := h.complete.of_agrees agrees
  complete' := h.complete'.of_agrees agrees'

theorem advance (h : s.Like R s') : s.advance.Like R s'.advance where
  rest := by
    have tail {l l' : List Token} (h : List.Forall₂ R l l') : List.Forall₂ R l.tail l'.tail := by
      cases h with
      | nil => exact .nil
      | cons _ later => exact later
    exact tail h.rest
  complete := h.complete
  complete' := h.complete'

theorem length (h : s.Like R s') : s'.rest.length = s.rest.length := h.rest.length_eq.symm

theorem peek (h : s.Like R s') (n : Nat) : ∃ found found' t t', s.peek n = .ok (found, t) ∧
    s'.peek n = .ok (found', t') ∧ Option.Rel R found found' ∧ t.Like R t' := by
  obtain ⟨t, peek⟩ := h.complete.peek n
  obtain ⟨t', peek'⟩ := h.complete'.peek n
  exact ⟨_, _, t, t', peek, peek', rel_getElem? h.rest n,
    h.of_agrees (agrees_of_peek peek) (agrees_of_peek peek')⟩

theorem place? (h : s.Like R s') : ∃ place place' t t', s.place? = .ok (place, t) ∧
    s'.place? = .ok (place', t') ∧ t.Like R t' := by
  obtain ⟨place, t, begins⟩ := h.complete.place?
  obtain ⟨place', t', begins'⟩ := h.complete'.place?
  exact ⟨place, place', t, t', begins, begins',
    h.of_agrees (agrees_of_place? begins) (agrees_of_place? begins')⟩

end Stream.Like

/-- Two states with related tokens to come, and the same state of the builder. -/
structure ParseState.Like {σ : Type} (R : Token → Token → Prop) (s s' : ParseState σ) : Prop where
  stream : s.stream.Like R s'.stream
  building : s'.building = s.building

end

/-! ## Grammars and builders -/

/-- The grammars have the same rules over the same leaves. They may treat comments differently. -/
structure Grammar.SameRules (g g' : Grammar) : Prop where
  rules : g'.rules = g.rules
  lexicon : g'.lexicon = g.lexicon

namespace Grammar

theorem sameRules_withComments (g : Grammar) (mode : CommentMode) : g.SameRules (g.withComments mode) :=
  ⟨rfl, rfl⟩

variable {g g' : Grammar} (same : g.SameRules g')
include same

theorem SameRules.shape? (id : Nat) : g'.shape? id = g.shape? id := by
  rw [Grammar.shape?, Grammar.shape?, same.rules]

theorem SameRules.name? (id : Nat) : g'.name? id = g.name? id := by
  rw [Grammar.name?, Grammar.name?, same.rules]

theorem SameRules.guard? (id : Nat) : g'.guard? id = g.guard? id := by
  unfold Grammar.guard?
  simp only [same.shape?]

theorem SameRules.describeIn (outer : Binding) (id : Nat) :
    g'.describeIn outer id = g.describeIn outer id := by
  cases made : g.shape? id with
  | none =>
    have made' := (same.shape? id).trans made
    rw [Grammar.describeIn, Grammar.describeIn]
    split <;> rename_i h <;> cases made'.symm.trans h
    split <;> rename_i h' <;> cases made.symm.trans h'
    rfl
  | some shape =>
  have each (outer : Binding) (c : Nat) (part : c ∈ shape.parts) :
      g'.describeIn outer c = g.describeIn outer c :=
    have := g.part_lt made part
    SameRules.describeIn outer c
  rw [describeIn_of_shape ((same.shape? id).trans made), describeIn_of_shape made]
  cases shape with
  | token p =>
    unfold describeLeaf
    rw [same.lexicon]
  | named body => simp only [same.name?]
  | ahead count => rfl
  | seq l r => simp only [each _ l (by simp [Shape.parts]), each _ r (by simp [Shape.parts])]
  | alt l r => simp only [each _ l (by simp [Shape.parts]), each _ r (by simp [Shape.parts])]
  | opt c => simp only [each _ c (by simp [Shape.parts])]
  | star c => simp only [each _ c (by simp [Shape.parts])]
  | plus c => simp only [each _ c (by simp [Shape.parts])]
  | guarded c count => simp only [each _ c (by simp [Shape.parts])]
termination_by id

theorem SameRules.ruleName (id : Nat) : g'.ruleName id = g.ruleName id := by
  rw [Grammar.ruleName, Grammar.ruleName, Grammar.describe, Grammar.describe, same.name?, same.describeIn]

end Grammar

/-- The builder makes nodes in the relation `N` of tokens in the relation `R`, and of nodes that are in the
relation `N` themselves, from the same state. -/
structure TreeBuilder.Respects {σ ν : Type} (b : TreeBuilder σ ν) (R : Token → Token → Prop)
    (N : ν → ν → Prop) : Prop where
  token : ∀ t t', R t t' → N (b.token t) (b.token t')
  rule : ∀ name children children' s, List.Forall₂ N children children' →
    Alongside N (fun s s' => s' = s) (b.rule name children s) (b.rule name children' s)

/-- Related tokens have the same pattern. -/
def PatternWise (R : Token → Token → Prop) : Prop := ∀ t t', R t t' → t'.pattern = t.pattern

/-! ## Checks -/

section
variable {R : Token → Token → Prop}

/-- Two checks find the same, or both meet an error. -/
abbrev Finding.Alongside (R : Token → Token → Prop) (r r' : Finding × Stream) : Prop :=
  Rowlang.Alongside (fun fit fit' => fit' = fit) (Stream.Like R) r r'

theorem alongside_fitMany {check check' : Check} {s s' : Stream}
    (zero : ∀ index s, check 0 index s = (.ok (some (0, index)), s))
    (zero' : ∀ index s, check' 0 index s = (.ok (some (0, index)), s))
    (each : ∀ budget index s s', s.Like R s' →
      Finding.Alongside R (check budget index s) (check' budget index s'))
    (like : s.Like R s') (budget index : Nat) :
    Finding.Alongside R (s.fitMany check budget index) (s'.fitMany check' budget index) := by
  rw [fitMany_eq (zero ..), fitMany_eq (zero' ..)]
  refine (each budget index s s' like).follow fun fit fit' t t' same like => ?_
  subst same
  rcases fit' with _ | ⟨budget', index'⟩
  · exact .ok rfl like
  · dsimp only
    split
    · exact alongside_fitMany zero zero' each like budget' index'
    · exact .ok rfl like
termination_by budget

/-- A check finds the same in front of related tokens. -/
theorem Grammar.alongside_lookAhead {g g' : Grammar} (same : g.SameRules g') (patterns : PatternWise R)
    (limit depth id budget index : Nat) {s s' : Stream} (like : s.Like R s') :
    Finding.Alongside R (g.lookAhead limit depth id budget index s)
      (g'.lookAhead limit depth id budget index s') := by
  cases budget with
  | zero =>
    rw [lookAhead_zero, lookAhead_zero]
    exact .ok rfl like
  | succ budget =>
  cases shape : g.shape? id with
  | none =>
    rw [lookAhead_undefined shape, lookAhead_undefined ((same.shape? id).trans shape)]
    exact .ok rfl like
  | some made =>
  have shape' := (same.shape? id).trans shape
  have each (c : Nat) (part : c ∈ made.parts) (budget index : Nat) (t t' : Stream) (like : t.Like R t') :
      Finding.Alongside R (g.lookAhead limit depth c budget index t)
        (g'.lookAhead limit depth c budget index t') :=
    have := g.rank_part_lt (limit - depth) shape part
    alongside_lookAhead same patterns limit depth c budget index like
  have many (c : Nat) (part : c ∈ made.parts) (budget index : Nat) {t t' : Stream} (like : t.Like R t') :
      Finding.Alongside R (t.fitMany (g.lookAhead limit depth c) budget index)
        (t'.fitMany (g'.lookAhead limit depth c) budget index) :=
    alongside_fitMany (fun _ _ => lookAhead_zero _) (fun _ _ => lookAhead_zero _) (each c part) like
      budget index
  cases made with
  | token k =>
    obtain ⟨found, found', t, t', peek, peek', related, like⟩ := like.peek index
    rw [lookAhead_leaf shape, lookAhead_leaf shape', peek, peek']
    cases related with
    | none => exact .ok rfl like
    | some related => exact .ok (by rw [patterns _ _ related]) like
  | seq left right =>
    rw [lookAhead_seqThen shape, lookAhead_seqThen shape']
    refine (each left (by simp [Shape.parts]) _ _ s s' like).follow fun fit fit' t t' same like => ?_
    subst same
    rcases fit' with _ | ⟨budget', index'⟩
    · exact .ok rfl like
    · exact each right (by simp [Shape.parts]) _ _ t t' like
  | alt left right =>
    rw [lookAhead_alt shape, lookAhead_alt shape']
    refine (each left (by simp [Shape.parts]) _ _ s s' like).follow fun fit fit' t t' same like => ?_
    subst same
    rcases fit' with _ | fit
    · exact each right (by simp [Shape.parts]) _ _ t t' like
    · exact .ok rfl like
  | opt child =>
    rw [lookAhead_opt shape, lookAhead_opt shape']
    refine (each child (by simp [Shape.parts]) _ _ s s' like).follow fun fit fit' t t' same like => ?_
    subst same
    exact .ok rfl like
  | star child =>
    rw [lookAhead_star shape, lookAhead_star shape']
    exact many child (by simp [Shape.parts]) _ _ like
  | plus child =>
    rw [lookAhead_plus shape, lookAhead_plus shape']
    refine (each child (by simp [Shape.parts]) _ _ s s' like).follow fun fit fit' t t' same like => ?_
    subst same
    rcases fit' with _ | ⟨budget', index'⟩
    · exact .ok rfl like
    · exact many child (by simp [Shape.parts]) _ _ like
  | ahead count =>
    rw [lookAhead_ahead shape, lookAhead_ahead shape']
    exact .ok rfl like
  | guarded child count =>
    have guard : g.guard? id = some (child, count) := by simp [guard?, shape]
    rw [lookAhead_guard guard, lookAhead_guard ((same.guard? id).trans guard)]
    exact each child (by simp [Shape.parts]) _ _ s s' like
  | named body =>
    by_cases shallow : depth < limit
    · have := g.rank_body_lt shallow id body
      rw [lookAhead_named shape shallow, lookAhead_named shape' shallow]
      exact alongside_lookAhead same patterns limit _ body _ index like
    · rw [lookAhead_deep shape shallow, lookAhead_deep shape' shallow]
      exact .error
termination_by g.rank (limit - depth) id

end

/-! ## Attempts -/

namespace Parser

variable {σ ν : Type} {R : Token → Token → Prop} {N : ν → ν → Prop}

theorem alongside_rounds {one one' : ParseState σ → Outcome ν × ParseState σ}
    (each : ∀ s s', s.Like R s' →
      Alongside (Option.Rel (List.Forall₂ N)) (ParseState.Like R) (one s) (one' s'))
    {s s' : ParseState σ} (like : s.Like R s') :
    Alongside (List.Forall₂ N) (ParseState.Like R) (rounds one s) (rounds one' s') := by
  rw [rounds_eq, rounds_eq]
  refine (each s s' like).follow fun nodes nodes' s₁ s₁' related like₁ => ?_
  cases related with
  | none => exact .ok .nil like₁
  | some related =>
    dsimp only
    rw [like.stream.length, like₁.stream.length]
    split
    · exact (alongside_rounds each like₁).follow fun more more' s₂ s₂' related' like₂ =>
        .ok (List.rel_append related related') like₂
    · exact .ok related like₁
termination_by s.stream.rest.length

/-- The parsers run grammars with the same rules, to the same depth, and have one builder, which respects the
relations. -/
structure Like (p p' : Parser σ ν) (R : Token → Token → Prop) (N : ν → ν → Prop) : Prop where
  grammar : p.grammar.SameRules p'.grammar
  limit : p'.limit = p.limit
  builder : p'.builder = p.builder
  patterns : PatternWise R
  respects : p.builder.Respects R N

variable {p p' : Parser σ ν} (both : p.Like p' R N)
include both

theorem Like.look {s s' : ParseState σ} (like : s.Like R s') (depth child count : Nat) :
    Alongside (fun fit fit' => fit' = fit) (ParseState.Like R)
      (s.look (p.grammar.lookAhead p.limit depth child count 0 s.stream))
      (s'.look (p'.grammar.lookAhead p'.limit depth child count 0 s'.stream)) := by
  have look := Grammar.alongside_lookAhead both.grammar both.patterns p.limit depth child count 0 like.stream
  rw [both.limit]
  generalize p.grammar.lookAhead p.limit depth child count 0 s.stream = found at look ⊢
  generalize p'.grammar.lookAhead p.limit depth child count 0 s'.stream = found' at look ⊢
  cases look with
  | ok value state => exact .ok value ⟨state, like.building⟩
  | error => exact .error

theorem Like.rule {children children' : List ν} (related : List.Forall₂ N children children') (id : Nat)
    {s s' : ParseState σ} (like : s.Like R s') : Alongside N (fun b b' => b' = b)
      (p.builder.rule (p.grammar.ruleName id) children s.building)
      (p'.builder.rule (p'.grammar.ruleName id) children' s'.building) := by
  rw [both.builder, both.grammar.ruleName, like.building]
  exact both.respects.rule _ _ _ _ related

/-- In front of related tokens the parsers make related nodes of a rule, or both fail. -/
theorem alongside_tryParse (depth : Nat) (within : Option Nat) (id : Nat) {s s' : ParseState σ}
    (like : s.Like R s') : Alongside (Option.Rel (List.Forall₂ N)) (ParseState.Like R)
      (p.tryParse depth within id s) (p'.tryParse depth within id s') := by
  cases shape : p.grammar.shape? id with
  | none =>
    rw [tryParse_undefined shape, tryParse_undefined ((both.grammar.shape? id).trans shape)]
    exact .ok .none like
  | some made =>
  have shape' := (both.grammar.shape? id).trans shape
  have each (c : Nat) (part : c ∈ made.parts) {t t' : ParseState σ} (like : t.Like R t') :
      Alongside (Option.Rel (List.Forall₂ N)) (ParseState.Like R) (p.tryParse depth within c t)
        (p'.tryParse depth within c t') :=
    have := p.grammar.rank_part_lt (p.limit - depth) shape part
    alongside_tryParse depth within c like
  have many (c : Nat) (part : c ∈ made.parts) {t t' : ParseState σ} (like : t.Like R t') :
      Alongside (List.Forall₂ N) (ParseState.Like R) (rounds (p.tryParse depth within c) t)
        (rounds (p'.tryParse depth within c) t') :=
    alongside_rounds (fun _ _ like => each c part like) like
  cases guard : p.grammar.guard? id with
  | some found =>
    rw [tryParse_guard guard, tryParse_guard ((both.grammar.guard? id).trans guard)]
    refine (both.look like depth _ _).follow fun fit fit' t t' same like => ?_
    subst same
    cases fit' with
    | none => exact .ok .none like
    | some fit => exact each _ (Grammar.mem_parts_of_guard? guard shape) like
  | none =>
  cases made with
  | token k =>
    obtain ⟨found, found', t, t', peek, peek', related, ahead⟩ := like.stream.peek 0
    rw [tryParse_token shape, tryParse_token shape', peek, peek', both.builder]
    cases related with
    | none => exact .ok .none ⟨ahead, like.building⟩
    | some related =>
      dsimp only
      rw [both.patterns _ _ related]
      split
      · exact .ok (.some (.cons (both.respects.token _ _ related) .nil)) ⟨ahead.advance, like.building⟩
      · exact .ok .none ⟨ahead, like.building⟩
  | seq left right =>
    rw [tryParse_seq shape guard, tryParse_seq shape' ((both.grammar.guard? id).trans guard)]
    refine (each left (by simp [Shape.parts]) like).follow fun nodes nodes' t t' related like₁ => ?_
    cases related with
    | none => exact .ok .none like₁
    | some related =>
    refine (each right (by simp [Shape.parts]) like₁).follow fun more more' u u' related' like₂ => ?_
    cases related' with
    | some related' => exact .ok (.some (List.rel_append related related')) like₂
    | none =>
      dsimp only
      rw [like.stream.length, like₂.stream.length]
      split
      · exact .ok .none like₂
      · exact .error
  | alt left right =>
    rw [tryParse_alt shape, tryParse_alt shape']
    refine (each left (by simp [Shape.parts]) like).follow fun nodes nodes' t t' related like₁ => ?_
    cases related with
    | none => exact each right (by simp [Shape.parts]) like₁
    | some related => exact .ok (.some related) like₁
  | opt child =>
    rw [tryParse_opt shape, tryParse_opt shape']
    refine (each child (by simp [Shape.parts]) like).follow fun nodes nodes' t t' related like₁ => ?_
    cases related with
    | none => exact .ok (.some .nil) like₁
    | some related => exact .ok (.some related) like₁
  | star child =>
    rw [tryParse_star shape, tryParse_star shape']
    exact (many child (by simp [Shape.parts]) like).follow fun _ _ _ _ related like₁ =>
      .ok (.some related) like₁
  | plus child =>
    rw [tryParse_plus shape, tryParse_plus shape']
    refine (each child (by simp [Shape.parts]) like).follow fun nodes nodes' t t' related like₁ => ?_
    cases related with
    | none => exact .ok .none like₁
    | some related =>
      exact (many child (by simp [Shape.parts]) like₁).follow fun _ _ _ _ related' like₂ =>
        .ok (.some (List.rel_append related related')) like₂
  | ahead count =>
    rw [tryParse_ahead shape, tryParse_ahead shape']
    exact .ok (.some .nil) like
  | guarded child count => simp [Grammar.guard?, shape] at guard
  | named body =>
    by_cases shallow : depth < p.limit
    · have := p.grammar.rank_body_lt shallow id body
      obtain ⟨place, place', t, t', begins, begins', ahead⟩ := like.stream.place?
      rw [tryParse_named shape shallow, tryParse_named shape' (both.limit ▸ shallow), begins, begins']
      have like₀ : ParseState.Like R { s with stream := t } { s' with stream := t' } := ⟨ahead, like.building⟩
      refine (alongside_tryParse (depth + 1) (some id) body like₀).follow
        fun nodes nodes' u u' related like₁ => ?_
      cases related with
      | none => exact .ok .none like₁
      | some related =>
        have made := both.rule related id like₁
        dsimp only
        generalize p.builder.rule (p.grammar.ruleName id) _ u.building = result at made ⊢
        generalize p'.builder.rule (p'.grammar.ruleName id) _ u'.building = result' at made ⊢
        cases made with
        | ok node same => exact .ok (.some (.cons node .nil)) ⟨like₁.stream, same⟩
        | error => exact .error
    · rw [tryParse_deep shape shallow, tryParse_deep shape' (both.limit ▸ shallow)]
      exact .error
termination_by p.grammar.rank (p.limit - depth) id

/-- **Texts with like tokens** are both parsed, to related nodes, or neither is. -/
theorem alongside_parseAll (id : Nat) {s s' : ParseState σ} (like : s.Like R s') :
    Alongside N (ParseState.Like R) (p.parseAll id s) (p'.parseAll id s') := by
  rw [parseAll_eq, parseAll_eq]
  refine (alongside_tryParse both 0 none id like).follow fun nodes nodes' t t' related like₁ => ?_
  cases related with
  | none => exact .error
  | some related =>
  obtain ⟨found, found', u, u', peek, peek', behind, ahead⟩ := like₁.stream.peek 0
  dsimp only
  rw [peek, peek']
  cases behind with
  | some => exact .error
  | none =>
  have made := both.rule related id like₁
  rcases related with _ | ⟨node, _ | ⟨other, more⟩⟩
  case cons.nil => exact .ok node ⟨ahead, like₁.building⟩
  all_goals
    dsimp only
    generalize p.builder.rule (p.grammar.ruleName id) _ t.building = result at made ⊢
    generalize p'.builder.rule (p'.grammar.ruleName id) _ t'.building = result' at made ⊢
    cases made with
    | ok node same => exact .ok node ⟨ahead, same⟩
    | error => exact .error

end Parser

end Rowlang
