import Rowlang.Proofs.Parsing.Replay

/-!
# Two parsers of one grammar

Two parsers of one grammar may build different nodes, and the second may allow rules to be nested deeper.
As long as the first does not meet its limit, they go through the text side by side.

* `Mirrors` : what the second of two computations makes is what the first makes, with its values turned;
* `TreeBuilder.Hom` : a builder makes of turned nodes what another makes of the nodes, turned;
* `Grammar.lookAhead_mirrors` : checks with a limit that may be raised;
* `Parser.Hom` : a parser of the same grammar with no smaller a limit, and a builder of turned nodes;
* `Parser.Parallel`, `Parser.Hom.tryParse` : attempts of a rule stand side by side;
* `Parser.Hom.parseRule` : and so do parses of a whole text;
* `Parser.parseRule_fold` : a builder that refuses nothing makes the fold of the syntax tree.
-/

namespace Rowlang
open Rowlang.Text

/-! ## One computation beside another -/

section
variable {α β α' β' τ τ' : Type}

/-- The second result is the first with its value turned by `f`, and the states behind both are in the
relation `S`. If the limit is `raised` in the second, that is so unless the first has met it. -/
def Mirrors (raised : Prop) (f : α → α') (S : τ → τ' → Prop) (r : Except ParseError α × τ)
    (r' : Except ParseError α' × τ') : Prop :=
  (raised → ¬ MeetsLimit r.1) → r'.1 = r.1.map f ∧ S r.2 r'.2

theorem Mirrors.ok {raised : Prop} {f : α → α'} {S : τ → τ' → Prop} {s : τ} {s' : τ'} {x : α} {x' : α'}
    (value : x' = f x) (state : S s s') : Mirrors raised f S (.ok x, s) (.ok x', s') :=
  fun _ => ⟨congrArg Except.ok value, state⟩

theorem Mirrors.error {raised : Prop} {f : α → α'} {S : τ → τ' → Prop} {s : τ} {s' : τ'}
    {e e' : ParseError} (same : e' = e) (state : S s s') :
    Mirrors raised f S (.error e, s) (.error e', s') :=
  fun _ => ⟨congrArg Except.error same, state⟩

theorem Mirrors.follow {raised : Prop} {f : α → α'} {f' : β → β'} {S : τ → τ' → Prop}
    {first : Except ParseError α × τ} {first' : Except ParseError α' × τ'}
    {next : α → τ → Except ParseError β × τ} {next' : α' → τ' → Except ParseError β' × τ'}
    (h : Mirrors raised f S first first')
    (later : ∀ x s s', first = (.ok x, s) → S s s' → Mirrors raised f' S (next x s) (next' (f x) s')) :
    Mirrors raised f' S (andThen first next) (andThen first' next') := by
  intro reached
  obtain ⟨e | x, s⟩ := first
  · obtain ⟨outcome, state⟩ := h fun raised ⟨rule, limit, place, same⟩ => by
      cases same
      exact reached raised ⟨rule, limit, place, rfl⟩
    obtain ⟨r', s'⟩ := first'
    obtain rfl : r' = .error e := outcome
    exact ⟨rfl, state⟩
  · -- a first part that succeeds has not met the limit
    obtain ⟨outcome, state⟩ := h fun _ => by rintro ⟨_, _, _, ⟨⟩⟩
    obtain ⟨r', s'⟩ := first'
    obtain rfl : r' = .ok (f x) := outcome
    exact later x s s' rfl state reached

end

/-! ## Checks with a limit that may be raised -/

theorem fitMany_mirrors {raised : Prop} {check check' : Check} {s : Stream}
    (zero : ∀ index s, check 0 index s = (.ok (some (0, index)), s))
    (zero' : ∀ index s, check' 0 index s = (.ok (some (0, index)), s))
    (agrees : ∀ budget index (s : Stream), s.Agrees (check budget index s).2)
    (each : ∀ budget index (s : Stream), (raised → s.Complete) →
      Mirrors raised (fun fit => fit) Eq (check budget index s) (check' budget index s))
    (complete : raised → s.Complete) (budget index : Nat) :
    Mirrors raised (fun fit => fit) Eq (s.fitMany check budget index)
      (s.fitMany check' budget index) := by
  rw [fitMany_eq (zero ..), fitMany_eq (zero' ..)]
  refine (each budget index s complete).follow fun fit t t' found same => ?_
  subst same
  rcases fit with _ | ⟨budget', index'⟩
  · exact .ok rfl rfl
  · dsimp only
    split
    · have behind : raised → t.Complete := fun more =>
        (complete more).of_agrees (by simpa only [found] using agrees budget index s)
      exact fitMany_mirrors zero zero' agrees each behind budget' index'
    · exact .ok rfl rfl
termination_by budget

/-- A check finds the same with a larger limit, unless it meets the smaller one. -/
theorem Grammar.lookAhead_mirrors {g : Grammar} {n m : Nat} (more : n ≤ m)
    (depth id budget index : Nat) {s : Stream} (complete : n < m → s.Complete) :
    Mirrors (n < m) (fun fit => fit) Eq (g.lookAhead n depth id budget index s)
      (g.lookAhead m depth id budget index s) := by
  cases budget with
  | zero =>
    rw [lookAhead_zero, lookAhead_zero]
    exact .ok rfl rfl
  | succ budget =>
  cases shape : g.shape? id with
  | none =>
    rw [lookAhead_undefined shape, lookAhead_undefined shape]
    exact .ok rfl rfl
  | some made =>
  have each (c : Nat) (part : c ∈ made.parts) (budget index : Nat) (t : Stream)
      (complete : n < m → t.Complete) :
      Mirrors (n < m) (fun fit => fit) Eq (g.lookAhead n depth c budget index t)
        (g.lookAhead m depth c budget index t) :=
    have := g.rank_part_lt (n - depth) shape part
    lookAhead_mirrors more depth c budget index complete
  have many (c : Nat) (part : c ∈ made.parts) (budget index : Nat) (t : Stream)
      (complete : n < m → t.Complete) :
      Mirrors (n < m) (fun fit => fit) Eq (t.fitMany (g.lookAhead n depth c) budget index)
        (t.fitMany (g.lookAhead m depth c) budget index) :=
    fitMany_mirrors (fun _ _ => lookAhead_zero _) (fun _ _ => lookAhead_zero _)
      (g.agrees_lookAhead n depth c) (each c part) complete budget index
  have behind {c budget index : Nat} {t : Stream} {fit : Option (Nat × Nat)}
      (found : g.lookAhead n depth c budget index s = (.ok fit, t)) : n < m → t.Complete := by
    intro raised
    have agrees := g.agrees_lookAhead n depth c budget index s
    rw [found] at agrees
    exact (complete raised).of_agrees agrees
  cases made with
  | token k =>
    rw [lookAhead_leaf shape, lookAhead_leaf shape]
    rcases s.peek index with e | ⟨_ | t, s'⟩
    · exact .error rfl rfl
    · exact .ok rfl rfl
    · exact .ok rfl rfl
  | seq left right =>
    rw [lookAhead_seqThen shape, lookAhead_seqThen shape]
    refine (each left (by simp [Shape.parts]) _ _ s complete).follow fun fit t t' found same => ?_
    subst same
    rcases fit with _ | ⟨budget', index'⟩
    · exact .ok rfl rfl
    · exact each right (by simp [Shape.parts]) _ _ t (behind found)
  | alt left right =>
    rw [lookAhead_alt shape, lookAhead_alt shape]
    refine (each left (by simp [Shape.parts]) _ _ s complete).follow fun fit t t' found same => ?_
    subst same
    rcases fit with _ | fit
    · exact each right (by simp [Shape.parts]) _ _ t (behind found)
    · exact .ok rfl rfl
  | opt child =>
    rw [lookAhead_opt shape, lookAhead_opt shape]
    exact (each child (by simp [Shape.parts]) _ _ s complete).follow
      fun fit t t' found same => .ok rfl same
  | star child =>
    rw [lookAhead_star shape, lookAhead_star shape]
    exact many child (by simp [Shape.parts]) _ _ s complete
  | plus child =>
    rw [lookAhead_plus shape, lookAhead_plus shape]
    refine (each child (by simp [Shape.parts]) _ _ s complete).follow fun fit t t' found same => ?_
    subst same
    rcases fit with _ | ⟨budget', index'⟩
    · exact .ok rfl rfl
    · exact many child (by simp [Shape.parts]) _ _ t (behind found)
  | ahead count =>
    rw [lookAhead_ahead shape, lookAhead_ahead shape]
    exact .ok rfl rfl
  | guarded child count =>
    have guard : g.guard? id = some (child, count) := by simp [guard?, shape]
    rw [lookAhead_guard guard, lookAhead_guard guard]
    exact each child (by simp [Shape.parts]) _ _ s complete
  | named body =>
    by_cases shallow : depth < n
    · have := g.rank_body_lt shallow id body
      rw [lookAhead_named shape shallow, lookAhead_named shape (Nat.lt_of_lt_of_le shallow more)]
      exact lookAhead_mirrors more _ body _ index complete
    · intro reached
      rcases Nat.lt_or_eq_of_le more with raised | rfl
      · have deep := @lookAhead_deep g n depth id budget index s body shape shallow
        exact absurd (meetsLimit_of_lookAhead (complete raised) (congrArg Prod.fst deep))
          (reached raised)
      · exact ⟨(congrFun Except.map_id _).symm, rfl⟩
termination_by g.rank (n - depth) id

/-! ## Builders -/

/-- The builder `b'` makes of a token, and of the nodes that a rule matched, what `b` makes of them, turned
by `f`, the states of both being in the relation `S` all the time. -/
structure TreeBuilder.Hom {σ ν σ' ν' : Type} (b : TreeBuilder σ ν) (b' : TreeBuilder σ' ν') (f : ν → ν')
    (S : σ → σ' → Prop) : Prop where
  token : ∀ t, b'.token t = f (b.token t)
  rule : ∀ name children s s', S s s' →
    (b'.rule name (children.map f) s').1 = (b.rule name children s).1.map f ∧
      S (b.rule name children s).2 (b'.rule name (children.map f) s').2

theorem TreeBuilder.Hom.refl {σ ν : Type} (b : TreeBuilder σ ν) : b.Hom b (fun node => node) Eq where
  token t := rfl
  rule name children s s' same := by
    subst same
    rw [List.map_id']
    exact ⟨(congrFun Except.map_id _).symm, rfl⟩

/-- The second parser runs the same grammar with no smaller a limit, and its builder makes the nodes of the
first, turned by `f`. -/
structure Parser.Hom {σ ν σ' ν' : Type} (p : Parser σ ν) (p' : Parser σ' ν') (f : ν → ν')
    (S : σ → σ' → Prop) : Prop where
  grammar : p'.grammar = p.grammar
  limit : p.limit ≤ p'.limit
  builder : p.builder.Hom p'.builder f S

/-- Two states with the same tokens to come, and builders in the relation `S`. -/
structure ParseState.Beside {σ σ' : Type} (S : σ → σ' → Prop) (s : ParseState σ) (s' : ParseState σ') :
    Prop where
  stream : s'.stream = s.stream
  building : S s.building s'.building

theorem ParseState.Beside.scanned {σ σ' : Type} {S : σ → σ' → Prop} {s : ParseState σ}
    {s' : ParseState σ'} (h : s.Beside S s') (stream : Stream) :
    ParseState.Beside S { s with stream } { s' with stream } :=
  ⟨rfl, h.building⟩

theorem Mirrors.look {σ σ' α : Type} {raised : Prop} {S : σ → σ' → Prop} {s : ParseState σ}
    {s' : ParseState σ'} {found found' : Except ParseError α × Stream}
    (h : Mirrors raised (fun x => x) Eq found found') (beside : s.Beside S s') :
    Mirrors raised (fun x => x) (ParseState.Beside S) (s.look found) (s'.look found') := by
  intro reached
  obtain ⟨outcome, stream⟩ := h reached
  exact ⟨outcome, stream.symm, beside.building⟩

namespace Parser

variable {σ ν σ' ν' : Type} {S : σ → σ' → Prop} {f : ν → ν'}

/-! ## Attempts side by side -/

theorem rounds_mirrors {raised : Prop} {one : ParseState σ → Outcome ν × ParseState σ}
    {one' : ParseState σ' → Outcome ν' × ParseState σ'}
    (each : ∀ s s', s.Beside S s' → (raised → s.stream.Complete) →
      Mirrors raised (Option.map (List.map f)) (ParseState.Beside S) (one s) (one' s'))
    (ending : ∀ {s o s₁}, one s = (o, s₁) → s₁.stream.ending = s.stream.ending)
    {s : ParseState σ} {s' : ParseState σ'} (beside : s.Beside S s')
    (complete : raised → s.stream.Complete) :
    Mirrors raised (List.map f) (ParseState.Beside S) (rounds one s) (rounds one' s') := by
  rw [rounds_eq, rounds_eq]
  refine (each s s' beside complete).follow fun nodes s₁ s₁' found beside₁ => ?_
  cases nodes with
  | none => exact .ok rfl beside₁
  | some nodes =>
    dsimp only [Option.map]
    rw [beside.stream, beside₁.stream]
    split
    · have behind : raised → s₁.stream.Complete := by
        intro more
        obtain ⟨place, ended⟩ := complete more
        exact ⟨place, (ending found).trans ended⟩
      refine (rounds_mirrors each ending beside₁ behind).follow fun more s₂ s₂' _ beside₂ => ?_
      exact .ok List.map_append.symm beside₂
    · exact .ok rfl beside₁
termination_by s.stream.rest.length

/-- Attempts of a rule stand side by side, from states that do. If the second limit is larger, the text ends
where it can be scanned to. -/
def Parallel (p : Parser σ ν) (p' : Parser σ' ν') (S : σ → σ' → Prop) (f : ν → ν') (depth : Nat)
    (within : Option Nat) (id : Nat) : Prop :=
  ∀ s s', s.Beside S s' → (p.limit < p'.limit → s.stream.Complete) →
    Mirrors (p.limit < p'.limit) (Option.map (List.map f)) (ParseState.Beside S)
      (p.tryParse depth within id s) (p'.tryParse depth within id s')

/-- What is left behind an attempt can be scanned to its end, if that is so in front of it. -/
theorem complete_behind {p : Parser σ ν} {depth : Nat} {within : Option Nat} {id : Nat} {s s₁ : ParseState σ}
    {o : Outcome ν} (found : p.tryParse depth within id s = (o, s₁)) {raised : Prop}
    (complete : raised → s.stream.Complete) (more : raised) : s₁.stream.Complete := by
  obtain ⟨place, ended⟩ := complete more
  exact ⟨place, (run_of_tryParse found).ending.trans ended⟩

section
variable {p : Parser σ ν} {p' : Parser σ' ν'} (hom : p.Hom p' f S) {depth : Nat} {within : Option Nat}
  {id left right child : Nat}
include hom

theorem Hom.shape? {made : Option Shape} (shape : p.grammar.shape? id = made) : p'.grammar.shape? id = made := by
  rw [hom.grammar, shape]

theorem Hom.guard? {made : Option (Nat × Nat)} (guard : p.grammar.guard? id = made) :
    p'.grammar.guard? id = made := by
  rw [hom.grammar, guard]

theorem Hom.missing (within : Option Nat) (expected : Nat) (s : Stream) :
    p'.missing within expected s = p.missing within expected s := by
  unfold Parser.missing
  rw [hom.grammar]

/-- What is matched is handed to the builders. -/
theorem Hom.built {name : String} {children : List ν} {place : Location} {s : ParseState σ}
    {s' : ParseState σ'} (beside : s.Beside S s') {raised : Prop} :
    Mirrors raised (Option.map (List.map f)) (ParseState.Beside S)
      (match p.builder.rule name children s.building with
        | (.ok node, building) => (.ok (some [node]), { s with building })
        | (.error reason, building) =>
          (.error (.rejected name reason place.line place.column), { s with building }))
      (match p'.builder.rule name (children.map f) s'.building with
        | (.ok node, building) => (.ok (some [node]), { s' with building })
        | (.error reason, building) =>
          (.error (.rejected name reason place.line place.column), { s' with building })) := by
  obtain ⟨outcome, state⟩ := hom.builder.rule name children s.building s'.building beside.building
  generalize p.builder.rule name children s.building = made at outcome state ⊢
  generalize p'.builder.rule name (children.map f) s'.building = made' at outcome state ⊢
  obtain ⟨reason | node, building⟩ := made <;> obtain ⟨r', building'⟩ := made' <;> cases outcome
  · exact .error rfl ⟨beside.stream, state⟩
  · exact .ok rfl ⟨beside.stream, state⟩

theorem Hom.parallel_undefined (shape : p.grammar.shape? id = none) :
    p.Parallel p' S f depth within id := by
  intro s s' beside _
  rw [tryParse_undefined shape, tryParse_undefined (hom.shape? shape)]
  exact .ok rfl beside

theorem Hom.parallel_token {k : Nat} (shape : p.grammar.shape? id = some (.token k)) :
    p.Parallel p' S f depth within id := by
  intro s s' beside _
  rw [tryParse_token shape, tryParse_token (hom.shape? shape), beside.stream]
  rcases s.stream.peek 0 with e | ⟨_ | t, stream⟩
  · exact .error rfl beside
  · exact .ok rfl (beside.scanned stream)
  · dsimp only
    split
    · exact .ok (congrArg (fun node => some [node]) (hom.builder.token t)) (beside.scanned _)
    · exact .ok rfl (beside.scanned stream)

/-- A guarded rule is attempted behind a check, which finds the same with both limits. -/
theorem Hom.parallel_guard {count : Nat} (guard : p.grammar.guard? id = some (child, count))
    (inner : p.Parallel p' S f depth within child) : p.Parallel p' S f depth within id := by
  intro s s' beside complete
  have look := p.grammar.lookAhead_mirrors hom.limit depth child count 0 complete
  rw [tryParse_guard guard, tryParse_guard (hom.guard? guard), beside.stream, hom.grammar]
  refine (look.look beside).follow fun fit t t' found beside₁ => ?_
  cases fit with
  | none => exact .ok rfl beside₁
  | some fit =>
    refine inner t t' beside₁ fun raised => ?_
    have agrees := p.grammar.agrees_lookAhead p.limit depth child count 0 s.stream
    rw [← (Prod.mk.inj found).2]
    exact (complete raised).of_agrees agrees

theorem Hom.parallel_seq (shape : p.grammar.shape? id = some (.seq left right))
    (guard : p.grammar.guard? id = none) (first : p.Parallel p' S f depth within left)
    (second : p.Parallel p' S f depth within right) : p.Parallel p' S f depth within id := by
  intro s s' beside complete
  rw [tryParse_seq shape guard, tryParse_seq (hom.shape? shape) (hom.guard? guard)]
  refine (first s s' beside complete).follow fun nodes s₁ s₁' found beside₁ => ?_
  cases nodes with
  | none => exact .ok rfl beside₁
  | some nodes =>
  refine (second s₁ s₁' beside₁ (complete_behind found complete)).follow fun more s₂ s₂' _ beside₂ => ?_
  cases more with
  | some more => exact .ok (congrArg some List.map_append.symm) beside₂
  | none =>
    dsimp only [Option.map]
    rw [beside₂.stream, beside.stream, hom.missing]
    split
    · exact .ok rfl beside₂
    · exact .error rfl (beside₂.scanned _)

theorem Hom.parallel_alt (shape : p.grammar.shape? id = some (.alt left right))
    (first : p.Parallel p' S f depth within left) (second : p.Parallel p' S f depth within right) :
    p.Parallel p' S f depth within id := by
  intro s s' beside complete
  rw [tryParse_alt shape, tryParse_alt (hom.shape? shape)]
  refine (first s s' beside complete).follow fun nodes s₁ s₁' found beside₁ => ?_
  cases nodes with
  | none => exact second s₁ s₁' beside₁ (complete_behind found complete)
  | some nodes => exact .ok rfl beside₁

theorem Hom.parallel_opt (shape : p.grammar.shape? id = some (.opt child))
    (inner : p.Parallel p' S f depth within child) : p.Parallel p' S f depth within id := by
  intro s s' beside complete
  rw [tryParse_opt shape, tryParse_opt (hom.shape? shape)]
  refine (inner s s' beside complete).follow fun nodes s₁ s₁' _ beside₁ => .ok ?_ beside₁
  cases nodes <;> rfl

omit hom in
theorem Parallel.rounds (inner : p.Parallel p' S f depth within child) {s : ParseState σ} {s' : ParseState σ'}
    (beside : s.Beside S s') (complete : p.limit < p'.limit → s.stream.Complete) :
    Mirrors (p.limit < p'.limit) (List.map f) (ParseState.Beside S)
      (Parser.rounds (p.tryParse depth within child) s) (Parser.rounds (p'.tryParse depth within child) s') :=
  rounds_mirrors inner (fun found => (run_of_tryParse found).ending) beside complete

theorem Hom.parallel_star (shape : p.grammar.shape? id = some (.star child))
    (inner : p.Parallel p' S f depth within child) : p.Parallel p' S f depth within id := by
  intro s s' beside complete
  rw [tryParse_star shape, tryParse_star (hom.shape? shape)]
  exact (inner.rounds beside complete).follow fun _ _ _ _ beside₁ => .ok rfl beside₁

theorem Hom.parallel_plus (shape : p.grammar.shape? id = some (.plus child))
    (inner : p.Parallel p' S f depth within child) : p.Parallel p' S f depth within id := by
  intro s s' beside complete
  rw [tryParse_plus shape, tryParse_plus (hom.shape? shape)]
  refine (inner s s' beside complete).follow fun nodes s₁ s₁' found beside₁ => ?_
  cases nodes with
  | none => exact .ok rfl beside₁
  | some nodes =>
    exact (inner.rounds beside₁ (complete_behind found complete)).follow
      fun _ _ _ _ beside₂ => .ok (congrArg some List.map_append.symm) beside₂

theorem Hom.parallel_ahead {count : Nat} (shape : p.grammar.shape? id = some (.ahead count)) :
    p.Parallel p' S f depth within id := by
  intro s s' beside _
  rw [tryParse_ahead shape, tryParse_ahead (hom.shape? shape)]
  exact .ok rfl beside

theorem Hom.parallel_named {body : Nat} (shape : p.grammar.shape? id = some (.named body))
    (shallow : depth < p.limit) (inner : p.Parallel p' S f (depth + 1) (some id) body) :
    p.Parallel p' S f depth within id := by
  intro s s' beside complete
  rw [tryParse_named shape shallow,
    tryParse_named (hom.shape? shape) (Nat.lt_of_lt_of_le shallow hom.limit), beside.stream, hom.grammar]
  rcases begins : s.stream.place? with e | ⟨place, stream⟩
  · exact .error rfl beside
  · have complete' : p.limit < p'.limit → stream.Complete := fun raised =>
      (complete raised).of_agrees (Stream.agrees_of_place? begins)
    refine (inner _ _ (beside.scanned stream) complete').follow fun nodes s₁ s₁' _ beside₁ => ?_
    cases nodes with
    | none => exact .ok rfl beside₁
    | some children => exact hom.built beside₁

/-- The limit that is met is that of the first parser, which ends all, or that of both. -/
theorem Hom.parallel_deep {body : Nat} (shape : p.grammar.shape? id = some (.named body))
    (deep : ¬ depth < p.limit) : p.Parallel p' S f depth within id := by
  intro s s' beside complete reached
  rcases Nat.lt_or_eq_of_le hom.limit with raised | same
  · obtain ⟨place, stream, begins⟩ := (complete raised).place?
    refine absurd ?_ (reached raised)
    rw [tryParse_deep shape deep, Grammar.tooDeepAt, begins]
    exact ⟨_, _, _, rfl⟩
  · rw [tryParse_deep shape deep, tryParse_deep (hom.shape? shape) (same ▸ deep), beside.stream, hom.grammar,
      ← same]
    exact ⟨rfl, beside.scanned _⟩

/-- **Attempts of a rule** stand side by side. -/
theorem Hom.tryParse (depth : Nat) (within : Option Nat) (id : Nat) : p.Parallel p' S f depth within id := by
  cases shape : p.grammar.shape? id with
  | none => exact hom.parallel_undefined shape
  | some made =>
  have each (c : Nat) (part : c ∈ made.parts) : p.Parallel p' S f depth within c :=
    have := p.grammar.rank_part_lt (p.limit - depth) shape part
    Hom.tryParse depth within c
  cases guard : p.grammar.guard? id with
  | some found => exact hom.parallel_guard guard (each _ (Grammar.mem_parts_of_guard? guard shape))
  | none =>
  cases made with
  | token k => exact hom.parallel_token shape
  | seq left right =>
    exact hom.parallel_seq shape guard (each left (by simp [Shape.parts])) (each right (by simp [Shape.parts]))
  | alt left right =>
    exact hom.parallel_alt shape (each left (by simp [Shape.parts])) (each right (by simp [Shape.parts]))
  | opt child => exact hom.parallel_opt shape (each child (by simp [Shape.parts]))
  | star child => exact hom.parallel_star shape (each child (by simp [Shape.parts]))
  | plus child => exact hom.parallel_plus shape (each child (by simp [Shape.parts]))
  | ahead count => exact hom.parallel_ahead shape
  | guarded child count => simp [Grammar.guard?, shape] at guard
  | named body =>
    by_cases shallow : depth < p.limit
    · have := p.grammar.rank_body_lt shallow id body
      exact hom.parallel_named shape shallow (Hom.tryParse (depth + 1) (some id) body)
    · exact hom.parallel_deep shape shallow
termination_by p.grammar.rank (p.limit - depth) id

/-! ## Whole texts -/

omit hom in
theorem parseAll_eq (p : Parser σ ν) (id : Nat) (s : ParseState σ) :
    p.parseAll id s = andThen (p.tryParse 0 none id s) fun
      | none, s => (.error (p.missing none id s.stream).1,
          { s with stream := (p.missing none id s.stream).2 })
      | some nodes, s => match s.stream.peek 0 with
        | .error e => (.error (.lex e), s)
        | .ok (some t, stream) => (.error (.trailingInput t), { s with stream })
        | .ok (none, stream) => match nodes with
          | [node] => (.ok node, { s with stream })
          | nodes => match p.builder.rule (p.grammar.ruleName id) nodes s.building with
            | (.ok node, building) => (.ok node, ⟨stream, building⟩)
            | (.error reason, building) =>
              (.error (.rejected (p.grammar.ruleName id) reason 1 1), ⟨stream, building⟩) := by
  unfold parseAll
  rcases p.tryParse 0 none id s with ⟨_ | (_ | nodes), s⟩ <;> rfl

theorem Hom.parseAll {s : ParseState σ} {s' : ParseState σ'} (beside : s.Beside S s')
    (complete : p.limit < p'.limit → s.stream.Complete) :
    Mirrors (p.limit < p'.limit) f (ParseState.Beside S) (p.parseAll id s) (p'.parseAll id s') := by
  rw [parseAll_eq, parseAll_eq]
  refine (hom.tryParse 0 none id s s' beside complete).follow fun nodes s₁ s₁' _ beside₁ => ?_
  cases nodes with
  | none =>
    dsimp only [Option.map]
    rw [beside₁.stream, hom.missing]
    exact .error rfl (beside₁.scanned _)
  | some nodes =>
  dsimp only [Option.map]
  rw [beside₁.stream, hom.grammar]
  rcases s₁.stream.peek 0 with e | ⟨_ | t, stream⟩
  · exact .error rfl beside₁
  · obtain ⟨outcome, state⟩ := hom.builder.rule (p.grammar.ruleName id) nodes _ _ beside₁.building
    rcases nodes with _ | ⟨node, _ | ⟨other, more⟩⟩
    case cons.nil => exact .ok rfl (beside₁.scanned stream)
    all_goals
      dsimp only [List.map] at outcome state ⊢
      generalize p.builder.rule _ _ s₁.building = made at outcome state ⊢
      generalize p'.builder.rule _ _ s₁'.building = made' at outcome state ⊢
      obtain ⟨reason | node, building⟩ := made <;> obtain ⟨r', building'⟩ := made' <;> cases outcome
      · exact .error rfl ⟨rfl, state⟩
      · exact .ok rfl ⟨rfl, state⟩
  · exact .error rfl (beside₁.scanned stream)

/-- Parses of a text stand side by side. If the second limit is larger, the text has to be one that can be
scanned to its end. -/
theorem Hom.parseRule (id : Nat) (text : String) (init : σ) (init' : σ') (begin : S init init')
    (complete : p.limit < p'.limit → ∃ place, (p.grammar.scan text).ending = .complete place) :
    Mirrors (p.limit < p'.limit) f (ParseState.Beside S) (p.parseRule id text init)
      (p'.parseRule id text init') := by
  unfold Parser.parseRule
  rw [hom.grammar]
  exact hom.parseAll ⟨rfl, begin⟩ complete

end

end Parser

/-! ## The fold of a syntax tree -/

namespace ParseTree

variable {ν : Type}

mutual

/-- What is made of a tree by `token` and `rule`, from the leaves up. -/
def fold (token : Token → ν) (rule : String → List ν → ν) : ParseTree → ν
  | .token t => token t
  | .rule name children => rule name (foldAll token rule children)

def foldAll (token : Token → ν) (rule : String → List ν → ν) : List ParseTree → List ν
  | [] => []
  | c :: cs => c.fold token rule :: foldAll token rule cs

end

theorem foldAll_eq_map (token : Token → ν) (rule : String → List ν → ν) (trees : List ParseTree) :
    foldAll token rule trees = trees.map (fold token rule) := by
  induction trees with
  | nil => rfl
  | cons tree trees ih => rw [foldAll, ih, List.map_cons]

end ParseTree

/-- A builder that refuses nothing makes of folded trees the fold of what the collector makes of the
trees. -/
theorem TreeBuilder.hom_fold {σ ν : Type} {b : TreeBuilder σ ν} {make : String → List ν → ν}
    (pure : ∀ name children s, (b.rule name children s).1 = .ok (make name children)) :
    TreeBuilder.collector.Hom b (ParseTree.fold b.token make) fun _ _ => True where
  token t := by rw [collector, ParseTree.fold]
  rule name children s s' _ := by
    refine ⟨?_, trivial⟩
    rw [pure, collector]
    show _ = Except.ok ((ParseTree.rule name children).fold b.token make)
    rw [ParseTree.fold, ParseTree.foldAll_eq_map]

/-- The parse does not depend on the builder: whatever the grammar, the limit, the rule and the text, a
builder that refuses nothing ends as the collector does, with the fold of the tree or with the same error,
and with the same tokens left. -/
theorem Parser.parseRule_fold {σ ν : Type} {b : TreeBuilder σ ν} {make : String → List ν → ν}
    (pure : ∀ name children s, (b.rule name children s).1 = .ok (make name children))
    (g : Grammar) (limit id : Nat) (text : String) (init : σ) :
    (Parser.parseRule ⟨g, b, limit⟩ id text init).1 =
        (Parser.parseRule ⟨g, .collector, limit⟩ id text ()).1.map (ParseTree.fold b.token make) ∧
      (Parser.parseRule ⟨g, b, limit⟩ id text init).2.stream =
        (Parser.parseRule ⟨g, .collector, limit⟩ id text ()).2.stream := by
  have hom : Parser.Hom (S := fun _ _ => True) ⟨g, .collector, limit⟩ ⟨g, b, limit⟩
      (ParseTree.fold b.token make) := ⟨rfl, Nat.le_refl _, TreeBuilder.hom_fold pure⟩
  obtain ⟨outcome, beside⟩ := hom.parseRule id text () init trivial
    (fun more => absurd more (Nat.lt_irrefl _)) fun more => absurd more (Nat.lt_irrefl _)
  exact ⟨outcome, beside.stream⟩

open Body in
def bracketRules : List Definition := [
  ⟨"Term", alt (literal "x") (sequence (literal "(") [name "Term", literal ")"])⟩]

theorem bracketRules_build : (Grammar.ofDefinitions bracketRules).toOption.isSome = true := by
  decide +kernel

def bracketGrammar : Grammar := (Grammar.ofDefinitions bracketRules).toOption.get bracketRules_build

/-- The size of a node, given those of its children. -/
def sizeOfNode (_ : String) (sizes : List Nat) : Nat := sizes.foldl (· + ·) 0

/-- The number of tokens below a node; the state counts the nodes of rules. -/
def sizeBuilder : TreeBuilder Nat Nat :=
  ⟨fun _ => 1, fun name sizes s => (.ok (sizeOfNode name sizes), s + 1)⟩

/-- Three tokens are counted in a text that parses, and a text that does not has the same error. -/
theorem Parser.parseRule_fold_size :
    let parse (text : String) := Parser.parse ⟨bracketGrammar, sizeBuilder, 3⟩ text 0
    let tree (text : String) := Parser.parse ⟨bracketGrammar, .collector, 3⟩ text ()
    (∃ t, (tree "(x)").1 = .ok t ∧ (parse "(x)").1 = .ok 3 ∧ t.fold (fun _ => 1) sizeOfNode = 3) ∧
      ∃ e, (tree "(x").1 = .error e ∧ (parse "(x").1 = .error e := by
  intro parse tree
  have pure (name : String) (sizes : List Nat) (s : Nat) :
      (sizeBuilder.rule name sizes s).1 = .ok (sizeOfNode name sizes) := rfl
  have folds (text : String) :
      (parse text).1 = (tree text).1.map (ParseTree.fold (fun _ => 1) sizeOfNode) :=
    (Parser.parseRule_fold pure bracketGrammar 3 _ text 0).1
  have counted : (parse "(x)").1 = .ok 3 := by decide +kernel
  have fails : (parse "(x").1.isOk = false := by decide +kernel
  constructor
  · rcases made : (tree "(x)").1 with e | t
    · simp [folds, made, Except.map] at counted
    · refine ⟨t, rfl, counted, ?_⟩
      rw [folds, made] at counted
      exact Except.ok.inj counted
  · rcases made : (tree "(x").1 with e | t
    · exact ⟨e, rfl, by rw [folds, made]; rfl⟩
    · simp [folds, made, Except.map, Except.isOk, Except.toBool] at fails

end Rowlang
