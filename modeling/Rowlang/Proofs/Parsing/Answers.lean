import Rowlang.Proofs.Grammar.Emptiness
import Rowlang.Proofs.Parsing.Predictive
import Rowlang.Proofs.Parsing.Replay

/-!
# What the parser answers, and how deep it goes

Exact statements about an attempt over a text that can be scanned to its end: what is found, what is left
of the tokens, the builder's state behind it, and how many further levels of nesting it takes.

* `Parser.Gives` : with enough levels left the result is as told, and otherwise nesting is too deep;
* `Parser.Answers`, `Parser.AnswersRounds` : the same of every rule that stands for a body;
* `answers_seq`, `answers_named` and the like : how the bodies of each shape follow from their parts;
* `answers_choice`, `answers_pair_none` : a choice of leaves, and a check of two leaves that fails;
* `Parser.Fails`, `Parser.FailsRounds` : every rule that stands for a body ends with an error;
* `Parser.Answers.parseAll`, `Parser.Fails.parseAll` : what becomes of a whole text;
* `Parser.Run.building` : what the builder keeps, holds behind every attempt that it does not refuse.
-/

namespace Rowlang
open Rowlang.Text

variable {σ ν : Type}

/-- The tokens to come and the builder's state, of a text that can be scanned to its end. -/
structure ParseState.At (s : ParseState σ) (w : List Token) (b : σ) : Prop where
  rest : s.stream.rest = w
  complete : s.stream.Complete
  building : s.building = b

theorem ParseState.At.scanned {s : ParseState σ} {w : List Token} {b : σ} {stream : Stream}
    (h : s.At w b) (agrees : s.stream.Agrees stream) : ParseState.At { s with stream } w b :=
  ⟨agrees.rest.trans h.rest, h.complete.of_agrees agrees, h.building⟩

def Body.leaf? : Body → Option LeafPattern
  | .literal text => some (.literal text)
  | .name n => (lexicalPatterns.lookup n).map (.regex n)
  | _ => none

theorem Arena.Unfolds.token {a : Arena} {x : Body} {leaf : LeafPattern} {id : Nat}
    (h : a.Unfolds x id) (same : x.leaf? = some leaf) :
    ∃ k, a.shape? id = some (.token k) ∧ a.leaf? k = some leaf := by
  cases h with
  | literal shape pattern =>
    cases same
    exact ⟨_, shape, pattern⟩
  | lexical known shape pattern =>
    rw [Body.leaf?, known] at same
    cases same
    exact ⟨_, shape, pattern⟩
  | rule other =>
    rw [Body.leaf?, other] at same
    cases same
  | _ => cases same

namespace Parser

/-- With `need` further levels of nesting the result is `x`, with the tokens `v` and the builder's state `c`
behind it. With fewer levels nesting is too deep. -/
structure Gives {α : Type} (p : Parser σ ν) (depth need : Nat) (r : Except ParseError α × ParseState σ)
    (x : α) (v : List Token) (c : σ) : Prop where
  enough : depth + need ≤ p.limit → r.1 = .ok x ∧ r.2.At v c
  tooDeep : p.limit < depth + need → ∃ rule limit place, r.1 = .error (.tooDeep rule limit place)

section Results
variable {α β : Type} {p : Parser σ ν} {depth n m : Nat} {x : α} {y : β} {v v' : List Token} {c c' : σ}
  {s : ParseState σ}

theorem gives_ok (shallow : depth ≤ p.limit) (h : s.At v c) : p.Gives depth 0 (.ok x, s) x v c :=
  ⟨fun _ => ⟨rfl, h⟩, fun deep => by omega⟩

theorem Gives.andThen {first : Except ParseError α × ParseState σ}
    {next : α → ParseState σ → Except ParseError β × ParseState σ} (h : p.Gives depth n first x v c)
    (later : ∀ s, s.At v c → p.Gives depth m (next x s) y v' c') :
    p.Gives depth (max n m) (Rowlang.andThen first next) y v' c' := by
  obtain ⟨r, s⟩ := first
  by_cases few : p.limit < depth + n
  · obtain ⟨rule, limit, place, rfl⟩ := h.tooDeep few
    exact ⟨fun enough => by omega, fun _ => ⟨rule, limit, place, rfl⟩⟩
  · obtain ⟨rfl, there⟩ := h.enough (by omega)
    have later := later s there
    exact ⟨fun enough => later.enough (by omega), fun deep => later.tooDeep (by omega)⟩

/-- What follows that takes no further level of nesting. -/
theorem Gives.andReturn {first : Except ParseError α × ParseState σ}
    {next : α → ParseState σ → Except ParseError β × ParseState σ} (h : p.Gives depth n first x v c)
    (shallow : depth ≤ p.limit) (later : ∀ s, s.At v c → ∃ s', next x s = (.ok y, s') ∧ s'.At v' c') :
    p.Gives depth n (Rowlang.andThen first next) y v' c' := by
  rw [← Nat.max_zero n]
  refine h.andThen fun s there => ?_
  obtain ⟨s', same, there'⟩ := later s there
  rw [same]
  exact gives_ok shallow there'

theorem Gives.deeper {r : Except ParseError α × ParseState σ} (h : p.Gives (depth + 1) n r x v c) :
    p.Gives depth (n + 1) r x v c :=
  ⟨fun enough => h.enough (by omega), fun deep => h.tooDeep (by omega)⟩

end Results

/-! ## Bodies -/

/-- Every rule that stands for the body gives `found`, with the tokens `w` to come and the builder's
state `b`. -/
structure Answers (p : Parser σ ν) (x : Body) (need : Nat) (w : List Token) (b : σ)
    (found : Option (List ν)) (v : List Token) (c : σ) : Prop where
  gives : ∀ {depth within id s}, p.grammar.arena.Unfolds x id → depth ≤ p.limit → s.At w b →
    p.Gives depth need (p.tryParse depth within id s) found v c

/-- The same of as many rounds as match. -/
structure AnswersRounds (p : Parser σ ν) (x : Body) (need : Nat) (w : List Token) (b : σ)
    (nodes : List ν) (v : List Token) (c : σ) : Prop where
  gives : ∀ {depth within id s}, p.grammar.arena.Unfolds x id → depth ≤ p.limit → s.At w b →
    p.Gives depth need (rounds (p.tryParse depth within id) s) nodes v c

section Bodies
variable {p : Parser σ ν} {x y : Body} {n m : Nat} {w v u : List Token} {b c d : σ}
  {nodes more : List ν} {found : Option (List ν)}

theorem answers_leaf (distinct : p.Distinct) {leaf : LeafPattern} {t : Token} (h : x.leaf? = some leaf)
    (is : p.grammar.Is leaf t) : p.Answers x 0 (t :: v) b (some [p.builder.token t]) v b := by
  refine ⟨fun {depth within id s} stands shallow there => ?_⟩
  obtain ⟨k, shape, pattern⟩ := stands.token h
  obtain ⟨stream, peek⟩ := there.complete.peek 0
  have agrees := Stream.agrees_of_peek peek
  rw [tryParse_token shape, peek, there.rest]
  dsimp only [List.getElem?_cons_zero]
  rw [if_pos (distinct.same is pattern)]
  refine gives_ok shallow ⟨?_, (there.scanned agrees).complete, there.building⟩
  simp [Stream.advance, agrees.rest, there.rest]

theorem answers_leaf_none {leaf : LeafPattern} (h : x.leaf? = some leaf)
    (avoids : p.grammar.Avoids [leaf] w) : p.Answers x 0 w b none w b := by
  refine ⟨fun {depth within id s} stands shallow there => ?_⟩
  obtain ⟨k, shape, pattern⟩ := stands.token h
  obtain ⟨stream, peek⟩ := there.complete.peek 0
  have agrees := Stream.agrees_of_peek peek
  rw [tryParse_token shape, peek, there.rest]
  cases w with
  | nil => exact gives_ok shallow (there.scanned agrees)
  | cons t w =>
    dsimp only [List.getElem?_cons_zero]
    have other : t.pattern ≠ k := by
      rintro rfl
      exact avoids t rfl ⟨leaf, List.mem_singleton_self _, pattern⟩
    rw [if_neg other]
    exact gives_ok shallow (there.scanned agrees)

/-- What stands for a sequence is tried part by part, unless it begins with a check. -/
theorem guard?_of_unfolds {l r id : Nat} (shape : p.grammar.shape? id = some (.seq l r))
    (stands : p.grammar.arena.Unfolds x l) (plain : ∀ count, x ≠ .ahead count)
    (named : ∀ {i n}, p.grammar.find? n = some i → ∃ body, p.grammar.shape? i = some (.named body)) :
    p.grammar.guard? id = none := by
  refine guard?_eq_none_of_seq shape fun count ahead => ?_
  have other {s : Shape} (same : p.grammar.arena.shape? l = some s) : s = .ahead count :=
    Option.some.inj (same.symm.trans ahead)
  cases stands with
  | rule _ found =>
    obtain ⟨body, shape⟩ := named found
    cases other shape
  | ahead => exact plain _ rfl
  | literal shape | lexical _ shape | seq shape | alt shape | opt shape | star shape | plus shape
  | guarded shape => cases other shape

theorem Answers.of_need (h : p.Answers x n w b found v c) (same : n = m) :
    p.Answers x m w b found v c :=
  same ▸ h

theorem AnswersRounds.of_need (h : p.AnswersRounds x n w b nodes v c) (same : n = m) :
    p.AnswersRounds x m w b nodes v c :=
  same ▸ h

section Shapes
variable {ds : List Definition} (compiles : p.grammar.Compiles ds)

include compiles in
theorem guard?_of_plain {l r id : Nat} (shape : p.grammar.shape? id = some (.seq l r))
    (stands : p.grammar.arena.Unfolds x l) (plain : ∀ count, x ≠ .ahead count) :
    p.grammar.guard? id = none :=
  guard?_of_unfolds shape stands plain fun found => by
    obtain ⟨d, -, -, body, shape, -⟩ := compiles.defined found
    exact ⟨body, shape⟩

include compiles in
theorem answers_seq (plain : ∀ count, x ≠ .ahead count) (first : p.Answers x n w b (some nodes) u c)
    (second : p.Answers y m u c (some more) v d) :
    p.Answers (.seq x y) (max n m) w b (some (nodes ++ more)) v d := by
  refine ⟨fun {depth within id s} stands shallow there => ?_⟩
  cases stands with
  | seq shape left right =>
    rw [tryParse_seq shape (guard?_of_plain compiles shape left plain)]
    exact (first.gives left shallow there).andThen fun s₁ there₁ =>
      (second.gives right shallow there₁).andReturn shallow fun s₂ there₂ => ⟨s₂, rfl, there₂⟩

include compiles in
theorem answers_seq_none (plain : ∀ count, x ≠ .ahead count) (first : p.Answers x n w b none w c) :
    p.Answers (.seq x y) n w b none w c := by
  refine ⟨fun {depth within id s} stands shallow there => ?_⟩
  cases stands with
  | seq shape left right =>
    rw [tryParse_seq shape (guard?_of_plain compiles shape left plain)]
    exact (first.gives left shallow there).andReturn shallow fun s₁ there₁ => ⟨s₁, rfl, there₁⟩

theorem answers_altLeft (chosen : p.Answers x n w b (some nodes) v c) :
    p.Answers (.alt x y) n w b (some nodes) v c := by
  refine ⟨fun {depth within id s} stands shallow there => ?_⟩
  cases stands with
  | alt shape left right =>
    rw [tryParse_alt shape]
    exact (chosen.gives left shallow there).andReturn shallow fun s₁ there₁ => ⟨s₁, rfl, there₁⟩

theorem answers_altRight (other : p.Answers x n w b none u c)
    (chosen : p.Answers y m u c found v d) : p.Answers (.alt x y) (max n m) w b found v d := by
  refine ⟨fun {depth within id s} stands shallow there => ?_⟩
  cases stands with
  | alt shape left right =>
    rw [tryParse_alt shape]
    exact (other.gives left shallow there).andThen fun s₁ there₁ => chosen.gives right shallow there₁

/-- A choice of leaves takes a token of one of them. -/
theorem answers_choice (distinct : p.Distinct) {first : Body} {rest : List Body} {t : Token}
    (leaves : ∀ x ∈ first :: rest, ∃ leaf, x.leaf? = some leaf)
    (given : ∃ x ∈ first :: rest, ∃ leaf, x.leaf? = some leaf ∧ p.grammar.Is leaf t) :
    p.Answers (.choice first rest) 0 (t :: v) b (some [p.builder.token t]) v b := by
  induction rest generalizing first with
  | nil =>
    obtain ⟨x, listed, leaf, same, is⟩ := given
    obtain rfl := List.mem_singleton.1 listed
    exact answers_leaf distinct same is
  | cons next rest ih =>
    obtain ⟨head, tail⟩ := List.forall_mem_cons.1 leaves
    obtain ⟨leaf, same⟩ := head
    by_cases here : p.grammar.Is leaf t
    · exact answers_altLeft (answers_leaf distinct same here)
    · refine answers_altRight (n := 0) (m := 0) (answers_leaf_none same ?_) (ih tail ?_)
      · rintro t' ⟨⟩ ⟨leaf', listed, is⟩
        exact here (List.mem_singleton.1 listed ▸ is)
      · obtain ⟨x, listed, leaf', same', is⟩ := given
        rcases List.mem_cons.1 listed with rfl | listed
        · cases same.symm.trans same'
          exact absurd is here
        · exact ⟨x, listed, leaf', same', is⟩

theorem answers_choice_none {first : Body} {rest : List Body}
    (avoids : ∀ x ∈ first :: rest, ∃ leaf, x.leaf? = some leaf ∧ p.grammar.Avoids [leaf] w) :
    p.Answers (.choice first rest) 0 w b none w b := by
  induction rest generalizing first with
  | nil =>
    obtain ⟨leaf, same, avoids⟩ := avoids first (List.mem_singleton_self _)
    exact answers_leaf_none same avoids
  | cons next rest ih =>
    obtain ⟨⟨leaf, same, here⟩, tail⟩ := List.forall_mem_cons.1 avoids
    exact answers_altRight (n := 0) (m := 0) (answers_leaf_none same here) (ih tail)

theorem answers_ahead_none {count : Nat}
    (closed : ∀ depth {id} {s : Stream}, p.grammar.arena.Unfolds y id → s.rest = w → s.Complete →
      ∃ s', p.grammar.lookAhead p.limit depth id count 0 s = (.ok none, s')) :
    p.Answers (.seq (.ahead count) y) 0 w b none w b := by
  refine ⟨fun {depth within id s} stands shallow there => ?_⟩
  cases stands with
  | @seq _ _ _ l r shape left right =>
    cases left with
    | ahead check =>
      have shape : p.grammar.shape? id = some (.seq l r) := shape
      have check : p.grammar.shape? l = some (.ahead count) := check
      have guard : p.grammar.guard? id = some (r, count) := by simp [Grammar.guard?, shape, check]
      obtain ⟨stream, look⟩ := closed depth right there.rest there.complete
      rw [tryParse_guard guard, look]
      exact gives_ok shallow (there.scanned (Grammar.checkSound_lookAhead look).1)

/-- A check of two tokens fails where there is one of them missing. -/
theorem answers_pair_none {x x' : Body} {leaf leaf' : LeafPattern} (first : x.leaf? = some leaf)
    (second : x'.leaf? = some leaf')
    (other : ∀ t t' v, w = t :: t' :: v → p.grammar.Is leaf t → ¬ p.grammar.Is leaf' t') :
    p.Answers (.seq (.ahead 2) (.seq x (.seq x' y))) 0 w b none w b := by
  refine answers_ahead_none fun depth {id s} stands same complete => ?_
  cases stands with
  | seq shape left right =>
    cases right with
    | seq shape' left' right' =>
      obtain ⟨k, token, is⟩ := left.token first
      obtain ⟨k', token', is'⟩ := left'.token second
      obtain ⟨s', look⟩ := @Grammar.lookAhead_two p.grammar p.limit depth _ _ _ _ _ _ _ _ shape token shape'
        token' complete
      refine ⟨s', look.trans ?_⟩
      rw [if_neg]
      intro fits
      rw [same] at fits
      match w with
      | [] => simp at fits
      | [t] => simp at fits
      | t :: t' :: v =>
        simp only [List.take_succ_cons, List.take_zero, List.map_cons, List.map_nil, List.cons.injEq,
          and_true] at fits
        obtain ⟨rfl, rfl⟩ := fits
        exact other t t' v rfl is is'

theorem answers_opt (inner : p.Answers x n w b found v c) :
    p.Answers (.opt x) n w b (some (found.getD [])) v c := by
  refine ⟨fun {depth within id s} stands shallow there => ?_⟩
  cases stands with
  | opt shape child =>
    rw [tryParse_opt shape]
    exact (inner.gives child shallow there).andReturn shallow fun s₁ there₁ => ⟨s₁, rfl, there₁⟩

theorem rounds_nil (missing : p.Answers x n w b none w c) : p.AnswersRounds x n w b [] w c := by
  refine ⟨fun {depth within id s} stands shallow there => ?_⟩
  rw [rounds_eq]
  exact (missing.gives stands shallow there).andReturn shallow fun s₁ there₁ => ⟨s₁, rfl, there₁⟩

theorem rounds_cons (shorter : u.length < w.length) (first : p.Answers x n w b (some nodes) u c)
    (later : p.AnswersRounds x m u c more v d) :
    p.AnswersRounds x (max n m) w b (nodes ++ more) v d := by
  refine ⟨fun {depth within id s} stands shallow there => ?_⟩
  rw [rounds_eq]
  refine (first.gives stands shallow there).andThen fun s₁ there₁ => ?_
  dsimp only
  rw [if_pos (by rw [there₁.rest, there.rest]; exact shorter)]
  exact (later.gives stands shallow there₁).andReturn shallow fun s₂ there₂ => ⟨s₂, rfl, there₂⟩

theorem answers_star (inner : p.AnswersRounds x n w b nodes v c) :
    p.Answers (.star x) n w b (some nodes) v c := by
  refine ⟨fun {depth within id s} stands shallow there => ?_⟩
  cases stands with
  | star shape child =>
    rw [tryParse_star shape]
    exact (inner.gives child shallow there).andReturn shallow fun s₁ there₁ => ⟨s₁, rfl, there₁⟩

theorem answers_plus (first : p.Answers x n w b (some nodes) u c)
    (later : p.AnswersRounds x m u c more v d) :
    p.Answers (.plus x) (max n m) w b (some (nodes ++ more)) v d := by
  refine ⟨fun {depth within id s} stands shallow there => ?_⟩
  cases stands with
  | plus shape child =>
    rw [tryParse_plus shape]
    exact (first.gives child shallow there).andThen fun s₁ there₁ =>
      (later.gives child shallow there₁).andReturn shallow fun s₂ there₂ => ⟨s₂, rfl, there₂⟩

/-! ## Named rules -/

theorem tooDeepAt_tooDeep {g : Grammar} {limit id : Nat} {s : Stream} (complete : s.Complete) :
    ∃ rule limit' place, (g.tooDeepAt limit id s).1 = .tooDeep rule limit' place := by
  obtain ⟨place, s', placed⟩ := complete.place?
  unfold Grammar.tooDeepAt
  rw [placed]
  exact ⟨_, _, _, rfl⟩

/-- What the rule `n`, which begins at `place`, makes of the nodes of its body. -/
def wrap (p : Parser σ ν) (n : String) (place : Location) :
    Option (List ν) → ParseState σ → Outcome ν × ParseState σ
  | none, s => (.ok none, s)
  | some children, s =>
    match p.builder.rule n children s.building with
    | (.ok node, building) => (.ok (some [node]), { s with building })
    | (.error reason, building) =>
      (.error (.rejected n reason place.line place.column), { s with building })

include compiles in
theorem tryParse_rule {definition : Definition} (defined : definition ∈ ds)
    (other : lexicalPatterns.lookup definition.name = none) (depth : Nat) (within : Option Nat)
    {id : Nat} {s : ParseState σ} (stands : p.grammar.arena.Unfolds (.name definition.name) id)
    (there : s.At w b) :
    (p.limit ≤ depth ∧ ∃ rule limit place,
        (p.tryParse depth within id s).1 = .error (.tooDeep rule limit place)) ∨
      depth < p.limit ∧ ∃ body place s₀, p.grammar.arena.Unfolds definition.body body ∧ s₀.At w b ∧
        p.tryParse depth within id s = andThen (p.tryParse (depth + 1) (some id) body s₀)
          (p.wrap definition.name place) := by
  cases stands with
  | lexical known => cases known.symm.trans other
  | rule _ found =>
    obtain ⟨id', body, found', name, shape, inner⟩ := compiles.rule defined
    cases found.symm.trans found'
    rcases Nat.lt_or_ge depth p.limit with shallow | deep
    · obtain ⟨place, stream, begins⟩ := there.complete.place?
      refine .inr ⟨shallow, body, place, _, inner, there.scanned (Stream.agrees_of_place? begins), ?_⟩
      rw [tryParse_named shape shallow, begins, Grammar.ruleName, name]
      dsimp only
      congr 1
    · rw [tryParse_deep shape (Nat.not_lt.2 deep)]
      obtain ⟨rule, limit, place, same⟩ := tooDeepAt_tooDeep there.complete
      exact .inl ⟨deep, rule, limit, place, congrArg Except.error same⟩

variable {definition : Definition} (defined : definition ∈ ds)
  (other : lexicalPatterns.lookup definition.name = none)
include compiles defined other

theorem answers_rule {found' : Option (List ν)} (inner : p.Answers definition.body n w b found v c)
    (made : ∀ place s, s.At v c →
      ∃ s', p.wrap definition.name place found s = (.ok found', s') ∧ s'.At v d) :
    p.Answers (.name definition.name) (n + 1) w b found' v d := by
  refine ⟨fun {depth within id s} stands shallow there => ?_⟩
  rcases tryParse_rule compiles defined other depth within stands there with
    ⟨deep, tooDeep⟩ | ⟨shallow, body, place, s₀, stands, there₀, result⟩
  · exact ⟨fun enough => by omega, fun _ => tooDeep⟩
  · rw [result]
    exact ((inner.gives stands shallow there₀).andReturn shallow (made place)).deeper

theorem answers_named {node : ν} (inner : p.Answers definition.body n w b (some nodes) v c)
    (built : p.builder.rule definition.name nodes c = (.ok node, d)) :
    p.Answers (.name definition.name) (n + 1) w b (some [node]) v d := by
  refine answers_rule compiles defined other inner fun place s there => ?_
  refine ⟨{ s with building := d }, ?_, there.rest, there.complete, rfl⟩
  rw [wrap, there.building, built]

theorem answers_named_none (inner : p.Answers definition.body n w b none w c) :
    p.Answers (.name definition.name) (n + 1) w b none w c :=
  answers_rule compiles defined other inner fun _ s there => ⟨s, rfl, there⟩

end Shapes

end Bodies

/-! ## Failures -/

/-- Every rule that stands for the body ends with an error. -/
structure Fails (p : Parser σ ν) (x : Body) (w : List Token) (b : σ) : Prop where
  fails : ∀ {depth} within {id s}, p.grammar.arena.Unfolds x id → depth ≤ p.limit → s.At w b →
    ∃ e, (p.tryParse depth within id s).1 = .error e

/-- The same of as many rounds as match. -/
structure FailsRounds (p : Parser σ ν) (x : Body) (w : List Token) (b : σ) : Prop where
  fails : ∀ {depth} within {id s}, p.grammar.arena.Unfolds x id → depth ≤ p.limit → s.At w b →
    ∃ e, (rounds (p.tryParse depth within id) s).1 = .error e

theorem andThen_error {τ α β : Type} {r : Except ParseError α × τ}
    {next : α → τ → Except ParseError β × τ} {e : ParseError} (h : r.1 = .error e) :
    (Rowlang.andThen r next).1 = .error e := by
  obtain ⟨r, s⟩ := r
  obtain rfl : r = .error e := h
  rfl

theorem Gives.fails {α β : Type} {p : Parser σ ν} {depth n : Nat} {x : α} {v : List Token} {c : σ}
    {first : Except ParseError α × ParseState σ}
    {next : α → ParseState σ → Except ParseError β × ParseState σ} (h : p.Gives depth n first x v c)
    (later : ∀ s, s.At v c → ∃ e, (next x s).1 = .error e) :
    ∃ e, (Rowlang.andThen first next).1 = .error e := by
  by_cases few : p.limit < depth + n
  · obtain ⟨rule, limit, place, failed⟩ := h.tooDeep few
    exact ⟨_, andThen_error failed⟩
  · obtain ⟨r, s⟩ := first
    obtain ⟨rfl, there⟩ := h.enough (by omega)
    exact later s there

section Failures
variable {p : Parser σ ν} {x : Body} {n : Nat} {w u : List Token} {b c d : σ} {nodes : List ν}

theorem failsRounds_first (first : p.Fails x w b) : p.FailsRounds x w b := by
  refine ⟨fun {depth} within {id s} stands shallow there => ?_⟩
  obtain ⟨e, failed⟩ := first.fails within stands shallow there
  rw [rounds_eq]
  exact ⟨e, andThen_error failed⟩

theorem failsRounds_later (shorter : u.length < w.length) (first : p.Answers x n w b (some nodes) u c)
    (later : p.FailsRounds x u c) : p.FailsRounds x w b := by
  refine ⟨fun {depth} within {id s} stands shallow there => ?_⟩
  rw [rounds_eq]
  refine (first.gives stands shallow there).fails fun s₁ there₁ => ?_
  dsimp only
  rw [if_pos (by rw [there₁.rest, there.rest]; exact shorter)]
  obtain ⟨e, failed⟩ := later.fails within stands shallow there₁
  exact ⟨e, andThen_error failed⟩

theorem fails_star (inner : p.FailsRounds x w b) : p.Fails (.star x) w b := by
  refine ⟨fun {depth} within {id s} stands shallow there => ?_⟩
  cases stands with
  | star shape child =>
    obtain ⟨e, failed⟩ := inner.fails within child shallow there
    rw [tryParse_star shape]
    exact ⟨e, andThen_error failed⟩

variable {ds : List Definition} (compiles : p.grammar.Compiles ds) {definition : Definition}
  (defined : definition ∈ ds) (other : lexicalPatterns.lookup definition.name = none)
include compiles defined other

theorem fails_named (inner : p.Fails definition.body w b) : p.Fails (.name definition.name) w b := by
  refine ⟨fun {depth} within {id s} stands shallow there => ?_⟩
  rcases tryParse_rule compiles defined other depth within stands there with
    ⟨-, rule, limit, place, tooDeep⟩ | ⟨shallow, body, place, s₀, stands, there₀, result⟩
  · exact ⟨_, tooDeep⟩
  · obtain ⟨e, failed⟩ := inner.fails (some id) stands shallow there₀
    rw [result]
    exact ⟨e, andThen_error failed⟩

theorem fails_refused {reason : String} (inner : p.Answers definition.body n w b (some nodes) u c)
    (refused : p.builder.rule definition.name nodes c = (.error reason, d)) :
    p.Fails (.name definition.name) w b := by
  refine ⟨fun {depth} within {id s} stands shallow there => ?_⟩
  rcases tryParse_rule compiles defined other depth within stands there with
    ⟨-, rule, limit, place, tooDeep⟩ | ⟨shallow, body, place, s₀, stands, there₀, result⟩
  · exact ⟨_, tooDeep⟩
  · rw [result]
    refine (inner.gives stands shallow there₀).fails fun s₁ there₁ => ?_
    rw [wrap, there₁.building, refused]
    exact ⟨_, rfl⟩

end Failures

/-! ## Whole texts -/

/-- Of a whole text that the rule answers with a node, the node is returned. -/
theorem Answers.parseAll {p : Parser σ ν} {x : Body} {n id : Nat} {w : List Token} {b c : σ} {node : ν}
    {s : ParseState σ} (h : p.Answers x n w b (some [node]) [] c)
    (stands : p.grammar.arena.Unfolds x id) (there : s.At w b) :
    (n ≤ p.limit → ∃ s', p.parseAll id s = (.ok node, s') ∧ s'.building = c) ∧
      (p.limit < n → ∃ rule limit place s', p.parseAll id s = (.error (.tooDeep rule limit place), s') ∧
        p.Run 0 none (.once id) s (.error (.tooDeep rule limit place)) s') := by
  have gives : p.Gives 0 n (p.tryParse 0 none id s) (some [node]) [] c :=
    h.gives stands (Nat.zero_le _) there
  cases tried : p.tryParse 0 none id s with | mk r s' =>
  rw [tried] at gives
  unfold Parser.parseAll
  rw [tried]
  constructor
  · intro enough
    obtain ⟨rfl, there⟩ := gives.enough (by omega)
    obtain ⟨stream, peek⟩ := there.complete.peek 0
    rw [there.rest] at peek
    dsimp only
    rw [peek]
    exact ⟨_, rfl, there.building⟩
  · intro deep
    obtain ⟨rule, limit, place, rfl⟩ := gives.tooDeep (by omega)
    exact ⟨rule, limit, place, s', rfl, run_of_tryParse tried⟩

theorem Fails.parseAll {p : Parser σ ν} {x : Body} {id : Nat} {w : List Token} {b : σ}
    {s : ParseState σ} (h : p.Fails x w b) (stands : p.grammar.arena.Unfolds x id) (there : s.At w b) :
    ∃ e, (p.parseAll id s).1 = .error e := by
  obtain ⟨e, failed⟩ := h.fails none stands (Nat.zero_le _) there
  unfold Parser.parseAll
  generalize p.tryParse 0 none id s = result at failed
  obtain ⟨r, s'⟩ := result
  obtain rfl : r = .error e := failed
  exact ⟨e, rfl⟩

/-! ## What the builder keeps -/

/-- What holds of the builder's state behind each node that it makes, holds behind every attempt, unless
it refused a node. -/
theorem Run.building {p : Parser σ ν} {I : σ → Prop}
    (keeps : ∀ {name nodes b node c}, I b → p.builder.rule name nodes b = (.ok node, c) → I c)
    {depth : Nat} {within : Option Nat} {a : Attempt} {s s' : ParseState σ} {o : Outcome ν}
    (run : p.Run depth within a s o s') (h : I s.building) :
    I s'.building ∨ ∃ rule reason line column, o = .error (.rejected rule reason line column) := by
  induction run with
  | undefined | unscanned | token | otherToken | guardError | guardClosed | ahead | tooDeep
  | unplaced => exact .inl h
  | guardOpen _ _ _ ih | seqLeft _ _ _ _ ih | altLeft _ _ _ ih | star _ _ ih | plusFirst _ _ _ ih
  | namedBody _ _ _ _ _ ih => exact ih h
  | opt _ _ ih | noRound _ ih | lastRound _ _ ih =>
    exact (ih h).imp_right fun ⟨_, _, _, _, failed⟩ => by cases failed
  | optError _ _ ih | roundError _ ih =>
    refine (ih h).imp_right ?_
    rintro ⟨rule, reason, line, column, failed⟩
    cases failed
    exact ⟨rule, reason, line, column, rfl⟩
  | seqError _ _ _ _ ih ih' | plusError _ _ _ ih ih' | laterError _ _ _ ih ih' =>
    rcases ih h with h₁ | ⟨_, _, _, _, failed⟩
    · refine (ih' h₁).imp_right ?_
      rintro ⟨rule, reason, line, column, failed⟩
      cases failed
      exact ⟨rule, reason, line, column, rfl⟩
    · cases failed
  | altRight _ _ _ ih ih' =>
    rcases ih h with h₁ | ⟨_, _, _, _, failed⟩
    · exact ih' h₁
    · cases failed
  | seqBoth _ _ _ _ ih ih' | seqNone _ _ _ _ _ ih ih' | seqMissing _ _ _ _ _ _ ih ih'
  | plus _ _ _ ih ih' | round _ _ _ ih ih' =>
    rcases ih h with h₁ | ⟨_, _, _, _, failed⟩
    · exact (ih' h₁).imp_right fun ⟨_, _, _, _, failed⟩ => by cases failed
    · cases failed
  | named _ _ _ _ built ih =>
    rcases ih h with h₁ | ⟨_, _, _, _, failed⟩
    · exact .inl (keeps h₁ built)
    · cases failed
  | refused => exact .inr ⟨_, _, _, _, rfl⟩

end Parser

end Rowlang
