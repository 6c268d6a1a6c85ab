import Rowlang.Parse.Parser

/-!
# Runs of the parser

The parser as a relation: one case for each way in which the outcome of a rule comes about.

* `Grammar.guard?` : the rule that is entered only if the next tokens fit it, in either written form;
* `Attempt` : a rule tried once, or as many rounds of it as match;
* `Parser.Run` : the outcome of an attempt, and the state behind it;
* `Parser.run_of_tryParse` : what the parser computes is a run.

Properties of the parser are proved by induction on runs, or from what a run can be for each shape of
rule (`Run.of_seq` and the like).
-/

namespace Rowlang
open Rowlang.Text

/-- The rule that `id` enters only if the next tokens fit it, and how many tokens are looked at. -/
def Grammar.guard? (g : Grammar) (id : Nat) : Option (Nat × Nat) :=
  match g.shape? id with
  | some (.seq left right) =>
    match g.shape? left with
    | some (.ahead count) => some (right, count)
    | _ => none
  | some (.guarded child count) => some (child, count)
  | _ => none

/-- What is tried: a rule, or as many rounds of a rule as match. -/
inductive Attempt where
  | once (id : Nat)
  | many (child : Nat)

namespace Parser

variable {σ ν : Type}

/-- The outcome `o` of an attempt from the state `s`, and the state behind it, with `depth` named
rules open, the innermost of them `within`. -/
inductive Run (p : Parser σ ν) :
    Nat → Option Nat → Attempt → ParseState σ → Outcome ν → ParseState σ → Prop
  | undefined {depth within id s} (h : p.grammar.shape? id = none) :
      Run p depth within (.once id) s (.ok none) s
  | unscanned {depth within id s pattern e} (h : p.grammar.shape? id = some (.token pattern))
      (peek : s.stream.peek 0 = .error e) :
      Run p depth within (.once id) s (.error (.lex e)) s
  | token {depth within id s t stream} (h : p.grammar.shape? id = some (.token t.pattern))
      (peek : s.stream.peek 0 = .ok (some t, stream)) :
      Run p depth within (.once id) s (.ok (some [p.builder.token t]))
        { s with stream := stream.advance }
  | otherToken {depth within id s pattern found stream}
      (h : p.grammar.shape? id = some (.token pattern))
      (peek : s.stream.peek 0 = .ok (found, stream))
      (other : ∀ t, found = some t → t.pattern ≠ pattern) :
      Run p depth within (.once id) s (.ok none) { s with stream }
  /-- the check of a guard fails with an error -/
  | guardError {depth within id s child count e stream}
      (h : p.grammar.guard? id = some (child, count))
      (look : p.grammar.lookAhead p.limit depth child count 0 s.stream = (.error e, stream)) :
      Run p depth within (.once id) s (.error e) { s with stream }
  | guardClosed {depth within id s child count stream}
      (h : p.grammar.guard? id = some (child, count))
      (look : p.grammar.lookAhead p.limit depth child count 0 s.stream = (.ok none, stream)) :
      Run p depth within (.once id) s (.ok none) { s with stream }
  | guardOpen {depth within id s child count fit stream o s'}
      (h : p.grammar.guard? id = some (child, count))
      (look : p.grammar.lookAhead p.limit depth child count 0 s.stream = (.ok (some fit), stream))
      (run : Run p depth within (.once child) { s with stream } o s') :
      Run p depth within (.once id) s o s'
  /-- the left part fails or does not match -/
  | seqLeft {depth within id s left right o s₁}
      (h : p.grammar.shape? id = some (.seq left right)) (plain : p.grammar.guard? id = none)
      (run : Run p depth within (.once left) s o s₁) (unmatched : ∀ nodes, o ≠ .ok (some nodes)) :
      Run p depth within (.once id) s o s₁
  | seqBoth {depth within id s left right nodes more s₁ s₂}
      (h : p.grammar.shape? id = some (.seq left right)) (plain : p.grammar.guard? id = none)
      (runLeft : Run p depth within (.once left) s (.ok (some nodes)) s₁)
      (runRight : Run p depth within (.once right) s₁ (.ok (some more)) s₂) :
      Run p depth within (.once id) s (.ok (some (nodes ++ more))) s₂
  | seqError {depth within id s left right nodes e s₁ s₂}
      (h : p.grammar.shape? id = some (.seq left right)) (plain : p.grammar.guard? id = none)
      (runLeft : Run p depth within (.once left) s (.ok (some nodes)) s₁)
      (runRight : Run p depth within (.once right) s₁ (.error e) s₂) :
      Run p depth within (.once id) s (.error e) s₂
  /-- the right part does not match, and nothing was consumed: the nodes of the left part are given up -/
  | seqNone {depth within id s left right nodes s₁ s₂}
      (h : p.grammar.shape? id = some (.seq left right)) (plain : p.grammar.guard? id = none)
      (runLeft : Run p depth within (.once left) s (.ok (some nodes)) s₁)
      (runRight : Run p depth within (.once right) s₁ (.ok none) s₂)
      (unmoved : s₂.stream.rest.length = s.stream.rest.length) :
      Run p depth within (.once id) s (.ok none) s₂
  | seqMissing {depth within id s left right nodes s₁ s₂ e stream}
      (h : p.grammar.shape? id = some (.seq left right)) (plain : p.grammar.guard? id = none)
      (runLeft : Run p depth within (.once left) s (.ok (some nodes)) s₁)
      (runRight : Run p depth within (.once right) s₁ (.ok none) s₂)
      (moved : s₂.stream.rest.length ≠ s.stream.rest.length)
      (missing : p.missing within right s₂.stream = (e, stream)) :
      Run p depth within (.once id) s (.error e) { s₂ with stream }
  | altLeft {depth within id s left right o s₁}
      (h : p.grammar.shape? id = some (.alt left right))
      (run : Run p depth within (.once left) s o s₁) (decided : o ≠ .ok none) :
      Run p depth within (.once id) s o s₁
  | altRight {depth within id s left right o s₁ s₂}
      (h : p.grammar.shape? id = some (.alt left right))
      (runLeft : Run p depth within (.once left) s (.ok none) s₁)
      (runRight : Run p depth within (.once right) s₁ o s₂) :
      Run p depth within (.once id) s o s₂
  | optError {depth within id s child e s₁} (h : p.grammar.shape? id = some (.opt child))
      (run : Run p depth within (.once child) s (.error e) s₁) :
      Run p depth within (.once id) s (.error e) s₁
  | opt {depth within id s child nodes s₁} (h : p.grammar.shape? id = some (.opt child))
      (run : Run p depth within (.once child) s (.ok nodes) s₁) :
      Run p depth within (.once id) s (.ok (some (nodes.getD []))) s₁
  | star {depth within id s child o s₁} (h : p.grammar.shape? id = some (.star child))
      (run : Run p depth within (.many child) s o s₁) :
      Run p depth within (.once id) s o s₁
  /-- the first round fails or does not match -/
  | plusFirst {depth within id s child o s₁} (h : p.grammar.shape? id = some (.plus child))
      (run : Run p depth within (.once child) s o s₁) (unmatched : ∀ nodes, o ≠ .ok (some nodes)) :
      Run p depth within (.once id) s o s₁
  | plusError {depth within id s child nodes e s₁ s₂} (h : p.grammar.shape? id = some (.plus child))
      (runFirst : Run p depth within (.once child) s (.ok (some nodes)) s₁)
      (runMore : Run p depth within (.many child) s₁ (.error e) s₂) :
      Run p depth within (.once id) s (.error e) s₂
  | plus {depth within id s child nodes more s₁ s₂} (h : p.grammar.shape? id = some (.plus child))
      (runFirst : Run p depth within (.once child) s (.ok (some nodes)) s₁)
      (runMore : Run p depth within (.many child) s₁ (.ok (some more)) s₂) :
      Run p depth within (.once id) s (.ok (some (nodes ++ more))) s₂
  | ahead {depth within id s count} (h : p.grammar.shape? id = some (.ahead count)) :
      Run p depth within (.once id) s (.ok (some [])) s
  | tooDeep {depth within id s body e stream} (h : p.grammar.shape? id = some (.named body))
      (deep : ¬ depth < p.limit)
      (error : p.grammar.tooDeepAt p.limit id s.stream = (e, stream)) :
      Run p depth within (.once id) s (.error e) { s with stream }
  /-- the place where a named rule begins cannot be scanned -/
  | unplaced {depth within id s body e} (h : p.grammar.shape? id = some (.named body))
      (shallow : depth < p.limit) (place : s.stream.place? = .error e) :
      Run p depth within (.once id) s (.error (.lex e)) s
  /-- the body of a named rule fails or does not match -/
  | namedBody {depth within id s body place stream o s₁}
      (h : p.grammar.shape? id = some (.named body)) (shallow : depth < p.limit)
      (begins : s.stream.place? = .ok (place, stream))
      (run : Run p (depth + 1) (some id) (.once body) { s with stream } o s₁)
      (unmatched : ∀ nodes, o ≠ .ok (some nodes)) :
      Run p depth within (.once id) s o s₁
  | named {depth within id s body place stream children node building s₁}
      (h : p.grammar.shape? id = some (.named body)) (shallow : depth < p.limit)
      (begins : s.stream.place? = .ok (place, stream))
      (run : Run p (depth + 1) (some id) (.once body) { s with stream } (.ok (some children)) s₁)
      (built : p.builder.rule (p.grammar.ruleName id) children s₁.building = (.ok node, building)) :
      Run p depth within (.once id) s (.ok (some [node])) { s₁ with building }
  | refused {depth within id s body place stream children reason building s₁}
      (h : p.grammar.shape? id = some (.named body)) (shallow : depth < p.limit)
      (begins : s.stream.place? = .ok (place, stream))
      (run : Run p (depth + 1) (some id) (.once body) { s with stream } (.ok (some children)) s₁)
      (refusal :
        p.builder.rule (p.grammar.ruleName id) children s₁.building = (.error reason, building)) :
      Run p depth within (.once id) s
        (.error (.rejected (p.grammar.ruleName id) reason place.line place.column))
        { s₁ with building }
  | roundError {depth within child s e s₁}
      (run : Run p depth within (.once child) s (.error e) s₁) :
      Run p depth within (.many child) s (.error e) s₁
  | noRound {depth within child s s₁} (run : Run p depth within (.once child) s (.ok none) s₁) :
      Run p depth within (.many child) s (.ok (some [])) s₁
  /-- a round that consumes nothing is the last -/
  | lastRound {depth within child s nodes s₁}
      (run : Run p depth within (.once child) s (.ok (some nodes)) s₁)
      (unmoved : ¬ s₁.stream.rest.length < s.stream.rest.length) :
      Run p depth within (.many child) s (.ok (some nodes)) s₁
  | round {depth within child s nodes more s₁ s₂}
      (run : Run p depth within (.once child) s (.ok (some nodes)) s₁)
      (moved : s₁.stream.rest.length < s.stream.rest.length)
      (runMore : Run p depth within (.many child) s₁ (.ok (some more)) s₂) :
      Run p depth within (.many child) s (.ok (some (nodes ++ more))) s₂
  | laterError {depth within child s nodes e s₁ s₂}
      (run : Run p depth within (.once child) s (.ok (some nodes)) s₁)
      (moved : s₁.stream.rest.length < s.stream.rest.length)
      (runMore : Run p depth within (.many child) s₁ (.error e) s₂) :
      Run p depth within (.many child) s (.error e) s₂

/-! ## The parser is a run -/

theorem guard?_eq_none_of_seq {g : Grammar} {id left right : Nat}
    (h : g.shape? id = some (.seq left right)) (hl : ∀ count, g.shape? left ≠ some (.ahead count)) :
    g.guard? id = none := by
  simp only [Grammar.guard?, h]

/-- What the parser makes of the rounds of a rule is a run, if that of a single round is. -/
theorem run_of_rounds {p : Parser σ ν} {depth : Nat} {within : Option Nat} {child : Nat}
    {one : ParseState σ → Outcome ν × ParseState σ}
    (run_one : ∀ s o s', one s = (o, s') → p.Run depth within (.once child) s o s')
    {s s' : ParseState σ} {r : Except ParseError (List ν)} (h : rounds one s = (r, s')) :
    p.Run depth within (.many child) s (r.map some) s' := by
  rw [rounds] at h
  split at h
  · obtain ⟨rfl, rfl⟩ := Prod.mk.inj h
    exact .roundError (run_one _ _ _ ‹_›)
  · obtain ⟨rfl, rfl⟩ := Prod.mk.inj h
    exact .noRound (run_one _ _ _ ‹_›)
  · have run := run_one _ _ _ ‹one s = _›
    split at h
    · split at h <;> obtain ⟨rfl, rfl⟩ := Prod.mk.inj h
      · exact .laterError run ‹_› (run_of_rounds run_one ‹_›)
      · exact .round run ‹_› (run_of_rounds run_one ‹_›)
    · obtain ⟨rfl, rfl⟩ := Prod.mk.inj h
      exact .lastRound run ‹_›
termination_by s.stream.rest.length

/-- What the parser makes of a rule is a run. -/
theorem run_of_tryParse {p : Parser σ ν} {depth : Nat} {within : Option Nat} {id : Nat}
    {s s' : ParseState σ} {o : Outcome ν} (h : p.tryParse depth within id s = (o, s')) :
    p.Run depth within (.once id) s o s' := by
  rw [tryParse] at h
  split at h
  · obtain ⟨rfl, rfl⟩ := Prod.mk.inj h
    exact .undefined ‹_›
  -- one token
  · split at h
    · obtain ⟨rfl, rfl⟩ := Prod.mk.inj h
      exact .unscanned ‹_› ‹_›
    · split at h <;> obtain ⟨rfl, rfl⟩ := Prod.mk.inj h
      · subst_vars
        exact .token ‹_› ‹_›
      · exact .otherToken ‹_› ‹_› (by rintro t ⟨⟩; assumption)
    · obtain ⟨rfl, rfl⟩ := Prod.mk.inj h
      exact .otherToken ‹_› ‹_› (by simp)
  -- a sequence
  · rename_i left right hs
    have := p.grammar.rank_part_lt (p.limit - depth) hs (c := left) (by simp [Shape.parts])
    have := p.grammar.rank_part_lt (p.limit - depth) hs (c := right) (by simp [Shape.parts])
    dsimp only at h
    split at h
    · rename_i count hl
      have guard : p.grammar.guard? id = some (right, count) := by simp [Grammar.guard?, hs, hl]
      split at h
      · obtain ⟨rfl, rfl⟩ := Prod.mk.inj h
        exact .guardError guard ‹_›
      · obtain ⟨rfl, rfl⟩ := Prod.mk.inj h
        exact .guardClosed guard ‹_›
      · exact .guardOpen guard ‹_› (run_of_tryParse h)
    · rename_i hl
      have plain := guard?_eq_none_of_seq hs hl
      split at h
      · obtain ⟨rfl, rfl⟩ := Prod.mk.inj h
        exact .seqLeft hs plain (run_of_tryParse ‹_›) (by simp)
      · obtain ⟨rfl, rfl⟩ := Prod.mk.inj h
        exact .seqLeft hs plain (run_of_tryParse ‹_›) (by simp)
      · have runLeft := run_of_tryParse ‹p.tryParse depth within left s = _›
        split at h
        · obtain ⟨rfl, rfl⟩ := Prod.mk.inj h
          exact .seqError hs plain runLeft (run_of_tryParse ‹_›)
        · obtain ⟨rfl, rfl⟩ := Prod.mk.inj h
          exact .seqBoth hs plain runLeft (run_of_tryParse ‹_›)
        · split at h <;> obtain ⟨rfl, rfl⟩ := Prod.mk.inj h
          · exact .seqNone hs plain runLeft (run_of_tryParse ‹_›) ‹_›
          · exact .seqMissing hs plain runLeft (run_of_tryParse ‹_›) ‹_› rfl
  -- alternatives
  · rename_i left right hs
    have := p.grammar.rank_part_lt (p.limit - depth) hs (c := left) (by simp [Shape.parts])
    have := p.grammar.rank_part_lt (p.limit - depth) hs (c := right) (by simp [Shape.parts])
    dsimp only at h
    split at h
    · obtain ⟨rfl, rfl⟩ := Prod.mk.inj h
      exact .altLeft hs (run_of_tryParse ‹_›) (by simp)
    · obtain ⟨rfl, rfl⟩ := Prod.mk.inj h
      exact .altLeft hs (run_of_tryParse ‹_›) (by simp)
    · exact .altRight hs (run_of_tryParse ‹_›) (run_of_tryParse h)
  -- a rule that may be left out, or repeated
  · rename_i child hs
    have := p.grammar.rank_part_lt (p.limit - depth) hs (c := child) (by simp [Shape.parts])
    dsimp only at h
    split at h <;> obtain ⟨rfl, rfl⟩ := Prod.mk.inj h
    · exact .optError hs (run_of_tryParse ‹_›)
    · exact .opt hs (run_of_tryParse ‹_›)
  · rename_i child hs
    have := p.grammar.rank_part_lt (p.limit - depth) hs (c := child) (by simp [Shape.parts])
    dsimp only at h
    split at h <;> obtain ⟨rfl, rfl⟩ := Prod.mk.inj h
    · exact .star hs (run_of_rounds (fun _ _ _ => run_of_tryParse) ‹_›)
    · exact .star hs (run_of_rounds (fun _ _ _ => run_of_tryParse) ‹_›)
  · rename_i child hs
    have := p.grammar.rank_part_lt (p.limit - depth) hs (c := child) (by simp [Shape.parts])
    dsimp only at h
    split at h
    · obtain ⟨rfl, rfl⟩ := Prod.mk.inj h
      exact .plusFirst hs (run_of_tryParse ‹_›) (by simp)
    · obtain ⟨rfl, rfl⟩ := Prod.mk.inj h
      exact .plusFirst hs (run_of_tryParse ‹_›) (by simp)
    · have runFirst := run_of_tryParse ‹p.tryParse depth within child s = _›
      split at h <;> obtain ⟨rfl, rfl⟩ := Prod.mk.inj h
      · exact .plusError hs runFirst (run_of_rounds (fun _ _ _ => run_of_tryParse) ‹_›)
      · exact .plus hs runFirst (run_of_rounds (fun _ _ _ => run_of_tryParse) ‹_›)
  -- checks
  · obtain ⟨rfl, rfl⟩ := Prod.mk.inj h
    exact .ahead ‹_›
  · rename_i child count hs
    have := p.grammar.rank_part_lt (p.limit - depth) hs (c := child) (by simp [Shape.parts])
    have guard : p.grammar.guard? id = some (child, count) := by simp [Grammar.guard?, hs]
    dsimp only at h
    split at h
    · obtain ⟨rfl, rfl⟩ := Prod.mk.inj h
      exact .guardError guard ‹_›
    · obtain ⟨rfl, rfl⟩ := Prod.mk.inj h
      exact .guardClosed guard ‹_›
    · exact .guardOpen guard ‹_› (run_of_tryParse h)
  -- a named rule
  · rename_i body hs
    split at h
    · rename_i deeper
      have := p.grammar.rank_body_lt deeper id body
      split at h
      · obtain ⟨rfl, rfl⟩ := Prod.mk.inj h
        exact .unplaced hs ‹_› ‹_›
      · split at h
        · obtain ⟨rfl, rfl⟩ := Prod.mk.inj h
          exact .namedBody hs ‹_› ‹_› (run_of_tryParse ‹_›) (by simp)
        · obtain ⟨rfl, rfl⟩ := Prod.mk.inj h
          exact .namedBody hs ‹_› ‹_› (run_of_tryParse ‹_›) (by simp)
        · dsimp only at h
          split at h <;> obtain ⟨rfl, rfl⟩ := Prod.mk.inj h
          · exact .named hs ‹_› ‹_› (run_of_tryParse ‹_›) ‹_›
          · exact .refused hs ‹_› ‹_› (run_of_tryParse ‹_›) ‹_›
    · obtain ⟨rfl, rfl⟩ := Prod.mk.inj h
      exact .tooDeep hs ‹_› rfl
termination_by p.grammar.rank (p.limit - depth) id

/-! ## Runs by the shape of the rule -/

section Inversion
variable {p : Parser σ ν} {depth : Nat} {within : Option Nat} {id : Nat} {s s' : ParseState σ}
  {o : Outcome ν}

theorem Run.of_token {pattern : Nat} (h : p.grammar.shape? id = some (.token pattern))
    (run : p.Run depth within (.once id) s o s') :
    (∃ e, s.stream.peek 0 = .error e) ∨ ∃ found stream, s.stream.peek 0 = .ok (found, stream) ∧
      ((∃ t, found = some t ∧ t.pattern = pattern ∧ o = .ok (some [p.builder.token t]) ∧
          s' = { s with stream := stream.advance }) ∨
        ((∀ t, found = some t → t.pattern ≠ pattern) ∧ o = .ok none)) := by
  cases run with
  | unscanned _ peek => exact .inl ⟨_, peek⟩
  | token h' peek =>
    cases h.symm.trans h'
    exact .inr ⟨_, _, peek, .inl ⟨_, rfl, rfl, rfl, rfl⟩⟩
  | otherToken h' peek other =>
    cases h.symm.trans h'
    exact .inr ⟨_, _, peek, .inr ⟨other, rfl⟩⟩
  | guardError h' | guardClosed h' | guardOpen h' => simp [Grammar.guard?, h] at h'
  | _ => simp_all

theorem Run.of_guard {child count : Nat} (h : p.grammar.guard? id = some (child, count))
    (run : p.Run depth within (.once id) s o s') :
    ∃ r stream, p.grammar.lookAhead p.limit depth child count 0 s.stream = (r, stream) ∧
      ((∃ e, r = .error e ∧ o = .error e) ∨ (r = .ok none ∧ o = .ok none) ∨
        ∃ fit, r = .ok (some fit) ∧
          p.Run depth within (.once child) { s with stream } o s') := by
  have shape : (∃ left right, p.grammar.shape? id = some (.seq left right)) ∨
      ∃ child count, p.grammar.shape? id = some (.guarded child count) := by
    unfold Grammar.guard? at h
    split at h
    · exact .inl ⟨_, _, ‹_›⟩
    · exact .inr ⟨_, _, ‹_›⟩
    · cases h
  cases run with
  | guardError h' look =>
    cases h.symm.trans h'
    exact ⟨_, _, look, .inl ⟨_, rfl, rfl⟩⟩
  | guardClosed h' look =>
    cases h.symm.trans h'
    exact ⟨_, _, look, .inr (.inl ⟨rfl, rfl⟩)⟩
  | guardOpen h' look run =>
    cases h.symm.trans h'
    exact ⟨_, _, look, .inr (.inr ⟨_, rfl, run⟩)⟩
  | _ => simp_all

theorem Run.of_seq {left right : Nat} (h : p.grammar.shape? id = some (.seq left right))
    (plain : p.grammar.guard? id = none) (run : p.Run depth within (.once id) s o s') :
    (p.Run depth within (.once left) s o s' ∧ ∀ nodes, o ≠ .ok (some nodes)) ∨
    ∃ nodes s₁, p.Run depth within (.once left) s (.ok (some nodes)) s₁ ∧
      ((∃ more, o = .ok (some (nodes ++ more)) ∧
          p.Run depth within (.once right) s₁ (.ok (some more)) s') ∨
        (∃ e, o = .error e ∧ p.Run depth within (.once right) s₁ (.error e) s') ∨
        (p.Run depth within (.once right) s₁ (.ok none) s' ∧ o = .ok none) ∨
        ∃ s₂, p.Run depth within (.once right) s₁ (.ok none) s₂ ∧
          s₂.stream.rest.length ≠ s.stream.rest.length) := by
  cases run with
  | seqLeft h' _ run unmatched =>
    cases h.symm.trans h'
    exact .inl ⟨run, unmatched⟩
  | seqBoth h' _ first second =>
    cases h.symm.trans h'
    exact .inr ⟨_, _, first, .inl ⟨_, rfl, second⟩⟩
  | seqError h' _ first second =>
    cases h.symm.trans h'
    exact .inr ⟨_, _, first, .inr (.inl ⟨_, rfl, second⟩)⟩
  | seqNone h' _ first second =>
    cases h.symm.trans h'
    exact .inr ⟨_, _, first, .inr (.inr (.inl ⟨second, rfl⟩))⟩
  | seqMissing h' _ first second moved =>
    cases h.symm.trans h'
    exact .inr ⟨_, _, first, .inr (.inr (.inr ⟨_, second, moved⟩))⟩
  | _ => simp_all

theorem Run.of_alt {left right : Nat} (h : p.grammar.shape? id = some (.alt left right))
    (run : p.Run depth within (.once id) s o s') :
    (o ≠ .ok none ∧ p.Run depth within (.once left) s o s') ∨
    ∃ s₁, p.Run depth within (.once left) s (.ok none) s₁ ∧
      p.Run depth within (.once right) s₁ o s' := by
  cases run with
  | altLeft h' run decided =>
    cases h.symm.trans h'
    exact .inl ⟨decided, run⟩
  | altRight h' first second =>
    cases h.symm.trans h'
    exact .inr ⟨_, first, second⟩
  | guardError h' | guardClosed h' | guardOpen h' => simp [Grammar.guard?, h] at h'
  | _ => simp_all

theorem Run.of_opt {child : Nat} (h : p.grammar.shape? id = some (.opt child))
    (run : p.Run depth within (.once id) s o s') :
    (∃ e, o = .error e ∧ p.Run depth within (.once child) s (.error e) s') ∨
    ∃ nodes, o = .ok (some (nodes.getD [])) ∧ p.Run depth within (.once child) s (.ok nodes) s' := by
  cases run with
  | optError h' run =>
    cases h.symm.trans h'
    exact .inl ⟨_, rfl, run⟩
  | opt h' run =>
    cases h.symm.trans h'
    exact .inr ⟨_, rfl, run⟩
  | guardError h' | guardClosed h' | guardOpen h' => simp [Grammar.guard?, h] at h'
  | _ => simp_all

theorem Run.of_star {child : Nat} (h : p.grammar.shape? id = some (.star child))
    (run : p.Run depth within (.once id) s o s') : p.Run depth within (.many child) s o s' := by
  cases run with
  | star h' run =>
    cases h.symm.trans h'
    exact run
  | guardError h' | guardClosed h' | guardOpen h' => simp [Grammar.guard?, h] at h'
  | _ => simp_all

theorem Run.of_plus {child : Nat} (h : p.grammar.shape? id = some (.plus child))
    (run : p.Run depth within (.once id) s o s') :
    (p.Run depth within (.once child) s o s' ∧ ∀ nodes, o ≠ .ok (some nodes)) ∨
    ∃ nodes s₁, p.Run depth within (.once child) s (.ok (some nodes)) s₁ ∧
      ((∃ e, o = .error e ∧ p.Run depth within (.many child) s₁ (.error e) s') ∨
        ∃ more, o = .ok (some (nodes ++ more)) ∧
          p.Run depth within (.many child) s₁ (.ok (some more)) s') := by
  cases run with
  | plusFirst h' run unmatched =>
    cases h.symm.trans h'
    exact .inl ⟨run, unmatched⟩
  | plusError h' first more =>
    cases h.symm.trans h'
    exact .inr ⟨_, _, first, .inl ⟨_, rfl, more⟩⟩
  | plus h' first more =>
    cases h.symm.trans h'
    exact .inr ⟨_, _, first, .inr ⟨_, rfl, more⟩⟩
  | guardError h' | guardClosed h' | guardOpen h' => simp [Grammar.guard?, h] at h'
  | _ => simp_all

theorem Run.of_named {body : Nat} (h : p.grammar.shape? id = some (.named body))
    (run : p.Run depth within (.once id) s o s') :
    (¬ depth < p.limit ∧ ∃ e stream, p.grammar.tooDeepAt p.limit id s.stream = (e, stream) ∧
      o = .error e) ∨
    depth < p.limit ∧ ((∃ e, s.stream.place? = .error e) ∨
      ∃ place stream o' s₁, s.stream.place? = .ok (place, stream) ∧
        p.Run (depth + 1) (some id) (.once body) { s with stream } o' s₁ ∧
        ((o = o' ∧ s' = s₁ ∧ ∀ nodes, o ≠ .ok (some nodes)) ∨
          ∃ children, o' = .ok (some children) ∧ s'.stream = s₁.stream ∧
            ((∃ node building, o = .ok (some [node]) ∧
                p.builder.rule (p.grammar.ruleName id) children s₁.building = (.ok node, building)) ∨
              ∃ reason line column building,
                o = .error (.rejected (p.grammar.ruleName id) reason line column) ∧
                p.builder.rule (p.grammar.ruleName id) children s₁.building =
                  (.error reason, building)))) := by
  cases run with
  | tooDeep h' deep error =>
    cases h.symm.trans h'
    exact .inl ⟨deep, _, _, error, rfl⟩
  | unplaced h' shallow place =>
    cases h.symm.trans h'
    exact .inr ⟨shallow, .inl ⟨_, place⟩⟩
  | namedBody h' shallow begins run unmatched =>
    cases h.symm.trans h'
    exact .inr ⟨shallow, .inr ⟨_, _, _, _, begins, run, .inl ⟨rfl, rfl, unmatched⟩⟩⟩
  | named h' shallow begins run built =>
    cases h.symm.trans h'
    exact .inr ⟨shallow, .inr ⟨_, _, _, _, begins, run,
      .inr ⟨_, rfl, rfl, .inl ⟨_, _, rfl, built⟩⟩⟩⟩
  | refused h' shallow begins run refusal =>
    cases h.symm.trans h'
    exact .inr ⟨shallow, .inr ⟨_, _, _, _, begins, run,
      .inr ⟨_, rfl, rfl, .inr ⟨_, _, _, _, rfl, refusal⟩⟩⟩⟩
  | guardError h' | guardClosed h' | guardOpen h' => simp [Grammar.guard?, h] at h'
  | _ => simp_all

theorem Run.of_many {child : Nat} (run : p.Run depth within (.many child) s o s') :
    (∃ e, o = .error e ∧ p.Run depth within (.once child) s (.error e) s') ∨
    (o = .ok (some []) ∧ p.Run depth within (.once child) s (.ok none) s') ∨
    ∃ nodes s₁, p.Run depth within (.once child) s (.ok (some nodes)) s₁ ∧
      (¬ s₁.stream.rest.length < s.stream.rest.length ∨
        (∃ e, o = .error e ∧ p.Run depth within (.many child) s₁ (.error e) s') ∨
        ∃ more, o = .ok (some (nodes ++ more)) ∧
          p.Run depth within (.many child) s₁ (.ok (some more)) s') := by
  cases run with
  | roundError run => exact .inl ⟨_, rfl, run⟩
  | noRound run => exact .inr (.inl ⟨rfl, run⟩)
  | lastRound run unmoved => exact .inr (.inr ⟨_, _, run, .inl unmoved⟩)
  | round run _ more => exact .inr (.inr ⟨_, _, run, .inr (.inr ⟨_, rfl, more⟩)⟩)
  | laterError run _ more => exact .inr (.inr ⟨_, _, run, .inr (.inl ⟨_, rfl, more⟩)⟩)

end Inversion

end Parser

end Rowlang
