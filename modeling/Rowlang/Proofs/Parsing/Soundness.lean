import Rowlang.Grammar.Definition
import Rowlang.Proofs.Parsing.Derivation
import Rowlang.Proofs.Parsing.Run

/-!
# Soundness of the parser

* `Stream.Agrees` : two streams with the same tokens to come; looking ahead keeps to it
  (`Grammar.agrees_of_lookAhead`);
* `Run.builds` : what a rule consumes, it derives, and its nodes are those of the derivation; a rule
  that does not match consumes nothing;
* `Run.fault` : the errors that a run can end with, and what is behind each of them;
* `parseRule_yields` : the tree of a whole text is a derivation of all its tokens.
-/

namespace Rowlang
open Rowlang.Text

/-! ## Streams -/

/-- The same tokens to come, whatever has been scanned of them. -/
structure Stream.Agrees (s s' : Stream) : Prop where
  rest : s'.rest = s.rest
  ending : s'.ending = s.ending

namespace Stream

variable {s s' s'' : Stream}

@[simp] theorem rest_ofScan (s : Scan) : (ofScan s).rest = s.tokens := rfl

@[simp] theorem ending_ofScan (s : Scan) : (ofScan s).ending = s.ending := rfl

theorem Agrees.refl (s : Stream) : s.Agrees s := ⟨rfl, rfl⟩

theorem Agrees.trans (h : s.Agrees s') (h' : s'.Agrees s'') : s.Agrees s'' :=
  ⟨h'.rest.trans h.rest, h'.ending.trans h.ending⟩

theorem agrees_of_peek {n : Nat} {t : Option Token} (h : s.peek n = .ok (t, s')) :
    s.Agrees s' := by
  unfold peek at h
  split at h
  · simp only [Except.ok.injEq, Prod.mk.injEq] at h
    rw [← h.2]
    exact ⟨rfl, rfl⟩
  · split at h <;> simp only [Except.ok.injEq, Prod.mk.injEq, reduceCtorEq] at h
    rw [← h.2]
    exact ⟨rfl, rfl⟩

/-- Only a text that cannot be scanned to its end makes a token unknown. -/
theorem failed_of_peek {n : Nat} {e : LexError} (h : s.peek n = .error e) :
    s.ending = .failed e := by
  unfold peek at h
  split at h
  · simp at h
  · split at h <;> simp_all

theorem ended_of_peek (h : s.peek 0 = .ok (none, s')) :
    s.rest = [] ∧ ∃ place, s.ending = .complete place := by
  unfold peek at h
  split at h
  · simp at h
  · split at h
    · rename_i nothing _ place ending
      have short := List.getElem?_eq_none_iff.1 nothing
      exact ⟨List.eq_nil_of_length_eq_zero (Nat.le_zero.1 short), place, ending⟩
    · simp at h

theorem agrees_of_place? {place : Location} (h : s.place? = .ok (place, s')) : s.Agrees s' := by
  unfold place? at h
  split at h <;> simp only [Except.ok.injEq, Prod.mk.injEq, reduceCtorEq] at h
  · rw [← h.2]
    exact agrees_of_peek ‹_›
  · rw [← h.2]
    exact agrees_of_peek ‹_›

theorem failed_of_place? {e : LexError} (h : s.place? = .error e) : s.ending = .failed e := by
  unfold place? at h
  split at h <;> simp only [Except.error.injEq, reduceCtorEq] at h
  rw [← h]
  exact failed_of_peek ‹_›

end Stream

/-! ## Looking ahead -/

/-- The errors of a check of the next tokens: the text cannot be scanned to its end, or named rules are
nested too deeply. -/
def Stream.CheckFault (s : Stream) (e : ParseError) : Prop :=
  (∃ l, e = .lex l ∧ s.ending = .failed l) ∨ ∃ rule limit place, e = .tooDeep rule limit place

theorem Stream.CheckFault.of_agrees {s s' : Stream} {e : ParseError} (h : s.Agrees s')
    (hf : s'.CheckFault e) : s.CheckFault e := by
  rw [Stream.CheckFault, h.ending] at hf
  exact hf

namespace Grammar

variable {g : Grammar} {limit : Nat}

theorem tooDeepAt_fault (g : Grammar) (limit id : Nat) (s : Stream) :
    s.Agrees (g.tooDeepAt limit id s).2 ∧ s.CheckFault (g.tooDeepAt limit id s).1 := by
  unfold tooDeepAt
  split
  · exact ⟨.refl s, .inl ⟨_, rfl, Stream.failed_of_place? ‹_›⟩⟩
  · exact ⟨Stream.agrees_of_place? ‹_›, .inr ⟨_, _, _, rfl⟩⟩

/-- A check keeps the tokens to come, and has the errors of a check. -/
def CheckSound (s : Stream) (r : Except ParseError (Option (Nat × Nat))) (s' : Stream) : Prop :=
  s.Agrees s' ∧ ∀ e, r = .error e → s.CheckFault e

theorem CheckSound.trans {s s' s'' : Stream} {r r' : Except ParseError (Option (Nat × Nat))}
    (h : CheckSound s r s') (h' : CheckSound s' r' s'') : CheckSound s r' s'' :=
  ⟨h.1.trans h'.1, fun e he => (h'.2 e he).of_agrees h.1⟩

theorem CheckSound.of_ok {s s' : Stream} {r : Except ParseError (Option (Nat × Nat))}
    (h : CheckSound s r s') (fit : Option (Nat × Nat)) : CheckSound s (.ok fit) s' :=
  ⟨h.1, by simp⟩

theorem checkSound_fitMany
    {fit : Nat → Nat → Stream → Except ParseError (Option (Nat × Nat)) × Stream}
    (sound : ∀ budget index s r s', fit budget index s = (r, s') → CheckSound s r s')
    {budget index : Nat} {s s' : Stream} {r : Except ParseError (Option (Nat × Nat))}
    (h : s.fitMany fit budget index = (r, s')) : CheckSound s r s' := by
  rw [Stream.fitMany] at h
  split at h
  · obtain ⟨rfl, rfl⟩ := Prod.mk.inj h
    exact ⟨.refl s, by simp⟩
  split at h
  · obtain ⟨rfl, rfl⟩ := Prod.mk.inj h
    exact sound _ _ _ _ _ ‹_›
  · obtain ⟨rfl, rfl⟩ := Prod.mk.inj h
    exact (sound _ _ _ _ _ ‹_›).of_ok _
  · have first := sound _ _ _ _ _ ‹fit budget index s = _›
    split at h
    · exact first.trans (checkSound_fitMany sound h)
    · obtain ⟨rfl, rfl⟩ := Prod.mk.inj h
      exact first.of_ok _
termination_by budget

theorem checkSound_lookAhead {depth id budget index : Nat} {s s' : Stream}
    {r : Except ParseError (Option (Nat × Nat))}
    (h : g.lookAhead limit depth id budget index s = (r, s')) : CheckSound s r s' := by
  rw [lookAhead] at h
  split at h
  · obtain ⟨rfl, rfl⟩ := Prod.mk.inj h
    exact ⟨.refl s, by simp⟩
  split at h
  · obtain ⟨rfl, rfl⟩ := Prod.mk.inj h
    exact ⟨.refl s, by simp⟩
  -- one token
  · split at h <;> obtain ⟨rfl, rfl⟩ := Prod.mk.inj h
    · exact ⟨.refl s, by rintro e ⟨⟩; exact .inl ⟨_, rfl, Stream.failed_of_peek ‹_›⟩⟩
    · exact ⟨Stream.agrees_of_peek ‹_›, by simp⟩
    · exact ⟨Stream.agrees_of_peek ‹_›, by simp⟩
  -- sequences and alternatives
  · rename_i left right hs
    have := g.rank_part_lt (limit - depth) hs (c := left) (by simp [Shape.parts])
    have := g.rank_part_lt (limit - depth) hs (c := right) (by simp [Shape.parts])
    dsimp only at h
    split at h
    · obtain ⟨rfl, rfl⟩ := Prod.mk.inj h
      exact checkSound_lookAhead ‹_›
    · obtain ⟨rfl, rfl⟩ := Prod.mk.inj h
      exact checkSound_lookAhead ‹_›
    · exact (checkSound_lookAhead ‹_›).trans (checkSound_lookAhead h)
  · rename_i left right hs
    have := g.rank_part_lt (limit - depth) hs (c := left) (by simp [Shape.parts])
    have := g.rank_part_lt (limit - depth) hs (c := right) (by simp [Shape.parts])
    dsimp only at h
    split at h
    · obtain ⟨rfl, rfl⟩ := Prod.mk.inj h
      exact checkSound_lookAhead ‹_›
    · obtain ⟨rfl, rfl⟩ := Prod.mk.inj h
      exact checkSound_lookAhead ‹_›
    · exact (checkSound_lookAhead ‹_›).trans (checkSound_lookAhead h)
  -- a rule that may be left out, or repeated
  · rename_i child hs
    have := g.rank_part_lt (limit - depth) hs (c := child) (by simp [Shape.parts])
    dsimp only at h
    split at h <;> obtain ⟨rfl, rfl⟩ := Prod.mk.inj h
    · exact checkSound_lookAhead ‹_›
    · exact (checkSound_lookAhead ‹_›).of_ok _
  · rename_i child hs
    have := g.rank_part_lt (limit - depth) hs (c := child) (by simp [Shape.parts])
    exact checkSound_fitMany (fun _ _ _ _ _ => checkSound_lookAhead) h
  · rename_i child hs
    have := g.rank_part_lt (limit - depth) hs (c := child) (by simp [Shape.parts])
    dsimp only at h
    split at h
    · obtain ⟨rfl, rfl⟩ := Prod.mk.inj h
      exact checkSound_lookAhead ‹_›
    · obtain ⟨rfl, rfl⟩ := Prod.mk.inj h
      exact checkSound_lookAhead ‹_›
    · exact (checkSound_lookAhead ‹_›).trans (checkSound_fitMany (fun _ _ _ _ _ => checkSound_lookAhead) h)
  -- checks
  · obtain ⟨rfl, rfl⟩ := Prod.mk.inj h
    exact ⟨.refl s, by simp⟩
  · rename_i child count hs
    have := g.rank_part_lt (limit - depth) hs (c := child) (by simp [Shape.parts])
    exact checkSound_lookAhead h
  -- a named rule
  · rename_i body hs
    split at h
    · rename_i deeper
      have := g.rank_body_lt deeper id body
      exact checkSound_lookAhead h
    · obtain ⟨rfl, rfl⟩ := Prod.mk.inj h
      obtain ⟨agrees, fault⟩ := g.tooDeepAt_fault limit id s
      exact ⟨agrees, by rintro e ⟨⟩; exact fault⟩
termination_by g.rank (limit - depth) id

theorem Builds.of_guard? {σ ν : Type} {b : TreeBuilder σ ν} {id child count : Nat}
    {tokens : List Token} {nodes : List ν} (h : g.guard? id = some (child, count))
    (inner : g.Builds b child tokens nodes) : g.Builds b id tokens nodes := by
  unfold guard? at h
  split at h
  · split at h <;> simp only [Option.some.injEq, Prod.mk.injEq, reduceCtorEq] at h
    obtain ⟨rfl, rfl⟩ := h
    exact Builds.seq ‹_› (.ahead ‹_›) inner
  · simp only [Option.some.injEq, Prod.mk.injEq] at h
    obtain ⟨rfl, rfl⟩ := h
    exact .guarded ‹_› inner
  · simp at h

end Grammar

/-! ## What an attempt consumes -/

/-- The attempt derives the tokens, of which the builder `b` makes the nodes. -/
def Attempt.Builds {σ ν : Type} (g : Grammar) (b : TreeBuilder σ ν) :
    Attempt → List Token → List ν → Prop
  | .once id, tokens, nodes => g.Builds b id tokens nodes
  | .many child, tokens, nodes => ∃ rounds : List (List Token × List ν),
      (∀ r ∈ rounds, g.Builds b child r.1 r.2) ∧
        tokens = rounds.flatMap (·.1) ∧ nodes = rounds.flatMap (·.2)

namespace Parser

variable {σ ν : Type} {p : Parser σ ν} {depth : Nat} {within : Option Nat} {a : Attempt}
  {s s' : ParseState σ} {o : Outcome ν}

/-- What is left of the tokens: an attempt that matches has consumed what it derives, and one that does
not match has consumed nothing. -/
def Consumes (p : Parser σ ν) (a : Attempt) (s : ParseState σ) :
    Outcome ν → ParseState σ → Prop
  | .ok (some nodes), s' => ∃ tokens, s.stream.rest = tokens ++ s'.stream.rest ∧
      a.Builds p.grammar p.builder tokens nodes
  | .ok none, s' => s'.stream.rest = s.stream.rest
  | .error _, _ => True

theorem Consumes.of_rest {s₁ : ParseState σ} (h : s₁.stream.rest = s.stream.rest)
    (hc : p.Consumes a s₁ o s') : p.Consumes a s o s' := by
  match o, hc with
  | .ok (some _), ⟨tokens, rest, builds⟩ => exact ⟨tokens, h ▸ rest, builds⟩
  | .ok none, rest => exact Eq.trans rest h
  | .error _, _ => exact trivial

theorem Consumes.of_unmatched {a' : Attempt} (unmatched : ∀ nodes, o ≠ .ok (some nodes))
    (hc : p.Consumes a s o s') : p.Consumes a' s o s' := by
  match o, hc with
  | .ok (some nodes), _ => exact absurd rfl (unmatched nodes)
  | .ok none, rest => exact rest
  | .error _, _ => exact trivial

/-- A rule consumes as another of which it derives all that it does. -/
theorem Consumes.once {a' : Attempt} {id : Nat} (h : p.Consumes a' s o s')
    (derives : ∀ tokens nodes, a'.Builds p.grammar p.builder tokens nodes →
      p.grammar.Builds p.builder id tokens nodes) : p.Consumes (.once id) s o s' := by
  match o, h with
  | .ok (some _), ⟨tokens, rest, builds⟩ => exact ⟨tokens, rest, derives _ _ builds⟩
  | .ok none, rest => exact rest
  | .error _, _ => exact trivial

theorem agrees_of_missing (p : Parser σ ν) (within : Option Nat) (expected : Nat) (s : Stream) :
    s.Agrees (p.missing within expected s).2 := by
  unfold missing
  split
  · exact .refl s
  · exact Stream.agrees_of_peek ‹_›

theorem Run.ending (run : p.Run depth within a s o s') : s'.stream.ending = s.stream.ending := by
  induction run with
  | undefined => rfl
  | unscanned => rfl
  | token _ peek => exact (Stream.agrees_of_peek peek).ending
  | otherToken _ peek _ => exact (Stream.agrees_of_peek peek).ending
  | guardError _ look => exact (Grammar.checkSound_lookAhead look).1.ending
  | guardClosed _ look => exact (Grammar.checkSound_lookAhead look).1.ending
  | guardOpen _ look _ ih => exact ih.trans (Grammar.checkSound_lookAhead look).1.ending
  | seqLeft _ _ _ _ ih => exact ih
  | seqBoth _ _ _ _ ihl ihr => exact ihr.trans ihl
  | seqError _ _ _ _ ihl ihr => exact ihr.trans ihl
  | seqNone _ _ _ _ _ ihl ihr => exact ihr.trans ihl
  | @seqMissing _ within _ _ _ right _ _ s₂ _ _ _ _ _ _ _ missing ihl ihr =>
    have agrees := p.agrees_of_missing within right s₂.stream
    rw [missing] at agrees
    exact agrees.ending.trans (ihr.trans ihl)
  | altLeft _ _ _ ih => exact ih
  | altRight _ _ _ ihl ihr => exact ihr.trans ihl
  | optError _ _ ih => exact ih
  | opt _ _ ih => exact ih
  | star _ _ ih => exact ih
  | plusFirst _ _ _ ih => exact ih
  | plusError _ _ _ ih ih' => exact ih'.trans ih
  | plus _ _ _ ih ih' => exact ih'.trans ih
  | ahead => rfl
  | unplaced => rfl
  | @tooDeep _ _ id s _ _ _ _ _ error =>
    have agrees := (p.grammar.tooDeepAt_fault p.limit id s.stream).1
    rw [error] at agrees
    exact agrees.ending
  | namedBody _ _ begins _ _ ih => exact ih.trans (Stream.agrees_of_place? begins).ending
  | named _ _ begins _ _ ih => exact ih.trans (Stream.agrees_of_place? begins).ending
  | refused _ _ begins _ _ ih => exact ih.trans (Stream.agrees_of_place? begins).ending
  | roundError _ ih => exact ih
  | noRound _ ih => exact ih
  | lastRound _ _ ih => exact ih
  | round _ _ _ ih ih' => exact ih'.trans ih
  | laterError _ _ _ ih ih' => exact ih'.trans ih

/-- What an attempt consumes, it derives. -/
theorem Run.builds (run : p.Run depth within a s o s') : p.Consumes a s o s' := by
  induction run with
  | undefined => exact rfl
  | @token _ _ _ s t stream h peek =>
    obtain ⟨rest, found⟩ := Stream.rest_of_peek peek
    refine ⟨[t], ?_, .token h⟩
    cases hs : s.stream.rest with
    | nil => simp [hs] at found
    | cons t' tokens =>
      simp only [hs, List.getElem?_cons_zero, Option.some.injEq] at found
      simp [Stream.advance, rest, hs, found]
  | otherToken _ peek _ => exact (Stream.agrees_of_peek peek).rest
  | guardClosed _ look => exact (Grammar.checkSound_lookAhead look).1.rest
  | guardOpen h look _ ih =>
    exact (ih.of_rest (Grammar.checkSound_lookAhead look).1.rest).once fun _ _ => .of_guard? h
  | seqLeft _ _ _ unmatched ih => exact ih.of_unmatched unmatched
  | seqBoth h _ _ _ ihl ihr =>
    obtain ⟨tokens, rest, builds⟩ := ihl
    obtain ⟨tokens', rest', builds'⟩ := ihr
    exact ⟨tokens ++ tokens', by rw [rest, rest', List.append_assoc], .seq h builds builds'⟩
  | seqNone _ _ _ _ unmoved ihl ihr =>
    -- the left part derived nothing, as all tokens are still there
    obtain ⟨tokens, rest, -⟩ := ihl
    have nothing : tokens = [] := by
      rw [ihr, rest, List.length_append] at unmoved
      exact List.eq_nil_of_length_eq_zero (by omega)
    rw [nothing, List.nil_append] at rest
    exact Eq.trans ihr rest.symm
  | altLeft h _ _ ih => exact ih.once fun _ _ => .altLeft h
  | altRight h _ _ ihl ihr => exact (ihr.of_rest ihl).once fun _ _ => .altRight h
  | @opt _ _ _ _ _ nodes _ h _ ih =>
    match nodes, ih with
    | none, rest => exact ⟨[], by simpa using rest.symm, .optNone h⟩
    | some _, ⟨tokens, rest, builds⟩ => exact ⟨tokens, rest, .optSome h builds⟩
  | star h _ ih =>
    refine ih.once ?_
    rintro _ _ ⟨rounds, each, rfl, rfl⟩
    exact .star h each
  | plusFirst _ _ unmatched ih => exact ih.of_unmatched unmatched
  | @plus _ _ _ _ _ nodes _ _ _ h _ _ ih ih' =>
    obtain ⟨tokens, rest, builds⟩ := ih
    obtain ⟨_, rest', rounds, each, rfl, rfl⟩ := ih'
    refine ⟨tokens ++ rounds.flatMap (·.1), by rw [rest, rest', List.append_assoc], ?_⟩
    have all : ∀ r ∈ (tokens, nodes) :: rounds, p.grammar.Builds p.builder _ r.1 r.2 :=
      List.forall_mem_cons.2 ⟨builds, each⟩
    exact .plus h (List.cons_ne_nil _ _) all
  | ahead h => exact ⟨[], rfl, .ahead h⟩
  | namedBody _ _ begins _ unmatched ih =>
    exact (ih.of_rest (Stream.agrees_of_place? begins).rest).of_unmatched unmatched
  | named h _ begins _ built ih =>
    obtain ⟨tokens, rest, builds⟩ := ih
    exact ⟨tokens, (Stream.agrees_of_place? begins).rest ▸ rest, .named h builds built⟩
  | noRound _ ih => exact ⟨[], by simpa using ih.symm, [], by simp⟩
  | @lastRound _ _ _ _ nodes _ _ _ ih =>
    obtain ⟨tokens, rest, builds⟩ := ih
    exact ⟨tokens, rest, [(tokens, nodes)], List.forall_mem_singleton.2 builds, by simp⟩
  | @round _ _ _ _ nodes _ _ _ _ _ _ ih ih' =>
    obtain ⟨tokens, rest, builds⟩ := ih
    obtain ⟨_, rest', rounds, each, rfl, rfl⟩ := ih'
    exact ⟨tokens ++ rounds.flatMap (·.1), by rw [rest, rest', List.append_assoc],
      (tokens, nodes) :: rounds, List.forall_mem_cons.2 ⟨builds, each⟩, by simp⟩
  | unscanned | guardError | seqError | seqMissing | optError | plusError | tooDeep | unplaced
  | refused | roundError | laterError => exact trivial

/-! ## Errors -/

/-- What is behind an error that ends an attempt from the stream `s`. A node is refused over a derivation
of consecutive tokens. -/
inductive Fault (p : Parser σ ν) (s : Stream) : ParseError → Prop
  | lex {e} (h : s.ending = .failed e) : Fault p s (.lex e)
  | syntaxError {rule expected found place} : Fault p s (.syntaxError rule expected found place)
  | tooDeep {rule limit place} : Fault p s (.tooDeep rule limit place)
  | rejected {id body tokens children reason before after line column}
      (h : p.grammar.shape? id = some (.named body)) (some_of : tokens <:+: s.rest)
      (inner : p.grammar.Builds p.builder body tokens children)
      (refusal : p.builder.rule (p.grammar.ruleName id) children before = (.error reason, after)) :
      Fault p s (.rejected (p.grammar.ruleName id) reason line column)

theorem Fault.of_check {s : Stream} {e : ParseError} (h : s.CheckFault e) : p.Fault s e := by
  rcases h with ⟨l, rfl, failed⟩ | ⟨_, _, _, rfl⟩
  · exact .lex failed
  · exact .tooDeep

theorem Fault.of_later {s s' : Stream} {e : ParseError} (ending : s'.ending = s.ending)
    (later : s'.rest <:+ s.rest) (h : p.Fault s' e) : p.Fault s e := by
  cases h with
  | lex h => exact .lex (ending ▸ h)
  | syntaxError => exact .syntaxError
  | tooDeep => exact .tooDeep
  | rejected h some_of inner refusal => exact .rejected h (some_of.trans later.isInfix) inner refusal

theorem Fault.of_agrees {s s' : Stream} {e : ParseError} (h : s.Agrees s') (hf : p.Fault s' e) :
    p.Fault s e :=
  hf.of_later h.ending (h.rest ▸ List.suffix_rfl)

theorem fault_of_missing (p : Parser σ ν) (within : Option Nat) (expected : Nat) (s : Stream) :
    p.Fault s (p.missing within expected s).1 := by
  unfold missing
  split
  · exact .lex (Stream.failed_of_peek ‹_›)
  · exact .syntaxError

theorem Run.rest_suffix (run : p.Run depth within a s (.ok r) s') :
    s'.stream.rest <:+ s.stream.rest := by
  match r, run.builds with
  | some _, ⟨tokens, rest, _⟩ => exact rest ▸ List.suffix_append _ _
  | none, rest => exact (show s'.stream.rest = s.stream.rest from rest) ▸ List.suffix_rfl

theorem Fault.behind {r : Option (List ν)} {e : ParseError}
    (run : p.Run depth within a s (.ok r) s') (h : p.Fault s'.stream e) : p.Fault s.stream e :=
  h.of_later run.ending run.rest_suffix

/-- Every error of an attempt has its cause. -/
theorem Run.fault (run : p.Run depth within a s o s') {e : ParseError} (he : o = .error e) :
    p.Fault s.stream e := by
  induction run with
  | unscanned _ peek =>
    cases he
    exact .lex (Stream.failed_of_peek peek)
  | guardError _ look =>
    cases he
    exact .of_check ((Grammar.checkSound_lookAhead look).2 _ rfl)
  | guardOpen _ look _ ih => exact (ih he).of_agrees (Grammar.checkSound_lookAhead look).1
  | seqLeft _ _ _ _ ih => exact ih he
  | seqError _ _ runLeft _ _ ihr => exact (ihr he).behind runLeft
  | @seqMissing _ within _ _ _ right _ _ s₂ _ _ _ _ runLeft runRight _ missing =>
    cases he
    have fault := p.fault_of_missing within right s₂.stream
    rw [missing] at fault
    exact (fault.behind runRight).behind runLeft
  | altLeft _ _ _ ih => exact ih he
  | altRight _ runLeft _ _ ihr => exact (ihr he).behind runLeft
  | optError _ _ ih => exact ih he
  | star _ _ ih => exact ih he
  | plusFirst _ _ _ ih => exact ih he
  | plusError _ runFirst _ _ ih => exact (ih he).behind runFirst
  | @tooDeep _ _ id s _ _ _ _ _ error =>
    cases he
    have fault := (p.grammar.tooDeepAt_fault p.limit id s.stream).2
    rw [error] at fault
    exact .of_check fault
  | unplaced _ _ place =>
    cases he
    exact .lex (Stream.failed_of_place? place)
  | namedBody _ _ begins _ _ ih => exact (ih he).of_agrees (Stream.agrees_of_place? begins)
  | refused h _ begins run refusal =>
    cases he
    obtain ⟨tokens, rest, builds⟩ := run.builds
    refine .of_agrees (Stream.agrees_of_place? begins) (.rejected h ?_ builds refusal)
    exact rest ▸ (List.prefix_append _ _).isInfix
  | roundError _ ih => exact ih he
  | laterError run _ _ _ ih => exact (ih he).behind run
  | _ => cases he

/-! ## Whole texts -/

/-- A whole text that parses is derived by the rule, and its node is the only one made, or is made of those
that are. -/
theorem parseAll_builds {id : Nat} {node : ν} (h : p.parseAll id s = (.ok node, s')) :
    (∃ place, s.stream.ending = .complete place) ∧ ∃ nodes,
      p.grammar.Builds p.builder id s.stream.rest nodes ∧
        (nodes = [node] ∨ nodes.length ≠ 1 ∧ ∃ before after,
          p.builder.rule (p.grammar.ruleName id) nodes before = (.ok node, after)) := by
  unfold parseAll at h
  split at h
  · simp at h
  · simp at h
  rename_i nodes s₁ tried
  obtain ⟨tokens, rest, builds⟩ := (run_of_tryParse tried).builds
  have ending := (run_of_tryParse tried).ending
  split at h
  · simp at h
  · simp at h
  rename_i stream peek
  have at_end := Stream.ended_of_peek peek
  rw [at_end.1, List.append_nil] at rest
  rw [← ending, rest]
  refine ⟨at_end.2, nodes, builds, ?_⟩
  split at h
  · simp only [Prod.mk.injEq, Except.ok.injEq] at h
    exact .inl (by rw [h.1])
  · rename_i several
    dsimp only at h
    split at h <;> simp only [Prod.mk.injEq, Except.ok.injEq, reduceCtorEq, false_and] at h
    obtain ⟨rfl, -⟩ := h
    refine .inr ⟨fun one => ?_, _, _, ‹_›⟩
    obtain ⟨node, rfl⟩ := List.length_eq_one_iff.1 one
    exact several node rfl

/-- A whole text fails as an attempt does, or since tokens are left, or since the builder refuses a node
over all that the rule makes. -/
theorem parseAll_fault {id : Nat} {e : ParseError} (h : p.parseAll id s = (.error e, s')) :
    p.Fault s.stream e ∨ (∃ t, e = .trailingInput t) ∨ ∃ nodes reason,
      e = .rejected (p.grammar.ruleName id) reason 1 1 ∧
        p.grammar.Builds p.builder id s.stream.rest nodes ∧ nodes.length ≠ 1 := by
  unfold parseAll at h
  split at h
  · obtain ⟨⟨⟩, -⟩ := Prod.mk.inj h
    exact .inl ((run_of_tryParse ‹_›).fault rfl)
  · rename_i s₁ tried
    obtain ⟨⟨⟩, -⟩ := Prod.mk.inj h
    exact .inl ((p.fault_of_missing none id s₁.stream).behind (run_of_tryParse tried))
  rename_i nodes s₁ tried
  have run := run_of_tryParse tried
  split at h
  · obtain ⟨⟨⟩, -⟩ := Prod.mk.inj h
    exact .inl (.lex (run.ending ▸ Stream.failed_of_peek ‹_›))
  · obtain ⟨⟨⟩, -⟩ := Prod.mk.inj h
    exact .inr (.inl ⟨_, rfl⟩)
  rename_i stream peek
  obtain ⟨tokens, rest, builds⟩ := run.builds
  rw [(Stream.ended_of_peek peek).1, List.append_nil] at rest
  split at h
  · simp at h
  · rename_i several
    dsimp only at h
    split at h <;> simp only [Prod.mk.injEq, Except.error.injEq, reduceCtorEq, false_and] at h
    obtain ⟨rfl, -⟩ := h
    refine .inr (.inr ⟨nodes, _, rfl, rest ▸ builds, fun one => ?_⟩)
    obtain ⟨node, rfl⟩ := List.length_eq_one_iff.1 one
    exact several node rfl

/-- The tree of a whole text: its leaves are the tokens of the text, and it is a derivation of the rule, or
a node over the several trees, or none, that derive a rule without a name. -/
theorem parseRule_yields {g : Grammar} {limit id : Nat} {text : String} {t : ParseTree}
    (h : (parseRule ⟨g, .collector, limit⟩ id text ()).1 = .ok t) :
    (∃ place, (g.scan text).ending = .complete place) ∧ t.tokens = (g.scan text).tokens ∧
      (g.Yields id [t] ∨ ∃ children, t = .rule (g.ruleName id) children ∧ g.Yields id children ∧
        children.length ≠ 1 ∧ ∀ body, g.shape? id ≠ some (.named body)) := by
  obtain ⟨complete, nodes, builds, node⟩ := parseAll_builds (Prod.ext h rfl)
  obtain ⟨yields, tokens⟩ := builds.yields_collector
  refine ⟨complete, ?_⟩
  rcases node with rfl | ⟨several, before, after, built⟩
  · exact ⟨by simpa using tokens, .inl yields⟩
  · simp only [TreeBuilder.collector, Prod.mk.injEq, Except.ok.injEq] at built
    rw [← built.1]
    refine ⟨by simpa using tokens, .inr ⟨nodes, rfl, yields, several, fun body named => ?_⟩⟩
    -- a named rule makes one node
    cases yields <;> simp_all

open Body in
/-- Pairs of letters, each looked at before it is entered. -/
def pairRules : List Definition := [
  ⟨"Pairs", seq (opt (literal "!")) (star (name "Pair"))⟩,
  ⟨"Pair", sequence (ahead 2) [literal "x", literal "y"]⟩]

theorem pairRules_build : (Grammar.ofDefinitions pairRules).toOption.isSome = true := by
  decide +kernel

/-- The body of the first rule, which has no name, makes two nodes of two pairs. -/
theorem parseRule_yields_pairs :
    let g := (Grammar.ofDefinitions pairRules).toOption.get pairRules_build
    ∃ t, (parseRule ⟨g, .collector, 2⟩ 4 "x yxy" ()).1 = .ok t ∧
      (∃ place, (g.scan "x yxy").ending = .complete place) ∧ t.tokens = (g.scan "x yxy").tokens ∧
      (g.Yields 4 [t] ∨ ∃ children, t = .rule (g.ruleName 4) children ∧ g.Yields 4 children ∧
        children.length ≠ 1 ∧ ∀ body, g.shape? 4 ≠ some (.named body)) := by
  intro g
  have parses : (parseRule ⟨g, .collector, 2⟩ 4 "x yxy" ()).1.isOk = true := by decide +kernel
  cases h : (parseRule ⟨g, .collector, 2⟩ 4 "x yxy" ()).1 with
  | error e => simp [h, Except.isOk, Except.toBool] at parses
  | ok t => exact ⟨t, rfl, parseRule_yields h⟩

end Parser

end Rowlang
