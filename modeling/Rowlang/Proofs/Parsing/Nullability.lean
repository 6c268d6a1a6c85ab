import Rowlang.Proofs.Grammar.Emptiness
import Rowlang.Proofs.Parsing.LookAhead

/-!
# Rules that match nothing, as the parser finds them

The rounds by which the rules that can match nothing are found, derivations, the parser and its checks of the
next tokens agree on which rules these are.

* `Grammar.DerivesEmpty` : the rule derives the empty sequence of tokens;
* `Grammar.isOptional_iff` : the rounds find these rules, and no others;
* `Advances` : how far a check gets for a rule that can, or cannot, match nothing
  (`Grammar.advances_lookAhead`);
* `Parser.Run.misses`, `Parser.Run.consumes` : what a run of such a rule comes to;
* `Grammar.KnowsEmpty` : all of this for one rule;
* `GrammarBuilder.isOptional_exact` : it holds of every rule, and building rejects the grammars that repeat
  what derives the empty sequence.
-/

namespace Rowlang
open Rowlang.Text

/-! ## Derivations -/

namespace Grammar

variable {g : Grammar} {id : Nat}

/-- The rule derives the empty sequence of tokens. Checks of the next tokens are left aside. -/
def DerivesEmpty (g : Grammar) (id : Nat) : Prop :=
  ∃ trees, g.Yields id trees ∧ ParseTree.tokensOf trees = []

/-- A rule that can match nothing by what is known of the rules it refers to derives the empty sequence, if
what is known of them is right. -/
theorem derivesEmpty_of_isNullable {s : Shape} {known : Nat → Bool} (shape : g.shape? id = some s)
    (right : ∀ c, known c = true → g.DerivesEmpty c) (nullable : s.isNullable known = true) :
    g.DerivesEmpty id := by
  cases s with
  | token => cases nullable
  | seq l r =>
    obtain ⟨first, second⟩ := Bool.and_eq_true_iff.1 nullable
    obtain ⟨trees, yields, empty⟩ := right l first
    obtain ⟨more, yields', empty'⟩ := right r second
    exact ⟨trees ++ more, .seq shape yields yields', by simp [empty, empty']⟩
  | alt l r =>
    rcases Bool.or_eq_true_iff.1 nullable with left | other
    · exact (right l left).imp fun _ h => ⟨.altLeft shape h.1, h.2⟩
    · exact (right r other).imp fun _ h => ⟨.altRight shape h.1, h.2⟩
  | opt => exact ⟨[], .optNone shape, ParseTree.tokensOf_nil⟩
  | star c =>
    have none : ∀ round ∈ ([] : List (List ParseTree)), g.Yields c round := List.forall_mem_nil _
    exact ⟨[], .star shape none, ParseTree.tokensOf_nil⟩
  | plus c =>
    obtain ⟨trees, yields, empty⟩ := right c nullable
    have once : ∀ round ∈ [trees], g.Yields c round := List.forall_mem_singleton.2 yields
    exact ⟨_, .plus shape (List.cons_ne_nil _ _) once, by simpa using empty⟩
  | ahead => exact ⟨[], .ahead shape, ParseTree.tokensOf_nil⟩
  | guarded c => exact (right c nullable).imp fun _ h => ⟨.guarded shape h.1, h.2⟩
  | named body =>
    obtain ⟨trees, yields, empty⟩ := right body nullable
    exact ⟨_, .named shape yields, by simpa using empty⟩

theorem derivesEmpty_of_known {n : Nat} (known : knownAfter g.rules n id = true) : g.DerivesEmpty id := by
  induction n generalizing id with
  | zero =>
    rw [knownAfter_zero] at known
    cases known
  | succ n ih =>
    rw [knownAfter_succ] at known
    split at known
    · rename_i r place
      exact derivesEmpty_of_isNullable (congrArg (Option.map Rule.shape) place) (fun _ => ih) known
    · cases known

/-- A rule that derives the empty sequence is found. -/
theorem isOptional_of_yields {trees : List ParseTree} (yields : g.Yields id trees)
    (empty : ParseTree.tokensOf trees = []) : g.isOptional id = true := by
  induction yields with
  | token => simp at empty
  | seq shape _ _ first second =>
    rw [ParseTree.tokensOf_append, List.append_eq_nil_iff] at empty
    rw [isOptional_of_shape shape]
    exact Bool.and_eq_true_iff.2 ⟨first empty.1, second empty.2⟩
  | altLeft shape _ ih =>
    rw [isOptional_of_shape shape]
    exact Bool.or_eq_true_iff.2 (.inl (ih empty))
  | altRight shape _ ih =>
    rw [isOptional_of_shape shape]
    exact Bool.or_eq_true_iff.2 (.inr (ih empty))
  | optNone shape | optSome shape | star shape | ahead shape =>
    rw [isOptional_of_shape shape]
    rfl
  | plus shape some_round _ ih =>
    obtain ⟨round, listed⟩ := List.exists_mem_of_ne_nil _ some_round
    rw [ParseTree.tokensOf_flatten, List.flatMap_eq_nil_iff] at empty
    rw [isOptional_of_shape shape]
    exact ih round listed (empty round listed)
  | guarded shape _ ih =>
    rw [isOptional_of_shape shape]
    exact ih empty
  | named shape _ ih =>
    rw [isOptional_of_shape shape]
    exact ih (by simpa using empty)

/-- **The rules that can match nothing** are those that derive the empty sequence. -/
theorem isOptional_iff : g.isOptional id = true ↔ g.DerivesEmpty id :=
  ⟨derivesEmpty_of_known, fun ⟨_, yields, empty⟩ => isOptional_of_yields yields empty⟩

theorem exists_rounds {ν : Type} {child : Nat} {rounds : List (List Token × List ν)}
    (each : ∀ r ∈ rounds, ∃ trees, g.Yields child trees ∧ ParseTree.tokensOf trees = r.1) :
    ∃ rows : List (List ParseTree), rows.length = rounds.length ∧ (∀ trees ∈ rows, g.Yields child trees) ∧
      ParseTree.tokensOf rows.flatten = rounds.flatMap (·.1) := by
  induction rounds with
  | nil => exact ⟨[], rfl, by simp, by simp⟩
  | cons r rounds ih =>
    obtain ⟨trees, yields, tokens⟩ := each r List.mem_cons_self
    obtain ⟨rows, length, all, more⟩ := ih fun r listed => each r (List.mem_cons_of_mem _ listed)
    exact ⟨trees :: rows, by simp [length], List.forall_mem_cons.2 ⟨yields, all⟩, by simp [tokens, more]⟩

theorem Builds.exists_yields {σ ν : Type} {b : TreeBuilder σ ν} {tokens : List Token} {nodes : List ν}
    (builds : g.Builds b id tokens nodes) : ∃ trees, g.Yields id trees ∧ ParseTree.tokensOf trees = tokens := by
  induction builds with
  | token shape => exact ⟨_, .token shape, by simp⟩
  | seq shape _ _ first second =>
    obtain ⟨trees, yields, rfl⟩ := first
    obtain ⟨more, yields', rfl⟩ := second
    exact ⟨_, .seq shape yields yields', ParseTree.tokensOf_append _ _⟩
  | altLeft shape _ ih => exact ih.imp fun _ h => ⟨.altLeft shape h.1, h.2⟩
  | altRight shape _ ih => exact ih.imp fun _ h => ⟨.altRight shape h.1, h.2⟩
  | optNone shape => exact ⟨_, .optNone shape, ParseTree.tokensOf_nil⟩
  | optSome shape _ ih => exact ih.imp fun _ h => ⟨.optSome shape h.1, h.2⟩
  | star shape _ ih =>
    obtain ⟨rows, -, each, tokens⟩ := exists_rounds ih
    exact ⟨_, .star shape each, tokens⟩
  | plus shape some_round _ ih =>
    obtain ⟨rows, length, each, tokens⟩ := exists_rounds ih
    refine ⟨_, .plus shape ?_ each, tokens⟩
    rintro rfl
    exact some_round (List.eq_nil_of_length_eq_zero length.symm)
  | ahead shape => exact ⟨_, .ahead shape, ParseTree.tokensOf_nil⟩
  | guarded shape _ ih => exact ih.imp fun _ h => ⟨.guarded shape h.1, h.2⟩
  | named shape _ _ ih =>
    obtain ⟨trees, yields, rfl⟩ := ih
    exact ⟨_, .named shape yields, by simp⟩

/-- A guarded rule can match nothing if the rule behind the guard can. -/
theorem isOptional_of_guard? {child count : Nat} (guard : g.guard? id = some (child, count)) :
    g.isOptional id = g.isOptional child := by
  unfold guard? at guard
  split at guard
  · rename_i left right shape
    split at guard <;> simp only [Option.some.injEq, Prod.mk.injEq, reduceCtorEq] at guard
    obtain ⟨rfl, rfl⟩ := guard
    rw [isOptional_of_shape shape, Shape.isNullable, isOptional_of_shape ‹g.shape? left = _›]
    rfl
  · rename_i shape
    simp only [Option.some.injEq, Prod.mk.injEq] at guard
    obtain ⟨rfl, rfl⟩ := guard
    rw [isOptional_of_shape shape, Shape.isNullable]
  · cases guard

end Grammar

/-! ## Checks -/

/-- How far a check gets that has begun at `index`: for a rule that can match nothing there is always a
fit, and a fit of another rule is past some token. -/
structure Advances (optional : Bool) (budget index : Nat) (r : Finding) : Prop where
  fits : optional = true → r ≠ .ok none
  onward : ∀ fit, r = .ok (some fit) → index ≤ fit.2
  past : optional = false → 0 < budget → ∀ fit, r = .ok (some fit) → index < fit.2

section
variable {optional optional' : Bool} {budget index : Nat}

theorem advances_error (e : ParseError) : Advances optional budget index (.error e) :=
  ⟨fun _ => nofun, by rintro _ ⟨⟩, by rintro _ _ _ ⟨⟩⟩

theorem advances_none : Advances false budget index (.ok none) :=
  ⟨nofun, by rintro _ ⟨⟩, by rintro _ _ _ ⟨⟩⟩

theorem advances_fit {budget' index' : Nat} (onward : index ≤ index')
    (past : optional = false → 0 < budget → index < index') :
    Advances optional budget index (.ok (some (budget', index'))) :=
  ⟨fun _ => nofun, by rintro _ ⟨⟩; exact onward, by rintro mandatory more _ ⟨⟩; exact past mandatory more⟩

/-- A fit of a rule that can match nothing may be anywhere from there on. -/
theorem advances_always {budget' index' : Nat} (onward : index ≤ index') :
    Advances true budget index (.ok (some (budget', index'))) :=
  advances_fit onward fun mandatory => absurd mandatory.symm Bool.false_ne_true

theorem Advances.behind {budget' index' : Nat} {r : Finding} (later : Advances optional' budget' index' r)
    (same : budget' + index' = budget + index) (onward : index ≤ index')
    (past : optional = false → 0 < budget → index < index') :
    Advances (optional && optional') budget index r where
  fits both := later.fits (Bool.and_eq_true_iff.1 both).2
  onward fit found := Nat.le_trans onward (later.onward fit found)
  past mandatory more fit found := by
    have further := later.onward fit found
    rcases Bool.and_eq_false_iff.1 mandatory with first | second
    · exact Nat.lt_of_lt_of_le (past first more) further
    · by_cases spent : budget' = 0
      -- the first check has looked at all the tokens it might
      · omega
      · exact Nat.lt_of_le_of_lt onward (later.past second (Nat.pos_of_ne_zero spent) fit found)

theorem Advances.follow {first : Finding × Stream} {next : Option (Nat × Nat) → Stream → Finding × Stream}
    (h : Advances optional budget index first.1) (balanced : Balanced budget index first.1)
    (unfit : optional = false → Advances optional' budget index (next none first.2).1)
    (fit : ∀ budget' index', budget' + index' = budget + index → index ≤ index' →
      (optional = false → 0 < budget → index < index') →
      Advances optional' budget index (next (some (budget', index')) first.2).1) :
    Advances optional' budget index (andThen first next).1 := by
  obtain ⟨e | (_ | ⟨budget', index'⟩), s⟩ := first
  · exact advances_error e
  · exact unfit (Bool.eq_false_iff.2 fun always => h.fits always rfl)
  · exact fit _ _ (balanced.sum _ rfl) (h.onward _ rfl) fun mandatory more => h.past mandatory more _ rfl

end

theorem advances_fitMany {check : Check} {optional : Bool}
    (zero : ∀ index s, check 0 index s = (.ok (some (0, index)), s))
    (balanced : ∀ budget index s, Balanced budget index (check budget index s).1)
    (each : ∀ budget index s, Advances optional budget index (check budget index s).1) (budget index : Nat)
    (s : Stream) : Advances true budget index (s.fitMany check budget index).1 := by
  rw [fitMany_eq (zero ..)]
  refine (each budget index s).follow (balanced budget index s) (fun _ => advances_always (Nat.le_refl _))
    fun budget' index' same onward _ => ?_
  dsimp only
  split
  · have later := advances_fitMany zero balanced each budget' index' (check budget index s).2
    exact later.behind same onward fun mandatory => absurd mandatory.symm Bool.false_ne_true
  · exact advances_always (Nat.le_refl _)
termination_by budget

/-- **What a check finds** of a rule that can match nothing is a fit, or an error, and what it finds of
another rule is past some token. -/
theorem Grammar.advances_lookAhead (g : Grammar) (limit depth id budget index : Nat) (s : Stream) :
    Advances (g.isOptional id) budget index (g.lookAhead limit depth id budget index s).1 := by
  cases budget with
  | zero =>
    rw [lookAhead_zero]
    exact advances_fit (Nat.le_refl _) fun _ more => absurd more (Nat.lt_irrefl 0)
  | succ budget =>
  cases shape : g.shape? id with
  | none =>
    rw [lookAhead_undefined shape, isOptional_eq, shape]
    exact advances_none
  | some made =>
  have each (c : Nat) (part : c ∈ made.parts) budget index s :
      Advances (g.isOptional c) budget index (g.lookAhead limit depth c budget index s).1 :=
    have := g.rank_part_lt (limit - depth) shape part
    g.advances_lookAhead ..
  have balanced (c budget index : Nat) (s : Stream) := g.balanced_lookAhead limit depth c budget index s
  rw [isOptional_of_shape shape]
  cases made with
  | token k =>
    rw [lookAhead_leaf shape]
    split
    · exact advances_error _
    · dsimp only
      split
      · exact advances_fit (Nat.le_succ _) fun _ _ => Nat.lt_succ_self _
      · exact advances_none
    · exact advances_none
  | seq left right =>
    rw [lookAhead_seqThen shape]
    refine (each left (by simp [Shape.parts]) ..).follow (balanced ..) (fun mandatory => ?_)
      fun budget' index' same onward past => ?_
    · rw [Shape.isNullable, mandatory]
      exact advances_none
    · exact (each right (by simp [Shape.parts]) ..).behind same onward past
  | alt left right =>
    rw [lookAhead_alt shape]
    refine (each left (by simp [Shape.parts]) ..).follow (balanced ..) (fun mandatory => ?_)
      fun _ _ _ onward past => advances_fit onward fun mandatory => past ?_
    · rw [Shape.isNullable, mandatory, Bool.false_or]
      exact each right (by simp [Shape.parts]) ..
    · exact (Bool.or_eq_false_iff.1 mandatory).1
  | opt child =>
    rw [lookAhead_opt shape]
    exact (each child (by simp [Shape.parts]) ..).follow (balanced ..)
      (fun _ => advances_always (Nat.le_refl _)) fun _ _ _ onward _ => advances_always onward
  | star child =>
    rw [lookAhead_star shape]
    exact advances_fitMany (fun _ _ => lookAhead_zero _) (balanced child) (each child (by simp [Shape.parts])) ..
  | plus child =>
    rw [lookAhead_plus shape]
    refine (each child (by simp [Shape.parts]) ..).follow (balanced ..) (fun mandatory => ?_)
      fun budget' index' same onward past => ?_
    · rw [Shape.isNullable, mandatory]
      exact advances_none
    · rw [Shape.isNullable, ← Bool.and_true (g.isOptional child)]
      exact (advances_fitMany (fun _ _ => lookAhead_zero _) (balanced child)
        (each child (by simp [Shape.parts])) ..).behind same onward past
  | ahead count =>
    rw [lookAhead_ahead shape]
    exact advances_always (Nat.le_refl _)
  | guarded child count =>
    have guard : g.guard? id = some (child, count) := by simp [guard?, shape]
    rw [lookAhead_guard guard]
    exact each child (by simp [Shape.parts]) ..
  | named body =>
    by_cases shallow : depth < limit
    · have := g.rank_body_lt shallow id body
      rw [lookAhead_named shape shallow]
      exact g.advances_lookAhead ..
    · rw [lookAhead_deep shape shallow]
      exact advances_error _
termination_by g.rank (limit - depth) id

/-! ## Runs -/

/-- The attempt can end without a match: it is a rule that cannot match nothing. -/
def Attempt.Misses (g : Grammar) : Attempt → Prop
  | .once id => g.isOptional id = false
  | .many _ => False

namespace Parser

variable {σ ν : Type} {p : Parser σ ν} {depth : Nat} {within : Option Nat} {a : Attempt}
  {s s' : ParseState σ} {o : Outcome ν}

/-- **A rule that can match nothing matches**, unless it fails with an error. -/
theorem Run.misses (run : p.Run depth within a s o s') (missed : o = .ok none) : a.Misses p.grammar := by
  induction run with
  | undefined shape =>
    rw [Attempt.Misses, Grammar.isOptional_eq, shape]
  | otherToken shape => exact Grammar.isOptional_of_shape shape
  | @guardClosed depth _ _ s child count _ guard look =>
    have advances := p.grammar.advances_lookAhead p.limit depth child count 0 s.stream
    rw [look] at advances
    rw [Attempt.Misses, Grammar.isOptional_of_guard? guard]
    exact Bool.eq_false_iff.2 fun always => advances.fits always rfl
  | guardOpen guard _ _ ih =>
    rw [Attempt.Misses, Grammar.isOptional_of_guard? guard]
    exact ih missed
  | seqLeft shape _ _ _ ih =>
    rw [Attempt.Misses, Grammar.isOptional_of_shape shape]
    exact Bool.and_eq_false_iff.2 (.inl (ih missed))
  | seqNone shape _ _ _ _ _ ih =>
    rw [Attempt.Misses, Grammar.isOptional_of_shape shape]
    exact Bool.and_eq_false_iff.2 (.inr (ih rfl))
  | altLeft _ _ decided => exact absurd missed decided
  | altRight shape _ _ first second =>
    rw [Attempt.Misses, Grammar.isOptional_of_shape shape]
    exact Bool.or_eq_false_iff.2 ⟨first rfl, second missed⟩
  | star _ _ ih => exact (ih missed).elim
  | plusFirst shape _ _ ih | namedBody shape _ _ _ _ ih =>
    rw [Attempt.Misses, Grammar.isOptional_of_shape shape]
    exact ih missed
  | _ => cases missed

/-- **A rule that cannot match nothing consumes a token** where it matches. -/
theorem Run.consumes {id : Nat} {nodes : List ν} (mandatory : p.grammar.isOptional id = false)
    (run : p.Run depth within (.once id) s (.ok (some nodes)) s') :
    ∃ t tokens, s.stream.rest = t :: tokens ++ s'.stream.rest := by
  obtain ⟨tokens, rest, builds⟩ := run.builds
  cases tokens with
  | nil =>
    obtain ⟨trees, yields, empty⟩ := builds.exists_yields
    rw [Grammar.isOptional_of_yields yields empty] at mandatory
    cases mandatory
  | cons t tokens => exact ⟨t, tokens, rest⟩

end Parser

/-! ## Grammars -/

/-- Whether the rule can match nothing is known rightly: it is told by derivations, and the parser and its
checks of the next tokens keep to it. -/
structure Grammar.KnowsEmpty (g : Grammar) (id : Nat) : Prop where
  derives : g.isOptional id = true ↔ g.DerivesEmpty id
  checks : ∀ limit depth budget index s,
    Advances (g.isOptional id) budget index (g.lookAhead limit depth id budget index s).1
  succeeds : g.isOptional id = true → ∀ {σ ν : Type} (p : Parser σ ν), p.grammar = g →
    ∀ depth within s, (p.tryParse depth within id s).1 ≠ .ok none
  consumes : g.isOptional id = false → ∀ {σ ν : Type} (p : Parser σ ν), p.grammar = g →
    ∀ {depth within s nodes s'}, p.tryParse depth within id s = (.ok (some nodes), s') →
      ∃ t tokens, s.stream.rest = t :: tokens ++ s'.stream.rest

theorem Grammar.knowsEmpty (g : Grammar) (id : Nat) : g.KnowsEmpty id where
  derives := isOptional_iff
  checks limit depth := g.advances_lookAhead limit depth id
  succeeds := by
    rintro always σ ν p rfl depth within s missed
    have mandatory : p.grammar.isOptional id = false := (Parser.run_of_tryParse rfl).misses missed
    rw [always] at mandatory
    cases mandatory
  consumes := by
    rintro mandatory σ ν p rfl depth within s nodes s' parsed
    exact (Parser.run_of_tryParse parsed).consumes mandatory

/-- Some repetition has a body that derives the empty sequence. -/
def Grammar.RepeatsEmpty (g : Grammar) : Prop :=
  ∃ id s c, g.shape? id = some s ∧ s.repeated? = some c ∧ g.DerivesEmpty c

namespace GrammarBuilder

variable {b : GrammarBuilder} {lexicon : Lexicon} {start : Nat}

theorem firstEmptyRepetition_ne_none {g : Grammar} : firstEmptyRepetition g ≠ none ↔ g.RepeatsEmpty := by
  rw [Ne, firstEmptyRepetition_eq_none]
  constructor
  · intro some_idle
    by_contra none
    refine some_idle fun {id s c} shape repeats => Bool.eq_false_iff.2 fun known => none ?_
    exact ⟨id, s, c, shape, repeats, Grammar.isOptional_iff.1 known⟩
  · rintro ⟨id, s, c, shape, repeats, empty⟩ none
    have mandatory := none shape repeats
    rw [Grammar.isOptional_iff.2 empty] at mandatory
    cases mandatory

/-- Where every rule is defined and every expression well formed, only such a repetition is an error. -/
theorem buildFrom_error_iff (defined : b.firstUndefined = none)
    (prepared : Lexicon.ofPatterns? (b.leaves.map (·.1)) = some lexicon) :
    (∃ e, b.buildFrom start = .error e) ↔ (b.assemble lexicon start).RepeatsEmpty := by
  rw [← firstEmptyRepetition_ne_none, buildFrom, defined, prepared]
  dsimp only
  cases firstEmptyRepetition (b.assemble lexicon start) with
  | none => exact iff_of_false nofun (absurd rfl)
  | some id => exact iff_of_true ⟨_, rfl⟩ nofun

/-- **Which rules can match nothing is known exactly**: those that derive the empty sequence of tokens. The
parser and its checks never report such a rule missing, and never find another without a token. So building
rejects just the grammars that repeat what derives the empty sequence, where there is a rule to start with,
every rule is defined and every expression is well formed. -/
theorem isOptional_exact (defined : b.firstUndefined = none)
    (prepared : Lexicon.ofPatterns? (b.leaves.map (·.1)) = some lexicon)
    (first : b.order.head? = some start) :
    (∀ (g : Grammar) (id : Nat), g.KnowsEmpty id) ∧
      ((∃ e, b.build = .error e) ↔ (b.assemble lexicon start).RepeatsEmpty) ∧
      ∀ {name start}, b.names.lookup name = some start →
        ((∃ e, b.buildStartingAt name = .error e) ↔ (b.assemble lexicon start).RepeatsEmpty) := by
  refine ⟨Grammar.knowsEmpty, ?_, fun {name start} named => ?_⟩
  · obtain ⟨later, order⟩ := List.head?_eq_some_iff.1 first
    rw [build, order]
    exact buildFrom_error_iff defined prepared
  · rw [buildStartingAt, named]
    exact buildFrom_error_iff defined prepared

/-- A rule whose body repeats a letter that may be left out. -/
def idle : GrammarBuilder where
  slots := #[⟨some "x", some (.token 0)⟩, ⟨none, some (.opt 0)⟩, ⟨none, some (.star 1)⟩,
    ⟨some "Idle", some (.named 2)⟩]
  leaves := [(.literal "x", 0)]
  names := [("Idle", 3)]
  order := [3]
  comments := .off
  parts_lt := by decide
  leaves_lt := by decide
  names_lt := by decide

/-- This grammar is rejected, since a letter that may be left out derives the empty sequence. -/
theorem isOptional_exact_idle : ∃ lexicon, idle.firstUndefined = none ∧
    Lexicon.ofPatterns? (idle.leaves.map (·.1)) = some lexicon ∧ idle.order.head? = some 3 ∧
    (idle.assemble lexicon 3).DerivesEmpty 1 ∧ ∃ e, idle.build = .error e := by
  have defined : idle.firstUndefined = none := by decide
  obtain ⟨lexicon, prepared⟩ := Option.isSome_iff_exists.1
    (show (Lexicon.ofPatterns? (idle.leaves.map (·.1))).isSome = true by decide)
  have first : idle.order.head? = some 3 := rfl
  obtain ⟨-, rejects, -⟩ := isOptional_exact defined prepared first
  have optional : (idle.assemble lexicon 3).shape? 1 = some (.opt 0) := by
    simp [Grammar.shape?, assemble, rules, idle]
  have repeated : (idle.assemble lexicon 3).shape? 2 = some (.star 1) := by
    simp [Grammar.shape?, assemble, rules, idle]
  have empty : (idle.assemble lexicon 3).DerivesEmpty 1 := ⟨[], .optNone optional, ParseTree.tokensOf_nil⟩
  exact ⟨lexicon, defined, prepared, first, empty, rejects.2 ⟨2, .star 1, 1, repeated, rfl, empty⟩⟩

/-- The builder without any rule is rejected as well, though it repeats nothing. -/
theorem build_empty : empty.firstUndefined = none ∧
    (∃ lexicon, Lexicon.ofPatterns? (empty.leaves.map (·.1)) = some lexicon ∧
      ∀ start, ¬ (empty.assemble lexicon start).RepeatsEmpty) ∧
    empty.build = .error .empty := by
  refine ⟨by decide, ⟨_, rfl, ?_⟩, rfl⟩
  rintro start ⟨id, s, c, shape, -⟩
  simp [Grammar.shape?, assemble, rules, empty] at shape

end GrammarBuilder

end Rowlang
