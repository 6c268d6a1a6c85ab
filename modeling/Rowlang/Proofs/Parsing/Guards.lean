import Rowlang.Proofs.Parsing.Replay

/-!
# Guards

A check of the next tokens and an attempt of the same rule walk the same grammar, each in its own way:
the check takes back a half-matched sequence, passes over guards, and ends as soon as its budget is
spent. Still they agree, so a guard in front of a rule never loses a match.

* `Foretells` : what a check can find where an attempt ends with a known outcome
  (`Parser.Run.foretells`);
* `Parser.tryParse_foretold` : a rule, the checks of it, and the rule behind a guard.
-/

namespace Rowlang
open Rowlang.Text Rowlang.Parser

/-! ## What an attempt lets a check find -/

/-- What a check from `index` on can find where an attempt ends with some outcome, having consumed `used`
tokens. A check that has spent its budget tells nothing. -/
inductive Foretells {ν : Type} (budget index used : Nat) : Outcome ν → Finding → Prop
  | limit {o : Outcome ν} {r : Finding} (deep : MeetsLimit r) : Foretells budget index used o r
  | spent {o : Outcome ν} {last : Nat} : Foretells budget index used o (.ok (some (0, last)))
  | matched {nodes : List ν} :
      Foretells budget index used (.ok (some nodes)) (.ok (some (budget - used, index + used)))
  | unmatched : Foretells budget index used (.ok none) (.ok none)
  | failed {e : ParseError} {r : Finding} : Foretells budget index used (.error e) r

namespace Foretells

variable {ν : Type} {budget index used : Nat} {o : Outcome ν} {r : Finding}

theorem follow {used' : Nat} {o' : Outcome ν} {first : Finding × Stream}
    {next : Option (Nat × Nat) → Stream → Finding × Stream}
    (foretells : Foretells budget index used o first.1)
    (spent : ∀ last, ∃ last', (next (some (0, last)) first.2).1 = .ok (some (0, last')))
    (matched : ∀ nodes, o = .ok (some nodes) →
      Foretells budget index used' o' (next (some (budget - used, index + used)) first.2).1)
    (unmatched : o = .ok none → Foretells budget index used' o' (next none first.2).1)
    (failed : ∀ e, o = .error e → o' = .error e) :
    Foretells budget index used' o' (andThen first next).1 := by
  obtain ⟨r, s⟩ := first
  cases foretells with
  | limit deep =>
    obtain ⟨_, _, _, rfl⟩ := deep
    exact .limit ⟨_, _, _, rfl⟩
  | @spent _ last =>
    obtain ⟨last', same⟩ := spent last
    rw [show (andThen (.ok (some (0, last)), s) next).1 = .ok (some (0, last')) from same]
    exact .spent
  | matched => exact matched _ rfl
  | unmatched => exact unmatched rfl
  | failed =>
    rw [failed _ rfl]
    exact .failed

/-- An attempt that does not match lets a check find the same wherever both began. -/
theorem of_none {budget' index' used' : Nat}
    (h : Foretells budget' index' used' (.ok none : Outcome ν) r) :
    Foretells budget index used (.ok none : Outcome ν) r := by
  cases h with
  | limit deep => exact .limit deep
  | spent => exact .spent
  | unmatched => exact .unmatched

/-- A match lets a check find the same whatever nodes are made of it. -/
theorem of_nodes {nodes more : List ν} (h : Foretells budget index used (.ok (some nodes)) r) :
    Foretells budget index used (.ok (some more)) r := by
  cases h with
  | limit deep => exact .limit deep
  | spent => exact .spent
  | matched => exact .matched

theorem of_later {before after : Nat} {nodes more : List ν}
    (h : Foretells (budget - before) (index + before) after (.ok (some nodes)) r)
    (sum : before + after = used) : Foretells budget index used (.ok (some more)) r := by
  subst sum
  cases h with
  | limit deep => exact .limit deep
  | spent => exact .spent
  | matched =>
    rw [Nat.sub_sub, Nat.add_assoc]
    exact .matched

theorem fit_of_matched {nodes : List ν} (h : Foretells budget index used (.ok (some nodes)) r) :
    MeetsLimit r ∨ ∃ fit, r = .ok (some fit) := by
  cases h with
  | limit deep => exact .inl deep
  | spent => exact .inr ⟨_, rfl⟩
  | matched => exact .inr ⟨_, rfl⟩

theorem spent_of_unmatched (h : Foretells budget index used (.ok none : Outcome ν) r) :
    MeetsLimit r ∨ r = .ok none ∨ ∃ last, r = .ok (some (0, last)) := by
  cases h with
  | limit deep => exact .inl deep
  | spent => exact .inr (.inr ⟨_, rfl⟩)
  | unmatched => exact .inr (.inl rfl)

end Foretells

def ParseState.used {σ : Type} (s s' : ParseState σ) : Nat :=
  s.stream.rest.length - s'.stream.rest.length

/-- The check of what an attempt tries. -/
def Attempt.check (g : Grammar) (limit depth : Nat) : Attempt → Check
  | .once id, budget, index, s => g.lookAhead limit depth id budget index s
  | .many child, budget, index, s => s.fitMany (g.lookAhead limit depth child) budget index

namespace Parser

variable {σ ν : Type} {p : Parser σ ν} {depth : Nat} {within : Option Nat} {a : Attempt}
  {s s' s'' : ParseState σ} {o : Outcome ν}

theorem used_eq_zero (h : s'.stream.rest = s.stream.rest) : s.used s' = 0 := by
  rw [ParseState.used, h, Nat.sub_self]

theorem used_of_rest (s₀ : ParseState σ) (h : s₀.stream.rest = s.stream.rest) :
    s₀.used s' = s.used s' := by
  rw [ParseState.used, ParseState.used, h]

theorem Run.used_add {r r' : Option (List ν)} {a' : Attempt} {depth' : Nat} {within' : Option Nat}
    (run : p.Run depth within a s (.ok r) s') (later : p.Run depth' within' a' s' (.ok r') s'') :
    s.used s' + s'.used s'' = s.used s'' := by
  have first := run.rest_suffix.length_le
  have second := later.rest_suffix.length_le
  unfold ParseState.used
  omega

theorem Run.behind {r : Option (List ν)} {index : Nat} {t : Stream}
    (run : p.Run depth within a s (.ok r) s') (h : t.Behind index s.stream) :
    t.Behind (index + s.used s') s'.stream := by
  obtain ⟨tokens, rest⟩ := run.rest_suffix
  have count : s.used s' = tokens.length := by
    rw [ParseState.used, ← rest, List.length_append]
    omega
  rw [count]
  exact h.step rest.symm run.ending

/-- A closed guard: a check of the same rule, with any budget and from any place, finds nothing, unless
it ends before it gets so far. -/
theorem foretells_of_closed {g : Grammar} {limit depth child count index budget : Nat} {s t : Stream}
    (look : (g.lookAhead limit depth child count 0 s).1 = .ok none) (behind : t.Behind index s)
    (used : Nat) : Foretells budget index used (.ok none : Outcome ν)
      (g.lookAhead limit depth child budget index t).1 := by
  rcases Nat.le_total count budget with enough | short
  · have alike := @Grammar.alike_lookAhead g limit depth child (budget - count) _ _ _ behind count 0
    rw [look, Nat.add_sub_cancel' enough, Nat.zero_add] at alike
    rw [alike.of_none]
    exact .unmatched
  · -- with less to spend the check may fit, but then it has spent it all
    have here := @Grammar.alike_lookAhead g limit depth child (count - budget) _ _ _
      (.refl behind.inner_complete) budget 0
    have there := @Grammar.alike_lookAhead g limit depth child 0 _ _ _ behind budget 0
    rw [Nat.add_sub_cancel' short, look] at here
    rw [Nat.zero_add, Nat.add_zero] at there
    rcases here.to_none with closed | ⟨last, spent⟩
    · rw [closed] at there
      rw [there.of_none]
      exact .unmatched
    · rw [spent] at there
      rw [there.of_fit]
      exact .spent

theorem foretells_of_budget {g : Grammar} {limit depth id budget index used : Nat} {t : Stream}
    (h : ∀ less, budget = less + 1 →
      Foretells budget index used o (g.lookAhead limit depth id budget index t).1) :
    Foretells budget index used o (g.lookAhead limit depth id budget index t).1 := by
  cases budget with
  | zero =>
    rw [Grammar.lookAhead_zero]
    exact .spent
  | succ less => exact h less rfl

/-- Where an attempt ends is known to every check that begins at the same token. -/
theorem Run.foretells (run : p.Run depth within a s o s') {index : Nat} {t : Stream}
    (behind : t.Behind index s.stream) (budget : Nat) :
    Foretells budget index (s.used s') o (a.check p.grammar p.limit depth budget index t).1 := by
  -- where a check has looked at one part, the next begins at a stream that agrees
  have later {depth child budget index : Nat} {t s : Stream} (behind : t.Behind index s) (index' : Nat) :
      (p.grammar.lookAhead p.limit depth child budget index' t).2.Behind index s :=
    behind.of_agrees (p.grammar.agrees_lookAhead ..) (.refl s)
  induction run generalizing index t budget with
  | undefined h =>
    refine foretells_of_budget ?_
    rintro budget rfl
    rw [Grammar.lookAhead_undefined h]
    exact .unmatched
  | @token _ _ _ s found stream h peek =>
    obtain ⟨rest, same⟩ := Stream.rest_of_peek peek
    have here : t.rest[index]? = some found := by
      rw [same, behind.getElem?, Nat.zero_add]
    have one : s.used { s with stream := stream.advance } = 1 := by
      have some : 0 < s.stream.rest.length := (List.getElem?_eq_some_iff.1 same.symm).1
      simp only [ParseState.used, Stream.advance, rest, List.length_tail]
      omega
    refine foretells_of_budget ?_
    rintro budget rfl
    obtain ⟨_, -, look⟩ := Grammar.lookAhead_token h behind.complete index
    rw [look, here, Option.map_some, if_pos rfl, one]
    exact .matched
  | otherToken h peek other =>
    obtain ⟨-, rfl⟩ := Stream.rest_of_peek peek
    refine foretells_of_budget ?_
    rintro budget rfl
    obtain ⟨_, -, look⟩ := Grammar.lookAhead_token h behind.complete index
    rw [look, if_neg (by simpa [behind.getElem?] using other)]
    exact .unmatched
  | guardClosed h look =>
    rw [Attempt.check, Grammar.lookAhead_guard h]
    exact foretells_of_closed (congrArg Prod.fst look) behind _
  | @guardOpen _ _ _ s _ _ _ stream _ _ h look run ih =>
    have agrees := (Grammar.checkSound_lookAhead look).1
    rw [Attempt.check, Grammar.lookAhead_guard h, ← used_of_rest { s with stream } agrees.rest]
    exact ih (behind.of_agrees (.refl t) agrees) budget
  | seqLeft h plain run unmatched ih =>
    rw [Attempt.check, Grammar.lookAhead_seqThen h]
    exact (ih behind budget).follow (fun last => ⟨last, by simp only [Grammar.lookAhead_zero]⟩)
      (fun nodes same => absurd same (unmatched nodes))
      (fun none => by rw [none]; exact .unmatched) fun _ same => same
  | seqBoth h plain first second ih ih' =>
    rw [Attempt.check, Grammar.lookAhead_seqThen h]
    refine (ih behind budget).follow (fun last => ⟨last, by simp only [Grammar.lookAhead_zero]⟩)
      (fun _ _ => ?_) (by simp) (by simp)
    exact (ih' (first.behind (later behind _)) _).of_later (first.used_add second)
  | seqNone h plain first second unmoved ih ih' =>
    rw [Attempt.check, Grammar.lookAhead_seqThen h]
    refine (ih behind budget).follow (fun last => ⟨last, by simp only [Grammar.lookAhead_zero]⟩)
      (fun _ _ => ?_) (by simp) (by simp)
    exact (ih' (first.behind (later behind _)) _).of_none
  | altLeft h run decided ih =>
    rw [Attempt.check, Grammar.lookAhead_alt h]
    refine (ih behind budget).follow (fun last => ⟨last, rfl⟩) (fun nodes same => ?_)
      (fun none => absurd none decided) fun _ same => same
    rw [same]
    exact .matched
  | altRight h first second ih ih' =>
    have agrees : Stream.Agrees _ _ := ⟨first.builds, first.ending⟩
    rw [Attempt.check, Grammar.lookAhead_alt h]
    refine (ih behind budget).follow (fun last => ⟨last, rfl⟩) (by simp) (fun _ => ?_) (by simp)
    rw [← used_of_rest _ agrees.rest]
    exact ih' ((later behind index).of_agrees (.refl _) agrees) budget
  | opt h run ih =>
    rw [Attempt.check, Grammar.lookAhead_opt h]
    refine (ih behind budget).follow (fun last => ⟨last, rfl⟩) (fun _ _ => .matched) (fun none => ?_)
      (by simp)
    cases none
    rw [used_eq_zero run.builds]
    exact .matched
  | star h run ih =>
    rw [Attempt.check, Grammar.lookAhead_star h]
    exact ih behind budget
  | plusFirst h run unmatched ih =>
    rw [Attempt.check, Grammar.lookAhead_plus h]
    exact (ih behind budget).follow (fun last => ⟨last, by simp only [fitMany_zero]⟩)
      (fun nodes same => absurd same (unmatched nodes))
      (fun none => by rw [none]; exact .unmatched) fun _ same => same
  | plus h first more ih ih' =>
    rw [Attempt.check, Grammar.lookAhead_plus h]
    refine (ih behind budget).follow (fun last => ⟨last, by simp only [fitMany_zero]⟩)
      (fun _ _ => ?_) (by simp) (by simp)
    exact (ih' (first.behind (later behind _)) _).of_later (first.used_add more)
  | ahead h =>
    rw [Attempt.check, Grammar.lookAhead_ahead h]
    rw [used_eq_zero rfl]
    exact .matched
  | @namedBody _ _ _ s _ _ stream _ _ h shallow begins run unmatched ih =>
    have agrees := Stream.agrees_of_place? begins
    rw [Attempt.check, Grammar.lookAhead_named h shallow,
      ← used_of_rest { s with stream } agrees.rest]
    exact ih (behind.of_agrees (.refl t) agrees) budget
  | @named _ _ _ s _ _ stream _ _ _ _ h shallow begins run built ih =>
    have agrees := Stream.agrees_of_place? begins
    rw [Attempt.check, Grammar.lookAhead_named h shallow]
    have inner := ih (behind.of_agrees (.refl t) agrees) budget
    rw [used_of_rest { s with stream } agrees.rest] at inner
    exact inner.of_nodes
  | noRound run ih =>
    rw [Attempt.check, fitMany_eq (Grammar.lookAhead_zero _), used_eq_zero run.builds]
    exact (ih behind budget).follow (fun last => fitMany_spent _ _ _ last _) (by simp)
      (fun _ => .matched) (by simp)
  | @lastRound _ _ _ s _ s' run unmoved ih =>
    have still : s.used s' = 0 := Nat.sub_eq_zero_of_le (Nat.le_of_not_lt unmoved)
    rw [Attempt.check, fitMany_eq (Grammar.lookAhead_zero _)]
    refine (ih behind budget).follow (fun last => fitMany_spent _ _ _ last _) (fun _ _ => ?_)
      (by simp) (by simp)
    rw [still]
    simp only [Nat.sub_zero, Nat.lt_irrefl, if_false]
    exact .matched
  | @round _ _ _ s _ _ s' _ run moved more ih ih' =>
    have some : 0 < s.used s' := Nat.sub_pos_of_lt moved
    rw [Attempt.check, fitMany_eq (Grammar.lookAhead_zero _)]
    refine (ih behind budget).follow (fun last => fitMany_spent _ _ _ last _) (fun _ _ => ?_)
      (by simp) (by simp)
    dsimp only
    split
    · exact (ih' (run.behind (later behind _)) _).of_later (run.used_add more)
    · obtain rfl : budget = 0 := by omega
      exact .spent
  | unscanned | guardError | seqError | seqMissing | optError | plusError | tooDeep | unplaced
  | refused | roundError | laterError => exact .failed

/-! ## A rule behind a guard -/

theorem not_meetsLimit_of_ok {α : Type} {x : α} : ¬ MeetsLimit (.ok x : Except ParseError α) := by
  rintro ⟨_, _, _, ⟨⟩⟩

/-- A rule that has an error other than that of the limit is in conflict with the text, or is refused by
the builder. -/
theorem of_error {id : Nat} {e : ParseError} (complete : s.stream.Complete)
    (failed : (p.tryParse depth within id s).1 = .error e)
    (shallow : ¬ MeetsLimit (p.tryParse depth within id s).1) :
    (∃ rule expected found place, e = .syntaxError rule expected found place) ∨
      ∃ rule reason line column, e = .rejected rule reason line column := by
  obtain ⟨place, ending⟩ := complete
  cases (run_of_tryParse (Prod.ext failed rfl)).fault rfl with
  | lex unscanned => cases ending.symm.trans unscanned
  | syntaxError => exact .inl ⟨_, _, _, _, rfl⟩
  | tooDeep => exact absurd ⟨_, _, _, failed⟩ shallow
  | rejected => exact .inr ⟨_, _, _, _, rfl⟩

/-- Behind an open guard stands what stands there without it. -/
theorem replays_open_guard {guard id count : Nat} {fit : Nat × Nat} (complete : s.stream.Complete)
    (h : p.grammar.guard? guard = some (id, count))
    (fits : (p.grammar.lookAhead p.limit depth id count 0 s.stream).1 = .ok (some fit)) :
    Replays (p.tryParse depth within id s) (p.tryParse depth within guard s) := by
  have agrees := p.grammar.agrees_lookAhead p.limit depth id count 0 s.stream
  have same : s.Matches { s with stream := (p.grammar.lookAhead p.limit depth id count 0 s.stream).2 } :=
    ⟨complete, agrees, rfl⟩
  rw [tryParse_guard h, ParseState.look, fits]
  exact replays_tryParse same

theorem closed_guard {guard id count : Nat} (h : p.grammar.guard? guard = some (id, count))
    (closed : (p.grammar.lookAhead p.limit depth id count 0 s.stream).1 = .ok none) :
    (p.tryParse depth within guard s).1 = .ok none := by
  rw [tryParse_guard h, ParseState.look, closed]
  rfl

/-- A rule that matches is a fit for every check of it, and one that does not match is no fit unless the
budget is spent. So a guard changes nothing where the rule matches, and where it does change the outcome
there was an error of the syntax, or a refusal by the builder. -/
theorem tryParse_foretold (p : Parser σ ν) (depth : Nat) (within : Option Nat) (id : Nat)
    (s : ParseState σ) (complete : s.stream.Complete) :
    let plain := p.tryParse depth within id s
    let look := fun budget => (p.grammar.lookAhead p.limit depth id budget 0 s.stream).1
    ((∃ nodes, plain.1 = .ok (some nodes)) →
      ∀ budget, MeetsLimit (look budget) ∨ ∃ fit, look budget = .ok (some fit)) ∧
    (plain.1 = .ok none →
      ∀ budget, MeetsLimit (look budget) ∨ look budget = .ok none ∨
        look budget = .ok (some (0, budget))) ∧
    ∀ guard budget, p.grammar.guard? guard = some (id, budget) → ¬ MeetsLimit plain.1 →
      ¬ MeetsLimit (look budget) →
      let guarded := p.tryParse depth within guard s
      ((∃ nodes, plain.1 = .ok (some nodes)) → Replays plain guarded) ∧
      (guarded.1 ≠ plain.1 → guarded.1 = .ok none ∧
        ((∃ rule expected found place,
            plain.1 = .error (.syntaxError rule expected found place)) ∨
          ∃ rule reason line column, plain.1 = .error (.rejected rule reason line column))) := by
  intro plain look
  have foretells (budget : Nat) : Foretells budget 0 (s.used plain.2) plain.1 (look budget) :=
    Run.foretells (run_of_tryParse rfl) (.refl complete) budget
  have fits : (∃ nodes, plain.1 = .ok (some nodes)) →
      ∀ budget, MeetsLimit (look budget) ∨ ∃ fit, look budget = .ok (some fit) := by
    rintro ⟨nodes, matched⟩ budget
    exact (matched ▸ foretells budget).fit_of_matched
  refine ⟨fits, fun unmatched budget => ?_, fun guard budget h shallow reached => ?_⟩
  · rcases (unmatched ▸ foretells budget).spent_of_unmatched with deep | closed | ⟨last, spent⟩
    · exact .inl deep
    · exact .inr (.inl closed)
    · -- what was looked at is what was paid for
      have sum := (p.grammar.balanced_lookAhead p.limit depth id budget 0 s.stream).sum _ spent
      obtain rfl : last = budget := by omega
      exact .inr (.inr spent)
  · rcases found : look budget with e | (_ | fit)
    · exact absurd (Grammar.meetsLimit_of_lookAhead complete found) reached
    · -- the guard is closed, so the rule does not match
      have closed : (p.tryParse depth within guard s).1 = .ok none := closed_guard h found
      refine ⟨fun matched => ?_, fun differs => ⟨closed, ?_⟩⟩
      · rcases fits matched budget with deep | ⟨fit, open_⟩
        · exact absurd deep reached
        · cases open_.symm.trans found
      · rcases outcome : plain.1 with e | (_ | nodes)
        · simpa using of_error complete outcome shallow
        · exact absurd (closed.trans outcome.symm) differs
        · rcases fits ⟨nodes, outcome⟩ budget with deep | ⟨fit, open_⟩
          · exact absurd deep reached
          · cases open_.symm.trans found
    · have same : Replays plain _ := replays_open_guard complete h found
      exact ⟨fun _ => same, fun differs => absurd same.outcome differs⟩

open Body in
def wordRules : List Definition := [
  ⟨"Either", alt (sequence (ahead 2) [name "Word", literal "b"])
    (sequence (literal "a") [literal "c"])⟩,
  ⟨"Word", literal "a"⟩]

theorem wordRules_build : (Grammar.ofDefinitions wordRules).toOption.isSome = true := by
  decide +kernel

/-- The grammar of `wordRules`, in which the rule 4 is the rule 3 behind its guard. -/
def wordGrammar : Grammar := (Grammar.ofDefinitions wordRules).toOption.get wordRules_build

/-- A text of two tokens, to be parsed by `wordGrammar`. -/
def wordState (text : String) : ParseState Unit := ⟨.ofScan (wordGrammar.scan text), ()⟩

theorem complete_wordState {text : String} {place : Location}
    (h : (wordState text).stream.ending = .complete place) : (wordState text).stream.Complete :=
  ⟨place, h⟩

/-- Two tokens that match, so the check fits with every budget, and the guard changes nothing. -/
theorem tryParse_foretold_word :
    let p : Parser Unit ParseTree := ⟨wordGrammar, .collector, 9⟩
    let s := wordState "a b"
    s.stream.Complete ∧
      (∀ budget, MeetsLimit (wordGrammar.lookAhead 9 0 3 budget 0 s.stream).1 ∨
        ∃ fit, (wordGrammar.lookAhead 9 0 3 budget 0 s.stream).1 = .ok (some fit)) ∧
      Replays (p.tryParse 0 none 3 s) (p.tryParse 0 none 4 s) := by
  intro p s
  have complete : s.stream.Complete :=
    complete_wordState (by decide +kernel : _ = ScanEnd.complete ⟨3, 1, 4⟩)
  obtain ⟨fits, -, guarded⟩ := tryParse_foretold p 0 none 3 s complete
  have made : (p.tryParse 0 none 3 s).1.toOption.join.isSome = true := by decide +kernel
  rcases outcome : (p.tryParse 0 none 3 s).1 with e | (_ | nodes)
  · simp [outcome, Except.toOption] at made
  · simp [outcome, Except.toOption] at made
  have matched : ∃ nodes, (p.tryParse 0 none 3 s).1 = .ok (some nodes) := ⟨nodes, outcome⟩
  have reached : ¬ MeetsLimit (wordGrammar.lookAhead 9 0 3 2 0 s.stream).1 := by
    have found : (wordGrammar.lookAhead 9 0 3 2 0 s.stream).1 = .ok (some (0, 2)) := by decide +kernel
    rw [found]
    exact not_meetsLimit_of_ok
  exact ⟨complete, fits matched,
    (guarded 4 2 (by decide +kernel) (outcome ▸ not_meetsLimit_of_ok) reached).1 matched⟩

/-- A builder that refuses every node of a rule. -/
def refusingBuilder : TreeBuilder Unit Unit := ⟨fun _ => (), fun _ _ s => (.error "refused", s)⟩

/-- Not only errors of the syntax are lost behind a guard: without it, the first word matches and is
refused. -/
theorem refusal_lost_behind_guard :
    let p : Parser Unit Unit := ⟨wordGrammar, refusingBuilder, 9⟩
    let s := wordState "a c"
    s.stream.Complete ∧ wordGrammar.guard? 4 = some (3, 2) ∧
      (wordGrammar.lookAhead 9 0 3 2 0 s.stream).1 = .ok none ∧
      (p.tryParse 0 none 3 s).1 = .error (.rejected "Word" "refused" 1 1) ∧
      (p.tryParse 0 none 4 s).1 = .ok none := by
  intro p s
  exact ⟨complete_wordState (by decide +kernel : _ = ScanEnd.complete ⟨3, 1, 4⟩),
    by decide +kernel, by decide +kernel, by decide +kernel, by decide +kernel⟩

end Parser

end Rowlang
