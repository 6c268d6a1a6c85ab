import Mathlib.Logic.Relation
import Rowlang.Proofs.Grammar.Start
import Rowlang.Proofs.Lexing.Partition
import Rowlang.Proofs.Parsing.Simulation

/-!
# The places of errors

An error shows the place of the first token that has not been consumed, or the end of the text. Where the
builder refuses a node, that is the place where the rule of the node was entered.

* `IsNext` : a location is that of the first of the tokens that are left of a text, or of its end;
* `Stream.Next` : the same of a stream, without regard to the text;
* `CheckError`, `Grammar.checkErrors_lookAhead` : the errors that a check can end with;
* `Parser.Call`, `Parser.Calls`, `Parser.Raises` : the attempts that an attempt makes in its course, and the
  errors that arise in one of them;
* `Parser.Run.raised` : an attempt that ends with an error has made the one in which it arises;
* `Parser.parseRule_placed` : the places of all errors of a whole text.
-/

namespace Rowlang
open Rowlang.Text Relation

/-! ## Where the next token begins -/

/-- A location is where the text goes on, with the tokens `rest` left of it: at the first of them, or at the
end of the text if there is none. -/
inductive IsNext (text : List Char) : Location → List Token → Prop
  | token {before after t later} (same : text = before ++ t.text.toList ++ after)
      (there : t.start.Behind before) : IsNext text t.start (t :: later)
  | ended {place} (there : Location.Behind place text) : IsNext text place []

namespace Stream

/-- Where the next token begins, or where the text ends. -/
inductive Next (s : Stream) : Location → Prop
  | token {t later} (rest : s.rest = t :: later) : Next s t.start
  | ended {place} (rest : s.rest = []) (ending : s.ending = .complete place) : Next s place

variable {s s' t : Stream} {place : Location}

theorem Next.of_agrees (h : s.Next place) (agrees : s.Agrees t) : t.Next place := by
  cases h with
  | token rest => exact .token (agrees.rest.trans rest)
  | ended rest ending => exact .ended (agrees.rest.trans rest) (agrees.ending.trans ending)

theorem next_of_peek {t : Token} (h : s.peek 0 = .ok (some t, s')) : s.Next t.start := by
  obtain ⟨-, found⟩ := rest_of_peek h
  cases rest : s.rest with
  | nil =>
    rw [rest] at found
    cases found
  | cons t' later =>
    rw [rest] at found
    cases found
    exact .token rest

theorem next_of_ended (h : s.peek 0 = .ok (none, s')) : s.Next s.ending.place := by
  obtain ⟨rest, place, ending⟩ := ended_of_peek h
  rw [ending]
  exact .ended rest ending

theorem next_of_place? (h : s.place? = .ok (place, s')) : s.Next place := by
  unfold place? at h
  split at h <;> simp only [Except.ok.injEq, Prod.mk.injEq, reduceCtorEq] at h
  · obtain ⟨rfl, rfl⟩ := h
    exact next_of_peek ‹_›
  · obtain ⟨rfl, rfl⟩ := h
    have peek := ‹s.peek 0 = _›
    rw [(agrees_of_peek peek).ending]
    exact next_of_ended peek

/-- What is left in one stream is left of what is in an earlier one. -/
structure Later (s s' : Stream) : Prop where
  rest : s'.rest <:+ s.rest
  ending : s'.ending = s.ending

theorem Later.refl (s : Stream) : s.Later s := ⟨List.suffix_rfl, rfl⟩

theorem Later.trans (h : s.Later s') (h' : s'.Later t) : s.Later t :=
  ⟨h'.rest.trans h.rest, h'.ending.trans h.ending⟩

theorem Agrees.later (h : s.Agrees s') : s.Later s' := ⟨h.rest ▸ List.suffix_rfl, h.ending⟩

end Stream

/-- The end of a text that is cut up to its end is behind all its characters. -/
theorem Cut.behind {lexicon : Lexicon} {mode : CommentMode} {before rest : List Char} {tokens : List Token}
    {place : Location} (h : Cut lexicon mode before rest tokens (.complete place)) :
    place.Behind (before ++ rest) := by
  generalize same : ScanEnd.complete place = ending at h
  induction h with
  | complete between there =>
    cases same
    exact there
  | unterminated | unexpected => cases same
  | token between nonempty chosen taken number name text begins ends kept later ih =>
    simpa only [List.append_assoc] using ih same

/-- What comes next in a stream is what comes next in the text, of which the stream has some last tokens. -/
theorem Stream.Next.isNext {lexicon : Lexicon} {mode : CommentMode} {text : List Char} {tokens : List Token}
    {s : Stream} {place : Location} (h : s.Next place) (cut : Cut lexicon mode [] text tokens s.ending)
    (left : s.rest <:+ tokens) : IsNext text place s.rest := by
  cases h with
  | @token t later rest =>
    have listed : t ∈ tokens := left.subset (rest ▸ List.mem_cons_self)
    obtain ⟨before, after, same, there, -⟩ := (cut.slices t listed).slice
    rw [rest]
    exact .token same there
  | ended rest ending =>
    rw [ending] at cut
    rw [rest]
    exact .ended cut.behind

theorem Grammar.Built.prepared {g : Grammar} (built : g.Built) :
    ∃ patterns, Lexicon.ofPatterns? patterns = some g.lexicon := by
  induction built with
  | build _ h => exact GrammarBuilder.prepared_of_build h
  | @buildStartingAt b g name _ h =>
    unfold GrammarBuilder.buildStartingAt at h
    split at h
    · exact GrammarBuilder.prepared_of_buildFrom h
    · cases h
  | withComments _ mode ih => exact ih

/-! ## Errors of checks -/

/-- The errors that a check can end with: the text cannot be scanned to its end, or named rules are nested
beyond the limit, where the next token begins. -/
inductive CheckError (limit : Nat) (s : Stream) : ParseError → Prop
  | lex {e} (failed : s.ending = .failed e) : CheckError limit s (.lex e)
  | tooDeep {rule place} (there : s.Next place) : CheckError limit s (.tooDeep rule limit place)

/-- If the result is an error, it is one that a check can end with. -/
def CheckErrors (limit : Nat) (s : Stream) (r : Finding) : Prop := ∀ e, r = .error e → CheckError limit s e

section
variable {limit : Nat} {s t : Stream}

theorem CheckError.of_agrees {e : ParseError} (h : CheckError limit t e) (agrees : s.Agrees t) :
    CheckError limit s e := by
  cases h with
  | lex failed => exact .lex (agrees.ending ▸ failed)
  | tooDeep there => exact .tooDeep (there.of_agrees agrees.symm)

theorem checkErrors_ok (fit : Option (Nat × Nat)) : CheckErrors limit s (.ok fit) := by
  rintro e ⟨⟩

theorem CheckErrors.follow {first : Finding × Stream}
    {next : Option (Nat × Nat) → Stream → Finding × Stream} (agrees : s.Agrees first.2)
    (here : CheckErrors limit s first.1) (later : ∀ fit t, CheckErrors limit t (next fit t).1) :
    CheckErrors limit s (andThen first next).1 := by
  obtain ⟨e | fit, t⟩ := first
  · exact here
  · exact fun e failed => (later fit t e failed).of_agrees agrees

theorem checkErrors_tooDeepAt (g : Grammar) (limit id : Nat) (s : Stream) :
    CheckError limit s (g.tooDeepAt limit id s).1 := by
  unfold Grammar.tooDeepAt
  split
  · exact .lex (Stream.failed_of_place? ‹_›)
  · exact .tooDeep (Stream.next_of_place? ‹_›)

theorem checkErrors_fitMany {check : Check} (zero : ∀ index s, check 0 index s = (.ok (some (0, index)), s))
    (agrees : ∀ budget index (s : Stream), s.Agrees (check budget index s).2)
    (each : ∀ budget index s, CheckErrors limit s (check budget index s).1) (budget index : Nat)
    (s : Stream) : CheckErrors limit s (s.fitMany check budget index).1 := by
  rw [fitMany_eq (zero ..)]
  refine (each budget index s).follow (agrees budget index s) fun fit t => ?_
  rcases fit with _ | ⟨budget', index'⟩
  · exact checkErrors_ok _
  · dsimp only
    split
    · exact checkErrors_fitMany zero agrees each budget' index' t
    · exact checkErrors_ok _
termination_by budget

/-- A check ends with an error only where scanning or the limit stops it. -/
theorem Grammar.checkErrors_lookAhead (g : Grammar) (limit depth id budget index : Nat) (s : Stream) :
    CheckErrors limit s (g.lookAhead limit depth id budget index s).1 := by
  cases budget with
  | zero =>
    rw [lookAhead_zero]
    exact checkErrors_ok _
  | succ budget =>
  cases shape : g.shape? id with
  | none =>
    rw [lookAhead_undefined shape]
    exact checkErrors_ok _
  | some made =>
  have each (c : Nat) (part : c ∈ made.parts) budget index (t : Stream) :
      CheckErrors limit t (g.lookAhead limit depth c budget index t).1 :=
    have := g.rank_part_lt (limit - depth) shape part
    g.checkErrors_lookAhead limit depth c budget index t
  have agrees (c budget index : Nat) (t : Stream) := g.agrees_lookAhead limit depth c budget index t
  have many (c : Nat) (part : c ∈ made.parts) (budget index : Nat) (t : Stream) :
      CheckErrors limit t (t.fitMany (g.lookAhead limit depth c) budget index).1 :=
    checkErrors_fitMany (fun _ _ => lookAhead_zero _) (agrees c) (each c part) budget index t
  cases made with
  | token k =>
    rw [lookAhead_leaf shape]
    split
    · rintro e ⟨⟩
      exact .lex (Stream.failed_of_peek ‹_›)
    · exact checkErrors_ok _
    · exact checkErrors_ok _
  | seq left right =>
    rw [lookAhead_seqThen shape]
    refine (each left (by simp [Shape.parts]) _ _ s).follow (agrees ..) fun fit t => ?_
    rcases fit with _ | ⟨budget', index'⟩
    · exact checkErrors_ok _
    · exact each right (by simp [Shape.parts]) _ _ t
  | alt left right =>
    rw [lookAhead_alt shape]
    refine (each left (by simp [Shape.parts]) _ _ s).follow (agrees ..) fun fit t => ?_
    rcases fit with _ | fit
    · exact each right (by simp [Shape.parts]) _ _ t
    · exact checkErrors_ok _
  | opt child =>
    rw [lookAhead_opt shape]
    exact (each child (by simp [Shape.parts]) _ _ s).follow (agrees ..) fun _ _ => checkErrors_ok _
  | star child =>
    rw [lookAhead_star shape]
    exact many child (by simp [Shape.parts]) _ _ s
  | plus child =>
    rw [lookAhead_plus shape]
    refine (each child (by simp [Shape.parts]) _ _ s).follow (agrees ..) fun fit t => ?_
    rcases fit with _ | ⟨budget', index'⟩
    · exact checkErrors_ok _
    · exact many child (by simp [Shape.parts]) _ _ t
  | ahead count =>
    rw [lookAhead_ahead shape]
    exact checkErrors_ok _
  | guarded child count =>
    have guard : g.guard? id = some (child, count) := by simp [guard?, shape]
    rw [lookAhead_guard guard]
    exact each child (by simp [Shape.parts]) _ _ s
  | named body =>
    by_cases shallow : depth < limit
    · have := g.rank_body_lt shallow id body
      rw [lookAhead_named shape shallow]
      exact g.checkErrors_lookAhead limit (depth + 1) body _ index s
    · rw [lookAhead_deep shape shallow]
      rintro e ⟨⟩
      exact checkErrors_tooDeepAt g limit id s
termination_by g.rank (limit - depth) id

end

/-! ## The attempts that an attempt makes -/

namespace Parser

variable {σ ν : Type} {p : Parser σ ν}

/-- An attempt from a state, with `depth` named rules open, the innermost of them `within`. -/
structure Call (σ : Type) where
  depth : Nat
  within : Option Nat
  attempt : Attempt
  state : ParseState σ

/-- An attempt makes another one. -/
inductive Calls (p : Parser σ ν) : Call σ → Call σ → Prop
  | guarded {depth within id s child count fit stream} (h : p.grammar.guard? id = some (child, count))
      (look : p.grammar.lookAhead p.limit depth child count 0 s.stream = (.ok (some fit), stream)) :
      Calls p ⟨depth, within, .once id, s⟩ ⟨depth, within, .once child, { s with stream }⟩
  | seqLeft {depth within id s left right} (h : p.grammar.shape? id = some (.seq left right))
      (plain : p.grammar.guard? id = none) :
      Calls p ⟨depth, within, .once id, s⟩ ⟨depth, within, .once left, s⟩
  | seqRight {depth within id s left right nodes s₁} (h : p.grammar.shape? id = some (.seq left right))
      (plain : p.grammar.guard? id = none)
      (runLeft : p.Run depth within (.once left) s (.ok (some nodes)) s₁) :
      Calls p ⟨depth, within, .once id, s⟩ ⟨depth, within, .once right, s₁⟩
  | altLeft {depth within id s left right} (h : p.grammar.shape? id = some (.alt left right)) :
      Calls p ⟨depth, within, .once id, s⟩ ⟨depth, within, .once left, s⟩
  | altRight {depth within id s left right s₁} (h : p.grammar.shape? id = some (.alt left right))
      (runLeft : p.Run depth within (.once left) s (.ok none) s₁) :
      Calls p ⟨depth, within, .once id, s⟩ ⟨depth, within, .once right, s₁⟩
  | opt {depth within id s child} (h : p.grammar.shape? id = some (.opt child)) :
      Calls p ⟨depth, within, .once id, s⟩ ⟨depth, within, .once child, s⟩
  | star {depth within id s child} (h : p.grammar.shape? id = some (.star child)) :
      Calls p ⟨depth, within, .once id, s⟩ ⟨depth, within, .many child, s⟩
  | plusFirst {depth within id s child} (h : p.grammar.shape? id = some (.plus child)) :
      Calls p ⟨depth, within, .once id, s⟩ ⟨depth, within, .once child, s⟩
  | plusMore {depth within id s child nodes s₁} (h : p.grammar.shape? id = some (.plus child))
      (runFirst : p.Run depth within (.once child) s (.ok (some nodes)) s₁) :
      Calls p ⟨depth, within, .once id, s⟩ ⟨depth, within, .many child, s₁⟩
  | body {depth within id s body place stream} (h : p.grammar.shape? id = some (.named body))
      (shallow : depth < p.limit) (begins : s.stream.place? = .ok (place, stream)) :
      Calls p ⟨depth, within, .once id, s⟩ ⟨depth + 1, some id, .once body, { s with stream }⟩
  | round {depth within child s} :
      Calls p ⟨depth, within, .many child, s⟩ ⟨depth, within, .once child, s⟩
  | rounds {depth within child s nodes s₁}
      (run : p.Run depth within (.once child) s (.ok (some nodes)) s₁)
      (moved : s₁.stream.rest.length < s.stream.rest.length) :
      Calls p ⟨depth, within, .many child, s⟩ ⟨depth, within, .many child, s₁⟩

/-- An attempt ends with an error that none of the attempts it makes has ended with, and with a state. -/
inductive Raises (p : Parser σ ν) : Call σ → ParseError → ParseState σ → Prop
  | unscanned {depth within id s pattern e} (h : p.grammar.shape? id = some (.token pattern))
      (peek : s.stream.peek 0 = .error e) : Raises p ⟨depth, within, .once id, s⟩ (.lex e) s
  | guardError {depth within id s child count e stream} (h : p.grammar.guard? id = some (child, count))
      (look : p.grammar.lookAhead p.limit depth child count 0 s.stream = (.error e, stream)) :
      Raises p ⟨depth, within, .once id, s⟩ e { s with stream }
  | missing {depth within id s left right nodes s₁ s₂ e stream}
      (h : p.grammar.shape? id = some (.seq left right)) (plain : p.grammar.guard? id = none)
      (runLeft : p.Run depth within (.once left) s (.ok (some nodes)) s₁)
      (runRight : p.Run depth within (.once right) s₁ (.ok none) s₂)
      (moved : s₂.stream.rest.length ≠ s.stream.rest.length)
      (missing : p.missing within right s₂.stream = (e, stream)) :
      Raises p ⟨depth, within, .once id, s⟩ e { s₂ with stream }
  | tooDeep {depth within id s body e stream} (h : p.grammar.shape? id = some (.named body))
      (deep : ¬ depth < p.limit) (error : p.grammar.tooDeepAt p.limit id s.stream = (e, stream)) :
      Raises p ⟨depth, within, .once id, s⟩ e { s with stream }
  | unplaced {depth within id s body e} (h : p.grammar.shape? id = some (.named body))
      (shallow : depth < p.limit) (place : s.stream.place? = .error e) :
      Raises p ⟨depth, within, .once id, s⟩ (.lex e) s
  | refused {depth within id s body place stream children reason building s₁}
      (h : p.grammar.shape? id = some (.named body)) (shallow : depth < p.limit)
      (begins : s.stream.place? = .ok (place, stream))
      (run : p.Run (depth + 1) (some id) (.once body) { s with stream } (.ok (some children)) s₁)
      (refusal :
        p.builder.rule (p.grammar.ruleName id) children s₁.building = (.error reason, building)) :
      Raises p ⟨depth, within, .once id, s⟩
        (.rejected (p.grammar.ruleName id) reason place.line place.column) { s₁ with building }

/-- An attempt makes another in its course, or is it. -/
abbrev Reaches (p : Parser σ ν) : Call σ → Call σ → Prop := ReflTransGen p.Calls

/-- An error arises in the course of an attempt, which ends with a state. -/
def Raised (p : Parser σ ν) (c : Call σ) (e : ParseError) (s : ParseState σ) : Prop :=
  ∃ c', p.Reaches c c' ∧ p.Raises c' e s

theorem Raises.raised {c : Call σ} {e : ParseError} {s : ParseState σ} (h : p.Raises c e s) :
    p.Raised c e s :=
  ⟨c, .refl, h⟩

theorem Raised.of_call {c c' : Call σ} {e : ParseError} {s : ParseState σ} (h : p.Raised c' e s)
    (call : p.Calls c c') : p.Raised c e s := by
  obtain ⟨c'', reached, raises⟩ := h
  exact ⟨c'', .head call reached, raises⟩

/-- An error with which an attempt ends arises in its course. -/
theorem Run.raised {depth : Nat} {within : Option Nat} {a : Attempt} {s s' : ParseState σ} {o : Outcome ν}
    (run : p.Run depth within a s o s') {e : ParseError} (failed : o = .error e) :
    p.Raised ⟨depth, within, a, s⟩ e s' := by
  induction run with
  | unscanned h peek =>
    cases failed
    exact (Raises.unscanned h peek).raised
  | guardError h look =>
    cases failed
    exact (Raises.guardError h look).raised
  | guardOpen h look _ ih => exact (ih failed).of_call (.guarded h look)
  | seqLeft h plain _ _ ih => exact (ih failed).of_call (.seqLeft h plain)
  | seqError h plain runLeft _ _ ih => exact (ih failed).of_call (.seqRight h plain runLeft)
  | seqMissing h plain runLeft runRight moved missing =>
    cases failed
    exact (Raises.missing h plain runLeft runRight moved missing).raised
  | altLeft h _ _ ih => exact (ih failed).of_call (.altLeft h)
  | altRight h runLeft _ _ ih => exact (ih failed).of_call (.altRight h runLeft)
  | optError h _ ih =>
    cases failed
    exact (ih rfl).of_call (.opt h)
  | star h _ ih => exact (ih failed).of_call (.star h)
  | plusFirst h _ _ ih => exact (ih failed).of_call (.plusFirst h)
  | plusError h runFirst _ _ ih =>
    cases failed
    exact (ih rfl).of_call (.plusMore h runFirst)
  | tooDeep h deep error =>
    cases failed
    exact (Raises.tooDeep h deep error).raised
  | unplaced h shallow place =>
    cases failed
    exact (Raises.unplaced h shallow place).raised
  | namedBody h shallow begins _ _ ih => exact (ih failed).of_call (.body h shallow begins)
  | refused h shallow begins run refusal =>
    cases failed
    exact (Raises.refused h shallow begins run refusal).raised
  | roundError _ ih =>
    cases failed
    exact (ih rfl).of_call .round
  | laterError run moved _ _ ih =>
    cases failed
    exact (ih rfl).of_call (.rounds run moved)
  | _ => cases failed

/-! ## The tokens that are left -/

theorem Run.later {depth : Nat} {within : Option Nat} {a : Attempt} {s s' : ParseState σ}
    {r : Option (List ν)} (run : p.Run depth within a s (.ok r) s') : s.stream.Later s'.stream :=
  ⟨run.rest_suffix, run.ending⟩

theorem Calls.later {c c' : Call σ} (h : p.Calls c c') : c.state.stream.Later c'.state.stream := by
  cases h with
  | guarded _ look => exact (Grammar.checkSound_lookAhead look).1.later
  | seqRight _ _ run | altRight _ run | plusMore _ run | rounds run => exact run.later
  | body _ _ begins => exact (Stream.agrees_of_place? begins).later
  | seqLeft | altLeft | opt | star | plusFirst | round => exact .refl _

theorem Reaches.later {c c' : Call σ} (h : p.Reaches c c') : c.state.stream.Later c'.state.stream := by
  induction h with
  | refl => exact .refl _
  | tail _ call ih => exact ih.trans call.later

theorem Raises.later {c : Call σ} {e : ParseError} {s : ParseState σ} (h : p.Raises c e s) :
    c.state.stream.Later s.stream := by
  cases h with
  | unscanned | unplaced => exact .refl _
  | guardError _ look => exact (Grammar.checkSound_lookAhead look).1.later
  | @missing _ within _ s _ right _ _ s₂ _ _ _ _ runLeft runRight _ missing =>
    have agrees := p.agrees_of_missing within right s₂.stream
    rw [missing] at agrees
    exact (runLeft.later.trans runRight.later).trans agrees.later
  | @tooDeep _ _ id s _ _ _ _ _ error =>
    have agrees := (p.grammar.tooDeepAt_fault p.limit id s.stream).1
    rw [error] at agrees
    exact agrees.later
  | refused _ _ begins run => exact (Stream.agrees_of_place? begins).later.trans run.later

theorem missing_cases (p : Parser σ ν) (within : Option Nat) (expected : Nat) (s : Stream) :
    (∃ e, p.missing within expected s = (.lex e, s) ∧ s.ending = .failed e) ∨
      ∃ rule described place t, s.Agrees t ∧ t.Next place ∧
        p.missing within expected s = (.syntaxError rule described t.rest.head? place, t) := by
  unfold missing
  rcases peek : s.peek 0 with e | ⟨_ | t, s'⟩
  · exact .inl ⟨e, rfl, Stream.failed_of_peek peek⟩
  · have agrees := Stream.agrees_of_peek peek
    have next := Stream.next_of_ended peek
    refine .inr ⟨p.grammar.ruleName (within.getD expected), p.grammar.describe expected, s'.ending.place, s',
      agrees, agrees.ending ▸ next.of_agrees agrees, ?_⟩
    rw [agrees.rest, (Stream.ended_of_peek peek).1]
    rfl
  · have agrees := Stream.agrees_of_peek peek
    refine .inr ⟨p.grammar.ruleName (within.getD expected), p.grammar.describe expected, t.start, s', agrees,
      (Stream.next_of_peek peek).of_agrees agrees, ?_⟩
    obtain ⟨rest, found⟩ := Stream.rest_of_peek peek
    rw [rest, List.head?_eq_getElem?, ← found]

/-! ## Whole texts -/

def beginning (p : Parser σ ν) (text : String) (init : σ) : ParseState σ :=
  ⟨.ofScan (p.grammar.scan text), init⟩

/-- The errors with which the parse of a text by the rule `id` can end, and their places. The state behind it
tells the tokens that have not been consumed, and the builder's state. -/
inductive Placed (p : Parser σ ν) (id : Nat) (text : String) (init : σ) (s : ParseState σ) :
    ParseError → Prop
  | lex {e} (failed : (p.grammar.scan text).ending = .failed e) : Placed p id text init s (.lex e)
  | syntaxError {rule expected place} (next : IsNext text.toList place s.stream.rest) :
      Placed p id text init s (.syntaxError rule expected s.stream.rest.head? place)
  | trailingInput {t later} (left : s.stream.rest = t :: later)
      (next : IsNext text.toList t.start s.stream.rest) : Placed p id text init s (.trailingInput t)
  | tooDeep {rule place} (next : IsNext text.toList place s.stream.rest) :
      Placed p id text init s (.tooDeep rule p.limit place)
  /-- The builder refuses what a named rule has matched, which was entered where the place is. -/
  | rejected {depth within id' body s₀ stream children s₁ reason place}
      (entered : p.Reaches ⟨0, none, .once id, p.beginning text init⟩ ⟨depth, within, .once id', s₀⟩)
      (named : p.grammar.shape? id' = some (.named body))
      (left : s₀.stream.rest <:+ (p.grammar.scan text).tokens)
      (next : IsNext text.toList place s₀.stream.rest)
      (matched : p.Run (depth + 1) (some id') (.once body) { s₀ with stream } (.ok (some children)) s₁)
      (refusal : p.builder.rule (p.grammar.ruleName id') children s₁.building = (.error reason, s.building)) :
      Placed p id text init s
        (.rejected (p.grammar.ruleName id') reason place.line place.column)
  /-- The builder refuses a node over all that a rule without a name has made of the text. -/
  | wrapped {nodes s₁ reason} (unnamed : ∀ body, p.grammar.shape? id ≠ some (.named body))
      (matched : p.Run 0 none (.once id) (p.beginning text init) (.ok (some nodes)) s₁)
      (several : nodes.length ≠ 1) (nothing : s.stream.rest = [])
      (refusal : p.builder.rule (p.grammar.ruleName id) nodes s₁.building = (.error reason, s.building)) :
      Placed p id text init s (.rejected (p.grammar.ruleName id) reason 1 1)

section
variable {id : Nat} {text : String} {init : σ}

/-- Where a later token of a text begins in the stream, it does in the text. -/
theorem isNext_of_later (built : p.grammar.Built) {t : Stream} {place : Location}
    (later : (p.beginning text init).stream.Later t) (next : t.Next place) :
    IsNext text.toList place t.rest := by
  obtain ⟨patterns, prepared⟩ := built.prepared
  have cut := Lexicon.scan_cut prepared p.grammar.comments text
  have ending : t.ending = (p.grammar.scan text).ending := later.ending
  exact next.isNext (ending ▸ cut) later.rest

/-- What arises in an attempt shows its place in the text. -/
theorem Raises.placed (built : p.grammar.Built) {c : Call σ} {e : ParseError} {s : ParseState σ}
    (h : p.Raises c e s) (reached : p.Reaches ⟨0, none, .once id, p.beginning text init⟩ c) :
    p.Placed id text init s e := by
  have before : (p.beginning text init).stream.Later c.state.stream := Reaches.later reached
  have failed {t : Stream} {e : LexError} (later : (p.beginning text init).stream.Later t)
      (failed : t.ending = .failed e) : (p.grammar.scan text).ending = .failed e :=
    later.ending.symm.trans failed
  have behind := before.trans h.later
  cases h with
  | unscanned _ peek => exact .lex (failed before (Stream.failed_of_peek peek))
  | unplaced _ _ place => exact .lex (failed before (Stream.failed_of_place? place))
  | @guardError depth _ _ s child count e stream _ look =>
    have agrees := (Grammar.checkSound_lookAhead look).1
    cases p.grammar.checkErrors_lookAhead p.limit depth child count 0 s.stream e (congrArg Prod.fst look) with
    | lex ended => exact .lex (failed before ended)
    | tooDeep there => exact .tooDeep (isNext_of_later built behind (there.of_agrees agrees))
  | @missing _ within _ _ _ right _ _ s₂ _ _ _ _ runLeft runRight _ missing =>
    rcases p.missing_cases within right s₂.stream with
      ⟨e, found, ended⟩ | ⟨rule, described, place, t, agrees, next, found⟩
    · cases found.symm.trans missing
      exact .lex (failed (before.trans (runLeft.later.trans runRight.later)) ended)
    · cases found.symm.trans missing
      exact .syntaxError (isNext_of_later built behind next)
  | @tooDeep _ _ rule s _ _ _ _ _ error =>
    have agrees := (p.grammar.tooDeepAt_fault p.limit rule s.stream).1
    have fault := checkErrors_tooDeepAt p.grammar p.limit rule s.stream
    rw [error] at agrees fault
    cases fault with
    | lex ended => exact .lex (failed before ended)
    | tooDeep there => exact .tooDeep (isNext_of_later built behind (there.of_agrees agrees))
  | refused h _ begins run refusal =>
    have next := isNext_of_later built before (Stream.next_of_place? begins)
    exact .rejected reached h before.rest next run refusal

/-- **The places of errors are exact.** Whatever the grammar, the rule and the builder, an error of a whole
text shows the place of the first token that has not been consumed, or the end of the text if there is none.
A node that a named rule is refused shows the place of the token at which that rule was entered. -/
theorem parseRule_placed (built : p.grammar.Built) {e : ParseError} {s : ParseState σ}
    (h : p.parseRule id text init = (.error e, s)) :
    s.stream.rest <:+ (p.grammar.scan text).tokens ∧ p.Placed id text init s e := by
  rw [parseRule, parseAll_eq] at h
  rcases tried : p.tryParse 0 none id ⟨.ofScan (p.grammar.scan text), init⟩ with
    ⟨e | (_ | nodes), s₁⟩ <;>
    rw [tried] at h
  · -- the rule fails
    cases h
    obtain ⟨c, reached, raises⟩ := (run_of_tryParse tried).raised rfl
    exact ⟨((Reaches.later reached).trans raises.later).rest, raises.placed built reached⟩
  · -- the rule does not match
    have later := (run_of_tryParse tried).later
    rcases p.missing_cases none id s₁.stream with
      ⟨e, found, ended⟩ | ⟨rule, described, place, t, agrees, next, found⟩
    · simp only [andThen, found] at h
      cases h
      exact ⟨later.rest, .lex (later.ending.symm.trans ended)⟩
    · simp only [andThen, found] at h
      cases h
      have behind := later.trans agrees.later
      exact ⟨behind.rest, .syntaxError (isNext_of_later built behind next)⟩
  · have run := run_of_tryParse tried
    have later := run.later
    simp only [andThen] at h
    split at h
    · cases h
      rename_i peek
      exact ⟨later.rest, .lex (later.ending.symm.trans (Stream.failed_of_peek peek))⟩
    · -- tokens are left
      rename_i t stream peek
      cases h
      have agrees := Stream.agrees_of_peek peek
      have behind := later.trans agrees.later
      have next := (Stream.next_of_peek peek).of_agrees agrees
      obtain ⟨later, left⟩ : ∃ later, stream.rest = t :: later := by
        obtain ⟨-, found⟩ := Stream.rest_of_peek peek
        rw [← List.head?_eq_getElem?] at found
        exact List.head?_eq_some_iff.1 (agrees.rest ▸ found.symm)
      exact ⟨behind.rest, .trailingInput left (isNext_of_later built behind next)⟩
    · rename_i stream peek
      split at h
      · cases h
      · rename_i several
        split at h <;> cases h
        rename_i refusal
        have agrees := Stream.agrees_of_peek peek
        have nothing : stream.rest = [] := agrees.rest.trans (Stream.ended_of_peek peek).1
        have several : nodes.length ≠ 1 := by
          intro one
          obtain ⟨node, rfl⟩ := List.length_eq_one_iff.1 one
          exact several node rfl
        refine ⟨(later.trans agrees.later).rest,
          .wrapped (fun body named => ?_) run several nothing refusal⟩
        -- a named rule makes one node
        obtain ⟨tokens, -, builds⟩ := run.builds
        cases builds <;> simp_all

end

/-- A builder of nothing, which refuses the second pair. -/
def onePair : TreeBuilder Nat Unit where
  token _ := ()
  rule name _ pairs :=
    if name == "Pair" then (if pairs == 0 then .ok () else .error "a second pair", pairs + 1)
    else (.ok (), pairs)

/-- The second pair begins in the second line, behind a blank. -/
theorem parseRule_placed_pair :
    let g := (Grammar.ofDefinitions pairRules).toOption.get pairRules_build
    let p : Parser Nat Unit := ⟨g, onePair, 2⟩
    ∃ s, p.parseRule g.start "xy\n x y" 0 = (.error (.rejected "Pair" "a second pair" 2 2), s) ∧
      s.stream.rest <:+ (g.scan "xy\n x y").tokens ∧
      p.Placed g.start "xy\n x y" 0 s (.rejected "Pair" "a second pair" 2 2) := by
  intro g p
  have built : g.Built := Grammar.built_ofDefinitions (eq_ok_get pairRules_build)
  have refused : (p.parseRule g.start "xy\n x y" 0).1 = .error (.rejected "Pair" "a second pair" 2 2) := by
    decide +kernel
  have fails := Prod.ext (y := (_, (p.parseRule g.start "xy\n x y" 0).2)) refused rfl
  exact ⟨_, fails, parseRule_placed built fails⟩

end Parser

end Rowlang
