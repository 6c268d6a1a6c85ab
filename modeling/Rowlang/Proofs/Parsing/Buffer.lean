import Mathlib.Data.List.MinMax
import Rowlang.Proofs.Parsing.Positions

/-!
# The tokens that are held

A parse holds the tokens that it has scanned and not consumed. It scans one to go on, and as many as a guard
looks at; a check pays for each token that it passes, so it never looks further than its budget allowed. This
holds at every moment of a parse, within checks and attempts as behind them.

* `Grammar.greatestCount` : the greatest number of tokens that a guard of the grammar looks at;
* `Stream.Bounded` : no more tokens than that were ever held;
* `Grammar.bounded_lookAhead`, `Parser.Run.bounded` : checks and attempts keep to a bound;
* `Probe`, `Grammar.Probes` : the checks that a check makes in its course;
* `Parser.Holds` : the streams that a parse holds from its beginning to its end;
* `Parser.highWater_le_greatestCount` : they are bounded by the greatest count.
-/

namespace Rowlang
open Rowlang.Text Relation

/-! ## Counts -/

/-- The number of tokens that a rule looks at, if it is a guard. -/
def Shape.count : Shape → Nat
  | .ahead count => count
  | .guarded _ count => count
  | _ => 0

/-- The greatest number of tokens that a guard looks at; 0 if there is none. -/
def Grammar.greatestCount (g : Grammar) : Nat :=
  (g.rules.toList.map fun r => r.shape.count).foldr max 0

theorem Grammar.count_le {g : Grammar} {id : Nat} {s : Shape} (h : g.shape? id = some s) :
    s.count ≤ g.greatestCount := by
  obtain ⟨r, place, rfl⟩ := Option.map_eq_some_iff.1 h
  have listed : r ∈ g.rules.toList := Array.mem_toList_iff.2 (Array.mem_of_getElem? place)
  exact List.le_max_of_le' 0 (List.mem_map_of_mem listed) (Nat.le_refl _)

theorem Grammar.count_le_of_guard? {g : Grammar} {id child count : Nat}
    (h : g.guard? id = some (child, count)) : count ≤ g.greatestCount := by
  unfold guard? at h
  split at h
  · split at h <;> cases h
    exact count_le ‹g.shape? _ = some (.ahead count)›
  · cases h
    exact count_le ‹g.shape? _ = some (.guarded child count)›
  · cases h

/-! ## Streams -/

namespace Stream

/-- The tokens that are held are counted, and there were never more than `bound` of them. -/
structure Bounded (bound : Nat) (s : Stream) : Prop where
  buffered_le : s.buffered ≤ s.highWater
  highWater_le : s.highWater ≤ bound

variable {bound : Nat} {s s' : Stream}

theorem bounded_ofScan (bound : Nat) (scan : Scan) : (ofScan scan).Bounded bound :=
  ⟨Nat.le_refl 0, Nat.zero_le bound⟩

theorem Bounded.noteBuffered (h : s.Bounded bound) {n : Nat} (within : n ≤ bound) :
    (s.noteBuffered n).Bounded bound := by
  obtain ⟨buffered, highWater⟩ := h
  constructor
  · show max s.buffered n ≤ max s.highWater (max s.buffered n)
    omega
  · show max s.highWater (max s.buffered n) ≤ bound
    omega

theorem Bounded.peek (h : s.Bounded bound) {n : Nat} (near : n < bound) {found : Option Token}
    (peeked : s.peek n = .ok (found, s')) : s'.Bounded bound := by
  unfold Stream.peek at peeked
  split at peeked
  · cases peeked
    exact h.noteBuffered near
  · rename_i none
    have short : s.rest.length ≤ n := List.getElem?_eq_none_iff.1 none
    split at peeked <;> cases peeked
    exact h.noteBuffered (by omega)

theorem Bounded.advance (h : s.Bounded bound) : s.advance.Bounded bound :=
  ⟨Nat.le_trans (Nat.sub_le _ _) h.buffered_le, h.highWater_le⟩

theorem Bounded.place? (h : s.Bounded bound) (some_room : 0 < bound) {place : Location}
    (placed : s.place? = .ok (place, s')) : s'.Bounded bound := by
  unfold Stream.place? at placed
  split at placed <;> cases placed <;> exact h.peek some_room ‹_›

end Stream

theorem Stream.Bounded.tooDeepAt {bound : Nat} {s s' : Stream} (h : s.Bounded bound) (some_room : 0 < bound)
    {g : Grammar} {limit id : Nat} {e : ParseError} (error : g.tooDeepAt limit id s = (e, s')) :
    s'.Bounded bound := by
  unfold Grammar.tooDeepAt at error
  split at error <;> cases error
  · exact h
  · exact h.place? some_room ‹_›

/-! ## Checks -/

/-- A check and what follows it keep to a bound if both do, what follows having as much to spend as is left. -/
theorem bounded_andThen {bound budget index : Nat} {first : Finding × Stream}
    {next : Option (Nat × Nat) → Stream → Finding × Stream}
    (balanced : Balanced budget index first.1) (h : first.2.Bounded bound)
    (unfit : (next none first.2).2.Bounded bound)
    (fit : ∀ budget' index', budget' + index' = budget + index →
      (next (some (budget', index')) first.2).2.Bounded bound) : (andThen first next).2.Bounded bound := by
  obtain ⟨e | (_ | ⟨budget', index'⟩), s⟩ := first
  · exact h
  · exact unfit
  · exact fit _ _ (balanced.sum _ rfl)

theorem bounded_fitMany {bound : Nat} {check : Check}
    (zero : ∀ index s, check 0 index s = (.ok (some (0, index)), s))
    (balanced : ∀ budget index s, Balanced budget index (check budget index s).1)
    (each : ∀ {budget index : Nat} {s : Stream}, budget + index ≤ bound → s.Bounded bound →
      (check budget index s).2.Bounded bound) {budget index : Nat} {s : Stream} (room : budget + index ≤ bound)
    (h : s.Bounded bound) : (s.fitMany check budget index).2.Bounded bound := by
  rw [fitMany_eq (zero ..)]
  have first := each room h
  refine bounded_andThen (balanced ..) first first fun budget' index' same => ?_
  dsimp only
  split
  · exact bounded_fitMany zero balanced each (by omega) first
  · exact first
termination_by budget

/-- **A check looks no further** than from where it begins by its budget. -/
theorem Grammar.bounded_lookAhead (g : Grammar) {bound limit depth id budget index : Nat} {s : Stream}
    (room : budget + index ≤ bound) (h : s.Bounded bound) :
    (g.lookAhead limit depth id budget index s).2.Bounded bound := by
  cases budget with
  | zero =>
    rw [lookAhead_zero]
    exact h
  | succ budget =>
  cases shape : g.shape? id with
  | none =>
    rw [lookAhead_undefined shape]
    exact h
  | some made =>
  have each (c : Nat) (part : c ∈ made.parts) {budget index : Nat} {s : Stream} (room : budget + index ≤ bound)
      (h : s.Bounded bound) : (g.lookAhead limit depth c budget index s).2.Bounded bound :=
    have := g.rank_part_lt (limit - depth) shape part
    g.bounded_lookAhead room h
  have many (c : Nat) (part : c ∈ made.parts) {budget index : Nat} {s : Stream} (room : budget + index ≤ bound)
      (h : s.Bounded bound) : (s.fitMany (g.lookAhead limit depth c) budget index).2.Bounded bound :=
    bounded_fitMany (fun _ _ => lookAhead_zero _) (g.balanced_lookAhead limit depth c) (each c part) room h
  cases made with
  | token k =>
    rw [lookAhead_leaf shape]
    have near : index < bound := by omega
    split
    · exact h
    · exact h.peek near ‹s.peek index = _›
    · exact h.peek near ‹s.peek index = _›
  | seq left right =>
    have first := each left (by simp [Shape.parts]) room h
    rw [lookAhead_seqThen shape]
    exact bounded_andThen (g.balanced_lookAhead ..) first first fun _ _ same =>
      each right (by simp [Shape.parts]) (same.trans_le room) first
  | alt left right =>
    have first := each left (by simp [Shape.parts]) room h
    rw [lookAhead_alt shape]
    exact bounded_andThen (g.balanced_lookAhead ..) first (each right (by simp [Shape.parts]) room first)
      fun _ _ _ => first
  | opt child =>
    have first := each child (by simp [Shape.parts]) room h
    rw [lookAhead_opt shape]
    exact bounded_andThen (g.balanced_lookAhead ..) first first fun _ _ _ => first
  | star child =>
    rw [lookAhead_star shape]
    exact many child (by simp [Shape.parts]) room h
  | plus child =>
    have first := each child (by simp [Shape.parts]) room h
    rw [lookAhead_plus shape]
    exact bounded_andThen (g.balanced_lookAhead ..) first first fun _ _ same =>
      many child (by simp [Shape.parts]) (same.trans_le room) first
  | ahead count =>
    rw [lookAhead_ahead shape]
    exact h
  | guarded child count =>
    have guard : g.guard? id = some (child, count) := by simp [guard?, shape]
    rw [lookAhead_guard guard]
    exact each child (by simp [Shape.parts]) room h
  | named body =>
    by_cases shallow : depth < limit
    · have := g.rank_body_lt shallow id body
      rw [lookAhead_named shape shallow]
      exact g.bounded_lookAhead room h
    · rw [lookAhead_deep shape shallow]
      exact h.tooDeepAt (by omega) (Prod.mk.eta (p := g.tooDeepAt limit id s)).symm
termination_by g.rank (limit - depth) id

theorem Grammar.bounded_of_lookAhead {g : Grammar} {bound limit depth id budget index : Nat}
    {s s' : Stream} {found : Finding} (look : g.lookAhead limit depth id budget index s = (found, s'))
    (room : budget + index ≤ bound) (h : s.Bounded bound) : s'.Bounded bound := by
  have behind : (g.lookAhead limit depth id budget index s).2.Bounded bound := g.bounded_lookAhead room h
  rw [look] at behind
  exact behind

/-! ## Checks within checks -/

/-- A check that is made with what is left of a budget: whether the tokens from a place on fit a rule, or how
many rounds of it they fit. -/
structure Probe where
  depth : Nat
  attempt : Attempt
  budget : Nat
  index : Nat
  stream : Stream

/-- What a check finds, and the stream behind it. -/
def Grammar.probe (g : Grammar) (limit : Nat) (q : Probe) : Finding × Stream :=
  match q.attempt with
  | .once id => g.lookAhead limit q.depth id q.budget q.index q.stream
  | .many child => q.stream.fitMany (g.lookAhead limit q.depth child) q.budget q.index

/-- The checks that a check makes, one for each place where the rule is one of others. A check that has spent
its budget makes none. -/
inductive Grammar.Probes (g : Grammar) (limit : Nat) : Probe → Probe → Prop
  | left {d id l r b i s} (h : g.shape? id = some (.seq l r)) :
      Probes g limit ⟨d, .once id, b + 1, i, s⟩ ⟨d, .once l, b + 1, i, s⟩
  | right {d id l r b i s b' i' s'} (h : g.shape? id = some (.seq l r))
      (fit : g.lookAhead limit d l (b + 1) i s = (.ok (some (b', i')), s')) :
      Probes g limit ⟨d, .once id, b + 1, i, s⟩ ⟨d, .once r, b', i', s'⟩
  | first {d id l r b i s} (h : g.shape? id = some (.alt l r)) :
      Probes g limit ⟨d, .once id, b + 1, i, s⟩ ⟨d, .once l, b + 1, i, s⟩
  | second {d id l r b i s s'} (h : g.shape? id = some (.alt l r))
      (unfit : g.lookAhead limit d l (b + 1) i s = (.ok none, s')) :
      Probes g limit ⟨d, .once id, b + 1, i, s⟩ ⟨d, .once r, b + 1, i, s'⟩
  | opt {d id c b i s} (h : g.shape? id = some (.opt c)) :
      Probes g limit ⟨d, .once id, b + 1, i, s⟩ ⟨d, .once c, b + 1, i, s⟩
  | star {d id c b i s} (h : g.shape? id = some (.star c)) :
      Probes g limit ⟨d, .once id, b + 1, i, s⟩ ⟨d, .many c, b + 1, i, s⟩
  | plus {d id c b i s} (h : g.shape? id = some (.plus c)) :
      Probes g limit ⟨d, .once id, b + 1, i, s⟩ ⟨d, .once c, b + 1, i, s⟩
  | plusMore {d id c b i s b' i' s'} (h : g.shape? id = some (.plus c))
      (fit : g.lookAhead limit d c (b + 1) i s = (.ok (some (b', i')), s')) :
      Probes g limit ⟨d, .once id, b + 1, i, s⟩ ⟨d, .many c, b', i', s'⟩
  | guarded {d id c count b i s} (h : g.shape? id = some (.guarded c count)) :
      Probes g limit ⟨d, .once id, b + 1, i, s⟩ ⟨d, .once c, b + 1, i, s⟩
  | named {d id body b i s} (h : g.shape? id = some (.named body)) (shallow : d < limit) :
      Probes g limit ⟨d, .once id, b + 1, i, s⟩ ⟨d + 1, .once body, b + 1, i, s⟩
  | round {d c b i s} : Probes g limit ⟨d, .many c, b + 1, i, s⟩ ⟨d, .once c, b + 1, i, s⟩
  /-- rounds go on behind one that has spent something -/
  | more {d c b i s b' i' s'} (fit : g.lookAhead limit d c (b + 1) i s = (.ok (some (b', i')), s'))
      (spent : b' < b + 1) : Probes g limit ⟨d, .many c, b + 1, i, s⟩ ⟨d, .many c, b', i', s'⟩

namespace Probe

variable {g : Grammar} {limit bound : Nat} {q q' : Probe}

/-- What a check may spend and the place where it begins have the same sum for all checks within it. -/
theorem sum_of_probes (h : g.Probes limit q q') : q'.budget + q'.index = q.budget + q.index := by
  cases h with
  | right _ fit | plusMore _ fit | more fit =>
    exact (g.balanced_lookAhead ..).sum _ (congrArg Prod.fst fit)
  | _ => rfl

theorem sum_of_reached (h : ReflTransGen (g.Probes limit) q q') :
    q'.budget + q'.index = q.budget + q.index := by
  induction h with
  | refl => rfl
  | tail _ step ih => exact (sum_of_probes step).trans ih

theorem balanced_probe (g : Grammar) (limit : Nat) (q : Probe) :
    Balanced q.budget q.index (g.probe limit q).1 := by
  obtain ⟨depth, id | child, budget, index, s⟩ := q
  · exact g.balanced_lookAhead ..
  · exact balanced_fitMany (fun _ _ => Grammar.lookAhead_zero _) (g.balanced_lookAhead limit depth child) ..

theorem bounded_probe (room : q.budget + q.index ≤ bound) (h : q.stream.Bounded bound) :
    (g.probe limit q).2.Bounded bound := by
  obtain ⟨depth, id | child, budget, index, s⟩ := q
  · exact g.bounded_lookAhead room h
  · exact bounded_fitMany (fun _ _ => Grammar.lookAhead_zero _) (g.balanced_lookAhead limit depth child)
      g.bounded_lookAhead room h

theorem bounded_of_probes (step : g.Probes limit q q') (room : q.budget + q.index ≤ bound)
    (h : q.stream.Bounded bound) : q'.stream.Bounded bound := by
  cases step with
  | right _ found | second _ found | plusMore _ found | more found =>
    exact Grammar.bounded_of_lookAhead found room h
  | _ => exact h

theorem bounded_of_reached (reached : ReflTransGen (g.Probes limit) q q')
    (room : q.budget + q.index ≤ bound) (h : q.stream.Bounded bound) : q'.stream.Bounded bound := by
  induction reached with
  | refl => exact h
  | tail reached step ih => exact bounded_of_probes step ((sum_of_reached reached).trans_le room) ih

end Probe

/-! ## Attempts -/

namespace Parser

variable {σ ν : Type} {p : Parser σ ν} {bound : Nat}

theorem bounded_of_missing {within : Option Nat} {expected : Nat} {s t : Stream} {e : ParseError}
    (missed : p.missing within expected s = (e, t)) (some_room : 0 < bound) (h : s.Bounded bound) :
    t.Bounded bound := by
  unfold missing at missed
  split at missed <;> cases missed
  · exact h
  · exact h.peek some_room ‹_›

/-- **An attempt** scans one token to go on, and no more than a guard looks at. -/
theorem Run.bounded {depth : Nat} {within : Option Nat} {a : Attempt} {s s' : ParseState σ} {o : Outcome ν}
    (run : p.Run depth within a s o s') (some_room : 0 < bound) (guards : p.grammar.greatestCount ≤ bound)
    (h : s.stream.Bounded bound) : s'.stream.Bounded bound := by
  have checked {child count depth found t} {s : Stream} {id : Nat}
      (guard : p.grammar.guard? id = some (child, count))
      (look : p.grammar.lookAhead p.limit depth child count 0 s = (found, t)) (h : s.Bounded bound) :
      t.Bounded bound :=
    Grammar.bounded_of_lookAhead look ((Grammar.count_le_of_guard? guard).trans guards) h
  induction run with
  | undefined | unscanned | ahead | unplaced => exact h
  | token _ peek => exact (h.peek some_room peek).advance
  | otherToken _ peek => exact h.peek some_room peek
  | guardError guard look | guardClosed guard look => exact checked guard look h
  | guardOpen guard look _ ih => exact ih (checked guard look h)
  | seqMissing _ _ _ _ _ missing ihLeft ihRight =>
    exact bounded_of_missing missing some_room (ihRight (ihLeft h))
  | tooDeep _ _ error => exact h.tooDeepAt some_room error
  | namedBody _ _ begins _ _ ih | named _ _ begins _ _ ih | refused _ _ begins _ _ ih =>
    exact ih (h.place? some_room begins)
  | seqBoth _ _ _ _ first second | seqError _ _ _ _ first second | seqNone _ _ _ _ _ first second
  | altRight _ _ _ first second | plusError _ _ _ first second | plus _ _ _ first second
  | round _ _ _ first second | laterError _ _ _ first second => exact second (first h)
  | seqLeft _ _ _ _ ih | altLeft _ _ _ ih | optError _ _ ih | opt _ _ ih | star _ _ ih | plusFirst _ _ _ ih
  | roundError _ ih | noRound _ ih | lastRound _ _ ih => exact ih h

/-- An attempt is made where no more is held than the bound. -/
theorem Calls.bounded {c c' : Call σ} (call : p.Calls c c') (some_room : 0 < bound)
    (guards : p.grammar.greatestCount ≤ bound) (h : c.state.stream.Bounded bound) :
    c'.state.stream.Bounded bound := by
  cases call with
  | guarded guard look =>
    exact Grammar.bounded_of_lookAhead look ((Grammar.count_le_of_guard? guard).trans guards) h
  | seqRight _ _ run | altRight _ run | plusMore _ run | rounds run =>
    exact run.bounded some_room guards h
  | body _ _ begins => exact h.place? some_room begins
  | seqLeft | altLeft | opt | star | plusFirst | round => exact h

theorem Reaches.bounded {c c' : Call σ} (reached : p.Reaches c c') (some_room : 0 < bound)
    (guards : p.grammar.greatestCount ≤ bound) (h : c.state.stream.Bounded bound) :
    c'.state.stream.Bounded bound := by
  induction reached with
  | refl => exact h
  | tail _ call ih => exact call.bounded some_room guards ih

/-! ## Whole texts -/

theorem bounded_parseAll {id : Nat} {s : ParseState σ} (some_room : 0 < bound)
    (guards : p.grammar.greatestCount ≤ bound) (h : s.stream.Bounded bound) :
    (p.parseAll id s).2.stream.Bounded bound := by
  rw [parseAll_eq]
  rcases tried : p.tryParse 0 none id s with ⟨e | (_ | nodes), s'⟩
  all_goals have behind := (run_of_tryParse tried).bounded some_room guards h
  · exact behind
  · exact bounded_of_missing (Prod.mk.eta (p := p.missing none id s'.stream)).symm some_room behind
  · simp only [andThen]
    split
    · exact behind
    · exact behind.peek some_room ‹_›
    · split
      · exact behind.peek some_room ‹_›
      · split <;> exact behind.peek some_room ‹_›

/-- The streams that a parse of a text by the rule `id` holds: before and behind every attempt, before and
behind every check, those within others included, and behind it all. -/
inductive Holds (p : Parser σ ν) (id : Nat) (text : String) (init : σ) : Stream → Prop
  | before {c} (reached : p.Reaches ⟨0, none, .once id, p.beginning text init⟩ c) :
      Holds p id text init c.state.stream
  | behind {c o s} (reached : p.Reaches ⟨0, none, .once id, p.beginning text init⟩ c)
      (run : p.Run c.depth c.within c.attempt c.state o s) : Holds p id text init s.stream
  | checking {depth within guard s child count q}
      (reached : p.Reaches ⟨0, none, .once id, p.beginning text init⟩ ⟨depth, within, .once guard, s⟩)
      (guards : p.grammar.guard? guard = some (child, count))
      (probes : ReflTransGen (p.grammar.Probes p.limit) ⟨depth, .once child, count, 0, s.stream⟩ q) :
      Holds p id text init q.stream
  | checked {depth within guard s child count q}
      (reached : p.Reaches ⟨0, none, .once id, p.beginning text init⟩ ⟨depth, within, .once guard, s⟩)
      (guards : p.grammar.guard? guard = some (child, count))
      (probes : ReflTransGen (p.grammar.Probes p.limit) ⟨depth, .once child, count, 0, s.stream⟩ q) :
      Holds p id text init (p.grammar.probe p.limit q).2
  | ended : Holds p id text init (p.parseRule id text init).2.stream

theorem Holds.bounded {id : Nat} {text : String} {init : σ} {t : Stream} (h : p.Holds id text init t)
    (some_room : 0 < bound) (enough : p.grammar.greatestCount ≤ bound) : t.Bounded bound := by
  have beginning : (p.beginning text init).stream.Bounded bound := Stream.bounded_ofScan ..
  cases h with
  | before reached => exact Reaches.bounded reached some_room enough beginning
  | behind reached run => exact run.bounded some_room enough (Reaches.bounded reached some_room enough beginning)
  | checking reached guards probes =>
    have room := (Grammar.count_le_of_guard? guards).trans enough
    exact Probe.bounded_of_reached probes room (Reaches.bounded reached some_room enough beginning)
  | checked reached guards probes =>
    have room := (Grammar.count_le_of_guard? guards).trans enough
    refine Probe.bounded_probe ((Probe.sum_of_reached probes).trans_le room) ?_
    exact Probe.bounded_of_reached probes room (Reaches.bounded reached some_room enough beginning)
  | ended => exact bounded_parseAll some_room enough beginning

/-- **What is held is bounded.** At every moment of a parse, whatever the grammar, the rule and the text, there
were never more tokens held than one, or than a guard of the grammar looks at. A check pays for every token that
it passes: what it may still spend and the place that it has come to have the same sum in all checks within it,
and in what these find. -/
theorem highWater_le_greatestCount (p : Parser σ ν) (id : Nat) (text : String) (init : σ) :
    (∀ t, p.Holds id text init t → t.highWater ≤ max 1 p.grammar.greatestCount) ∧
    ∀ q q', ReflTransGen (p.grammar.Probes p.limit) q q' →
      q'.budget + q'.index = q.budget + q.index ∧
      ∀ budget index, (p.grammar.probe p.limit q').1 = .ok (some (budget, index)) →
        budget + index = q.budget + q.index := by
  refine ⟨fun t held => ?_, fun q q' reached => ⟨Probe.sum_of_reached reached, fun budget index fit => ?_⟩⟩
  · have some_room : 0 < max 1 p.grammar.greatestCount := by omega
    exact (held.bounded some_room (Nat.le_max_right ..)).highWater_le
  · have sum := (Probe.balanced_probe p.grammar p.limit q').sum _ fit
    exact sum.trans (Probe.sum_of_reached reached)

open Body in
/-- A call, if the next two tokens are a name and a bracket, or else a name. -/
def callRules : List Definition := [
  ⟨"Step", alt (name "Call") (name "Key")⟩,
  ⟨"Call", sequence (ahead 2) [name "Name", literal "(", literal ")"]⟩,
  ⟨"Key", name "Name"⟩]

theorem callRules_build : (Grammar.ofDefinitions callRules).toOption.isSome = true := by
  decide +kernel

/-- The two tokens that the guard of the call looks at are held, and both are paid for. -/
theorem highWater_le_greatestCount_call :
    let g := (Grammar.ofDefinitions callRules).toOption.get callRules_build
    let p : Parser Unit ParseTree := ⟨g, .collector, 9⟩
    let s := (p.parseRule g.start "now()" ()).2.stream
    let call : Probe := ⟨2, .once 9, 2, 0, .ofScan (g.scan "now()")⟩
    let first : Probe := { call with attempt := .once 5 }
    (g.greatestCount = 2 ∧ s.highWater = 2 ∧ s.highWater ≤ max 1 g.greatestCount) ∧
      g.Probes 9 call first ∧ (g.probe 9 first).1 = .ok (some (1, 1)) ∧ 1 + 1 = call.budget + call.index := by
  intro g p s call first
  obtain ⟨bounded, paid⟩ := highWater_le_greatestCount p g.start "now()" ()
  have step : g.Probes 9 call first := .left (by decide +kernel : g.shape? 9 = some (.seq 5 8))
  have found : (g.probe 9 first).1 = .ok (some (1, 1)) := by decide +kernel
  exact ⟨⟨by decide +kernel, by decide +kernel, bounded s .ended⟩, step, found,
    (paid call first (.single step)).2 1 1 found⟩

end Parser

end Rowlang
