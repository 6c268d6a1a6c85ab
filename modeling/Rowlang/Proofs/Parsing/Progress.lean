import Rowlang.Proofs.Parsing.Ebnf

/-!
# How far attempts reach

Statements about all runs of an attempt over a text that can be scanned to its end, given the tokens
in front of it. Errors of nesting too deeply and of refused nodes are left aside.

* `Parser.Ends` : the attempt matches, and leaves some tokens of which it is known what they are;
* `Parser.Refuses` : the attempt does not match;
* `ends_seq`, `refuses_alt` and the like : how the rules of each shape follow from their parts;
* `Grammar.lookAhead_two` : what a check of two tokens finds.
-/

namespace Rowlang
open Rowlang.Text

/-- An error that tells nothing about the form of a text. -/
inductive ParseError.Excused : ParseError → Prop
  | tooDeep {rule limit place} : Excused (.tooDeep rule limit place)
  | rejected {rule reason line column} : Excused (.rejected rule reason line column)

/-- The outcome is an error that tells nothing about the form of a text. -/
def Parser.Aborts {ν : Type} (o : Outcome ν) : Prop := ∃ e, o = .error e ∧ e.Excused

def Parser.TooDeep {ν : Type} (o : Outcome ν) : Prop :=
  ∃ rule limit place, o = .error (.tooDeep rule limit place)

namespace Stream

/-- The text can be scanned to its end. -/
def Complete (s : Stream) : Prop := ∃ place, s.ending = .complete place

variable {s : Stream}

theorem Complete.of_agrees {s' : Stream} (h : s.Complete) (agrees : s.Agrees s') : s'.Complete := by
  obtain ⟨place, ending⟩ := h
  exact ⟨place, agrees.ending.trans ending⟩

theorem Complete.peek (h : s.Complete) (n : Nat) : ∃ s', s.peek n = .ok (s.rest[n]?, s') := by
  obtain ⟨place, ending⟩ := h
  unfold Stream.peek
  split
  · exact ⟨_, by rw [‹s.rest[n]? = _›]⟩
  · rw [ending]
    exact ⟨_, by rw [‹s.rest[n]? = _›]⟩

theorem Complete.place? (h : s.Complete) : ∃ place s', s.place? = .ok (place, s') := by
  obtain ⟨s', peek⟩ := h.peek 0
  unfold Stream.place?
  rw [peek]
  cases s.rest[0]? with
  | none => exact ⟨_, _, rfl⟩
  | some t => exact ⟨_, _, rfl⟩

end Stream

/-! ## Checks of one token or two -/

namespace Grammar

variable {g : Grammar} {limit depth id : Nat} {s : Stream}

theorem lookAhead_zero (index : Nat) :
    g.lookAhead limit depth id 0 index s = (.ok (some (0, index)), s) := by
  rw [lookAhead, if_pos rfl]

theorem lookAhead_token {k budget : Nat} (h : g.shape? id = some (.token k)) (complete : s.Complete)
    (index : Nat) : ∃ s', s.Agrees s' ∧ g.lookAhead limit depth id (budget + 1) index s =
      (.ok (if s.rest[index]?.map (·.pattern) = some k then some (budget, index + 1) else none),
        s') := by
  obtain ⟨s', peek⟩ := complete.peek index
  refine ⟨s', Stream.agrees_of_peek peek, ?_⟩
  rw [lookAhead, if_neg (Nat.succ_ne_zero _)]
  split <;> rename_i h' <;> cases h.symm.trans h'
  rw [peek]
  cases s.rest[index]? with
  | none => rfl
  | some t => by_cases same : t.pattern = k <;> simp [same]

theorem lookAhead_seq {left right budget index : Nat} (h : g.shape? id = some (.seq left right)) :
    g.lookAhead limit depth id (budget + 1) index s =
      match g.lookAhead limit depth left (budget + 1) index s with
      | (.error e, s) => (.error e, s)
      | (.ok none, s) => (.ok none, s)
      | (.ok (some (budget, index)), s) => g.lookAhead limit depth right budget index s := by
  rw [lookAhead, if_neg (Nat.succ_ne_zero _)]
  split <;> rename_i h' <;> cases h.symm.trans h'
  rfl

/-- The check of two tokens, if the rule begins with two. -/
theorem lookAhead_two {left right left' right' k k' : Nat} (h : g.shape? id = some (.seq left right))
    (first : g.shape? left = some (.token k)) (h' : g.shape? right = some (.seq left' right'))
    (second : g.shape? left' = some (.token k')) (complete : s.Complete) :
    ∃ s', g.lookAhead limit depth id 2 0 s = (.ok (if (s.rest.take 2).map (·.pattern) = [k, k']
      then some (0, 2) else none), s') := by
  obtain ⟨s₁, agrees, look⟩ := @lookAhead_token g limit depth left s k 1 first complete 0
  rw [lookAhead_seq h, look]
  match hs : s.rest with
  | [] => exact ⟨s₁, by simp⟩
  | t :: rest =>
    by_cases same : t.pattern = k
    · obtain ⟨s₂, -, look'⟩ := @lookAhead_token g limit depth left' s₁ k' 0 second
        (complete.of_agrees agrees) 1
      rw [agrees.rest, hs] at look'
      simp only [List.getElem?_cons_zero, Option.map_some, same, if_true]
      refine ⟨s₂, ?_⟩
      simp only [Nat.zero_add]
      rw [lookAhead_seq h', look']
      cases rest with
      | nil => simp
      | cons t' rest =>
        by_cases same' : t'.pattern = k'
        · simp [same, same', lookAhead_zero]
        · simp [same']
    · exact ⟨s₁, by simp [same]⟩

end Grammar

namespace Parser

variable {σ ν : Type} {p : Parser σ ν} {depth : Nat} {within : Option Nat} {a : Attempt} {id : Nat}
  {s s' : ParseState σ} {o : Outcome ν} {w v : List Token} {R Q : List Token → Prop}

/-- With the tokens `w` to come, the attempt matches, and `R` holds of the tokens it leaves. -/
structure Ends (p : Parser σ ν) (depth : Nat) (a : Attempt) (w : List Token)
    (R : List Token → Prop) : Prop where
  outcome : ∀ {within s o s'}, s.stream.rest = w → s.stream.Complete →
    p.Run depth within a s o s' → Aborts o ∨ ∃ nodes, o = .ok (some nodes) ∧ R s'.stream.rest

/-- With the tokens `w` to come, the attempt does not match; then the builder has made nothing that it
could have refused. -/
structure Refuses (p : Parser σ ν) (depth : Nat) (a : Attempt) (w : List Token) : Prop where
  outcome : ∀ {within s o s'}, s.stream.rest = w → s.stream.Complete →
    p.Run depth within a s o s' → TooDeep o ∨ o = .ok none

theorem aborts_iff {e : ParseError} : Aborts (.error e : Outcome ν) ↔ e.Excused := by
  constructor
  · rintro ⟨e', same, excused⟩
    cases same
    exact excused
  · exact fun excused => ⟨e, rfl, excused⟩

theorem not_aborts {nodes : Option (List ν)} : ¬ Aborts (.ok nodes : Outcome ν) := by
  rintro ⟨e, same, -⟩
  cases same

theorem TooDeep.aborts (h : TooDeep o) : Aborts o := by
  obtain ⟨rule, limit, place, rfl⟩ := h
  exact ⟨_, rfl, .tooDeep⟩

theorem not_tooDeep {nodes : Option (List ν)} : ¬ TooDeep (.ok nodes : Outcome ν) := by
  rintro ⟨rule, limit, place, same⟩
  cases same

theorem Ends.mono (h : p.Ends depth a w R) (weaker : ∀ v, R v → Q v) : p.Ends depth a w Q := by
  refine ⟨fun rest complete whole => ?_⟩
  rcases h.outcome rest complete whole with aborts | ⟨nodes, same, left⟩
  · exact .inl aborts
  · exact .inr ⟨nodes, same, weaker _ left⟩

/-- A run of an attempt that ends, if it is not an error, matches. -/
theorem Ends.of_ok {r : Option (List ν)} (h : p.Ends depth a w R) (rest : s.stream.rest = w)
    (complete : s.stream.Complete) (run : p.Run depth within a s (.ok r) s') :
    (∃ nodes, r = some nodes) ∧ R s'.stream.rest ∧ s'.stream.Complete := by
  rcases h.outcome rest complete run with aborts | ⟨nodes, same, left⟩
  · exact (not_aborts aborts).elim
  · obtain ⟨place, ending⟩ := complete
    exact ⟨⟨nodes, Except.ok.inj same⟩, left, place, run.ending.trans ending⟩

theorem Refuses.of_ok {r : Option (List ν)} (h : p.Refuses depth a w) (rest : s.stream.rest = w)
    (complete : s.stream.Complete) (run : p.Run depth within a s (.ok r) s') :
    r = none ∧ s'.stream.rest = w ∧ s'.stream.Complete := by
  rcases h.outcome rest complete run with deep | same
  · exact (not_tooDeep deep).elim
  · obtain rfl := Except.ok.inj same
    obtain ⟨place, ending⟩ := complete
    have unmoved : s'.stream.rest = s.stream.rest := run.builds
    exact ⟨rfl, unmoved.trans rest, place, run.ending.trans ending⟩

theorem Ends.of_error {e : ParseError} (h : p.Ends depth a w R) (rest : s.stream.rest = w)
    (complete : s.stream.Complete) (run : p.Run depth within a s (.error e) s') : e.Excused := by
  rcases h.outcome rest complete run with aborts | ⟨nodes, same, left⟩
  · exact aborts_iff.1 aborts
  · cases same

theorem Refuses.of_error {e : ParseError} (h : p.Refuses depth a w) (rest : s.stream.rest = w)
    (complete : s.stream.Complete) (run : p.Run depth within a s (.error e) s') :
    TooDeep (.error e : Outcome ν) := by
  rcases h.outcome rest complete run with deep | same
  · exact deep
  · cases same

/-- Of a whole text that the rule consumes, only excused errors are left. -/
theorem Ends.excused {e : ParseError} (h : p.Ends 0 (.once id) s.stream.rest (· = []))
    (complete : s.stream.Complete) (failed : p.parseAll id s = (.error e, s')) : e.Excused := by
  unfold parseAll at failed
  split at failed
  · obtain ⟨⟨⟩, -⟩ := Prod.mk.inj failed
    exact h.of_error rfl complete (run_of_tryParse ‹_›)
  · obtain ⟨⟨nodes, same⟩, -⟩ := h.of_ok rfl complete (run_of_tryParse ‹_›)
    cases same
  · obtain ⟨-, ended, complete⟩ := h.of_ok rfl complete (run_of_tryParse ‹_›)
    obtain ⟨ahead, peek⟩ := complete.peek 0
    rw [ended] at peek
    split at failed <;> rename_i peek' <;> cases peek.symm.trans peek'
    split at failed
    · simp at failed
    · dsimp only at failed
      split at failed <;> simp only [Prod.mk.injEq, Except.error.injEq, reduceCtorEq, false_and] at failed
      obtain ⟨rfl, -⟩ := failed
      exact .rejected

/-! ## Tokens -/

theorem ends_token {t : Token} (h : p.grammar.shape? id = some (.token t.pattern)) :
    p.Ends depth (.once id) (t :: v) (· = v) := by
  refine ⟨fun {_ s _ _} rest complete whole => ?_⟩
  obtain ⟨ahead, peek⟩ := complete.peek 0
  rcases whole.of_token h with ⟨e, peek'⟩ | ⟨found, stream, peek', ⟨t', rfl, -, rfl, rfl⟩ | ⟨other, -⟩⟩
  · cases peek.symm.trans peek'
  · refine .inr ⟨_, rfl, ?_⟩
    simp [Stream.advance, (Stream.rest_of_peek peek').1, rest]
  · cases peek.symm.trans peek'
    exact absurd rfl (other t (by simp [rest]))

theorem refuses_token {pattern : Nat} (h : p.grammar.shape? id = some (.token pattern))
    (other : ∀ t ∈ w.head?, t.pattern ≠ pattern) : p.Refuses depth (.once id) w := by
  refine ⟨fun {_ s _ _} rest complete whole => ?_⟩
  obtain ⟨ahead, peek⟩ := complete.peek 0
  rcases whole.of_token h with ⟨e, peek'⟩ | ⟨found, stream, peek', ⟨t', rfl, same, -⟩ | ⟨-, none⟩⟩
  · cases peek.symm.trans peek'
  · refine absurd same (other t' ?_)
    rw [← rest, List.head?_eq_getElem?]
    exact (Stream.rest_of_peek peek').2.symm
  · exact .inr none

/-! ## Sequences and alternatives -/

theorem ends_seq {left right : Nat} (h : p.grammar.shape? id = some (.seq left right))
    (plain : p.grammar.guard? id = none) (first : p.Ends depth (.once left) w R)
    (second : ∀ v, R v → p.Ends depth (.once right) v Q) : p.Ends depth (.once id) w Q := by
  refine ⟨fun {_ s _ _} rest complete whole => ?_⟩
  rcases whole.of_seq h plain with ⟨run, unmatched⟩ | ⟨nodes, s₁, runLeft, later⟩
  · rcases first.outcome rest complete run with aborts | ⟨nodes, same, -⟩
    · exact .inl aborts
    · exact absurd same (unmatched nodes)
  · obtain ⟨-, left, complete⟩ := first.of_ok rest complete runLeft
    rcases later with ⟨more, rfl, run⟩ | ⟨e, rfl, run⟩ | ⟨run, -⟩ | ⟨s₂, run, -⟩
    · obtain ⟨-, left, -⟩ := (second _ left).of_ok rfl complete run
      exact .inr ⟨_, rfl, left⟩
    · exact .inl (aborts_iff.2 ((second _ left).of_error rfl complete run))
    · obtain ⟨⟨nodes, same⟩, -⟩ := (second _ left).of_ok rfl complete run
      cases same
    · obtain ⟨⟨nodes, same⟩, -⟩ := (second _ left).of_ok rfl complete run
      cases same

theorem refuses_seq {left right : Nat} (h : p.grammar.shape? id = some (.seq left right))
    (plain : p.grammar.guard? id = none) (first : p.Refuses depth (.once left) w) :
    p.Refuses depth (.once id) w := by
  refine ⟨fun {_ s _ _} rest complete whole => ?_⟩
  rcases whole.of_seq h plain with ⟨run, -⟩ | ⟨nodes, s₁, runLeft, -⟩
  · exact first.outcome rest complete run
  · obtain ⟨same, -⟩ := first.of_ok rest complete runLeft
    cases same

theorem ends_altLeft {left right : Nat} (h : p.grammar.shape? id = some (.alt left right))
    (first : p.Ends depth (.once left) w R) : p.Ends depth (.once id) w R := by
  refine ⟨fun {_ s _ _} rest complete whole => ?_⟩
  rcases whole.of_alt h with ⟨-, run⟩ | ⟨s₁, runLeft, -⟩
  · exact first.outcome rest complete run
  · obtain ⟨⟨nodes, same⟩, -⟩ := first.of_ok rest complete runLeft
    cases same

theorem ends_altRight {left right : Nat} (h : p.grammar.shape? id = some (.alt left right))
    (first : p.Refuses depth (.once left) w) (second : p.Ends depth (.once right) w R) :
    p.Ends depth (.once id) w R := by
  refine ⟨fun {_ s _ _} rest complete whole => ?_⟩
  rcases whole.of_alt h with ⟨decided, run⟩ | ⟨s₁, runLeft, run⟩
  · rcases first.outcome rest complete run with deep | same
    · exact .inl deep.aborts
    · exact absurd same decided
  · obtain ⟨-, rest, complete⟩ := first.of_ok rest complete runLeft
    exact second.outcome rest complete run

theorem refuses_alt {left right : Nat} (h : p.grammar.shape? id = some (.alt left right))
    (first : p.Refuses depth (.once left) w) (second : p.Refuses depth (.once right) w) :
    p.Refuses depth (.once id) w := by
  refine ⟨fun {_ s _ _} rest complete whole => ?_⟩
  rcases whole.of_alt h with ⟨-, run⟩ | ⟨s₁, runLeft, run⟩
  · exact first.outcome rest complete run
  · obtain ⟨-, rest, complete⟩ := first.of_ok rest complete runLeft
    exact second.outcome rest complete run

/-! ## Parts that may be left out or repeated -/

theorem ends_opt {child : Nat} (h : p.grammar.shape? id = some (.opt child))
    (given : p.Ends depth (.once child) w R) : p.Ends depth (.once id) w R := by
  refine ⟨fun {_ s _ _} rest complete whole => ?_⟩
  rcases whole.of_opt h with ⟨e, rfl, run⟩ | ⟨nodes, rfl, run⟩
  · exact .inl (aborts_iff.2 (given.of_error rest complete run))
  · exact .inr ⟨_, rfl, (given.of_ok rest complete run).2.1⟩

theorem ends_opt_none {child : Nat} (h : p.grammar.shape? id = some (.opt child))
    (none : p.Refuses depth (.once child) w) : p.Ends depth (.once id) w (· = w) := by
  refine ⟨fun {_ s _ _} rest complete whole => ?_⟩
  rcases whole.of_opt h with ⟨e, rfl, run⟩ | ⟨nodes, rfl, run⟩
  · exact .inl (none.of_error rest complete run).aborts
  · exact .inr ⟨_, rfl, (none.of_ok rest complete run).2.1⟩

theorem ends_star {child : Nat} (h : p.grammar.shape? id = some (.star child))
    (rounds : p.Ends depth (.many child) w R) : p.Ends depth (.once id) w R :=
  ⟨fun rest complete whole => rounds.outcome rest complete (whole.of_star h)⟩

theorem ends_many_nil {child : Nat} (none : p.Refuses depth (.once child) w) :
    p.Ends depth (.many child) w (· = w) := by
  refine ⟨fun {_ s _ _} rest complete whole => ?_⟩
  rcases whole.of_many with ⟨e, rfl, run⟩ | ⟨rfl, run⟩ | ⟨nodes, s₁, run, -⟩
  · exact .inl (none.of_error rest complete run).aborts
  · exact .inr ⟨_, rfl, (none.of_ok rest complete run).2.1⟩
  · obtain ⟨same, -⟩ := none.of_ok rest complete run
    cases same

theorem ends_many_cons {child : Nat} (first : p.Ends depth (.once child) w R)
    (shorter : ∀ v, R v → v.length < w.length)
    (later : ∀ v, R v → p.Ends depth (.many child) v Q) : p.Ends depth (.many child) w Q := by
  refine ⟨fun {_ s _ _} rest complete whole => ?_⟩
  rcases whole.of_many with ⟨e, rfl, run⟩ | ⟨rfl, run⟩ | ⟨nodes, s₁, run, more⟩
  · exact .inl (aborts_iff.2 (first.of_error rest complete run))
  · obtain ⟨⟨nodes, same⟩, -⟩ := first.of_ok rest complete run
    cases same
  · obtain ⟨-, left, complete⟩ := first.of_ok rest complete run
    rcases more with unmoved | ⟨e, rfl, run⟩ | ⟨more, rfl, run⟩
    · rw [rest] at unmoved
      exact absurd (shorter _ left) unmoved
    · exact .inl (aborts_iff.2 ((later _ left).of_error rfl complete run))
    · exact .inr ⟨_, rfl, ((later _ left).of_ok rfl complete run).2.1⟩

theorem ends_plus {child : Nat} (h : p.grammar.shape? id = some (.plus child))
    (first : p.Ends depth (.once child) w R)
    (later : ∀ v, R v → p.Ends depth (.many child) v Q) : p.Ends depth (.once id) w Q := by
  refine ⟨fun {_ s _ _} rest complete whole => ?_⟩
  rcases whole.of_plus h with ⟨run, unmatched⟩ | ⟨nodes, s₁, run, more⟩
  · rcases first.outcome rest complete run with aborts | ⟨nodes, same, -⟩
    · exact .inl aborts
    · exact absurd same (unmatched nodes)
  · obtain ⟨-, left, complete⟩ := first.of_ok rest complete run
    rcases more with ⟨e, rfl, run⟩ | ⟨more, rfl, run⟩
    · exact .inl (aborts_iff.2 ((later _ left).of_error rfl complete run))
    · exact .inr ⟨_, rfl, ((later _ left).of_ok rfl complete run).2.1⟩

theorem refuses_plus {child : Nat} (h : p.grammar.shape? id = some (.plus child))
    (first : p.Refuses depth (.once child) w) : p.Refuses depth (.once id) w := by
  refine ⟨fun {_ s _ _} rest complete whole => ?_⟩
  rcases whole.of_plus h with ⟨run, -⟩ | ⟨nodes, s₁, run, -⟩
  · exact first.outcome rest complete run
  · obtain ⟨same, -⟩ := first.of_ok rest complete run
    cases same

/-! ## Named rules -/

theorem tooDeep_tooDeepAt {g : Grammar} {limit : Nat} {stream stream' : Stream} {e : ParseError}
    (complete : stream.Complete) (h : g.tooDeepAt limit id stream = (e, stream')) :
    TooDeep (.error e : Outcome ν) := by
  obtain ⟨place, s', placed⟩ := complete.place?
  unfold Grammar.tooDeepAt at h
  rw [placed] at h
  cases h
  exact ⟨_, _, _, rfl⟩

/-- Unless it is at the limit, the outcome of a named rule is that of its body, or what the builder makes
of the nodes of its body. -/
theorem run_body {body : Nat} (h : p.grammar.shape? id = some (.named body))
    (complete : s.stream.Complete) (whole : p.Run depth within (.once id) s o s') :
    TooDeep o ∨ depth < p.limit ∧ ∃ o' s₀ s₁, s₀.stream.rest = s.stream.rest ∧
      s₀.stream.Complete ∧ p.Run (depth + 1) (some id) (.once body) s₀ o' s₁ ∧
      s'.stream = s₁.stream ∧ ((o = o' ∧ ∀ nodes, o ≠ .ok (some nodes)) ∨
        ∃ children made building, o' = .ok (some children) ∧
          p.builder.rule (p.grammar.ruleName id) children s₁.building = (made, building) ∧
          ((∃ node, made = .ok node ∧ o = .ok (some [node])) ∨
            ∃ reason, made = .error reason ∧ Aborts o)) := by
  rcases whole.of_named h with ⟨-, e, stream, error, rfl⟩ | ⟨shallow, later⟩
  · exact .inl (tooDeep_tooDeepAt complete error)
  obtain ⟨place, ahead, placed⟩ := complete.place?
  rcases later with ⟨e, unplaced⟩ | ⟨place', stream, o', s₁, begins, run, later⟩
  · cases placed.symm.trans unplaced
  have agrees := Stream.agrees_of_place? begins
  have complete : stream.Complete := complete.of_agrees agrees
  refine .inr ⟨shallow, o', _, s₁, agrees.rest, complete, run, ?_⟩
  rcases later with ⟨same, rfl, unmatched⟩ | ⟨children, matched, same, later⟩
  · exact ⟨rfl, .inl ⟨same, unmatched⟩⟩
  · rcases later with ⟨node, building, made, built⟩ | ⟨reason, line, column, building, rfl, refusal⟩
    · exact ⟨same, .inr ⟨_, _, _, matched, built, .inl ⟨node, rfl, made⟩⟩⟩
    · exact ⟨same, .inr ⟨_, _, _, matched, refusal, .inr ⟨reason, rfl, aborts_iff.2 .rejected⟩⟩⟩

/-- Of a named rule the body need only be known below the limit. -/
theorem ends_named {body : Nat} (h : p.grammar.shape? id = some (.named body))
    (inner : depth < p.limit → p.Ends (depth + 1) (.once body) w R) :
    p.Ends depth (.once id) w R := by
  refine ⟨fun {_ s _ _} rest complete whole => ?_⟩
  rcases run_body h complete whole with
    deep | ⟨shallow, o', s₀, s₁, same, complete, run, behind, later⟩
  · exact .inl deep.aborts
  have rest : s₀.stream.rest = w := same.trans rest
  rcases later with ⟨rfl, unmatched⟩ | ⟨children, made, building, rfl, -, later⟩
  · rcases (inner shallow).outcome rest complete run with aborts | ⟨nodes, same, -⟩
    · exact .inl aborts
    · exact absurd same (unmatched nodes)
  · obtain ⟨-, left, -⟩ := (inner shallow).of_ok rest complete run
    rcases later with ⟨node, -, rfl⟩ | ⟨reason, -, aborts⟩
    · exact .inr ⟨_, rfl, behind ▸ left⟩
    · exact .inl aborts

theorem refuses_named {body : Nat} (h : p.grammar.shape? id = some (.named body))
    (inner : depth < p.limit → p.Refuses (depth + 1) (.once body) w) :
    p.Refuses depth (.once id) w := by
  refine ⟨fun {_ s _ _} rest complete whole => ?_⟩
  rcases run_body h complete whole with
    deep | ⟨shallow, o', s₀, s₁, same, complete, run, -, later⟩
  · exact .inl deep
  have rest : s₀.stream.rest = w := same.trans rest
  rcases later with ⟨rfl, -⟩ | ⟨children, made, building, rfl, -⟩
  · exact (inner shallow).outcome rest complete run
  · obtain ⟨same, -⟩ := (inner shallow).of_ok rest complete run
    cases same

/-! ## Checks -/

theorem ends_guard {child count : Nat} (h : p.grammar.guard? id = some (child, count))
    (fits : ∀ s : Stream, s.rest = w → s.Complete → ∃ fit s',
      p.grammar.lookAhead p.limit depth child count 0 s = (.ok (some fit), s'))
    (inner : p.Ends depth (.once child) w R) : p.Ends depth (.once id) w R := by
  refine ⟨fun {_ s _ _} rest complete whole => ?_⟩
  obtain ⟨fit, ahead, check⟩ := fits s.stream rest complete
  obtain ⟨r, stream, look, later⟩ := whole.of_guard h
  cases check.symm.trans look
  have agrees := (Grammar.checkSound_lookAhead look).1
  rcases later with ⟨e, same, -⟩ | ⟨same, -⟩ | ⟨fit', -, run⟩
  · cases same
  · cases same
  · exact inner.outcome (agrees.rest.trans rest) (complete.of_agrees agrees) run

theorem refuses_guard {child count : Nat} (h : p.grammar.guard? id = some (child, count))
    (closed : ∀ s : Stream, s.rest = w → s.Complete → ∃ s',
      p.grammar.lookAhead p.limit depth child count 0 s = (.ok none, s')) :
    p.Refuses depth (.once id) w := by
  refine ⟨fun {_ s _ _} rest complete whole => ?_⟩
  obtain ⟨ahead, check⟩ := closed s.stream rest complete
  obtain ⟨r, stream, look, later⟩ := whole.of_guard h
  cases check.symm.trans look
  rcases later with ⟨e, same, -⟩ | ⟨-, none⟩ | ⟨fit', same, -⟩
  · cases same
  · exact .inr none
  · cases same

end Parser

end Rowlang
