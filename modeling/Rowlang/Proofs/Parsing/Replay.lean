import Rowlang.Proofs.Parsing.LookAhead

/-!
# Attempts replayed

What an attempt makes is fixed by the tokens to come and by the builder's state; how many of the tokens
have been scanned already makes no difference.

* `Parser.tryParse_seq`, `Parser.tryParse_guard` and the like : the parser by the shape of the rule;
* `ParseState.Matches` : two states that differ in what has been scanned only;
* `Parser.replays_tryParse` : from two such states the parser makes the same of a rule.
-/

namespace Rowlang
open Rowlang.Text

/-- What a look at the tokens to come finds, and the state behind it. -/
def ParseState.look {σ α : Type} (s : ParseState σ) (found : α × Stream) : α × ParseState σ :=
  (found.1, { s with stream := found.2 })

theorem Grammar.mem_parts_of_guard? {g : Grammar} {id child count : Nat} {shape : Shape}
    (h : g.guard? id = some (child, count)) (made : g.shape? id = some shape) :
    child ∈ shape.parts := by
  unfold guard? at h
  rw [made] at h
  split at h
  · rename_i same
    cases same
    split at h <;> simp only [Option.some.injEq, Prod.mk.injEq, reduceCtorEq] at h
    simp [Shape.parts, h.1]
  · rename_i same
    cases same
    simp only [Option.some.injEq, Prod.mk.injEq] at h
    simp [Shape.parts, h.1]
  · cases h

namespace Parser

variable {σ ν : Type} {p : Parser σ ν} {depth : Nat} {within : Option Nat} {id : Nat}
  {s : ParseState σ}

/-! ## The parser by the shape of the rule -/

theorem rounds_eq (one : ParseState σ → Outcome ν × ParseState σ) (s : ParseState σ) :
    rounds one s = andThen (one s) fun
      | none, s₁ => (.ok [], s₁)
      | some nodes, s₁ =>
        if s₁.stream.rest.length < s.stream.rest.length then
          andThen (rounds one s₁) fun more s₂ => (.ok (nodes ++ more), s₂)
        else (.ok nodes, s₁) := by
  rw [rounds]
  rcases one s with ⟨_ | (_ | nodes), s₁⟩ <;> try rfl
  dsimp only [andThen]
  split
  · rcases rounds one s₁ with ⟨_ | _, s₂⟩ <;> rfl
  · rfl

theorem tryParse_undefined (h : p.grammar.shape? id = none) :
    p.tryParse depth within id s = (.ok none, s) := by
  rw [tryParse]
  split <;> rename_i h' <;> cases h.symm.trans h'
  rfl

theorem tryParse_token {pattern : Nat} (h : p.grammar.shape? id = some (.token pattern)) :
    p.tryParse depth within id s = match s.stream.peek 0 with
      | .error e => (.error (.lex e), s)
      | .ok (some t, stream) =>
        if t.pattern = pattern then
          (.ok (some [p.builder.token t]), { s with stream := stream.advance })
        else (.ok none, { s with stream })
      | .ok (none, stream) => (.ok none, { s with stream }) := by
  rw [tryParse]
  split <;> rename_i h' <;> cases h.symm.trans h'
  rfl

theorem tryParse_guard {child count : Nat} (h : p.grammar.guard? id = some (child, count)) :
    p.tryParse depth within id s =
      andThen (s.look (p.grammar.lookAhead p.limit depth child count 0 s.stream)) fun
        | none, s => (.ok none, s)
        | some _, s => p.tryParse depth within child s := by
  unfold Grammar.guard? at h
  split at h
  · rename_i left right shape
    split at h <;> simp only [Option.some.injEq, Prod.mk.injEq, reduceCtorEq] at h
    obtain ⟨rfl, rfl⟩ := h
    rename_i count ahead
    rw [tryParse]
    split <;> rename_i h' <;> cases shape.symm.trans h'
    dsimp only
    rw [ahead]
    dsimp only
    rcases p.grammar.lookAhead p.limit depth right count 0 s.stream with ⟨_ | (_ | _), stream⟩ <;> rfl
  · rename_i child count shape
    simp only [Option.some.injEq, Prod.mk.injEq] at h
    obtain ⟨rfl, rfl⟩ := h
    rw [tryParse]
    split <;> rename_i h' <;> cases shape.symm.trans h'
    rcases p.grammar.lookAhead p.limit depth child count 0 s.stream with ⟨_ | (_ | _), stream⟩ <;> rfl
  · cases h

theorem tryParse_seq {left right : Nat} (h : p.grammar.shape? id = some (.seq left right))
    (plain : p.grammar.guard? id = none) :
    p.tryParse depth within id s = andThen (p.tryParse depth within left s) fun
      | none, s₁ => (.ok none, s₁)
      | some nodes, s₁ => andThen (p.tryParse depth within right s₁) fun
        | some more, s₂ => (.ok (some (nodes ++ more)), s₂)
        | none, s₂ =>
          if s₂.stream.rest.length = s.stream.rest.length then (.ok none, s₂)
          else (.error (p.missing within right s₂.stream).1,
            { s₂ with stream := (p.missing within right s₂.stream).2 }) := by
  rw [tryParse]
  split <;> rename_i h' <;> cases h.symm.trans h'
  dsimp only
  split
  · simp [Grammar.guard?, h, ‹p.grammar.shape? left = _›] at plain
  rcases p.tryParse depth within left s with ⟨_ | (_ | nodes), s₁⟩ <;> try rfl
  dsimp only [andThen]
  rcases p.tryParse depth within right s₁ with ⟨_ | (_ | nodes), s₂⟩ <;> rfl

theorem tryParse_alt {left right : Nat} (h : p.grammar.shape? id = some (.alt left right)) :
    p.tryParse depth within id s = andThen (p.tryParse depth within left s) fun
      | some nodes, s => (.ok (some nodes), s)
      | none, s => p.tryParse depth within right s := by
  rw [tryParse]
  split <;> rename_i h' <;> cases h.symm.trans h'
  rcases p.tryParse depth within left s with ⟨_ | (_ | _), s⟩ <;> rfl

theorem tryParse_opt {child : Nat} (h : p.grammar.shape? id = some (.opt child)) :
    p.tryParse depth within id s = andThen (p.tryParse depth within child s) fun nodes s =>
      (.ok (some (nodes.getD [])), s) := by
  rw [tryParse]
  split <;> rename_i h' <;> cases h.symm.trans h'
  rcases p.tryParse depth within child s with ⟨_ | _, s⟩ <;> rfl

theorem tryParse_star {child : Nat} (h : p.grammar.shape? id = some (.star child)) :
    p.tryParse depth within id s = andThen (rounds (p.tryParse depth within child) s) fun nodes s =>
      (.ok (some nodes), s) := by
  rw [tryParse]
  split <;> rename_i h' <;> cases h.symm.trans h'
  rcases rounds (p.tryParse depth within child) s with ⟨_ | _, s⟩ <;> rfl

theorem tryParse_plus {child : Nat} (h : p.grammar.shape? id = some (.plus child)) :
    p.tryParse depth within id s = andThen (p.tryParse depth within child s) fun
      | none, s => (.ok none, s)
      | some first, s => andThen (rounds (p.tryParse depth within child) s) fun more s =>
        (.ok (some (first ++ more)), s) := by
  rw [tryParse]
  split <;> rename_i h' <;> cases h.symm.trans h'
  rcases p.tryParse depth within child s with ⟨_ | (_ | _), s⟩ <;> try rfl
  dsimp only [andThen]
  rcases rounds (p.tryParse depth within child) s with ⟨_ | _, s⟩ <;> rfl

theorem tryParse_ahead {count : Nat} (h : p.grammar.shape? id = some (.ahead count)) :
    p.tryParse depth within id s = (.ok (some []), s) := by
  rw [tryParse]
  split <;> rename_i h' <;> cases h.symm.trans h'
  rfl

theorem tryParse_deep {body : Nat} (h : p.grammar.shape? id = some (.named body))
    (deep : ¬ depth < p.limit) :
    p.tryParse depth within id s = (.error (p.grammar.tooDeepAt p.limit id s.stream).1,
      { s with stream := (p.grammar.tooDeepAt p.limit id s.stream).2 }) := by
  rw [tryParse]
  split <;> rename_i h' <;> cases h.symm.trans h'
  rw [dif_neg deep]

theorem tryParse_named {body : Nat} (h : p.grammar.shape? id = some (.named body))
    (shallow : depth < p.limit) :
    p.tryParse depth within id s = match s.stream.place? with
      | .error e => (.error (.lex e), s)
      | .ok (place, stream) =>
        andThen (p.tryParse (depth + 1) (some id) body { s with stream }) fun
          | none, s => (.ok none, s)
          | some children, s =>
            match p.builder.rule (p.grammar.ruleName id) children s.building with
            | (.ok node, building) => (.ok (some [node]), { s with building })
            | (.error reason, building) =>
              (.error (.rejected (p.grammar.ruleName id) reason place.line place.column),
                { s with building }) := by
  rw [tryParse]
  split <;> rename_i h' <;> cases h.symm.trans h'
  rw [dif_pos shallow]
  rcases s.stream.place? with _ | ⟨place, stream⟩ <;> try rfl
  dsimp only
  rcases p.tryParse (depth + 1) (some id) body { s with stream } with ⟨_ | (_ | _), s⟩ <;> rfl

end Parser

/-! ## States that differ in what has been scanned -/

namespace Stream

variable {s t : Stream}

theorem Agrees.ok_of_peek {n : Nat} {found : Option Token} {s' : Stream} (h : s.Agrees t)
    (peek : s.peek n = .ok (found, s')) : ∃ t', t.peek n = .ok (found, t') ∧ s'.Agrees t' := by
  have same := h.peek n
  rw [peek] at same
  cases peek' : t.peek n with
  | error e =>
    rw [peek'] at same
    cases same
  | ok result =>
    obtain ⟨found', t'⟩ := result
    rw [peek'] at same
    cases same
    exact ⟨t', rfl, (agrees_of_peek peek).symm.trans (h.trans (agrees_of_peek peek'))⟩

theorem Agrees.ok_of_place? {place : Location} {s' : Stream} (h : s.Agrees t)
    (begins : s.place? = .ok (place, s')) :
    ∃ t', t.place? = .ok (place, t') ∧ s'.Agrees t' := by
  have same := h.place?
  rw [begins] at same
  cases begins' : t.place? with
  | error e =>
    rw [begins'] at same
    cases same
  | ok result =>
    obtain ⟨place', t'⟩ := result
    rw [begins'] at same
    cases same
    exact ⟨t', rfl, (agrees_of_place? begins).symm.trans (h.trans (agrees_of_place? begins'))⟩

end Stream

theorem Alike.eq {r r' : Finding} (h : Alike 0 0 r r') : r = r' := by
  cases h with
  | unfit => rfl
  | fit => rfl
  | limit _ _ same => exact same rfl
  | spent more => exact absurd more (Nat.lt_irrefl 0)

theorem Grammar.lookAhead_congr {g : Grammar} {limit depth id budget index : Nat} {s t : Stream}
    (complete : s.Complete) (h : s.Agrees t) :
    (g.lookAhead limit depth id budget index s).1 = (g.lookAhead limit depth id budget index t).1 :=
  (alike_lookAhead ((Stream.Behind.refl complete).of_agrees h (.refl s)) budget index).eq

/-- Two states, of a text that can be scanned to its end, that differ in what has been scanned only. -/
structure ParseState.Matches {σ : Type} (s t : ParseState σ) : Prop where
  complete : s.stream.Complete
  stream : s.stream.Agrees t.stream
  building : t.building = s.building

/-- Two results with the same outcome, and states behind it that match. -/
structure Replays {σ α : Type} (r r' : Except ParseError α × ParseState σ) : Prop where
  outcome : r'.1 = r.1
  state : r.2.Matches r'.2

section
variable {σ : Type} {s t : ParseState σ}

theorem ParseState.Matches.scanned {stream stream' : Stream} (h : s.Matches t)
    (ahead : s.stream.Agrees stream) (agrees : stream.Agrees stream') :
    ParseState.Matches { s with stream } { t with stream := stream' } :=
  ⟨h.complete.of_agrees ahead, agrees, h.building⟩

theorem Replays.follow {α β : Type} {first first' : Except ParseError α × ParseState σ}
    {next next' : α → ParseState σ → Except ParseError β × ParseState σ} (h : Replays first first')
    (later : ∀ x {s t}, s.Matches t → Replays (next x s) (next' x t)) :
    Replays (andThen first next) (andThen first' next') := by
  obtain ⟨r, s⟩ := first
  obtain ⟨r', t⟩ := first'
  obtain rfl : r' = r := h.outcome
  cases r' with
  | error e => exact ⟨rfl, h.state⟩
  | ok x => exact later x h.state

end

namespace Parser

variable {σ ν : Type} {p : Parser σ ν}

theorem missing_congr {within : Option Nat} {expected : Nat} {s t : Stream} (h : s.Agrees t) :
    (p.missing within expected s).1 = (p.missing within expected t).1 := by
  unfold missing
  cases peek : s.peek 0 with
  | error e =>
    have same := h.peek 0
    rw [peek] at same
    cases peek' : t.peek 0 with
    | error e' =>
      rw [peek'] at same
      cases same
      rfl
    | ok result =>
      rw [peek'] at same
      cases same
  | ok result =>
    obtain ⟨found, s'⟩ := result
    obtain ⟨t', peek', agrees⟩ := h.ok_of_peek peek
    rw [peek']
    simp only [agrees.ending]

theorem replays_rounds {one : ParseState σ → Outcome ν × ParseState σ}
    (each : ∀ {s t}, s.Matches t → Replays (one s) (one t)) {s t : ParseState σ}
    (same : s.Matches t) : Replays (rounds one s) (rounds one t) := by
  rw [rounds_eq, rounds_eq]
  refine (each same).follow fun nodes s₁ t₁ same₁ => ?_
  cases nodes with
  | none => exact ⟨rfl, same₁⟩
  | some nodes =>
    dsimp only
    rw [same₁.stream.rest, same.stream.rest]
    split
    · exact (replays_rounds each same₁).follow fun _ _ _ same₂ => ⟨rfl, same₂⟩
    · exact ⟨rfl, same₁⟩
termination_by s.stream.rest.length

/-- From two states that differ in what has been scanned only, the parser makes the same of a rule. -/
theorem replays_tryParse {depth : Nat} {within : Option Nat} {id : Nat} {s t : ParseState σ}
    (same : s.Matches t) :
    Replays (p.tryParse depth within id s) (p.tryParse depth within id t) := by
  cases shape : p.grammar.shape? id with
  | none =>
    rw [tryParse_undefined shape, tryParse_undefined shape]
    exact ⟨rfl, same⟩
  | some made =>
  have each (c : Nat) (part : c ∈ made.parts) {s t : ParseState σ} (same : s.Matches t) :
      Replays (p.tryParse depth within c s) (p.tryParse depth within c t) :=
    have := p.grammar.rank_part_lt (p.limit - depth) shape part
    replays_tryParse same
  have guarded {child count : Nat} (guard : p.grammar.guard? id = some (child, count)) :
      Replays (p.tryParse depth within id s) (p.tryParse depth within id t) := by
    have look := p.grammar.agrees_lookAhead p.limit depth child count 0
    have first : Replays (s.look (p.grammar.lookAhead p.limit depth child count 0 s.stream))
        (t.look (p.grammar.lookAhead p.limit depth child count 0 t.stream)) :=
      ⟨(Grammar.lookAhead_congr same.complete same.stream).symm,
        same.scanned (look s.stream) ((look s.stream).symm.trans (same.stream.trans (look t.stream)))⟩
    rw [tryParse_guard guard, tryParse_guard guard]
    refine first.follow fun fit s₁ t₁ same₁ => ?_
    cases fit with
    | none => exact ⟨rfl, same₁⟩
    | some fit => exact each child (Grammar.mem_parts_of_guard? guard shape) same₁
  cases made with
  | token k =>
    obtain ⟨stream, peek⟩ := same.complete.peek 0
    obtain ⟨stream', peek', agrees⟩ := same.stream.ok_of_peek peek
    have scanned := same.scanned (Stream.agrees_of_peek peek) agrees
    rw [tryParse_token shape, tryParse_token shape, peek, peek']
    cases s.stream.rest[0]? with
    | none => exact ⟨rfl, scanned⟩
    | some found =>
      dsimp only
      split
      · exact ⟨rfl, scanned.complete, ⟨congrArg List.tail agrees.rest, agrees.ending⟩, same.building⟩
      · exact ⟨rfl, scanned⟩
  | seq left right =>
    cases guard : p.grammar.guard? id with
    | some found => exact guarded guard
    | none =>
      rw [tryParse_seq shape guard, tryParse_seq shape guard]
      refine (each left (by simp [Shape.parts]) same).follow fun nodes s₁ t₁ same₁ => ?_
      cases nodes with
      | none => exact ⟨rfl, same₁⟩
      | some nodes =>
      refine (each right (by simp [Shape.parts]) same₁).follow fun more s₂ t₂ same₂ => ?_
      cases more with
      | some more => exact ⟨rfl, same₂⟩
      | none =>
        dsimp only
        rw [same₂.stream.rest, same.stream.rest]
        split
        · exact ⟨rfl, same₂⟩
        · have missing := p.agrees_of_missing within right
          exact ⟨congrArg Except.error (missing_congr same₂.stream).symm, same₂.scanned (missing s₂.stream)
            ((missing s₂.stream).symm.trans (same₂.stream.trans (missing t₂.stream)))⟩
  | alt left right =>
    rw [tryParse_alt shape, tryParse_alt shape]
    refine (each left (by simp [Shape.parts]) same).follow fun nodes s₁ t₁ same₁ => ?_
    cases nodes with
    | none => exact each right (by simp [Shape.parts]) same₁
    | some nodes => exact ⟨rfl, same₁⟩
  | opt child =>
    rw [tryParse_opt shape, tryParse_opt shape]
    exact (each child (by simp [Shape.parts]) same).follow fun _ _ _ same₁ => ⟨rfl, same₁⟩
  | star child =>
    rw [tryParse_star shape, tryParse_star shape]
    exact (replays_rounds (each child (by simp [Shape.parts])) same).follow
      fun _ _ _ same₁ => ⟨rfl, same₁⟩
  | plus child =>
    rw [tryParse_plus shape, tryParse_plus shape]
    refine (each child (by simp [Shape.parts]) same).follow fun nodes s₁ t₁ same₁ => ?_
    cases nodes with
    | none => exact ⟨rfl, same₁⟩
    | some nodes =>
      exact (replays_rounds (each child (by simp [Shape.parts])) same₁).follow
        fun _ _ _ same₂ => ⟨rfl, same₂⟩
  | ahead count =>
    rw [tryParse_ahead shape, tryParse_ahead shape]
    exact ⟨rfl, same⟩
  | guarded child count => exact @guarded child count (by simp [Grammar.guard?, shape])
  | named body =>
    by_cases shallow : depth < p.limit
    · have := p.grammar.rank_body_lt shallow id body
      obtain ⟨place, stream, begins⟩ := same.complete.place?
      obtain ⟨stream', begins', agrees⟩ := same.stream.ok_of_place? begins
      rw [tryParse_named shape shallow, tryParse_named shape shallow, begins, begins']
      refine (replays_tryParse (same.scanned (Stream.agrees_of_place? begins) agrees)).follow
        fun nodes s₁ t₁ same₁ => ?_
      cases nodes with
      | none => exact ⟨rfl, same₁⟩
      | some children =>
        dsimp only
        rw [same₁.building]
        split
        · exact ⟨rfl, same₁.complete, same₁.stream, rfl⟩
        · exact ⟨rfl, same₁.complete, same₁.stream, rfl⟩
    · have deep := p.grammar.tooDeepAt_fault p.limit id
      rw [tryParse_deep shape shallow, tryParse_deep shape shallow]
      exact ⟨congrArg Except.error (Grammar.tooDeepAt_congr same.stream).symm,
        same.scanned (deep s.stream).1
          ((deep s.stream).1.symm.trans (same.stream.trans (deep t.stream).1))⟩
termination_by p.grammar.rank (p.limit - depth) id

end Parser

end Rowlang
