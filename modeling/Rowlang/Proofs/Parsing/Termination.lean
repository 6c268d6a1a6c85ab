import Rowlang.Proofs.Parsing.Replay

/-!
# Parsing ends

The parser and the checks it makes, as they call each other, with no reason to come to an end: calls may
be nested `calls` deep, and loops may take `rounds` rounds, and where that is not enough there is no
result. The rules stand in a table, where any of them may refer to any other.

* `Table.lookAhead`, `Table.tryParse` and the like : the calls and the loops;
* `Table.tryParse_endless` : a rule that begins with itself, and has no name, has no result;
* `Grammar.furthest_lookAhead` : a check never looks behind the last token;
* `Parser.parseRule_ends` : over the rules of a grammar there is always a result, with calls no deeper than
  its rank and no more rounds than tokens, and it is that of the parser.
-/

namespace Rowlang
open Rowlang.Text

/-! ## Calls and rounds that may run out -/

abbrev Table := Nat → Option Shape

/-- A computation that may have no result, and what follows it. -/
def thenWithin {τ α β : Type} (first : Option (Except ParseError α × τ))
    (next : α → τ → Option (Except ParseError β × τ)) : Option (Except ParseError β × τ) :=
  first.bind fun
    | (.error e, s) => some (.error e, s)
    | (.ok x, s) => next x s

theorem thenWithin_eq {τ α β : Type} {first : Option (Except ParseError α × τ)}
    {r : Except ParseError α × τ} {next : α → τ → Option (Except ParseError β × τ)}
    {next' : α → τ → Except ParseError β × τ} (known : first = some r)
    (later : ∀ x s, r = (.ok x, s) → next x s = some (next' x s)) :
    thenWithin first next = some (andThen r next') := by
  subst known
  rcases r with ⟨e | x, s⟩
  · rfl
  · exact later x s rfl

/-- Rounds of a check, as long as each gets further. -/
def fitManyWithin (check : Nat → Nat → Stream → Option (Finding × Stream)) :
    (rounds budget index : Nat) → Stream → Option (Finding × Stream)
  | 0, _, _, _ => none
  | rounds + 1, budget, index, s =>
    if budget = 0 then some (.ok (some (budget, index)), s)
    else thenWithin (check budget index s) fun
      | none, s => some (.ok (some (budget, index)), s)
      | some (budget', index'), s =>
        if index < index' then fitManyWithin check rounds budget' index' s
        else some (.ok (some (budget, index)), s)

namespace Table

def lookAhead (table : Table) (g : Grammar) (limit rounds : Nat) :
    (calls depth id budget index : Nat) → Stream → Option (Finding × Stream)
  | 0, _, _, _, _, _ => none
  | calls + 1, depth, id, budget, index, s =>
    let inner := table.lookAhead g limit rounds calls
    if budget = 0 then some (.ok (some (0, index)), s)
    else
      match table id with
      | none => some (.ok none, s)
      | some (.token pattern) =>
        match s.peek index with
        | .error e => some (.error (.lex e), s)
        | .ok (some t, s) =>
          some (.ok (if t.pattern = pattern then some (budget - 1, index + 1) else none), s)
        | .ok (none, s) => some (.ok none, s)
      | some (.seq left right) =>
        thenWithin (inner depth left budget index s) fun
          | none, s => some (.ok none, s)
          | some (budget, index), s => inner depth right budget index s
      | some (.alt left right) =>
        thenWithin (inner depth left budget index s) fun
          | none, s => inner depth right budget index s
          | some fit, s => some (.ok (some fit), s)
      | some (.opt child) =>
        thenWithin (inner depth child budget index s) fun fit s =>
          some (.ok (some (fit.getD (budget, index))), s)
      | some (.star child) => fitManyWithin (inner depth child) rounds budget index s
      | some (.plus child) =>
        thenWithin (inner depth child budget index s) fun
          | none, s => some (.ok none, s)
          | some (budget, index), s => fitManyWithin (inner depth child) rounds budget index s
      | some (.ahead _) => some (.ok (some (budget, index)), s)
      | some (.guarded child _) => inner depth child budget index s
      | some (.named body) =>
        if depth < limit then inner (depth + 1) body budget index s
        else some (.error (g.tooDeepAt limit id s).1, (g.tooDeepAt limit id s).2)

variable {σ ν : Type}

def rounds (one : ParseState σ → Option (Parser.Outcome ν × ParseState σ)) :
    Nat → ParseState σ → Option (Except ParseError (List ν) × ParseState σ)
  | 0, _ => none
  | more + 1, s =>
    thenWithin (one s) fun
      | none, s₁ => some (.ok [], s₁)
      | some nodes, s₁ =>
        if s₁.stream.rest.length < s.stream.rest.length then
          thenWithin (rounds one more s₁) fun more s₂ => some (.ok (nodes ++ more), s₂)
        else some (.ok nodes, s₁)

def tryParse (table : Table) (p : Parser σ ν) (rounds : Nat) :
    (calls depth : Nat) → Option Nat → Nat → ParseState σ →
      Option (Parser.Outcome ν × ParseState σ)
  | 0, _, _, _, _ => none
  | calls + 1, depth, within, id, s =>
    let inner := table.tryParse p rounds calls
    let guarded (child count : Nat) :=
      thenWithin ((table.lookAhead p.grammar p.limit rounds calls depth child count 0 s.stream).map s.look)
        fun
          | none, s => some (.ok none, s)
          | some _, s => inner depth within child s
    match table id with
    | none => some (.ok none, s)
    | some (.token pattern) =>
      match s.stream.peek 0 with
      | .error e => some (.error (.lex e), s)
      | .ok (some t, stream) =>
        if t.pattern = pattern then
          some (.ok (some [p.builder.token t]), { s with stream := stream.advance })
        else some (.ok none, { s with stream })
      | .ok (none, stream) => some (.ok none, { s with stream })
    | some (.seq left right) =>
      match table left with
      | some (.ahead count) => guarded right count
      | _ =>
        thenWithin (inner depth within left s) fun
          | none, s₁ => some (.ok none, s₁)
          | some nodes, s₁ => thenWithin (inner depth within right s₁) fun
            | some more, s₂ => some (.ok (some (nodes ++ more)), s₂)
            | none, s₂ =>
              if s₂.stream.rest.length = s.stream.rest.length then some (.ok none, s₂)
              else some (.error (p.missing within right s₂.stream).1,
                { s₂ with stream := (p.missing within right s₂.stream).2 })
    | some (.alt left right) =>
      thenWithin (inner depth within left s) fun
        | some nodes, s => some (.ok (some nodes), s)
        | none, s => inner depth within right s
    | some (.opt child) =>
      thenWithin (inner depth within child s) fun nodes s => some (.ok (some (nodes.getD [])), s)
    | some (.star child) =>
      thenWithin (Table.rounds (inner depth within child) rounds s) fun nodes s =>
        some (.ok (some nodes), s)
    | some (.plus child) =>
      thenWithin (inner depth within child s) fun
        | none, s => some (.ok none, s)
        | some first, s => thenWithin (Table.rounds (inner depth within child) rounds s) fun more s =>
          some (.ok (some (first ++ more)), s)
    | some (.ahead _) => some (.ok (some []), s)
    | some (.guarded child count) => guarded child count
    | some (.named body) =>
      if depth < p.limit then
        match s.stream.place? with
        | .error e => some (.error (.lex e), s)
        | .ok (place, stream) =>
          thenWithin (inner (depth + 1) (some id) body { s with stream }) fun
            | none, s => some (.ok none, s)
            | some children, s =>
              some (match p.builder.rule (p.grammar.ruleName id) children s.building with
                | (.ok node, building) => (.ok (some [node]), { s with building })
                | (.error reason, building) =>
                  (.error (.rejected (p.grammar.ruleName id) reason place.line place.column),
                    { s with building }))
      else some (.error (p.grammar.tooDeepAt p.limit id s.stream).1,
        { s with stream := (p.grammar.tooDeepAt p.limit id s.stream).2 })

def parseRule (table : Table) (p : Parser σ ν) (rounds calls id : Nat) (text : String) (init : σ) :
    Option (Except ParseError ν × ParseState σ) :=
  thenWithin (table.tryParse p rounds calls 0 none id ⟨.ofScan (p.grammar.scan text), init⟩) fun
    | none, s => some (.error (p.missing none id s.stream).1,
        { s with stream := (p.missing none id s.stream).2 })
    | some nodes, s =>
      match s.stream.peek 0 with
      | .error e => some (.error (.lex e), s)
      | .ok (some t, stream) => some (.error (.trailingInput t), { s with stream })
      | .ok (none, stream) =>
        match nodes with
        | [node] => some (.ok node, { s with stream })
        | nodes =>
          some (match p.builder.rule (p.grammar.ruleName id) nodes s.building with
            | (.ok node, building) => (.ok node, ⟨stream, building⟩)
            | (.error reason, building) =>
              (.error (.rejected (p.grammar.ruleName id) reason 1 1), ⟨stream, building⟩))

/-! ## A rule that begins with itself -/

/-- A rule without a name that begins with itself has no result, however many calls and rounds there may
be. -/
theorem tryParse_endless {table : Table} {p : Parser σ ν} {id right rounds depth : Nat}
    {within : Option Nat} {s : ParseState σ} (itself : table id = some (.seq id right)) (calls : Nat) :
    table.tryParse p rounds calls depth within id s = none := by
  induction calls with
  | zero => rfl
  | succ calls ih =>
    rw [tryParse, itself]
    dsimp only
    rw [itself]
    dsimp only
    rw [ih]
    rfl

end Table

/-! ## How far a check looks -/

/-- A fit from `index` on does not go back, and ends behind a token that there is. -/
structure Reaches (tokens index : Nat) (r : Finding) : Prop where
  ahead : ∀ fit, r = .ok (some fit) → index ≤ fit.2
  furthest : ∀ fit, r = .ok (some fit) → fit.2 ≤ max index tokens

namespace Reaches

variable {tokens index index' : Nat} {r : Finding}

theorem here (tokens budget index : Nat) : Reaches tokens index (.ok (some (budget, index))) where
  ahead := by rintro _ ⟨⟩; exact Nat.le_refl _
  furthest := by rintro _ ⟨⟩; exact Nat.le_max_left _ _

theorem nowhere (tokens index : Nat) : Reaches tokens index (.ok none) where
  ahead := by rintro _ ⟨⟩
  furthest := by rintro _ ⟨⟩

theorem error (tokens index : Nat) (e : ParseError) : Reaches tokens index (.error e) where
  ahead := by rintro _ ⟨⟩
  furthest := by rintro _ ⟨⟩

theorem further (h : Reaches tokens index' r) (ahead : index ≤ index')
    (furthest : index' ≤ max index tokens) : Reaches tokens index r where
  ahead fit found := Nat.le_trans ahead (h.ahead fit found)
  furthest fit found := Nat.le_trans (h.furthest fit found)
    (Nat.max_le.2 ⟨furthest, Nat.le_max_right _ _⟩)

theorem follow {first : Finding × Stream} {next : Option (Nat × Nat) → Stream → Finding × Stream}
    (reaches : Reaches tokens index first.1) (unfit : Reaches tokens index (next none first.2).1)
    (fit : ∀ budget' index', Reaches tokens index' (next (some (budget', index')) first.2).1) :
    Reaches tokens index (andThen first next).1 := by
  obtain ⟨e | (_ | ⟨budget', index'⟩), s⟩ := first
  · exact error _ _ e
  · exact unfit
  · exact (fit budget' index').further (reaches.ahead _ rfl) (reaches.furthest _ rfl)

end Reaches

theorem reaches_fitMany {check : Check} {tokens : Nat}
    (zero : ∀ index s, check 0 index s = (.ok (some (0, index)), s))
    (agrees : ∀ budget index (s : Stream), s.Agrees (check budget index s).2)
    (each : ∀ budget index (s : Stream), s.rest.length = tokens →
      Reaches tokens index (check budget index s).1)
    (budget index : Nat) (s : Stream) (length : s.rest.length = tokens) :
    Reaches tokens index (s.fitMany check budget index).1 := by
  rw [fitMany_eq (zero ..)]
  have first := each budget index s length
  rcases found : check budget index s with ⟨e | (_ | ⟨budget', index'⟩), s'⟩
  · exact .error _ _ e
  · exact .here _ _ _
  · rw [found] at first
    dsimp only [andThen]
    split
    · have same := (agrees budget index s).rest
      rw [found] at same
      have later := reaches_fitMany zero agrees each budget' index' s' (by rw [same, length])
      exact later.further (first.ahead _ rfl) (first.furthest _ rfl)
    · exact .here _ _ _
termination_by budget

/-- A check never looks behind the last token. -/
theorem Grammar.furthest_lookAhead (g : Grammar) (limit depth id budget index : Nat) (s : Stream) :
    Reaches s.rest.length index (g.lookAhead limit depth id budget index s).1 := by
  cases budget with
  | zero =>
    rw [lookAhead_zero]
    exact .here _ 0 index
  | succ budget =>
  cases shape : g.shape? id with
  | none =>
    rw [lookAhead_undefined shape]
    exact .nowhere _ _
  | some made =>
  have each (c : Nat) (part : c ∈ made.parts) budget index (t : Stream)
      (length : t.rest.length = s.rest.length) :
      Reaches s.rest.length index (g.lookAhead limit depth c budget index t).1 :=
    have := g.rank_part_lt (limit - depth) shape part
    length ▸ g.furthest_lookAhead ..
  have agrees (c budget index : Nat) (t : Stream) := g.agrees_lookAhead limit depth c budget index t
  have same (c budget index : Nat) (t : Stream) :
      (g.lookAhead limit depth c budget index t).2.rest.length = t.rest.length := by
    rw [(agrees c budget index t).rest]
  have many (c : Nat) (part : c ∈ made.parts) (budget index : Nat) (t : Stream)
      (length : t.rest.length = s.rest.length) :
      Reaches s.rest.length index (t.fitMany (g.lookAhead limit depth c) budget index).1 :=
    reaches_fitMany (fun _ _ => lookAhead_zero _) (agrees c) (each c part) budget index t length
  cases made with
  | token k =>
    rw [lookAhead_leaf shape]
    split
    · exact .error _ _ _
    · rename_i t s' peek
      dsimp only
      split
      · have there : index < s.rest.length :=
          (List.getElem?_eq_some_iff.1 (Stream.rest_of_peek peek).2.symm).1
        exact (Reaches.here _ _ (index + 1)).further (Nat.le_succ _) (by omega)
      · exact .nowhere _ _
    · exact .nowhere _ _
  | seq left right =>
    rw [lookAhead_seqThen shape]
    exact (each left (by simp [Shape.parts]) _ _ s rfl).follow (.nowhere _ _) fun _ _ =>
      each right (by simp [Shape.parts]) _ _ _ (same ..)
  | alt left right =>
    rw [lookAhead_alt shape]
    exact (each left (by simp [Shape.parts]) _ _ s rfl).follow
      (each right (by simp [Shape.parts]) _ _ _ (same ..)) fun _ _ => .here _ _ _
  | opt child =>
    rw [lookAhead_opt shape]
    exact (each child (by simp [Shape.parts]) _ _ s rfl).follow (.here _ _ _) fun _ _ => .here _ _ _
  | star child =>
    rw [lookAhead_star shape]
    exact many child (by simp [Shape.parts]) _ _ s rfl
  | plus child =>
    rw [lookAhead_plus shape]
    exact (each child (by simp [Shape.parts]) _ _ s rfl).follow (.nowhere _ _) fun _ _ =>
      many child (by simp [Shape.parts]) _ _ _ (same ..)
  | ahead count =>
    rw [lookAhead_ahead shape]
    exact .here _ _ _
  | guarded child count =>
    have guard : g.guard? id = some (child, count) := by simp [guard?, shape]
    rw [lookAhead_guard guard]
    exact each child (by simp [Shape.parts]) _ _ s rfl
  | named body =>
    by_cases shallow : depth < limit
    · have := g.rank_body_lt shallow id body
      rw [lookAhead_named shape shallow]
      exact g.furthest_lookAhead ..
    · rw [lookAhead_deep shape shallow]
      exact .error _ _ _
termination_by g.rank (limit - depth) id

/-! ## Rules that stand before those made of them -/

/-- Rounds of a check end, since each but the last reaches a further token. -/
theorem fitManyWithin_eq {checkWithin : Nat → Nat → Stream → Option (Finding × Stream)} {check : Check}
    {tokens : Nat} (zero : ∀ index s, check 0 index s = (.ok (some (0, index)), s))
    (agrees : ∀ budget index (s : Stream), s.Agrees (check budget index s).2)
    (balanced : ∀ budget index s, Balanced budget index (check budget index s).1)
    (reaches : ∀ budget index (s : Stream), s.rest.length = tokens →
      Reaches tokens index (check budget index s).1)
    (each : ∀ budget index (s : Stream), s.rest.length = tokens →
      checkWithin budget index s = some (check budget index s))
    (rounds budget index : Nat) (s : Stream) (length : s.rest.length = tokens)
    (enough : tokens - index < rounds) :
    fitManyWithin checkWithin rounds budget index s = some (s.fitMany check budget index) := by
  induction rounds generalizing budget index s with
  | zero => exact absurd enough (Nat.not_lt_zero _)
  | succ rounds ih =>
    rw [fitManyWithin]
    by_cases spent : budget = 0
    · rw [if_pos spent, spent, fitMany_zero]
    rw [if_neg spent, fitMany_eq (zero ..)]
    refine thenWithin_eq (each budget index s length) fun fit s' found => ?_
    cases fit with
    | none => rfl
    | some fit =>
      obtain ⟨budget', index'⟩ := fit
      have sum : budget' + index' = budget + index :=
        (balanced budget index s).sum _ (congrArg Prod.fst found)
      have near : index' ≤ max index tokens :=
        (reaches budget index s length).furthest _ (congrArg Prod.fst found)
      have same : s'.rest = s.rest := by
        have h := (agrees budget index s).rest
        rwa [found] at h
      dsimp only
      by_cases further : index < index'
      · rw [if_pos further, if_pos (by omega)]
        exact ih budget' index' s' (by rw [same, length]) (by omega)
      · rw [if_neg further, if_neg (by omega)]

theorem Grammar.lookAhead_within (g : Grammar) (limit rounds calls depth id budget index : Nat)
    (s : Stream) (deep : g.rank (limit - depth) id < calls) (long : s.rest.length < rounds) :
    Table.lookAhead g.shape? g limit rounds calls depth id budget index s =
      some (g.lookAhead limit depth id budget index s) := by
  induction calls generalizing depth id budget index s with
  | zero => exact absurd deep (Nat.not_lt_zero _)
  | succ calls ih =>
  rw [Table.lookAhead]
  cases budget with
  | zero => rw [if_pos rfl, lookAhead_zero]
  | succ budget =>
  rw [if_neg (Nat.succ_ne_zero _)]
  cases shape : g.shape? id with
  | none => rw [lookAhead_undefined shape]
  | some made =>
  have each (c : Nat) (part : c ∈ made.parts) (budget index : Nat) (t : Stream)
      (length : t.rest.length = s.rest.length) :
      Table.lookAhead g.shape? g limit rounds calls depth c budget index t =
        some (g.lookAhead limit depth c budget index t) := by
    have less := g.rank_part_lt (limit - depth) shape part
    exact ih depth c budget index t (by omega) (by omega)
  have many (c : Nat) (part : c ∈ made.parts) (budget index : Nat) (t : Stream)
      (length : t.rest.length = s.rest.length) :
      fitManyWithin (Table.lookAhead g.shape? g limit rounds calls depth c) rounds budget index t =
        some (t.fitMany (g.lookAhead limit depth c) budget index) :=
    fitManyWithin_eq (fun _ _ => lookAhead_zero _) (g.agrees_lookAhead limit depth c)
      (g.balanced_lookAhead limit depth c)
      (fun budget index t length => length ▸ g.furthest_lookAhead limit depth c budget index t)
      (each c part) rounds budget index t length (by omega)
  -- what is left behind a check are the tokens that were there before it
  have behind {c budget index : Nat} {t t' : Stream} {fit : Option (Nat × Nat)}
      (found : g.lookAhead limit depth c budget index t = (.ok fit, t')) :
      t'.rest.length = t.rest.length := by
    have h := (g.agrees_lookAhead limit depth c budget index t).rest
    rw [found] at h
    rw [h]
  cases made with
  | token k =>
    rw [lookAhead_leaf shape]
    dsimp only
    rcases s.peek index with e | ⟨_ | t, s'⟩ <;> rfl
  | seq left right =>
    rw [lookAhead_seqThen shape]
    refine thenWithin_eq (each left (by simp [Shape.parts]) _ _ s rfl) fun fit t found => ?_
    cases fit with
    | none => rfl
    | some fit => exact each right (by simp [Shape.parts]) _ _ t (behind found)
  | alt left right =>
    rw [lookAhead_alt shape]
    refine thenWithin_eq (each left (by simp [Shape.parts]) _ _ s rfl) fun fit t found => ?_
    cases fit with
    | none => exact each right (by simp [Shape.parts]) _ _ t (behind found)
    | some fit => rfl
  | opt child =>
    rw [lookAhead_opt shape]
    exact thenWithin_eq (each child (by simp [Shape.parts]) _ _ s rfl) fun _ _ _ => rfl
  | star child =>
    rw [lookAhead_star shape]
    exact many child (by simp [Shape.parts]) _ _ s rfl
  | plus child =>
    rw [lookAhead_plus shape]
    refine thenWithin_eq (each child (by simp [Shape.parts]) _ _ s rfl) fun fit t found => ?_
    cases fit with
    | none => rfl
    | some fit => exact many child (by simp [Shape.parts]) _ _ t (behind found)
  | ahead count => rw [lookAhead_ahead shape]
  | guarded child count =>
    have guard : g.guard? id = some (child, count) := by simp [guard?, shape]
    rw [lookAhead_guard guard]
    exact each child (by simp [Shape.parts]) _ _ s rfl
  | named body =>
    by_cases shallow : depth < limit
    · have less := g.rank_body_lt shallow id body
      rw [lookAhead_named shape shallow]
      dsimp only
      rw [if_pos shallow]
      exact ih (depth + 1) body _ index s (by omega) long
    · rw [lookAhead_deep shape shallow]
      dsimp only
      rw [if_neg shallow]

namespace Parser

variable {σ ν : Type} {p : Parser σ ν}

/-- Rounds of a rule end, since each but the last consumes a token. -/
theorem rounds_within {oneWithin : ParseState σ → Option (Outcome ν × ParseState σ)}
    {one : ParseState σ → Outcome ν × ParseState σ} {tokens : Nat}
    (each : ∀ s, s.stream.rest.length ≤ tokens → oneWithin s = some (one s))
    (rounds : Nat) (s : ParseState σ) (length : s.stream.rest.length ≤ tokens)
    (enough : s.stream.rest.length < rounds) :
    Table.rounds oneWithin rounds s = some (Parser.rounds one s) := by
  induction rounds generalizing s with
  | zero => exact absurd enough (Nat.not_lt_zero _)
  | succ rounds ih =>
    rw [Table.rounds, rounds_eq]
    refine thenWithin_eq (each s length) fun nodes s₁ _ => ?_
    cases nodes with
    | none => rfl
    | some nodes =>
      dsimp only
      by_cases shorter : s₁.stream.rest.length < s.stream.rest.length
      · rw [if_pos shorter, if_pos shorter]
        exact thenWithin_eq (ih s₁ (by omega) (by omega)) fun _ _ _ => rfl
      · rw [if_neg shorter, if_neg shorter]

/-- An attempt over the rules of a grammar has a result. -/
theorem tryParse_within (p : Parser σ ν) (rounds calls depth : Nat) (within : Option Nat) (id : Nat)
    (s : ParseState σ) (deep : p.grammar.rank (p.limit - depth) id < calls)
    (long : s.stream.rest.length < rounds) :
    Table.tryParse p.grammar.shape? p rounds calls depth within id s =
      some (p.tryParse depth within id s) := by
  induction calls generalizing depth within id s with
  | zero => exact absurd deep (Nat.not_lt_zero _)
  | succ calls ih =>
  rw [Table.tryParse]
  cases shape : p.grammar.shape? id with
  | none => rw [tryParse_undefined shape]
  | some made =>
  have each (c : Nat) (part : c ∈ made.parts) (t : ParseState σ)
      (length : t.stream.rest.length ≤ s.stream.rest.length) :
      Table.tryParse p.grammar.shape? p rounds calls depth within c t =
        some (p.tryParse depth within c t) := by
    have less := p.grammar.rank_part_lt (p.limit - depth) shape part
    exact ih depth within c t (by omega) (by omega)
  have many (c : Nat) (part : c ∈ made.parts) (t : ParseState σ)
      (length : t.stream.rest.length ≤ s.stream.rest.length) :
      Table.rounds (Table.tryParse p.grammar.shape? p rounds calls depth within c) rounds t =
        some (Parser.rounds (p.tryParse depth within c) t) :=
    rounds_within (each c part) rounds t length (by omega)
  -- an attempt leaves no more tokens than there were before it
  have behind {c : Nat} {t t' : ParseState σ} {o : Option (List ν)}
      (found : p.tryParse depth within c t = (.ok o, t')) :
      t'.stream.rest.length ≤ t.stream.rest.length :=
    (run_of_tryParse found).rest_suffix.length_le
  have guarded {child count : Nat} (guard : p.grammar.guard? id = some (child, count)) :
      thenWithin ((Table.lookAhead p.grammar.shape? p.grammar p.limit rounds calls depth child count 0
          s.stream).map s.look) (fun
        | none, s => some (.ok none, s)
        | some _, s => Table.tryParse p.grammar.shape? p rounds calls depth within child s) =
      some (p.tryParse depth within id s) := by
    have part := Grammar.mem_parts_of_guard? guard shape
    have less := p.grammar.rank_part_lt (p.limit - depth) shape part
    have look := p.grammar.lookAhead_within p.limit rounds calls depth child count 0 s.stream
      (by omega) long
    have agrees := p.grammar.agrees_lookAhead p.limit depth child count 0 s.stream
    rw [tryParse_guard guard]
    refine thenWithin_eq (by rw [look, Option.map_some]) fun fit t found => ?_
    cases fit with
    | none => rfl
    | some fit =>
      refine each child part t ?_
      rw [← (Prod.mk.inj found).2]
      exact Nat.le_of_eq (congrArg List.length agrees.rest)
  cases made with
  | token k =>
    rw [tryParse_token shape]
    dsimp only
    rcases s.stream.peek 0 with e | ⟨_ | t, stream⟩ <;> try rfl
    dsimp only
    split <;> rfl
  | seq left right =>
    dsimp only
    split
    · exact guarded (by simp [Grammar.guard?, shape, ‹p.grammar.shape? left = _›])
    · rw [tryParse_seq shape (guard?_eq_none_of_seq shape ‹_›)]
      refine thenWithin_eq (each left (by simp [Shape.parts]) s (Nat.le_refl _)) fun nodes s₁ found => ?_
      cases nodes with
      | none => rfl
      | some nodes =>
        refine thenWithin_eq (each right (by simp [Shape.parts]) s₁ (behind found)) fun more s₂ _ => ?_
        cases more with
        | some more => rfl
        | none =>
          dsimp only
          split <;> rfl
  | alt left right =>
    rw [tryParse_alt shape]
    refine thenWithin_eq (each left (by simp [Shape.parts]) s (Nat.le_refl _)) fun nodes t found => ?_
    cases nodes with
    | some nodes => rfl
    | none => exact each right (by simp [Shape.parts]) t (behind found)
  | opt child =>
    rw [tryParse_opt shape]
    exact thenWithin_eq (each child (by simp [Shape.parts]) s (Nat.le_refl _)) fun _ _ _ => rfl
  | star child =>
    rw [tryParse_star shape]
    exact thenWithin_eq (many child (by simp [Shape.parts]) s (Nat.le_refl _)) fun _ _ _ => rfl
  | plus child =>
    rw [tryParse_plus shape]
    refine thenWithin_eq (each child (by simp [Shape.parts]) s (Nat.le_refl _)) fun nodes t found => ?_
    cases nodes with
    | none => rfl
    | some nodes =>
      exact thenWithin_eq (many child (by simp [Shape.parts]) t (behind found)) fun _ _ _ => rfl
  | ahead count => rw [tryParse_ahead shape]
  | guarded child count => exact guarded (by simp [Grammar.guard?, shape])
  | named body =>
    by_cases shallow : depth < p.limit
    · have less := p.grammar.rank_body_lt shallow id body
      rw [tryParse_named shape shallow]
      dsimp only
      rw [if_pos shallow]
      rcases begins : s.stream.place? with e | ⟨place, stream⟩
      · rfl
      · have rest := (Stream.agrees_of_place? begins).rest
        refine thenWithin_eq (ih (depth + 1) (some id) body { s with stream } (by omega)
          (by rw [rest]; exact long)) fun nodes t _ => ?_
        cases nodes <;> rfl
    · rw [tryParse_deep shape shallow]
      dsimp only
      rw [if_neg shallow]

/-- **Parsing ends.** With calls nested no deeper than the rank of the rule, that is than its number and
the number of rules for each level of nesting that is allowed, and with loops of no more rounds than
there are tokens and one, a check, an attempt and the parse of a whole text have a result, which is that
of the parser. -/
theorem parseRule_ends (p : Parser σ ν) (moreCalls moreRounds : Nat) :
    (∀ depth id budget index (s : Stream),
      Table.lookAhead p.grammar.shape? p.grammar p.limit (s.rest.length + 1 + moreRounds)
          (p.grammar.rank (p.limit - depth) id + 1 + moreCalls) depth id budget index s =
        some (p.grammar.lookAhead p.limit depth id budget index s)) ∧
    (∀ depth within id (s : ParseState σ),
      Table.tryParse p.grammar.shape? p (s.stream.rest.length + 1 + moreRounds)
          (p.grammar.rank (p.limit - depth) id + 1 + moreCalls) depth within id s =
        some (p.tryParse depth within id s)) ∧
    ∀ id text init,
      Table.parseRule p.grammar.shape? p ((p.grammar.scan text).tokens.length + 1 + moreRounds)
          (p.grammar.rank p.limit id + 1 + moreCalls) id text init =
        some (p.parseRule id text init) := by
  refine ⟨fun depth id budget index s => ?_, fun depth within id s => ?_, fun id text init => ?_⟩
  · exact p.grammar.lookAhead_within _ _ _ _ _ _ _ _ (by omega) (by omega)
  · exact p.tryParse_within _ _ _ _ _ _ (by omega) (by omega)
  · rw [Table.parseRule, tryParse_within p _ _ 0 none id _ (by rw [Nat.sub_zero]; omega)
      (by rw [Stream.rest_ofScan]; omega), parseRule, parseAll]
    rcases p.tryParse 0 none id ⟨.ofScan (p.grammar.scan text), init⟩ with ⟨e | (_ | nodes), s⟩
    · rfl
    · rfl
    · dsimp only [thenWithin, Option.bind_some]
      rcases s.stream.peek 0 with e | ⟨_ | t, stream⟩ <;> try rfl
      dsimp only
      rcases nodes with _ | ⟨node, _ | ⟨next, nodes⟩⟩ <;> try rfl

end Parser

end Rowlang
