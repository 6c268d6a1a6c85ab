import Rowlang.Proofs.Parsing.Progress

/-!
# Looking ahead

What a check of the next tokens finds, by the shape of the rule, and how that depends on where it
begins and on its budget. Statements for texts that can be scanned to their end; there, the only error
of a check is that of nesting too deeply.

* `Stream.Behind` : a stream as what is left of another behind some tokens;
* `Alike` : the same check from a later place or with a larger budget (`Grammar.alike_lookAhead`);
* `Balanced` : each token looked at is paid for (`Grammar.balanced_lookAhead`).
-/

namespace Rowlang
open Rowlang.Text

/-- What a check finds: the unspent budget and the index behind the tokens looked at, or nothing. -/
abbrev Finding := Except ParseError (Option (Nat × Nat))

/-- A check, given a budget and the index to begin at. -/
abbrev Check := Nat → Nat → Stream → Finding × Stream

/-- The limit of nesting was met. -/
def MeetsLimit {α : Type} (r : Except ParseError α) : Prop :=
  ∃ rule limit place, r = .error (.tooDeep rule limit place)

/-! ## One stream within another -/

namespace Stream.Agrees

variable {s t : Stream}

theorem symm (h : s.Agrees t) : t.Agrees s := ⟨h.rest.symm, h.ending.symm⟩

theorem peek (h : s.Agrees t) (n : Nat) : (s.peek n).map Prod.fst = (t.peek n).map Prod.fst := by
  unfold Stream.peek
  rw [h.rest, h.ending]
  cases s.rest[n]? with
  | some token => rfl
  | none => cases s.ending <;> rfl

theorem place? (h : s.Agrees t) : s.place?.map Prod.fst = t.place?.map Prod.fst := by
  have same := h.peek 0
  unfold Stream.place?
  cases hs : s.peek 0 with
  | error e =>
    cases ht : t.peek 0 with
    | error e' =>
      rw [hs, ht] at same
      exact congrArg Except.error (Except.error.inj same)
    | ok found =>
      rw [hs, ht] at same
      cases same
  | ok found =>
    cases ht : t.peek 0 with
    | error e =>
      rw [hs, ht] at same
      cases same
    | ok found' =>
      obtain ⟨x, s'⟩ := found
      obtain ⟨x', t'⟩ := found'
      rw [hs, ht] at same
      obtain rfl : x = x' := Except.ok.inj same
      have ending := ((h.symm.trans (Stream.agrees_of_peek hs)).symm.trans (Stream.agrees_of_peek ht)).ending
      cases x with
      | some token => rfl
      | none => exact congrArg (fun e => Except.ok (ScanEnd.place e)) ending.symm

end Stream.Agrees

theorem Grammar.tooDeepAt_congr {g : Grammar} {limit id : Nat} {s t : Stream} (h : s.Agrees t) :
    (g.tooDeepAt limit id s).1 = (g.tooDeepAt limit id t).1 := by
  have same := h.place?
  unfold tooDeepAt
  cases hs : s.place? <;> cases ht : t.place? <;> rw [hs, ht] at same
  · exact congrArg ParseError.lex (Except.error.inj same)
  · cases same
  · cases same
  · exact congrArg (ParseError.tooDeep _ _) (Except.ok.inj same)

/-- `t` can be scanned to its end, and `s` is what is left of it behind `ahead` tokens. -/
structure Stream.Behind (ahead : Nat) (t s : Stream) : Prop where
  complete : t.Complete
  rest : s.rest = t.rest.drop ahead
  ending : s.ending = t.ending

namespace Stream.Behind

variable {ahead : Nat} {t s : Stream}

theorem refl (complete : s.Complete) : s.Behind 0 s := ⟨complete, rfl, rfl⟩

theorem inner_complete (h : t.Behind ahead s) : s.Complete := by
  obtain ⟨place, ending⟩ := h.complete
  exact ⟨place, h.ending.trans ending⟩

theorem agrees (h : t.Behind 0 s) : s.Agrees t := ⟨h.rest.symm, h.ending.symm⟩

theorem of_agrees {t' s' : Stream} (h : t.Behind ahead s) (outer : t.Agrees t')
    (inner : s.Agrees s') : t'.Behind ahead s' where
  complete := h.complete.of_agrees outer
  rest := by rw [inner.rest, outer.rest, h.rest]
  ending := by rw [inner.ending, outer.ending, h.ending]

theorem getElem? (h : t.Behind ahead s) (n : Nat) : s.rest[n]? = t.rest[n + ahead]? := by
  rw [h.rest, List.getElem?_drop, Nat.add_comm]

theorem step {s' : Stream} {tokens : List Token} (h : t.Behind ahead s)
    (rest : s.rest = tokens ++ s'.rest) (ending : s'.ending = s.ending) :
    t.Behind (ahead + tokens.length) s' where
  complete := h.complete
  rest := by rw [← List.drop_drop, ← h.rest, rest, List.drop_left]
  ending := ending.trans h.ending

end Stream.Behind

/-! ## Checks by the shape of the rule -/

/-- A computation and what follows it; an error ends both. -/
def andThen {τ α β : Type} (first : Except ParseError α × τ) (next : α → τ → Except ParseError β × τ) :
    Except ParseError β × τ :=
  match first with
  | (.error e, s) => (.error e, s)
  | (.ok x, s) => next x s

theorem fitMany_zero (check : Check) (index : Nat) (s : Stream) :
    s.fitMany check 0 index = (.ok (some (0, index)), s) := by
  rw [Stream.fitMany, if_pos rfl]

/-- Rounds of a check, of which the last spends nothing or does not fit. -/
theorem fitMany_eq {check : Check} {index : Nat} {s : Stream}
    (zero : check 0 index s = (.ok (some (0, index)), s)) (budget : Nat) :
    s.fitMany check budget index = andThen (check budget index s) fun
      | none, s => (.ok (some (budget, index)), s)
      | some (budget', index'), s =>
        if budget' < budget then s.fitMany check budget' index'
        else (.ok (some (budget, index)), s) := by
  cases budget with
  | zero =>
    rw [fitMany_zero, zero]
    rfl
  | succ budget =>
    rw [Stream.fitMany, if_neg (Nat.succ_ne_zero _)]
    rcases check (budget + 1) index s with ⟨_ | (_ | _), s⟩ <;> rfl

/-- Behind a round that has spent the budget, rounds find the same. -/
theorem fitMany_spent (check : Check) (budget index last : Nat) (s : Stream) :
    ∃ last', (if 0 < budget then s.fitMany check 0 last else (.ok (some (budget, index)), s)).1 =
      .ok (some (0, last')) := by
  by_cases more : 0 < budget
  · exact ⟨last, by rw [if_pos more, fitMany_zero]⟩
  · exact ⟨index, by rw [if_neg more, Nat.eq_zero_of_not_pos more]⟩

namespace Grammar

variable {g : Grammar} {limit depth id budget index : Nat} {s : Stream}

theorem lookAhead_undefined (h : g.shape? id = none) :
    g.lookAhead limit depth id (budget + 1) index s = (.ok none, s) := by
  rw [lookAhead, if_neg (Nat.succ_ne_zero _)]
  split <;> rename_i h' <;> cases h.symm.trans h'
  rfl

theorem lookAhead_leaf {pattern : Nat} (h : g.shape? id = some (.token pattern)) :
    g.lookAhead limit depth id (budget + 1) index s = match s.peek index with
      | .error e => (.error (.lex e), s)
      | .ok (some t, s) => (.ok (if t.pattern = pattern then some (budget, index + 1) else none), s)
      | .ok (none, s) => (.ok none, s) := by
  rw [lookAhead, if_neg (Nat.succ_ne_zero _)]
  split <;> rename_i h' <;> cases h.symm.trans h'
  rfl

theorem lookAhead_seqThen {left right : Nat} (h : g.shape? id = some (.seq left right)) :
    g.lookAhead limit depth id budget index s =
      andThen (g.lookAhead limit depth left budget index s) fun
        | none, s => (.ok none, s)
        | some (budget, index), s => g.lookAhead limit depth right budget index s := by
  cases budget with
  | zero => simp only [lookAhead_zero, andThen]
  | succ budget =>
    rw [lookAhead_seq h]
    rcases g.lookAhead limit depth left (budget + 1) index s with ⟨_ | (_ | _), s⟩ <;> rfl

theorem lookAhead_alt {left right : Nat} (h : g.shape? id = some (.alt left right)) :
    g.lookAhead limit depth id budget index s =
      andThen (g.lookAhead limit depth left budget index s) fun
        | none, s => g.lookAhead limit depth right budget index s
        | some fit, s => (.ok (some fit), s) := by
  cases budget with
  | zero => simp only [lookAhead_zero, andThen]
  | succ budget =>
    rw [lookAhead, if_neg (Nat.succ_ne_zero _)]
    split <;> rename_i h' <;> cases h.symm.trans h'
    rcases g.lookAhead limit depth left (budget + 1) index s with ⟨_ | (_ | _), s⟩ <;> rfl

theorem lookAhead_opt {child : Nat} (h : g.shape? id = some (.opt child)) :
    g.lookAhead limit depth id budget index s =
      andThen (g.lookAhead limit depth child budget index s) fun fit s =>
        (.ok (some (fit.getD (budget, index))), s) := by
  cases budget with
  | zero => simp only [lookAhead_zero, andThen, Option.getD_some]
  | succ budget =>
    rw [lookAhead, if_neg (Nat.succ_ne_zero _)]
    split <;> rename_i h' <;> cases h.symm.trans h'
    rcases g.lookAhead limit depth child (budget + 1) index s with ⟨_ | _, s⟩ <;> rfl

theorem lookAhead_star {child : Nat} (h : g.shape? id = some (.star child)) :
    g.lookAhead limit depth id budget index s =
      s.fitMany (g.lookAhead limit depth child) budget index := by
  cases budget with
  | zero => rw [lookAhead_zero, fitMany_zero]
  | succ budget =>
    rw [lookAhead, if_neg (Nat.succ_ne_zero _)]
    split <;> rename_i h' <;> cases h.symm.trans h'
    rfl

theorem lookAhead_plus {child : Nat} (h : g.shape? id = some (.plus child)) :
    g.lookAhead limit depth id budget index s =
      andThen (g.lookAhead limit depth child budget index s) fun
        | none, s => (.ok none, s)
        | some (budget, index), s => s.fitMany (g.lookAhead limit depth child) budget index := by
  cases budget with
  | zero => simp only [lookAhead_zero, andThen, fitMany_zero]
  | succ budget =>
    rw [lookAhead, if_neg (Nat.succ_ne_zero _)]
    split <;> rename_i h' <;> cases h.symm.trans h'
    rcases g.lookAhead limit depth child (budget + 1) index s with ⟨_ | (_ | _), s⟩ <;> rfl

theorem lookAhead_ahead {count : Nat} (h : g.shape? id = some (.ahead count)) :
    g.lookAhead limit depth id budget index s = (.ok (some (budget, index)), s) := by
  cases budget with
  | zero => rw [lookAhead_zero]
  | succ budget =>
    rw [lookAhead, if_neg (Nat.succ_ne_zero _)]
    split <;> rename_i h' <;> cases h.symm.trans h'
    rfl

theorem lookAhead_named {body : Nat} (h : g.shape? id = some (.named body)) (shallow : depth < limit) :
    g.lookAhead limit depth id budget index s =
      g.lookAhead limit (depth + 1) body budget index s := by
  cases budget with
  | zero => rw [lookAhead_zero, lookAhead_zero]
  | succ budget =>
    rw [lookAhead, if_neg (Nat.succ_ne_zero _)]
    split <;> rename_i h' <;> cases h.symm.trans h'
    rw [dif_pos shallow]

theorem lookAhead_deep {body : Nat} (h : g.shape? id = some (.named body)) (deep : ¬ depth < limit) :
    g.lookAhead limit depth id (budget + 1) index s =
      (.error (g.tooDeepAt limit id s).1, (g.tooDeepAt limit id s).2) := by
  rw [lookAhead, if_neg (Nat.succ_ne_zero _)]
  split <;> rename_i h' <;> cases h.symm.trans h'
  rw [dif_neg deep]

/-- A check passes over guards, in either written form. -/
theorem lookAhead_guard {child count : Nat} (h : g.guard? id = some (child, count)) :
    g.lookAhead limit depth id budget index s = g.lookAhead limit depth child budget index s := by
  unfold guard? at h
  split at h
  · rename_i left right shape
    split at h <;> simp only [Option.some.injEq, Prod.mk.injEq, reduceCtorEq] at h
    obtain ⟨rfl, rfl⟩ := h
    rw [lookAhead_seqThen shape, lookAhead_ahead ‹g.shape? left = _›]
    rfl
  · rename_i shape
    simp only [Option.some.injEq, Prod.mk.injEq] at h
    obtain ⟨rfl, rfl⟩ := h
    cases budget with
    | zero => rw [lookAhead_zero, lookAhead_zero]
    | succ budget =>
      rw [lookAhead, if_neg (Nat.succ_ne_zero _)]
      split <;> rename_i h' <;> cases shape.symm.trans h'
      rfl
  · simp at h

theorem agrees_lookAhead (g : Grammar) (limit depth id budget index : Nat) (s : Stream) :
    s.Agrees (g.lookAhead limit depth id budget index s).2 :=
  (checkSound_lookAhead rfl).1

/-- Over a text that can be scanned to its end, the only error of a check is that of the limit. -/
theorem meetsLimit_of_lookAhead {e : ParseError} (complete : s.Complete)
    (h : (g.lookAhead limit depth id budget index s).1 = .error e) :
    MeetsLimit (g.lookAhead limit depth id budget index s).1 := by
  obtain ⟨place, ending⟩ := complete
  rcases (checkSound_lookAhead rfl).2 e h with ⟨l, rfl, failed⟩ | ⟨rule, limit, place, rfl⟩
  · cases ending.symm.trans failed
  · exact ⟨_, _, _, h⟩

end Grammar

/-! ## The same check elsewhere, and with a larger budget -/

/-- What `r'` finds, `ahead` places on and with `extra` more tokens to spend than `r`: the same, unless
`r` has spent all it had. The place of an error is that of the first token to come. -/
inductive Alike (extra ahead : Nat) : Finding → Finding → Prop
  | unfit : Alike extra ahead (.ok none) (.ok none)
  | fit {budget index : Nat} :
      Alike extra ahead (.ok (some (budget, index))) (.ok (some (budget + extra, index + ahead)))
  | limit {r r' : Finding} (first : MeetsLimit r) (second : MeetsLimit r')
      (same : ahead = 0 → r = r') : Alike extra ahead r r'
  | spent {index : Nat} {r' : Finding} (more : 0 < extra) :
      Alike extra ahead (.ok (some (0, index))) r'

theorem Alike.of_none {extra ahead : Nat} {r : Finding} (h : Alike extra ahead (.ok none) r) :
    r = .ok none := by
  generalize found : (.ok none : Finding) = r₀ at h
  cases h with
  | unfit => rfl
  | limit deep =>
    obtain ⟨_, _, _, rfl⟩ := deep
    cases found
  | _ => cases found

theorem Alike.of_fit {ahead budget index : Nat} {r : Finding}
    (h : Alike 0 ahead (.ok (some (budget, index))) r) : r = .ok (some (budget, index + ahead)) := by
  generalize found : (.ok (some (budget, index)) : Finding) = r₀ at h
  cases h with
  | fit =>
    cases found
    rfl
  | limit deep =>
    obtain ⟨_, _, _, rfl⟩ := deep
    cases found
  | spent more => exact absurd more (Nat.lt_irrefl 0)
  | unfit => cases found

theorem Alike.to_none {extra ahead : Nat} {r : Finding} (h : Alike extra ahead r (.ok none)) :
    r = .ok none ∨ ∃ last, r = .ok (some (0, last)) := by
  generalize found : (.ok none : Finding) = r₀ at h
  cases h with
  | unfit => exact .inl rfl
  | limit _ deep =>
    obtain ⟨_, _, _, rfl⟩ := deep
    cases found
  | fit => cases found
  | spent => exact .inr ⟨_, rfl⟩

/-- The check keeps the tokens to come, and finds alike wherever they stand. -/
structure Check.Even (extra : Nat) (check : Check) : Prop where
  zero : ∀ index s, check 0 index s = (.ok (some (0, index)), s)
  agrees : ∀ budget index (s : Stream), s.Agrees (check budget index s).2
  alike : ∀ {ahead : Nat} {t s : Stream}, t.Behind ahead s → ∀ budget index,
    Alike extra ahead (check budget index s).1 (check (budget + extra) (index + ahead) t).1

theorem Alike.follow {extra ahead : Nat} {first first' : Finding × Stream}
    {next next' : Option (Nat × Nat) → Stream → Finding × Stream}
    (alike : Alike extra ahead first.1 first'.1)
    (neither : Alike extra ahead (next none first.2).1 (next' none first'.2).1)
    (fit : ∀ budget index, Alike extra ahead (next (some (budget, index)) first.2).1
      (next' (some (budget + extra, index + ahead)) first'.2).1)
    (spent : ∀ index, ∃ last, (next (some (0, index)) first.2).1 = .ok (some (0, last))) :
    Alike extra ahead (andThen first next).1 (andThen first' next').1 := by
  obtain ⟨r, s⟩ := first
  obtain ⟨r', t⟩ := first'
  cases alike with
  | unfit => exact neither
  | fit => exact fit _ _
  | limit first second same =>
    obtain ⟨_, _, _, rfl⟩ := first
    obtain ⟨_, _, _, rfl⟩ := second
    exact .limit ⟨_, _, _, rfl⟩ ⟨_, _, _, rfl⟩ fun here => congrArg Except.error (Except.error.inj (same here))
  | @spent index _ more =>
    obtain ⟨last, same⟩ := spent index
    rw [show (andThen (.ok (some (0, index)), s) next).1 = .ok (some (0, last)) from same]
    exact .spent more

theorem Alike.of_zero {extra ahead : Nat} (check : Check) {t : Stream} {index : Nat}
    (zero : (check 0 (index + ahead) t).1 = .ok (some (0, index + ahead))) :
    Alike extra ahead (.ok (some (0, index))) (check (0 + extra) (index + ahead) t).1 := by
  by_cases more : extra = 0
  · subst more
    rw [zero]
    exact .fit
  · exact .spent (Nat.pos_of_ne_zero more)

theorem Check.Even.fitMany {extra : Nat} {check : Check} (even : Check.Even extra check) {ahead : Nat}
    {t s : Stream} (behind : t.Behind ahead s) (budget index : Nat) :
    Alike extra ahead (s.fitMany check budget index).1
      (t.fitMany check (budget + extra) (index + ahead)).1 := by
  rw [fitMany_eq (even.zero ..), fitMany_eq (even.zero ..)]
  refine (even.alike behind budget index).follow .fit (fun budget' index' => ?_)
    fun last => fitMany_spent _ _ _ last _
  dsimp only
  by_cases less : budget' < budget
  · rw [if_pos less, if_pos (by omega)]
    exact even.fitMany (behind.of_agrees (even.agrees ..) (even.agrees ..)) budget' index'
  · rw [if_neg less, if_neg (by omega)]
    exact .fit
termination_by budget

/-- A check finds alike wherever the tokens stand, and whatever more it may spend. -/
theorem Grammar.alike_lookAhead {g : Grammar} {limit depth id extra ahead : Nat} {t s : Stream}
    (behind : t.Behind ahead s) (budget index : Nat) :
    Alike extra ahead (g.lookAhead limit depth id budget index s).1
      (g.lookAhead limit depth id (budget + extra) (index + ahead) t).1 := by
  cases budget with
  | zero =>
    rw [lookAhead_zero]
    exact .of_zero (g.lookAhead limit depth id) (by rw [lookAhead_zero])
  | succ budget =>
  have sum : budget + 1 + extra = budget + extra + 1 := by omega
  cases shape : g.shape? id with
  | none =>
    rw [sum, lookAhead_undefined shape, lookAhead_undefined shape]
    exact .unfit
  | some made =>
  have even (c : Nat) (part : c ∈ made.parts) : Check.Even extra (g.lookAhead limit depth c) :=
    have := g.rank_part_lt (limit - depth) shape part
    ⟨fun _ _ => lookAhead_zero _, fun _ _ _ => g.agrees_lookAhead .., fun behind _ _ => alike_lookAhead behind _ _⟩
  cases made with
  | token k =>
    obtain ⟨_, -, look⟩ := @lookAhead_token g limit depth id s k budget shape behind.inner_complete index
    obtain ⟨_, -, look'⟩ := @lookAhead_token g limit depth id t k (budget + extra) shape behind.complete
      (index + ahead)
    rw [sum, look, look', behind.getElem?]
    by_cases same : t.rest[index + ahead]?.map (·.pattern) = some k
    · rw [if_pos same, if_pos same, Nat.add_right_comm]
      exact .fit
    · rw [if_neg same, if_neg same]
      exact .unfit
  | seq left right =>
    have first := even left (by simp [Shape.parts])
    have second := even right (by simp [Shape.parts])
    rw [lookAhead_seqThen shape, lookAhead_seqThen shape]
    exact (first.alike behind (budget + 1) index).follow .unfit
      (second.alike (behind.of_agrees (first.agrees ..) (first.agrees ..)))
      fun last => ⟨last, by simp only [lookAhead_zero]⟩
  | alt left right =>
    have first := even left (by simp [Shape.parts])
    have second := even right (by simp [Shape.parts])
    rw [lookAhead_alt shape, lookAhead_alt shape]
    exact (first.alike behind (budget + 1) index).follow
      (second.alike (behind.of_agrees (first.agrees ..) (first.agrees ..)) _ _) (fun _ _ => .fit)
      fun _ => ⟨_, rfl⟩
  | opt child =>
    have inner := even child (by simp [Shape.parts])
    rw [lookAhead_opt shape, lookAhead_opt shape]
    exact (inner.alike behind (budget + 1) index).follow .fit (fun _ _ => .fit) fun _ => ⟨_, rfl⟩
  | star child =>
    have inner := even child (by simp [Shape.parts])
    rw [lookAhead_star shape, lookAhead_star shape]
    exact inner.fitMany behind _ _
  | plus child =>
    have inner := even child (by simp [Shape.parts])
    rw [lookAhead_plus shape, lookAhead_plus shape]
    exact (inner.alike behind (budget + 1) index).follow .unfit
      (inner.fitMany (behind.of_agrees (inner.agrees ..) (inner.agrees ..)))
      fun last => ⟨last, by simp only [fitMany_zero]⟩
  | ahead count =>
    rw [lookAhead_ahead shape, lookAhead_ahead shape]
    exact .fit
  | guarded child count =>
    have inner := even child (by simp [Shape.parts])
    have guard : g.guard? id = some (child, count) := by simp [guard?, shape]
    rw [lookAhead_guard guard, lookAhead_guard guard]
    exact inner.alike behind _ _
  | named body =>
    by_cases shallow : depth < limit
    · have := g.rank_body_lt shallow id body
      rw [lookAhead_named shape shallow, lookAhead_named shape shallow]
      exact alike_lookAhead behind _ _
    · have error := @lookAhead_deep g limit depth id budget index s body shape shallow
      have error' := @lookAhead_deep g limit depth id (budget + extra) (index + ahead) t body shape shallow
      rw [sum]
      refine .limit (meetsLimit_of_lookAhead behind.inner_complete (congrArg Prod.fst error))
        (meetsLimit_of_lookAhead behind.complete (congrArg Prod.fst error')) fun here => ?_
      subst here
      rw [error, error', tooDeepAt_congr behind.agrees]
termination_by g.rank (limit - depth) id

/-! ## What is spent -/

/-- A fit has spent one of the budget for each token it is past. -/
structure Balanced (budget index : Nat) (r : Finding) : Prop where
  sum : ∀ fit, r = .ok (some fit) → fit.1 + fit.2 = budget + index

theorem balanced_self (budget index : Nat) : Balanced budget index (.ok (some (budget, index))) :=
  ⟨by rintro _ ⟨⟩; rfl⟩

theorem balanced_none (budget index : Nat) : Balanced budget index (.ok none) :=
  ⟨by rintro _ ⟨⟩⟩

theorem balanced_error (budget index : Nat) (e : ParseError) : Balanced budget index (.error e) :=
  ⟨by rintro _ ⟨⟩⟩

theorem Balanced.follow {budget index : Nat} {first : Finding × Stream}
    {next : Option (Nat × Nat) → Stream → Finding × Stream} (balanced : Balanced budget index first.1)
    (unfit : Balanced budget index (next none first.2).1)
    (fit : ∀ budget' index', budget' + index' = budget + index →
      Balanced budget index (next (some (budget', index')) first.2).1) :
    Balanced budget index (andThen first next).1 := by
  obtain ⟨e | (_ | ⟨budget', index'⟩), s⟩ := first
  · exact balanced_error _ _ e
  · exact unfit
  · exact fit _ _ (balanced.sum _ rfl)

theorem Balanced.of_sum {budget index budget' index' : Nat} {r : Finding}
    (h : Balanced budget' index' r) (same : budget' + index' = budget + index) :
    Balanced budget index r :=
  ⟨fun fit found => (h.sum fit found).trans same⟩

theorem balanced_fitMany {check : Check} (zero : ∀ index s, check 0 index s = (.ok (some (0, index)), s))
    (each : ∀ budget index s, Balanced budget index (check budget index s).1) (budget index : Nat)
    (s : Stream) : Balanced budget index (s.fitMany check budget index).1 := by
  rw [fitMany_eq (zero ..)]
  refine (each budget index s).follow (balanced_self _ _) fun budget' index' same => ?_
  dsimp only
  split
  · exact (balanced_fitMany zero each budget' index' _).of_sum same
  · exact balanced_self _ _
termination_by budget

/-- The unspent budget and the index behind the tokens looked at have the same sum all the time. -/
theorem Grammar.balanced_lookAhead (g : Grammar) (limit depth id budget index : Nat) (s : Stream) :
    Balanced budget index (g.lookAhead limit depth id budget index s).1 := by
  cases budget with
  | zero =>
    rw [lookAhead_zero]
    exact balanced_self 0 index
  | succ budget =>
  cases shape : g.shape? id with
  | none =>
    rw [lookAhead_undefined shape]
    exact balanced_none _ _
  | some made =>
  have each (c : Nat) (part : c ∈ made.parts) budget index s :
      Balanced budget index (g.lookAhead limit depth c budget index s).1 :=
    have := g.rank_part_lt (limit - depth) shape part
    g.balanced_lookAhead ..
  cases made with
  | token k =>
    rw [lookAhead_leaf shape]
    split
    · exact balanced_error _ _ _
    · dsimp only
      split
      · exact (balanced_self budget (index + 1)).of_sum (by omega)
      · exact balanced_none _ _
    · exact balanced_none _ _
  | seq left right =>
    rw [lookAhead_seqThen shape]
    exact (each left (by simp [Shape.parts]) ..).follow (balanced_none _ _) fun _ _ same =>
      (each right (by simp [Shape.parts]) ..).of_sum same
  | alt left right =>
    rw [lookAhead_alt shape]
    exact (each left (by simp [Shape.parts]) ..).follow (each right (by simp [Shape.parts]) ..)
      fun _ _ same => (balanced_self ..).of_sum same
  | opt child =>
    rw [lookAhead_opt shape]
    exact (each child (by simp [Shape.parts]) ..).follow (balanced_self _ _)
      fun _ _ same => (balanced_self ..).of_sum same
  | star child =>
    rw [lookAhead_star shape]
    exact balanced_fitMany (fun _ _ => lookAhead_zero _) (each child (by simp [Shape.parts])) ..
  | plus child =>
    rw [lookAhead_plus shape]
    exact (each child (by simp [Shape.parts]) ..).follow (balanced_none _ _) fun _ _ same =>
      (balanced_fitMany (fun _ _ => lookAhead_zero _) (each child (by simp [Shape.parts])) ..).of_sum same
  | ahead count =>
    rw [lookAhead_ahead shape]
    exact balanced_self _ _
  | guarded child count =>
    have guard : g.guard? id = some (child, count) := by simp [guard?, shape]
    rw [lookAhead_guard guard]
    exact each child (by simp [Shape.parts]) ..
  | named body =>
    by_cases shallow : depth < limit
    · have := g.rank_body_lt shallow id body
      rw [lookAhead_named shape shallow]
      exact g.balanced_lookAhead ..
    · rw [lookAhead_deep shape shallow]
      exact balanced_error _ _ _
termination_by g.rank (limit - depth) id

end Rowlang
