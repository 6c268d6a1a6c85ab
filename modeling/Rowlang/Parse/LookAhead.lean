import Rowlang.Grammar.Printer
import Rowlang.Parse.Error
import Rowlang.Parse.Stream

/-!
# Looking ahead

Whether the next tokens fit a rule, decided without consuming any. A budget bounds the tokens looked
at; when it is spent, what was seen counts as a fit.

* `Grammar.lookAhead` : the unspent budget and the index behind the tokens looked at, or nothing if
  they do not fit;
* `Stream.fitMany` : the same for a repetition, given what one round fits.
-/

namespace Rowlang
open Rowlang.Text

/-- The error of nesting the rule `id` too deeply. -/
def Grammar.tooDeepAt (g : Grammar) (limit : Nat) (id : Nat) (s : Stream) : ParseError × Stream :=
  match s.place? with
  | .error e => (.lex e, s)
  | .ok (place, s) => (.tooDeep (g.ruleName id) limit place, s)

/-- How far rounds of a check reach from `index` on: as many as fit, each spending some of the budget.
There may be none. -/
def Stream.fitMany (fit : Nat → Nat → Stream → Except ParseError (Option (Nat × Nat)) × Stream)
    (budget index : Nat) (s : Stream) : Except ParseError (Option (Nat × Nat)) × Stream :=
  if budget = 0 then (.ok (some (budget, index)), s)
  else
    match fit budget index s with
    | (.error e, s) => (.error e, s)
    | (.ok none, s) => (.ok (some (budget, index)), s)
    | (.ok (some (budget', index')), s) =>
      if budget' < budget then s.fitMany fit budget' index'
      else (.ok (some (budget, index)), s)
termination_by budget

/-- Whether the tokens from `index` on fit the rule `id`, spending at most `budget` of them, with
`depth` named rules open. -/
def Grammar.lookAhead (g : Grammar) (limit depth : Nat) (id budget index : Nat) (s : Stream) :
    Except ParseError (Option (Nat × Nat)) × Stream :=
  if budget = 0 then (.ok (some (0, index)), s)
  else
    match h : g.shape? id with
    | none => (.ok none, s)
    | some (.token pattern) =>
      match s.peek index with
      | .error e => (.error (.lex e), s)
      | .ok (some t, s) =>
        (.ok (if t.pattern = pattern then some (budget - 1, index + 1) else none), s)
      | .ok (none, s) => (.ok none, s)
    | some (.seq left right) =>
      have := g.rank_part_lt (limit - depth) h (c := left) (by simp [Shape.parts])
      have := g.rank_part_lt (limit - depth) h (c := right) (by simp [Shape.parts])
      match g.lookAhead limit depth left budget index s with
      | (.error e, s) => (.error e, s)
      | (.ok none, s) => (.ok none, s)
      | (.ok (some (budget, index)), s) => g.lookAhead limit depth right budget index s
    | some (.alt left right) =>
      have := g.rank_part_lt (limit - depth) h (c := left) (by simp [Shape.parts])
      have := g.rank_part_lt (limit - depth) h (c := right) (by simp [Shape.parts])
      match g.lookAhead limit depth left budget index s with
      | (.error e, s) => (.error e, s)
      | (.ok (some fit), s) => (.ok (some fit), s)
      | (.ok none, s) => g.lookAhead limit depth right budget index s
    | some (.opt child) =>
      have := g.rank_part_lt (limit - depth) h (c := child) (by simp [Shape.parts])
      match g.lookAhead limit depth child budget index s with
      | (.error e, s) => (.error e, s)
      | (.ok fit, s) => (.ok (some (fit.getD (budget, index))), s)
    | some (.star child) =>
      have := g.rank_part_lt (limit - depth) h (c := child) (by simp [Shape.parts])
      s.fitMany (g.lookAhead limit depth child) budget index
    | some (.plus child) =>
      have := g.rank_part_lt (limit - depth) h (c := child) (by simp [Shape.parts])
      match g.lookAhead limit depth child budget index s with
      | (.error e, s) => (.error e, s)
      | (.ok none, s) => (.ok none, s)
      | (.ok (some (budget, index)), s) =>
        s.fitMany (g.lookAhead limit depth child) budget index
    | some (.ahead _) => (.ok (some (budget, index)), s)
    | some (.guarded child _) =>
      have := g.rank_part_lt (limit - depth) h (c := child) (by simp [Shape.parts])
      g.lookAhead limit depth child budget index s
    | some (.named body) =>
      if deeper : depth < limit then
        have := g.rank_body_lt deeper id body
        g.lookAhead limit (depth + 1) body budget index s
      else
        let (e, s) := g.tooDeepAt limit id s
        (.error e, s)
termination_by g.rank (limit - depth) id

end Rowlang
