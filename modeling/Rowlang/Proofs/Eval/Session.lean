import Rowlang.Proofs.Eval.Frame
import Rowlang.Proofs.Eval.RowOrder

/-!
# Rows in one session

An evaluation without assignments remembers the calls that it resolves. So in one session a row has one value,
whichever evaluation comes to it first, and also where a loop stops before it has looked at all rows.

* `RunsTo` : a function evaluated on some elements, one after the other;
* `LooksAt` : a loop that makes its result of the values on the rows, and may stop early;
* `Evaluator.LooksThrough` : one that evaluates an expression on all rows;
* `Evaluator.Settled` : an expression whose value on a row is known for the rest of the session;
* `InSession` : evaluations at different times in one session;
* `LooksAt.inSession`, `LooksAt.together` : they see the same values on the same rows;
* `Evaluator.SameValues` : evaluations that do so for other reasons.
-/

namespace Rowlang
open Value

/-! ## Loops over rows -/

/-- Evaluated on the elements one after the other, from a state on, the function gives the values and ends in
the other state. -/
inductive RunsTo {α β : Type} (f : α → Eval β) : EvalState → List α → List β → EvalState → Prop
  | nil (s : EvalState) : RunsTo f s [] [] s
  | cons {s s' s'' : EvalState} {a : α} {b : β} {l : List α} {bs : List β} (first : (f a).run s = (b, s'))
      (later : RunsTo f s' l bs s'') : RunsTo f s (a :: l) (b :: bs) s''

namespace RunsTo

variable {α β : Type} {f : α → Eval β} {s s' : EvalState} {l : List α} {bs : List β}

theorem of_mapM (f : α → Eval β) (s : EvalState) (l : List α) :
    RunsTo f s l ((l.mapM f).run s).1 ((l.mapM f).run s).2 := by
  induction l generalizing s with
  | nil => exact .nil s
  | cons a rest ih =>
    have step : ((a :: rest).mapM f).run s =
        (((f a).run s).1 :: ((rest.mapM f).run ((f a).run s).2).1, ((rest.mapM f).run ((f a).run s).2).2) := by
      rw [List.mapM_cons]
      rfl
    rw [step]
    exact .cons rfl (ih _)

theorem length_eq (h : RunsTo f s l bs s') : bs.length = l.length := by
  induction h with
  | nil => rfl
  | cons _ _ ih => rw [List.length_cons, List.length_cons, ih]

theorem mapM (h : RunsTo f s l bs s') : (l.mapM f).run s = (bs, s') := by
  induction h with
  | nil => rfl
  | cons first _ ih =>
    rw [List.mapM_cons, Eval.run_bind first, Eval.run_bind ih]
    rfl

theorem forall₂ {R : α → β → Prop} (h : RunsTo f s l bs s') (each : ∀ a ∈ l, ∀ s, R a ((f a).run s).1) :
    List.Forall₂ R l bs := by
  induction h with
  | nil => exact .nil
  | @cons s _ _ _ _ _ _ first _ ih =>
    obtain ⟨here, later⟩ := List.forall_mem_cons.1 each
    have given := here s
    rw [first] at given
    exact .cons given (ih later)

theorem values_prefix {t : EvalState} {first : List α} {vs : List β} (h : RunsTo f s l bs s')
    (seen : RunsTo f s first vs t) (part : first <+: l) : vs <+: bs := by
  induction seen generalizing l bs with
  | nil => exact List.nil_prefix
  | @cons _ _ _ a b _ _ given _ ih =>
    cases h with
    | nil => cases List.prefix_nil.1 part
    | cons given' later =>
      obtain ⟨rfl, behind⟩ := List.cons_prefix_cons.1 part
      obtain ⟨rfl, rfl⟩ := Prod.mk.inj (given.symm.trans given')
      exact List.cons_prefix_cons.2 ⟨rfl, ih later behind⟩

end RunsTo

/-- From every state, the loop evaluates the function on some first ones of the rows, and its result is made
of the values on all rows, whatever those are on the rows that it does not come to. -/
def LooksAt {α : Type} (f : Value → Eval Value) (rows : List Value) (m : Eval α) (out : List Value → α) :
    Prop :=
  ∀ s, ∃ seen values, seen <+: rows ∧ RunsTo f s seen values (m.run s).2 ∧
    ∀ all, values <+: all → all.length = rows.length → (m.run s).1 = out all

namespace LooksAt

variable {α β : Type} {f : Value → Eval Value} {rows : List Value} {m : Eval α} {out : List Value → α}

/-- A loop stops where its result does not depend on the values that are left. -/
theorem stop {a : α} (known : ∀ all, all.length = rows.length → out all = a) :
    LooksAt f rows (pure a) out :=
  fun s => ⟨[], [], List.nil_prefix, .nil s, fun all _ length => (known all length).symm⟩

theorem cons {row : Value} {next : Value → Eval α}
    (later : ∀ v, LooksAt f rows (next v) fun all => out (v :: all)) :
    LooksAt f (row :: rows) (f row >>= next) out := by
  intro s
  obtain ⟨seen, values, first, runs, given⟩ := later ((f row).run s).1 ((f row).run s).2
  have run : (f row >>= next).run s = (next ((f row).run s).1).run ((f row).run s).2 := Eval.run_bind rfl
  rw [run]
  refine ⟨row :: seen, ((f row).run s).1 :: values, List.cons_prefix_cons.2 ⟨rfl, first⟩, .cons rfl runs, ?_⟩
  rintro (_ | ⟨v, all⟩) begins length
  · cases List.prefix_nil.1 begins
  · obtain ⟨rfl, behind⟩ := List.cons_prefix_cons.1 begins
    exact given all behind (Nat.succ.inj length)

theorem map (h : LooksAt f rows m out) (g : α → β) :
    LooksAt f rows (m >>= fun a => pure (g a)) fun all => g (out all) := by
  intro s
  obtain ⟨seen, values, first, runs, given⟩ := h s
  exact ⟨seen, values, first, runs, fun all begins length => congrArg g (given all begins length)⟩

theorem value {s s' : EvalState} {values : List Value} (h : LooksAt f rows m out)
    (runs : RunsTo f s rows values s') : (m.run s).1 = out values := by
  obtain ⟨seen, some, first, runs', given⟩ := h s
  exact given values (runs.values_prefix runs' first) runs.length_eq

end LooksAt

/-! ## Values in one session -/

/-- Of two evaluations in one session the later one starts with all that the earlier has remembered. -/
def InSession {α β : Type} (m : Eval α) (s : EvalState) (m' : Eval β) (s' : EvalState) : Prop :=
  (m.run s).2.Extends s' ∨ (m'.run s').2.Extends s

/-- Two evaluations start in one state, or they are in one session. -/
def Together {α β : Type} (m : Eval α) (s : EvalState) (m' : Eval β) (s' : EvalState) : Prop :=
  s = s' ∨ InSession m s m' s'

namespace Evaluator

variable {env : Evaluator} {e : Expr} {s s' : EvalState} {rows : List Value}

/-- From the state on, and from all that remember more, the expression has the value on the row. -/
def Settled (env : Evaluator) (s : EvalState) (e : Expr) (row v : Value) : Prop :=
  ∀ s', s.Extends s' → (env.evaluate row e).run s' = (v, s')

namespace Settled

variable {row v : Value}

theorem mono (h : env.Settled s e row v) (more : s.Extends s') : env.Settled s' e row v :=
  fun s'' more' => h s'' (more.trans more')

theorem valueOn (h : env.Settled s e row v) : env.valueOn s e row = v :=
  congrArg Prod.fst (h s (.refl s))

end Settled

/-- The state in which the rows have been evaluated. -/
def stateAfter (env : Evaluator) (s : EvalState) (e : Expr) (rows : List Value) : EvalState :=
  ((rows.mapM fun row => env.evaluate row e).run s).2

theorem runsTo_keyValues (env : Evaluator) (s : EvalState) (e : Expr) (rows : List Value) :
    RunsTo (fun row => env.evaluate row e) s rows (env.keyValues s e rows) (env.stateAfter s e rows) :=
  .of_mapM _ s rows

/-- The evaluation looks at the values of an expression on all rows. -/
def LooksThrough {α : Type} (env : Evaluator) (e : Expr) (rows : List Value) (m : Eval α)
    (out : List Value → α) : Prop :=
  ∀ s, m.run s = (out (env.keyValues s e rows), env.stateAfter s e rows)

theorem LooksThrough.looksAt {α : Type} {m : Eval α} {out : List Value → α}
    (h : env.LooksThrough e rows m out) : LooksAt (fun row => env.evaluate row e) rows m out := by
  intro s
  have runs := env.runsTo_keyValues s e rows
  rw [h s]
  refine ⟨rows, env.keyValues s e rows, List.prefix_rfl, runs, fun all begins length => ?_⟩
  exact congrArg out (begins.eq_of_length (runs.length_eq.trans length.symm))

/-- An expression without assignments is settled once it has been evaluated. -/
theorem settled_of_runsTo (free : e.AssignmentFree) {values : List Value}
    (runs : RunsTo (fun row => env.evaluate row e) s rows values s') :
    s.Extends s' ∧ List.Forall₂ (env.Settled s' e) rows values := by
  induction runs with
  | nil => exact ⟨.refl _, .nil⟩
  | @cons s s₁ _ row v _ _ first _ ih =>
    have holds : env.replaying.Holds (env.evaluate row e) (Within fun _ => True) :=
      env.replaying.evaluate (free.uses e.literalsWithin_all) fun _ _ => trivial
    obtain ⟨-, more, again⟩ := holds s
    rw [first] at more again
    obtain ⟨more', others⟩ := ih
    exact ⟨more.trans more', .cons (Settled.mono again more') others⟩

theorem eq_map_of_settled {values : List Value} (settled : List.Forall₂ (env.Settled s e) rows values) :
    values = rows.map (env.valueOn s e) := by
  refine (List.forall₂_eq_eq_eq ▸ List.forall₂_map_left_iff.2 (settled.imp fun row v here => ?_) :
    rows.map (env.valueOn s e) = values).symm
  exact here.valueOn

/-- The values that came up on the rows are those that the rows have then. -/
theorem keyValues_eq_map (free : e.AssignmentFree) (s : EvalState) (rows : List Value) :
    env.keyValues s e rows = rows.map (env.valueOn (env.stateAfter s e rows) e) :=
  eq_map_of_settled (settled_of_runsTo free (env.runsTo_keyValues s e rows)).2

theorem settled_stateAfter (free : e.AssignmentFree) (s : EvalState) {row : Value} (listed : row ∈ rows) :
    env.Settled (env.stateAfter s e rows) e row (env.valueOn (env.stateAfter s e rows) e row) := by
  have settled := (settled_of_runsTo free (env.runsTo_keyValues s e rows)).2
  rw [eq_map_of_settled settled, List.forall₂_map_right_iff, List.forall₂_same] at settled
  exact settled row listed

/-- Rows that are evaluated at another time in a session have the same values. -/
theorem runsTo_inSession (free : e.AssignmentFree) {seen values : List Value} {t : EvalState}
    (inside : ∀ r ∈ seen, r ∈ rows) (runs : RunsTo (fun row => env.evaluate row e) s' seen values t)
    (one : (env.stateAfter s e rows).Extends s' ∨ t.Extends s) :
    values = seen.map (env.valueOn (env.stateAfter s e rows) e) := by
  obtain ⟨more, settled⟩ := settled_of_runsTo free runs
  rcases one with later | earlier
  · rw [eq_map_of_settled settled]
    refine List.map_congr_left fun r listed => ?_
    exact ((settled_stateAfter free s (inside r listed)).mono (later.trans more)).valueOn
  · have more' := (settled_of_runsTo free (env.runsTo_keyValues s e rows)).1
    exact eq_map_of_settled (settled.imp fun _ _ here => here.mono (earlier.trans more'))

/-- Evaluated on some rows from one state and on others from another, the expression has one value on each. -/
def SameValues (env : Evaluator) (e : Expr) (s : EvalState) (rows : List Value) (s' : EvalState)
    (part : List Value) : Prop :=
  ∃ value : Value → Value, env.keyValues s e rows = rows.map value ∧ env.keyValues s' e part = part.map value

theorem SameValues.eq_map {part : List Value} (h : env.SameValues e s rows s' part) (free : e.AssignmentFree)
    (inside : ∀ r ∈ part, r ∈ rows) :
    env.keyValues s' e part = part.map (env.valueOn (env.stateAfter s e rows) e) := by
  obtain ⟨value, whole, same⟩ := h
  rw [keyValues_eq_map free, List.map_inj_left] at whole
  rw [same]
  exact List.map_congr_left fun r listed => (whole r (inside r listed)).symm

end Evaluator

namespace LooksAt

variable {α β : Type} {env : Evaluator} {e : Expr} {s s' : EvalState} {rows : List Value} {m : Eval α}
  {out : List Value → α} {m' : Eval β} {out' : List Value → β}

/-- At another time in a session, a loop over some of the rows sees the values that they have. -/
theorem inSession {part : List Value} (h : LooksAt (fun row => env.evaluate row e) part m' out')
    (whole : env.LooksThrough e rows m out) (free : e.AssignmentFree) (inside : ∀ r ∈ part, r ∈ rows)
    (one : InSession m s m' s') :
    (m'.run s').1 = out' (part.map (env.valueOn (env.stateAfter s e rows) e)) := by
  obtain ⟨seen, values, first, runs, given⟩ := h s'
  rw [InSession, whole s] at one
  have same := Evaluator.runsTo_inSession free (fun r listed => inside r (first.subset listed)) runs one
  exact given _ (same ▸ first.map _) (List.length_map _)

/-- In the same state, or at another time in a session, a loop over the same rows sees the same values. -/
theorem together (h : LooksAt (fun row => env.evaluate row e) rows m' out')
    (whole : env.LooksThrough e rows m out) (free : e.AssignmentFree) (one : Together m s m' s') :
    (m'.run s').1 = out' (env.keyValues s e rows) := by
  rcases one with rfl | one
  · exact h.value (env.runsTo_keyValues s e rows)
  · rw [h.inSession whole free (fun _ listed => listed) one, ← Evaluator.keyValues_eq_map free]

end LooksAt

namespace Evaluator

theorem runsTo_self {env : Evaluator} {rows : List Value}
    (plain : ∀ r ∈ rows, IsPlain r ∧ ∀ ref, r ≠ .object ref) (s : EvalState) :
    RunsTo (fun row => env.evaluate row (.key "self")) s rows rows s := by
  induction rows with
  | nil => exact .nil s
  | cons r rest ih =>
    obtain ⟨⟨list, object⟩, later⟩ := List.forall_mem_cons.1 plain
    refine .cons ?_ (ih later)
    rw [evaluate_row list, evaluateRow]
    cases r <;> first | rfl | exact absurd rfl (object _)

theorem keyValues_self {env : Evaluator} {rows : List Value}
    (plain : ∀ r ∈ rows, IsPlain r ∧ ∀ ref, r ≠ .object ref) (s : EvalState) :
    env.keyValues s (.key "self") rows = rows := by
  rw [keyValues, (runsTo_self plain s).mapM]

end Evaluator

theorem Aggregate.ofName?_name (a : Aggregate) : Aggregate.ofName? a.name = some a := by
  cases a <;> decide +kernel

end Rowlang
