import Rowlang.Eval.Evaluator

/-!
# Which variables a path of keys reads

A variable is meant to be visible at the head of a path only. That holds as far as no list comes up on
the way: the keys that are evaluated over a list begin anew, and each of them may name a variable.

* `Evaluator.aggregate_key`, `Evaluator.evaluateSteps_key` and the like : the evaluation of keys;
* `SameFrom` : an evaluation that gives the same value from two states, and changes neither;
* `Evaluator.keysOverList` : the keys of a path that are evaluated over a list;
* `Evaluator.evaluate_keys` : the variables that a path of keys reads, and where the last key shows one.
-/

namespace Rowlang

theorem Value.list_or_row (v : Value) :
    (∃ items key, v = .list items key) ∨ ∀ items key, v ≠ .list items key := by
  cases v with
  | list items key => exact .inl ⟨items, key, rfl⟩
  | _ => exact .inr (by simp)

/-! ## Keys -/

namespace Evaluator

variable {env : Evaluator}

/-- A path evaluated with a list as the current value and, if that is null, on its first item. -/
def evaluateWhole (env : Evaluator) (items : List Value) (key : Option String) (first : String)
    (later : List Expr) : Eval Value := do
  let v ← env.lookupKey (.list items key) first true
  match ← env.evaluateSteps v later, items with
  | .null, row :: _ => env.evaluateSteps row (.key first :: later)
  | v, _ => return v

theorem aggregate_key {items : List Value} {key : Option String} {first : String} {later : List Expr}
    (plain : Aggregate.ofName? first = none) :
    env.aggregate items key (.key first :: later) = match items with
      | .list group groupKey :: _ =>
        if !referencesAggregate (.key first :: later) &&
            key != some (renderSteps (.key first :: later)) then
          env.aggregate group groupKey (.key first :: later)
        else env.evaluateWhole items key first later
      | _ => env.evaluateWhole items key first later := by
  have named : (Expr.key first).aggregate? = none := plain
  rw [aggregate]
  split
  · rename_i h
    cases named.symm.trans h
  · rw [evaluateRow]
    rfl

theorem evaluateChain_key {origin v : Value} {head : Bool} {name : String} {later : List Expr}
    (row : head = false → ∀ items key, v ≠ .list items key) :
    env.evaluateChain origin v head (.key name :: later) =
      env.lookupKey v name head >>= fun next => env.evaluateChain origin next false later := by
  rw [evaluateChain.eq_def]
  dsimp only
  split
  · exact absurd rfl (row rfl _ _)
  · rfl

theorem evaluate_list {items : List Value} {key : Option String} {e : Expr} (path : e.isPath = true) :
    env.evaluate (.list items key) e = env.aggregate items key e.steps := by
  rw [evaluate, if_pos path]

theorem evaluate_row {v : Value} (row : ∀ items key, v ≠ .list items key) (e : Expr) :
    env.evaluate v e = env.evaluateRow v e := by
  rw [evaluate.eq_def]
  cases v <;> first | rfl | exact absurd rfl (row _ _)

theorem evaluateSteps_list {items : List Value} {key : Option String} (name : String)
    (later : List Expr) : env.evaluateSteps (.list items key) (.key name :: later) =
      env.aggregate items key (.key name :: later) := by
  cases later with
  | nil =>
    rw [evaluateSteps, evaluate_list rfl]
    rfl
  | cons second rest => rw [evaluateSteps]

theorem evaluateSteps_row {v : Value} (row : ∀ items key, v ≠ .list items key) (name : String)
    (later : List Expr) : env.evaluateSteps v (.key name :: later) =
      env.lookupKey v name true >>= fun next => env.evaluateChain v next false later := by
  cases later with
  | nil =>
    rw [evaluateSteps, evaluate_row row, evaluateRow]
    simp only [evaluateChain, bind_pure]
  | cons second rest =>
    rw [← evaluateChain_key (by simp), evaluateSteps.eq_def]
    cases v <;> first | rfl | exact absurd rfl (row _ _)

theorem evaluate_chain (v : Value) (name : String) (later : List Expr) :
    env.evaluate v (.chain (.key name :: later)) = env.evaluateSteps v (.key name :: later) := by
  rcases v.list_or_row with ⟨items, key, rfl⟩ | row
  · rw [evaluateSteps_list, evaluate_list rfl, Expr.steps]
  · rw [evaluateSteps_row row, ← evaluateChain_key (by simp), evaluate_row row, evaluateRow]

theorem evaluate_ofSteps (env : Evaluator) {names : List String} (some_key : names ≠ []) (v : Value) :
    env.evaluate v (.ofSteps (names.map .key)) = env.evaluateSteps v (names.map .key) := by
  match names with
  | [name] =>
    rw [evaluateSteps.eq_def]
    rfl
  | name :: second :: rest => exact env.evaluate_chain v name _

theorem evaluateChain_list {origin : Value} {items : List Value} {key : Option String} (name : String)
    (later : List Expr) : env.evaluateChain origin (.list items key) false (.key name :: later) =
      env.evaluateSteps (.list items key) (.key name :: later) := by
  rw [evaluateSteps_list, evaluateChain]

/-- The keys of a path that are evaluated over a list: those from the first on that has a list before
it. -/
def keysOverList (env : Evaluator) (s : EvalState) : Value → Bool → List String → List String
  | .list .., _, names => names
  | _, _, [] => []
  | v, head, name :: later =>
    env.keysOverList s ((env.lookupKey v name head).run s).1 false later

theorem keysOverList_suffix (env : Evaluator) (s : EvalState) (v : Value) (head : Bool)
    (names : List String) : env.keysOverList s v head names <:+ names := by
  induction names generalizing v head with
  | nil => cases v <;> exact List.suffix_rfl
  | cons name later ih =>
    cases v with
    | list => exact List.suffix_rfl
    | _ => exact (ih _ _).trans (List.suffix_cons name later)

theorem keysOverList_row {s : EvalState} {v : Value} {head : Bool} {name : String}
    {later : List String} (row : ∀ items key, v ≠ .list items key) :
    env.keysOverList s v head (name :: later) =
      env.keysOverList s ((env.lookupKey v name head).run s).1 false later := by
  cases v <;> first | rfl | exact absurd rfl (row _ _)

end Evaluator

/-! ## Two states -/

theorem Eval.run_bind {α β : Type} {m : Eval α} {f : α → Eval β} {s s' : EvalState} {x : α}
    (h : m.run s = (x, s')) : (m >>= f).run s = (f x).run s' := by
  show (f (m.run s).1).run (m.run s).2 = _
  rw [h]

/-- From both states the evaluation gives the same value, and it changes neither. -/
structure SameFrom {α : Type} (s s' : EvalState) (m : Eval α) : Prop where
  value : (m.run s').1 = (m.run s).1
  left : (m.run s).2 = s
  right : (m.run s').2 = s'

namespace SameFrom

variable {α β : Type} {s s' : EvalState}

theorem pure (x : α) : SameFrom s s' (Pure.pure x : Eval α) := ⟨rfl, rfl, rfl⟩

theorem bind {m : Eval α} {f : α → Eval β} (first : SameFrom s s' m)
    (next : ∀ x, x = (m.run s).1 → SameFrom s s' (f x)) : SameFrom s s' (m >>= f) := by
  have ends : m.run s = ((m.run s).1, s) := Prod.ext rfl first.left
  have ends' : m.run s' = ((m.run s).1, s') := Prod.ext first.value first.right
  obtain ⟨value, left, right⟩ := next _ rfl
  constructor
  · rw [Eval.run_bind ends, Eval.run_bind ends', value]
  · rw [Eval.run_bind ends, left]
  · rw [Eval.run_bind ends', right]

end SameFrom

/-- Both states give the variables of the names the same values. -/
def AgreeOn (s s' : EvalState) (names : List String) : Prop :=
  ∀ n ∈ names, s'.bindings.get? n = s.bindings.get? n

namespace Evaluator

variable {env : Evaluator} {s s' : EvalState}

/-- A key reads the variable of its name, and only at the head of a path. -/
theorem sameFrom_lookupKey {v : Value} {name : String} {head : Bool}
    (same : head = true → s'.bindings.get? name = s.bindings.get? name) :
    SameFrom s s' (env.lookupKey v name head) := by
  unfold lookupKey
  dsimp only
  split
  · exact .pure _
  · split
    · exact .pure _
    · split
      · have read (s : EvalState) : (do return ((← get).bindings.get? name).getD .null : Eval Value).run s
            = ((s.bindings.get? name).getD .null, s) := rfl
        refine ⟨?_, rfl, rfl⟩
        rw [read, read, same ‹_›]
      · exact .pure _

theorem lookupKey_unchanged (env : Evaluator) (s : EvalState) (v : Value) (name : String)
    (head : Bool) : ((env.lookupKey v name head).run s).2 = s :=
  (sameFrom_lookupKey fun _ => rfl : SameFrom s s (env.lookupKey v name head)).left

/-- A path behind its head reads the variables of the keys that are evaluated over a list at most,
if these keys do. -/
theorem sameFrom_chain {origin v : Value} {names : List String}
    (listed : ∀ w rest, rest <:+ names → AgreeOn s s' rest →
      SameFrom s s' (env.evaluateSteps w (rest.map .key)))
    (agree : AgreeOn s s' (env.keysOverList s v false names)) :
    SameFrom s s' (env.evaluateChain origin v false (names.map .key)) := by
  induction names generalizing v with
  | nil =>
    rw [List.map_nil, evaluateChain]
    exact .pure v
  | cons name later ih =>
    rcases v.list_or_row with ⟨items, key, rfl⟩ | row
    · rw [List.map_cons, evaluateChain_list]
      exact listed _ (name :: later) List.suffix_rfl agree
    · rw [keysOverList_row row] at agree
      rw [List.map_cons, evaluateChain_key fun _ => row]
      refine (sameFrom_lookupKey (by simp)).bind fun next value => ih ?_ (value ▸ agree)
      exact fun w rest suffix => listed w rest (suffix.trans (List.suffix_cons name later))

/-- Keys evaluated over a list read their variables at most, if fewer keys do, and the same keys on a
row. -/
theorem sameFrom_list {first : String} {later : List String} (plain : Aggregate.ofName? first = none)
    (same : s'.bindings.get? first = s.bindings.get? first)
    (fewer : ∀ w, SameFrom s s' (env.evaluateSteps w (later.map .key)))
    (row : ∀ w, (∀ items key, w ≠ .list items key) →
      SameFrom s s' (env.evaluateSteps w (.key first :: later.map .key))) (v : Value) :
    SameFrom s s' (env.evaluateSteps v (.key first :: later.map .key)) := by
  match v with
  | .list items key =>
    have whole : SameFrom s s' (env.evaluateWhole items key first (later.map .key)) := by
      refine (sameFrom_lookupKey fun _ => same).bind fun w _ => (fewer w).bind fun w' _ => ?_
      split
      · exact sameFrom_list plain same fewer row _
      · exact .pure _
    rw [evaluateSteps_list, aggregate_key plain]
    split
    · split
      · rw [← evaluateSteps_list]
        exact sameFrom_list plain same fewer row _
      · exact whole
    · exact whole
  | .null | .boolean _ | .number _ | .text _ | .date _ | .object _ => exact row _ (by simp)
termination_by sizeOf v

theorem sameFrom_steps {names : List String} (plain : ∀ n ∈ names, Aggregate.ofName? n = none)
    (agree : AgreeOn s s' names) (v : Value) :
    SameFrom s s' (env.evaluateSteps v (names.map .key)) := by
  match names with
  | [] =>
    rw [List.map_nil, evaluateSteps]
    exact .pure v
  | first :: later =>
    have fewer {rest : List String} (suffix : rest <:+ later) (agree : AgreeOn s s' rest) (w : Value) :
        SameFrom s s' (env.evaluateSteps w (rest.map .key)) :=
      have := suffix.length_le
      sameFrom_steps (fun n mem => plain n (List.mem_cons_of_mem _ (suffix.mem mem))) agree w
    have same := agree first (List.mem_cons_self ..)
    have behind : AgreeOn s s' later := fun n mem => agree n (List.mem_cons_of_mem _ mem)
    refine sameFrom_list (plain first (List.mem_cons_self ..)) same (fewer List.suffix_rfl behind)
      (fun w row => ?_) v
    rw [evaluateSteps_row row]
    refine (sameFrom_lookupKey fun _ => same).bind fun next _ => sameFrom_chain
      (fun w rest suffix agree => fewer suffix agree w) fun n mem => ?_
    exact behind n ((env.keysOverList_suffix s next false later).mem mem)
termination_by names.length

/-! ## The last key -/

/-- Over a list, a key that has a variable with a value is that value. -/
theorem run_aggregate_variable {name : String} {w : Value} (plain : Aggregate.ofName? name = none)
    (free : name ≠ "self") (bound : s.bindings.get? name = some w) (given : w.isNull = false)
    (items : List Value) (key : Option String) :
    (env.aggregate items key [.key name]).run s = (w, s) := by
  have whole : (env.evaluateWhole items key name []).run s = (w, s) := by
    have here : (env.lookupKey (.list items key) name true).run s = (w, s) := by
      simp only [lookupKey, beq_iff_eq, free, if_false, if_true]
      show ((s.bindings.get? name).getD .null, s) = (w, s)
      rw [bound]
      rfl
    have none : (env.evaluateSteps w []).run s = (w, s) := by
      rw [evaluateSteps]
      rfl
    rw [evaluateWhole, Eval.run_bind here, Eval.run_bind none]
    cases w <;> first | rfl | cases given
  rw [aggregate_key plain]
  split
  · split
    · exact run_aggregate_variable plain free bound given _ _
    · exact whole
  · exact whole
termination_by sizeOf items

/-- Behind a head, a path of which only the last key is evaluated over a list has the value of the
variable of that key. -/
theorem run_chain_variable {origin v : Value} {names : List String} {last : String} {w : Value}
    (plain : Aggregate.ofName? last = none) (free : last ≠ "self")
    (bound : s.bindings.get? last = some w) (given : w.isNull = false)
    (listed : env.keysOverList s v false names = [last]) :
    (env.evaluateChain origin v false (names.map .key)).run s = (w, s) := by
  induction names generalizing v with
  | nil =>
    have none := env.keysOverList_suffix s v false []
    rw [listed] at none
    simp at none
  | cons name later ih =>
    rcases v.list_or_row with ⟨items, key, rfl⟩ | row
    · obtain ⟨rfl, rfl⟩ := List.cons.inj (show name :: later = [last] from listed)
      rw [List.map_cons, evaluateChain_list, evaluateSteps_list]
      exact run_aggregate_variable plain free bound given items key
    · rw [keysOverList_row row] at listed
      have first : (env.lookupKey v name false).run s = (((env.lookupKey v name false).run s).1, s) :=
        Prod.ext rfl (lookupKey_unchanged ..)
      rw [List.map_cons, evaluateChain_key fun _ => row, Eval.run_bind first]
      exact ih listed

/-- A path of keys reads the variable of its first key, and those of the keys that are evaluated over a
list, and no others. Of the latter the last is indeed read: if only it is evaluated over a list, and its
variable has a value, that is the value of the path. -/
theorem evaluate_keys (env : Evaluator) (current : Value) (first : String) (later : List String)
    (plain : ∀ n ∈ first :: later, Aggregate.ofName? n = none) (s : EvalState) :
    let path : Expr := .chain ((first :: later).map .key)
    let listed := env.keysOverList s current true (first :: later)
    (∀ s', s'.bindings.get? first = s.bindings.get? first → AgreeOn s s' listed →
      SameFrom s s' (env.evaluate current path)) ∧
    ∀ last w, listed = [last] → last ≠ "self" → s.bindings.get? last = some w → w.isNull = false →
      (env.evaluate current path).run s = (w, s) := by
  intro path listed
  have steps : env.evaluate current path = env.evaluateSteps current ((first :: later).map .key) :=
    env.evaluate_chain current first (later.map .key)
  rw [steps]
  rcases current.list_or_row with ⟨items, key, rfl⟩ | row
  · refine ⟨fun s' _ agree => sameFrom_steps plain agree _, fun last w only free bound given => ?_⟩
    obtain ⟨rfl, rfl⟩ := List.cons.inj (show first :: later = [last] from only)
    rw [List.map_cons, evaluateSteps_list]
    exact run_aggregate_variable (plain first (List.mem_cons_self ..)) free bound given items key
  · have here : listed = env.keysOverList s ((env.lookupKey current first true).run s).1 false later :=
      keysOverList_row row
    rw [List.map_cons, evaluateSteps_row row]
    refine ⟨fun s' same agree => (sameFrom_lookupKey fun _ => same).bind fun next value => ?_,
      fun last w only free bound given => ?_⟩
    · refine sameFrom_chain (fun w rest suffix agree => ?_) ?_
      · exact sameFrom_steps (fun n mem => plain n (List.mem_cons_of_mem _ (suffix.mem mem))) agree w
      · rw [value, ← here]
        exact agree
    · have head : (env.lookupKey current first true).run s =
          (((env.lookupKey current first true).run s).1, s) := Prod.ext rfl (lookupKey_unchanged ..)
      rw [here] at only
      have last_mem := (env.keysOverList_suffix s _ false later).mem (only ▸ List.mem_singleton_self last)
      rw [Eval.run_bind head]
      exact run_chain_variable (plain last (List.mem_cons_of_mem _ last_mem)) free bound given only

/-- An order with one item, whose attribute `a` is 1. -/
def orderEvaluator : Evaluator where
  store := ⟨#[.ofFields (.ofList [("items", .ofList [.object ⟨1, "Item"⟩])]),
    .ofFields (.ofList [("a", .ofNat 1)])]⟩
  delimiter := ", "

def stateOf (bindings : List (String × Value)) : EvalState := ⟨.ofList bindings, .initial⟩

theorem evaluate_order_unbound : ((orderEvaluator.evaluate (.object ⟨0, "Order"⟩)
    (.chain (["items", "a"].map .key))).run (stateOf [])).1 = .ofNat 1 := by
  let order : Value := .object ⟨0, "Order"⟩
  let item : Value := .object ⟨1, "Item"⟩
  have row {ref : ObjectRef} : ∀ items key, Value.object ref ≠ .list items key := by rintro _ _ ⟨⟩
  have plain : Aggregate.ofName? "a" = none := by decide +kernel
  have listed : (orderEvaluator.lookupKey order "items" true).run (stateOf []) =
      (.list [item] none, stateOf []) := rfl
  have unbound : (orderEvaluator.lookupKey (.list [item] none) "a" true).run (stateOf []) =
      (.null, stateOf []) := rfl
  have given : (orderEvaluator.lookupKey item "a" true).run (stateOf []) =
      (.ofNat 1, stateOf []) := rfl
  have nothing : (orderEvaluator.evaluateSteps .null []).run (stateOf []) = (.null, stateOf []) := by
    rw [evaluateSteps]
    rfl
  rw [List.map_cons, evaluate_chain, evaluateSteps_row row, Eval.run_bind listed, List.map_cons,
    evaluateChain_list, evaluateSteps_list, aggregate_key plain]
  -- the list itself gives null, so the first row is looked at
  show ((orderEvaluator.evaluateWhole [item] none "a" []).run (stateOf [])).1 = .ofNat 1
  rw [evaluateWhole, Eval.run_bind unbound, Eval.run_bind nothing]
  show ((orderEvaluator.evaluateSteps item [.key "a"]).run (stateOf [])).1 = .ofNat 1
  rw [evaluateSteps_row row, Eval.run_bind given, evaluateChain]
  rfl

/-- The last key of `items.a` shows the variable `a` instead of the attribute, which is the value of the
path where there is no such variable. -/
theorem evaluate_keys_order :
    let path : Expr := .chain (["items", "a"].map .key)
    let order : Value := .object ⟨0, "Order"⟩
    (∀ n ∈ ["items", "a"], Aggregate.ofName? n = none) ∧
      (orderEvaluator.evaluate order path).run (stateOf [("a", .ofNat 5)]) =
        (.ofNat 5, stateOf [("a", .ofNat 5)]) ∧
      ((orderEvaluator.evaluate order path).run (stateOf [])).1 = .ofNat 1 := by
  intro path order
  have plain : ∀ n ∈ ["items", "a"], Aggregate.ofName? n = none := by decide +kernel
  have listed : orderEvaluator.keysOverList (stateOf [("a", .ofNat 5)]) order true ["items", "a"] = ["a"] := by
    decide +kernel
  refine ⟨plain, ?_, ?_⟩
  · exact (evaluate_keys orderEvaluator order "items" ["a"] plain _).2 "a" (.ofNat 5) listed (by decide)
      rfl rfl
  · exact evaluate_order_unbound

end Evaluator

end Rowlang
