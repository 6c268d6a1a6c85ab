import Rowlang.Proofs.Eval.RowOrder
import Rowlang.Proofs.Expr.WellFormed
import Rowlang.Proofs.Functions.Subjects

/-!
# The subject before the point or among the arguments

A built-in function of a subject is called behind the path of its subject, or with it as the first argument.
A path that comes to a list takes the call along: the call is then made on what the list itself gives for the
path, if that answers, or behind its first item, and an aggregate that is a key makes it on each row. The two
forms agree where the call behind the path is made on the value of the path, as it is where there is no list.

* `Evaluator.CallSite`, `Evaluator.callSite` : where the call at the end of a path is made;
* `Evaluator.gives_callSite` : the path has the value of the call that is made there;
* `Evaluator.callSite_of_rows` : without a list on the way, that is the value of the path in front of it;
* `Evaluator.evaluate_call_forms` : what both forms give, for every path.
-/

namespace Rowlang
open Value
open Rowlang.Expr (ThroughoutAll Uses throughoutAll_cons throughoutAll_iff)

/-- Whether the value is a row, not a list. -/
def Value.isRow : Value → Bool
  | .list .. => false
  | _ => true

theorem Value.isRow_eq_true {v : Value} : v.isRow = true ↔ IsPlain v := by
  cases v <;> simp [isRow, IsPlain]

namespace Evaluator

variable {env : Evaluator} {known : ObjectRef → Prop} {s : EvalState} {items : List Value} {key : Option String}
  {head : Expr} {rest : List Expr}

/-! ## Paths over a list -/

/-- Whether a path goes into the first group of a list, without a look at the list itself. -/
def entersGroup (items : List Value) (key : Option String) (steps : List Expr) : Bool :=
  match items with
  | .list .. :: _ => !referencesAggregate steps && key != some (renderSteps steps)
  | _ => false

/-- What the list itself gives for a path. -/
def ownValue (env : Evaluator) (items : List Value) (key : Option String) (head : Expr) (rest : List Expr) :
    Eval Value :=
  env.evaluateRow (.list items key) head >>= fun v => env.evaluateSteps v rest

/-- The first item of a list, if a path looks at it: as a group, or since the list itself gives null. -/
def lookedAt? (env : Evaluator) (s : EvalState) (items : List Value) (key : Option String) (head : Expr)
    (rest : List Expr) : Option Value :=
  if entersGroup items key (head :: rest) || ((env.ownValue items key head rest).run s).1.isNull then items.head?
  else none

theorem evaluateChain_over (origin : Value) :
    env.evaluateChain origin (.list items key) false (head :: rest) = env.aggregate items key (head :: rest) := by
  rw [evaluateChain]

theorem evaluateOver_eq : env.evaluateOver items key head rest = env.ownValue items key head rest >>= fun v =>
    match v, items with
    | .null, first :: _ => env.evaluateSteps first (head :: rest)
    | v, _ => return v := by
  rw [ownValue, bind_assoc]
  rfl

theorem aggregate_stays (plain : head.aggregate? = none) (stays : entersGroup items key (head :: rest) = false) :
    env.aggregate items key (head :: rest) = env.evaluateOver items key head rest := by
  rw [aggregate_plain plain]
  split
  · exact if_neg (by simpa [entersGroup] using stays)
  · rfl

theorem lookedAt?_mem {row : Value} (looks : env.lookedAt? s items key head rest = some row) : row ∈ items := by
  unfold lookedAt? at looks
  split at looks
  · exact List.mem_of_head? looks
  · cases looks

theorem lookedAt?_lt {row : Value} (looks : env.lookedAt? s items key head rest = some row) :
    sizeOf row < sizeOf (Value.list items key) := by
  have := List.sizeOf_lt_of_mem (lookedAt?_mem looks)
  rw [Value.list.sizeOf_spec]
  omega

/-- The steps of a path are evaluated one by one on a row, and over a list otherwise. -/
theorem evaluateSteps_eq (v : Value) {steps : List Expr} (formed : ∀ e ∈ steps, e.isStep = true) :
    env.evaluateSteps v steps = env.evaluateChain v v v.isRow steps := by
  match steps with
  | [] => rw [evaluateSteps, evaluateChain]
  | [e] =>
    have step := formed e List.mem_cons_self
    rcases v.list_or_row with ⟨items, key, rfl⟩ | row
    · have path : e.isPath = true ∧ e.steps = [e] := by cases e <;> first | exact ⟨rfl, rfl⟩ | cases step
      rw [evaluateSteps, evaluate_list path.1, path.2]
      exact (evaluateChain_over _).symm
    · rw [evaluateSteps, evaluate_row row, evaluateChain_step fun _ => row]
      simp only [evaluateChain, bind_pure]
      rw [isRow_eq_true.2 row]
      cases e <;> first | rw [evaluateRow]; rfl | cases step
  | first :: second :: later =>
    rcases v.list_or_row with ⟨items, key, rfl⟩ | row
    · rw [evaluateSteps]
      exact (evaluateChain_over _).symm
    · rw [evaluateSteps_several row, isRow_eq_true.2 row]

/-! ## Where the call at the end of a path is made -/

/-- Where a call is made: on a value, with arguments that are evaluated on the origin; or within what an
aggregate evaluates on each row of a list, at the end of these steps. -/
inductive CallSite where
  | on (origin target : Value)
  | within (a : Aggregate) (items : List Value) (key : Option String) (steps : List Expr)

/-- Where the last step of a path is made, if it is a call. Over a list, an aggregate that is called gives the
value from which the path goes on, and one that is a key takes the call along; otherwise the path goes on from
the first item, if that is looked at, or from what the list itself gives. -/
def callSite (env : Evaluator) (s : EvalState) (origin value : Value) (head : Bool) (steps : List Expr) :
    CallSite :=
  match steps with
  | [] => .on origin value
  | first :: rest =>
    match head, value with
    | false, .list items key =>
      match first.aggregate?, first with
      | some a, .call _ args =>
        let w := ((env.applyAggregate a items key (args.take 1) args).run s).1
        env.callSite s w w w.isRow rest
      | some a, _ => .within a items key rest
      | none, _ =>
        match looks : env.lookedAt? s items key first rest with
        | some row =>
          have := lookedAt?_lt looks
          env.callSite s row row row.isRow (first :: rest)
        | none =>
          if rest.isEmpty then .on (.list items key) (.list items key)
          else
            let w := ((env.evaluateRow (.list items key) first).run s).1
            env.callSite s w w w.isRow rest
    | head, value =>
      if rest.isEmpty then .on origin value
      else env.callSite s origin ((env.evaluateStep origin value head first).run s).1 false rest
termination_by (steps.length, sizeOf value)
decreasing_by all_goals simp_all [Prod.lex_def]

section
variable {origin value : Value} {isHead : Bool}

theorem callSite_called {a : Aggregate} {called : String} {args : List Expr} {w : Value}
    (named : Aggregate.ofName? called = some a)
    (given : ((env.applyAggregate a items key (args.take 1) args).run s).1 = w) :
    env.callSite s origin (.list items key) false (.call called args :: rest) = env.callSite s w w w.isRow rest := by
  have aggregate : (Expr.call called args).aggregate? = some a := named
  rw [callSite.eq_def]
  dsimp only
  rw [aggregate]
  dsimp only
  rw [given]

theorem callSite_named {a : Aggregate} {name : String} (named : Aggregate.ofName? name = some a) :
    env.callSite s origin (.list items key) false (.key name :: rest) = .within a items key rest := by
  have aggregate : (Expr.key name).aggregate? = some a := named
  rw [callSite.eq_def]
  dsimp only
  rw [aggregate]

theorem callSite_item {row : Value} (plain : head.aggregate? = none)
    (looks : env.lookedAt? s items key head rest = some row) :
    env.callSite s origin (.list items key) false (head :: rest) =
      env.callSite s row row row.isRow (head :: rest) := by
  rw [callSite.eq_def]
  dsimp only
  rw [plain]
  dsimp only
  split <;> rename_i looks' <;> cases looks.symm.trans looks'
  rfl

theorem callSite_own (plain : head.aggregate? = none) (stays : env.lookedAt? s items key head rest = none) :
    env.callSite s origin (.list items key) false (head :: rest) =
      if rest.isEmpty then .on (.list items key) (.list items key)
      else
        let w := ((env.evaluateRow (.list items key) head).run s).1
        env.callSite s w w w.isRow rest := by
  rw [callSite.eq_def]
  dsimp only
  rw [plain]
  dsimp only
  split <;> rename_i looks <;> cases stays.symm.trans looks
  rfl

theorem callSite_row (row : isHead = false → IsPlain value) : env.callSite s origin value isHead (head :: rest) =
    if rest.isEmpty then .on origin value
    else env.callSite s origin ((env.evaluateStep origin value isHead head).run s).1 false rest := by
  rw [callSite.eq_def]
  dsimp only
  split
  · exact absurd rfl (row rfl _ _)
  · rfl

end

/-- The value of a call that is made there. -/
def CallSite.value (env : Evaluator) (name : String) (args : List Expr) : CallSite → Eval Value
  | .on origin target => env.call origin target name args
  | .within a items key steps => env.applyAggregate a items key steps []

/-- Whether a path comes to a list before its last step. -/
def comesToList (env : Evaluator) (s : EvalState) (origin value : Value) (head : Bool) : List Expr → Bool
  | [] => false
  | step :: rest => !head && !value.isRow ||
      env.comesToList s origin ((env.evaluateStep origin value head step).run s).1 false rest

/-! ## The value of a call -/

section
variable (uniform : env.Uniform known s)
include uniform

/-- What holds of all values of an evaluation without assignments holds of the one that it has. -/
theorem gives_run {α : Type} {m : Eval α} {Q : α → Prop} (h : (settled uniform).Holds m Q) :
    env.Gives known s m (m.run s).1 ∧ Q (m.run s).1 := by
  obtain ⟨x, hx, gives⟩ := h
  rw [(gives s (.refl s) uniform).1]
  exact ⟨gives, hx⟩

theorem Gives.unique {α : Type} {m : Eval α} {x y : α} (h : env.Gives known s m x) (h' : env.Gives known s m y) :
    x = y :=
  (h s (.refl s) uniform).1.symm.trans (h' s (.refl s) uniform).1

theorem gives_call {origin target : Value} (within : target.Within known) {name : String} {args : List Expr}
    {f : Function} (found : s.functions.search env.store target name args.length = some (.function f))
    {values : List Value} (given : env.Gives known s (env.evaluateAll origin args) values) :
    env.Gives known s (env.call origin target name args) (valueOrNull (f target values)) := by
  have resolved : env.Gives known s (env.resolve target name args.length) (some (.function f)) := by
    have gives := (gives_run uniform ((settled uniform).resolve name args.length within)).1
    rw [run_resolve] at gives
    rwa [(uniform.resolve within name args.length).1, found] at gives
  rw [call]
  refine resolved.bind ?_
  have plain : env.rawMethod? (.function f) target name = none := rfl
  dsimp only
  rw [plain]
  exact given.bind (.pure _)

/-- A path over a list has the value that the list itself gives, if its first item is not looked at. -/
theorem gives_own (plain : head.aggregate? = none) (stays : env.lookedAt? s items key head rest = none)
    {v : Value} (own : env.Gives known s (env.ownValue items key head rest) v) :
    env.Gives known s (env.aggregate items key (head :: rest)) v := by
  cases items with
  | nil =>
    rw [aggregate_stays plain rfl, evaluateOver_eq]
    refine own.bind ?_
    cases v <;> exact .pure _
  | cons row others =>
    have neither : entersGroup (row :: others) key (head :: rest) = false ∧ v.isNull = false := by
      rw [← (own s (.refl s) uniform).1, ← Bool.or_eq_false_iff, ← Bool.not_eq_true]
      intro looks
      rw [lookedAt?, if_pos looks] at stays
      cases stays
    rw [aggregate_stays plain neither.1, evaluateOver_eq]
    refine own.bind ?_
    cases v with
    | null => cases neither.2
    | _ => exact .pure _

/-- A path over a list whose first item is looked at has the value that it has on this item. -/
theorem gives_item {row : Value} (plain : head.aggregate? = none) (step : head.isStep = true)
    (looks : env.lookedAt? s items key head rest = some row)
    {v w : Value} (own : env.Gives known s (env.ownValue items key head rest) w)
    (inner : env.Gives known s (env.evaluateSteps row (head :: rest)) v) :
    env.Gives known s (env.aggregate items key (head :: rest)) v := by
  unfold lookedAt? at looks
  split at looks
  case isFalse => cases looks
  case isTrue either =>
  obtain ⟨others, rfl⟩ := List.head?_eq_some_iff.1 looks
  cases enters : entersGroup (row :: others) key (head :: rest) with
  | false =>
    rw [enters, Bool.false_or, (own s (.refl s) uniform).1] at either
    rw [aggregate_stays plain enters, evaluateOver_eq]
    refine own.bind ?_
    cases w with
    | null => exact inner
    | _ => cases either
  | true =>
    cases row with
    | list group groupKey =>
      have into : env.aggregate (.list group groupKey :: others) key (head :: rest) =
          env.aggregate group groupKey (head :: rest) := by
        rw [aggregate_plain plain]
        exact if_pos enters
      have path : head.isPath = true ∧ head.steps = [head] := by
        cases head <;> first | exact ⟨rfl, rfl⟩ | cases step
      have steps : env.evaluateSteps (.list group groupKey) (head :: rest) =
          env.aggregate group groupKey (head :: rest) := by
        cases rest with
        | nil => rw [evaluateSteps, evaluate_list path.1, path.2]
        | cons => rw [evaluateSteps]
      rw [into, ← steps]
      exact inner
    | _ => cases enters

end

theorem getLast?_of_ne_nil {α : Type} {a x : α} {l : List α} (last : (a :: l).getLast? = some x) (more : l ≠ []) :
    l.getLast? = some x := by
  obtain ⟨b, later, rfl⟩ := List.exists_cons_of_ne_nil more
  rwa [List.getLast?_cons_cons] at last

/-- Whether what a call is made on refers to known objects. -/
def CallSite.Within (known : ObjectRef → Prop) : CallSite → Prop
  | .on origin target => origin.Within known ∧ target.Within known
  | .within .. => True

/-- **A path that ends with a call has the value of the call where it is made.** -/
theorem gives_callSite (uniform : env.Uniform known s) {name : String} {args : List Expr}
    (plain : Aggregate.ofName? name = none) {origin value : Value} {isHead : Bool} {steps : List Expr}
    (last : steps.getLast? = some (.call name args))
    (uses : ThroughoutAll (Uses known fun _ => False) steps) (formed : ∀ e ∈ steps.tail, e.isStep = true)
    (begins : isHead = false → ∀ e ∈ steps, e.isStep = true) (source : origin.Within known)
    (within : value.Within known) :
    (env.callSite s origin value isHead steps).Within known ∧
      env.Gives known s (env.evaluateChain origin value isHead steps)
        (((env.callSite s origin value isHead steps).value env name args).run s).1 := by
  -- behind a list a path begins anew, as its steps are all keys and calls
  have anew {w v : Value} {l : List Expr} (all : ∀ e ∈ l, e.isStep = true)
      (h : env.Gives known s (env.evaluateChain w w w.isRow l) v) : env.Gives known s (env.evaluateSteps w l) v := by
    rwa [evaluateSteps_eq w all]
  -- over a list: an aggregate that is called, one that is a key, a look at the first item, and the list itself at
  -- the end of the path and before it; then a row, at the end and before it
  induction origin, value, isHead, steps using callSite.induct env s with
  | case1 => cases last
  | case2 origin rest items key a called inner w named ih =>
    have more : rest ≠ [] := by
      rintro rfl
      cases last
      cases plain.symm.trans named
    obtain ⟨first, later⟩ := throughoutAll_cons.1 uses
    obtain ⟨applied, next⟩ := gives_run uniform ((settled uniform).applyAggregate a (first.call.take 1) first.call
      (within_list.1 within))
    obtain ⟨inside, path⟩ := ih (getLast?_of_ne_nil last more) later
      (fun e listed => formed e (List.mem_of_mem_tail listed)) (fun _ => formed) next next
    rw [evaluateChain_over, aggregate_call named, callSite_called named rfl]
    exact ⟨inside, applied.bind (anew formed path)⟩
  | case3 origin first rest items key a named other =>
    cases first with
    | key n =>
      have later := (throughoutAll_cons.1 uses).2
      rw [evaluateChain_over, aggregate_named named, callSite_named named]
      exact ⟨trivial, (gives_run uniform ((settled uniform).applyAggregate a later Expr.throughoutAll_nil
        (within_list.1 within))).1⟩
    | call n inner => exact absurd rfl (other n inner)
    | _ => cases named
  | case4 origin first rest items key unnamed row looks less ih =>
    have here := within_list.1 within row (lookedAt?_mem looks)
    obtain ⟨inside, path⟩ := ih last uses formed (fun _ => begins rfl) here here
    obtain ⟨own, later⟩ := throughoutAll_cons.1 uses
    have ownGives := (gives_run uniform ((settled uniform).bind ((settled uniform).evaluateRow own within)
      fun v hv => (settled uniform).evaluateSteps later hv)).1
    have step := begins rfl _ List.mem_cons_self
    rw [evaluateChain_over, callSite_item unnamed looks]
    exact ⟨inside, gives_item uniform unnamed step looks ownGives (anew (begins rfl) path)⟩
  | case5 origin first rest items key unnamed stays alone =>
    obtain rfl := List.isEmpty_iff.1 alone
    cases last
    have made := (gives_run uniform ((settled uniform).call name (throughoutAll_cons.1 uses).1.call within within)).1
    rw [evaluateChain_over, callSite_own unnamed stays]
    refine ⟨⟨within, within⟩, gives_own uniform unnamed stays ?_⟩
    rw [ownValue, evaluateRow]
    refine made.bind ?_
    rw [evaluateSteps]
    exact .pure _
  | case6 origin first rest items key unnamed stays more w ih =>
    obtain ⟨own, later⟩ := throughoutAll_cons.1 uses
    obtain ⟨evaluated, next⟩ := gives_run uniform ((settled uniform).evaluateRow own within)
    obtain ⟨inside, path⟩ := ih (getLast?_of_ne_nil last (by simpa using more)) later
      (fun e listed => formed e (List.mem_of_mem_tail listed)) (fun _ => formed) next next
    rw [evaluateChain_over, callSite_own unnamed stays, if_neg more]
    exact ⟨inside, gives_own uniform unnamed stays (evaluated.bind (anew formed path))⟩
  | case7 origin first rest head value row alone =>
    obtain rfl := List.isEmpty_iff.1 alone
    cases last
    have made := (gives_run uniform ((settled uniform).call name (throughoutAll_cons.1 uses).1.call source within)).1
    have plain : head = false → IsPlain value := fun outside items key list => row items key outside list
    rw [evaluateChain_step plain, callSite_row plain]
    refine ⟨⟨source, within⟩, made.bind ?_⟩
    rw [evaluateChain]
    exact .pure _
  | case8 origin first rest head value row more ih =>
    obtain ⟨own, later⟩ := throughoutAll_cons.1 uses
    obtain ⟨stepped, next⟩ := gives_run uniform ((settled uniform).evaluateStep own source within)
    obtain ⟨inside, path⟩ := ih (getLast?_of_ne_nil last (by simpa using more)) later
      (fun e listed => formed e (List.mem_of_mem_tail listed)) (fun _ => formed) source next
    have plain : head = false → IsPlain value := fun outside items key list => row items key outside list
    rw [evaluateChain_step plain, callSite_row plain, if_neg more]
    exact ⟨inside, stepped.bind path⟩

/-- Without a list on the way, the call is made on the value of the path in front of it. -/
theorem callSite_of_rows (uniform : env.Uniform known s) {call : Expr} {origin value v : Value} {isHead : Bool}
    {steps : List Expr} (uses : ThroughoutAll (Uses known fun _ => False) steps) (source : origin.Within known)
    (within : value.Within known) (straight : env.comesToList s origin value isHead steps = false)
    (gives : env.Gives known s (env.evaluateChain origin value isHead steps) v) (row : IsPlain v) :
    env.callSite s origin value isHead (steps ++ [call]) = .on origin v := by
  induction steps generalizing value isHead with
  | nil =>
    rw [evaluateChain] at gives
    obtain rfl : value = v := (gives s (.refl s) uniform).1
    rw [List.nil_append, callSite_row fun _ => row]
    rfl
  | cons first rest ih =>
    rw [comesToList, Bool.or_eq_false_iff] at straight
    obtain ⟨here, later⟩ := straight
    have plain : isHead = false → IsPlain value := by
      rintro rfl
      exact isRow_eq_true.1 (by simpa using here)
    obtain ⟨own, others⟩ := throughoutAll_cons.1 uses
    obtain ⟨stepped, next⟩ := gives_run uniform (m := env.evaluateStep origin value isHead first)
      ((settled uniform).evaluateStep own source within)
    have goesOn := (gives_run uniform (m := env.evaluateChain origin _ false rest)
      ((settled uniform).evaluateChain others source next)).1
    rw [evaluateChain_step plain] at gives
    have same := gives.unique uniform (stepped.bind goesOn)
    rw [List.cons_append, callSite_row plain, if_neg (by simp)]
    exact ih others next later (same ▸ goesOn)

/-! ## Both forms -/

theorem aggregate?_subjectFunction {f : Functions.SubjectFunction} (listed : f ∈ Functions.subjectFunctions)
    {name : String} (named : lowerName name = lowerName f.name) : Aggregate.ofName? name = none := by
  have same : name.toList.map Char.toLower = f.name.toList.map Char.toLower := String.ofList_injective named
  have none : ∀ f ∈ Functions.subjectFunctions, Aggregate.ofName? f.name = none := by decide +kernel
  rw [← none f listed]
  unfold Aggregate.ofName? Text.equalIgnoringCase
  rw [same]

def argumentsOn (env : Evaluator) (s : EvalState) (args : List Expr) (origin : Value) : List Value :=
  ((env.evaluateAll origin args).run s).1

theorem length_argumentsOn (env : Evaluator) (s : EvalState) (args : List Expr) (origin : Value) :
    (env.argumentsOn s args origin).length = args.length := by
  unfold argumentsOn
  induction args generalizing s with
  | nil =>
    rw [evaluateAll]
    rfl
  | cons e rest ih =>
    rw [evaluateAll, List.length_cons]
    exact congrArg (· + 1) (ih _)

theorem evaluate_single {c : Value} (row : IsPlain c) (e : Expr) :
    env.evaluate c e = env.evaluateChain c c true [e] := by
  rw [evaluate_row row, evaluateChain_step fun _ => row]
  simp only [evaluateChain, bind_pure]
  cases e <;> first | rfl | rw [evaluateRow, evaluateStep]

theorem evaluate_steps {c : Value} (row : IsPlain c) (e : Expr) :
    env.evaluate c e = env.evaluateChain c c true e.steps := by
  cases e with
  | chain steps => rw [evaluate_row row, evaluateRow, Expr.steps]
  | _ => exact evaluate_single row _

theorem evaluate_ofSteps_row {c : Value} (row : IsPlain c) (steps : List Expr) :
    env.evaluate c (.ofSteps steps) = env.evaluateChain c c true steps := by
  match steps with
  | [] | _ :: _ :: _ =>
    rw [Expr.ofSteps, evaluate_row row, evaluateRow]
    simp
  | [e] => exact evaluate_single row e

theorem throughoutAll_concat {P : Expr → Prop} {steps : List Expr} {e : Expr} (each : ThroughoutAll P steps)
    (last : e.Throughout P) : ThroughoutAll P (steps ++ [e]) := by
  rw [throughoutAll_iff] at each ⊢
  exact List.forall_mem_append.2 ⟨each, List.forall_mem_singleton.2 last⟩

theorem forall_mem_tail_concat {P : Expr → Prop} {steps : List Expr} {e : Expr} (each : ∀ x ∈ steps.tail, P x)
    (last : P e) : ∀ x ∈ (steps ++ [e]).tail, P x := by
  cases steps with
  | nil => exact List.forall_mem_nil P
  | cons first rest => exact List.forall_mem_append.2 ⟨each, List.forall_mem_singleton.2 last⟩

/-- **What both forms of a call give**: `e.f(args)`, which is the path of `e` with the call behind it, and
`f(e, args)`, for a built-in function of a subject. The value of `e` is of the kind of the function, and the
current value is not, unless the function can take no more arguments. Then `f(e, args)` is what the function
gives of the value of `e`, and so is `e.f(args)` if the path of `e` comes to no list, or if the call is made on
this value all the same, with the same arguments. In any case `e.f(args)` is what the function gives of the value
on which the call is made, or what an aggregate gives that makes the call on each row. -/
theorem evaluate_call_forms (env : Evaluator) {known : ObjectRef → Prop} {s : EvalState}
    (uniform : env.Uniform known s) (alone : s.functions.providers = []) {f : Functions.SubjectFunction}
    (listed : f ∈ Functions.subjectFunctions) {name : String} (named : lowerName name = lowerName f.name)
    {c : Value} (row : IsPlain c) (within : c.Within known)
    (bare : ∀ ref o, c = .object ref → env.store.get? ref = some o → o.methods = [])
    {e : Expr} (free : e.AssignmentFree) (literals : e.LiteralsWithin known)
    (formed : ∀ x ∈ e.steps.tail, x.isStep = true) {args : List Expr} (frees : ∀ x ∈ args, x.AssignmentFree)
    (literals' : ∀ x ∈ args, x.LiteralsWithin known) (least : f.least ≤ args.length)
    (most : args.length ≤ f.most) {v : Value} (value : env.valueOn s e c = v) (row' : IsPlain v)
    (other : ∀ ref, v ≠ .object ref) (kind : f.kind.has v = true)
    (form : f.kind.has c = false ∨ args.length = f.most) :
    let behind := e.steps ++ [.call name args]
    let w := valueOrNull (f.toFunction v (env.argumentsOn s args c))
    env.Gives known s (env.evaluate c (.call name (e :: args))) w ∧
      (env.comesToList s c c true e.steps = false ∨ (∃ origin, env.callSite s c c true behind = .on origin v ∧
          env.argumentsOn s args origin = env.argumentsOn s args c) →
        env.Gives known s (env.evaluate c (.ofSteps behind)) w) ∧
      (∀ origin target, env.callSite s c c true behind = .on origin target →
        (∀ ref o, target = .object ref → env.store.get? ref = some o → o.methods = []) →
        env.Gives known s (env.evaluate c (.ofSteps behind))
          (valueOrNull (f.toFunction target (env.argumentsOn s args origin)))) ∧
      ∀ a items key steps, env.callSite s c c true behind = .within a items key steps →
        env.Gives known s (env.evaluate c (.ofSteps behind))
          ((env.applyAggregate a items key steps []).run s).1 := by
  intro behind w
  have usesAll : ThroughoutAll (Uses known fun _ => False) args :=
    throughoutAll_iff.2 fun x inside => (frees x inside).uses (literals' x inside)
  have call : (Expr.call name args).Throughout (Uses known fun _ => False) :=
    Expr.throughout_call trivial (throughoutAll_iff.1 usesAll)
  have uses := (free.uses literals).steps
  have given {x : Value} (inside : x.Within known) :
      env.Gives known s (env.evaluateAll x args) (env.argumentsOn s args x) :=
    (gives_run uniform ((settled uniform).evaluateAll usesAll inside)).1
  have count := env.length_argumentsOn s args
  have path : env.Gives known s (env.evaluate c e) v := value ▸ gives_valueOn uniform free literals within
  -- in front of its arguments the function takes the value of the path as the first of them
  have all : env.Gives known s (env.evaluateAll c (e :: args)) (v :: env.argumentsOn s args c) := by
    rw [evaluateAll]
    exact path.bind ((given within).bind (.pure _))
  have among := gives_call uniform within (FunctionRegistry.search_builtins alone bare listed named
    (n := (e :: args).length) (by rw [List.length_cons]; omega) (by rw [List.length_cons]; omega)) all
  rw [f.toFunction_among (by rwa [count]), ← f.toFunction_before (by rw [count]; exact most) kind] at among
  -- and behind the path it takes the value on which it is called
  obtain ⟨inside, made⟩ : (env.callSite s c c true behind).Within known ∧
      env.Gives known s (env.evaluateChain c c true behind)
        (((env.callSite s c c true behind).value env name args).run s).1 :=
    gives_callSite uniform (aggregate?_subjectFunction listed named) (by simp [behind])
      (throughoutAll_concat uses call) (forall_mem_tail_concat formed rfl) (by simp) within within
  rw [← evaluate_ofSteps_row row] at made
  have called (origin target : Value) (site : env.callSite s c c true behind = .on origin target)
      (bare : ∀ ref o, target = .object ref → env.store.get? ref = some o → o.methods = []) :
      env.Gives known s (env.evaluate c (.ofSteps behind))
        (valueOrNull (f.toFunction target (env.argumentsOn s args origin))) := by
    rw [site] at inside made
    have before := gives_call uniform inside.2 (FunctionRegistry.search_builtins alone bare listed named least
      (by omega)) (given inside.1)
    rwa [← (before s (.refl s) uniform).1]
  have bare' (ref : ObjectRef) (o : Record) (same : v = .object ref) (_ : env.store.get? ref = some o) :
      o.methods = [] := absurd same (other ref)
  refine ⟨?_, ?_, called, ?_⟩
  · rwa [evaluate_row row, evaluateRow]
  · rintro (straight | ⟨origin, site, same⟩)
    · rw [evaluate_steps row] at path
      exact called c v (callSite_of_rows uniform uses within within straight path row') bare'
    · show env.Gives known s _ (valueOrNull (f.toFunction v (env.argumentsOn s args c)))
      rw [← same]
      exact called origin v site bare'
  · intro a items key steps site
    rwa [site] at made

/-! ## An order with a line -/

def lineAmount : Decimal := ⟨false, 712, 2, by decide, by decide⟩

def linesOrder : Value := .object ⟨0, "Order"⟩

def orderLine : Value := .object ⟨1, "Line"⟩

/-- An order with one line, which has a name and the amount 7.12; amounts are to have one place. -/
def linesEvaluator : Evaluator where
  store := ⟨#[.ofFields (.ofList [("lines", .ofList [orderLine]), ("places", .ofNat 1)]),
    .ofFields (.ofList [("name", .text "acme"), ("amount", .number (.decimal lineAmount))])]⟩
  delimiter := ", "

def upperFunction : Functions.SubjectFunction := ⟨"upper", 0, 0, .text, Functions.upper⟩

def roundFunction : Functions.SubjectFunction := ⟨"round", 0, 1, .number, Functions.round⟩

theorem upper_listed : upperFunction ∈ Functions.subjectFunctions := by
  simp [Functions.subjectFunctions, upperFunction]

theorem round_listed : roundFunction ∈ Functions.subjectFunctions := by
  simp [Functions.subjectFunctions, roundFunction]

theorem bare_lines (ref : ObjectRef) (r : Record) (held : linesEvaluator.store.get? ref = some r) :
    r.methods = [] := by
  have listed := Array.mem_of_getElem? held
  simp only [linesEvaluator, List.mem_toArray, List.mem_cons, List.not_mem_nil, or_false] at listed
  rcases listed with rfl | rfl <;> rfl

theorem uniform_lines : linesEvaluator.Uniform (fun _ => True) (stateOf []) :=
  uniform_of_bare (fun _ _ _ _ _ => trivial) (fun _ _ _ _ _ _ _ _ _ => trivial)
    (fun ref r _ held => bare_lines ref r held) (List.forall_mem_nil _) rfl

theorem within_all (v : Value) : v.Within fun _ => True := fun _ _ => trivial

/-- What evaluations on this order give. -/
abbrev GivesOnLines {α : Type} (m : Eval α) (x : α) : Prop :=
  linesEvaluator.Gives (fun _ => True) (stateOf []) m x

theorem gives_lookupKey (target : Value) (name : String) (head : Bool) :
    GivesOnLines (linesEvaluator.lookupKey target name head)
      ((linesEvaluator.lookupKey target name head).run (stateOf [])).1 :=
  (gives_run uniform_lines ((settled uniform_lines).lookupKey name head (within_all target))).1

/-- A field of the line, as a path from the order. -/
structure LineField (field : String) (v : Value) : Prop where
  plain : (Expr.key field).aggregate? = none
  missing (head : Bool) : ((linesEvaluator.lookupKey (.ofList [orderLine]) field head).run (stateOf [])).1 = .null
  held (head : Bool) : ((linesEvaluator.lookupKey orderLine field head).run (stateOf [])).1 = v

section
variable {field : String} {v : Value} (h : LineField field v)
include h

/-- The list of lines has no such field, so the rest of the path is evaluated on null. -/
theorem LineField.gives_own {rest : List Expr} {w : Value}
    (goesOn : GivesOnLines (linesEvaluator.evaluateSteps .null rest) w) :
    GivesOnLines (linesEvaluator.ownValue [orderLine] none (.key field) rest) w := by
  have missing := gives_lookupKey (.ofList [orderLine]) field true
  rw [h.missing] at missing
  rw [ownValue, evaluateRow]
  exact missing.bind goesOn

theorem LineField.lookedAt? {rest : List Expr} {w : Value}
    (goesOn : GivesOnLines (linesEvaluator.evaluateSteps .null rest) w) :
    linesEvaluator.lookedAt? (stateOf []) [orderLine] none (.key field) rest =
      if w.isNull then some orderLine else none := by
  rw [Evaluator.lookedAt?, (h.gives_own goesOn _ (.refl _) uniform_lines).1]
  rfl

theorem LineField.value : linesEvaluator.valueOn (stateOf []) (.chain [.key "lines", .key field]) linesOrder = v := by
  have nothing : GivesOnLines (linesEvaluator.evaluateSteps .null []) .null := by
    rw [evaluateSteps]
    exact .pure _
  have item : GivesOnLines (linesEvaluator.evaluateSteps orderLine [.key field]) v := by
    have held := gives_lookupKey orderLine field true
    rw [h.held] at held
    rw [evaluateSteps, evaluate_row (isRow_eq_true.1 rfl), evaluateRow]
    exact held
  have onRows : GivesOnLines (linesEvaluator.aggregate [orderLine] none [.key field]) v :=
    gives_item uniform_lines h.plain rfl (h.lookedAt? nothing) (h.gives_own nothing) item
  have path : GivesOnLines (linesEvaluator.evaluate linesOrder (.chain [.key "lines", .key field])) v := by
    rw [evaluate_chain, evaluateSteps_row (isRow_eq_true.1 rfl)]
    refine (gives_lookupKey linesOrder "lines" true).bind ?_
    exact (evaluateChain_over linesOrder).symm ▸ onRows
  exact (path _ (.refl _) uniform_lines).1

/-- Where a call behind a field of the line is made: on null, unless that gives null as well. -/
theorem LineField.callSite {f : Functions.SubjectFunction} (listed : f ∈ Functions.subjectFunctions)
    {args : List Expr} {values : List Value} (given : GivesOnLines (linesEvaluator.evaluateAll .null args) values)
    (least : f.least ≤ args.length) (most : args.length ≤ f.most) (row : IsPlain v) :
    linesEvaluator.callSite (stateOf []) linesOrder linesOrder true
        [.key "lines", .key field, .call f.name args] =
      if (valueOrNull (f.toFunction .null values)).isNull then .on orderLine v else .on .null .null := by
  have onNull : GivesOnLines (linesEvaluator.evaluateSteps .null [.call f.name args])
      (valueOrNull (f.toFunction .null values)) := by
    rw [evaluateSteps, evaluate_row (by simp), evaluateRow]
    exact gives_call uniform_lines (within_all _) (FunctionRegistry.search_builtins rfl (by simp) listed rfl least
      (by omega)) given
  have looks := h.lookedAt? onNull
  have lines : ((linesEvaluator.evaluateStep linesOrder linesOrder true (.key "lines")).run (stateOf [])).1 =
      .ofList [orderLine] := rfl
  rw [callSite_row (by simp), if_neg (by simp), lines, Value.ofList]
  split at looks <;> rename_i null
  · have held : ((linesEvaluator.evaluateStep orderLine orderLine true (.key field)).run (stateOf [])).1 = v :=
      h.held true
    rw [callSite_item h.plain looks, if_pos null, callSite_row fun _ => isRow_eq_true.1 rfl, if_neg (by simp)]
    show linesEvaluator.callSite _ _ ((linesEvaluator.evaluateStep orderLine orderLine true _).run _).1 _ _ = _
    rw [held]
    exact callSite_row fun _ => row
  · have missing : ((linesEvaluator.evaluateRow (.list [orderLine] none) (.key field)).run (stateOf [])).1 =
        .null := by
      rw [evaluateRow]
      exact h.missing true
    rw [callSite_own h.plain looks, if_neg null, if_neg (by simp), missing]
    exact callSite_row fun _ => isRow_eq_true.1 rfl

end

theorem lineField_name : LineField "name" (.text "acme") where
  plain := by decide +kernel
  missing head := by cases head <;> rfl
  held head := by cases head <;> rfl

theorem lineField_amount : LineField "amount" (.number (.decimal lineAmount)) where
  plain := by decide +kernel
  missing head := by cases head <;> rfl
  held head := by cases head <;> rfl

theorem gives_noArguments (origin : Value) : GivesOnLines (linesEvaluator.evaluateAll origin []) [] := by
  rw [evaluateAll]
  exact .pure _

theorem gives_places (origin : Value) {v : Value} (row : IsPlain origin)
    (held : ((linesEvaluator.lookupKey origin "places" true).run (stateOf [])).1 = v) :
    GivesOnLines (linesEvaluator.evaluateAll origin [.key "places"]) [v] := by
  have found := gives_lookupKey origin "places" true
  rw [held] at found
  rw [evaluateAll, evaluate_row row, evaluateRow]
  exact found.bind ((gives_noArguments origin).bind (.pure _))

/-- `lines.name.upper()` is empty and `upper(lines.name)` is `ACME`; `lines.amount.round(places)` is null and
`round(lines.amount, places)` is 7.1. -/
theorem evaluate_call_forms_lines :
    let name : Expr := .chain [.key "lines", .key "name"]
    let amount : Expr := .chain [.key "lines", .key "amount"]
    let value (e : Expr) := linesEvaluator.valueOn (stateOf []) e linesOrder
    linesEvaluator.Uniform (fun _ => True) (stateOf []) ∧ upperFunction ∈ Functions.subjectFunctions ∧
      roundFunction ∈ Functions.subjectFunctions ∧ name.AssignmentFree ∧ amount.AssignmentFree ∧
      value name = .text "acme" ∧ value amount = .number (.decimal lineAmount) ∧
      value (.ofSteps (name.steps ++ [.call "upper" []])) = .text "" ∧
      value (.call "upper" [name]) = .text "ACME" ∧
      value (.ofSteps (amount.steps ++ [.call "round" [.key "places"]])) = .null ∧
      value (.call "round" [amount, .key "places"]) = .number (.decimal ⟨false, 71, 1, by decide, by decide⟩) := by
  intro name amount value
  have free (field : String) : (Expr.chain [.key "lines", .key field]).AssignmentFree := by
    simp [Expr.AssignmentFree, Expr.Throughout, Expr.subterms, Expr.subtermsOf, Expr.isAssignment]
  have formed (field : String) : ∀ x ∈ (Expr.chain [.key "lines", .key field]).steps.tail, x.isStep = true := by
    simp [Expr.steps, Expr.isStep]
  have key (n : String) : (Expr.key n).AssignmentFree := by
    simp [Expr.AssignmentFree, Expr.Throughout, Expr.subterms, Expr.isAssignment]
  have row : IsPlain linesOrder := isRow_eq_true.1 rfl
  have bare (ref : ObjectRef) (o : Record) (_ : linesOrder = .object ref)
      (held : linesEvaluator.store.get? ref = some o) : o.methods = [] := bare_lines ref o held
  have run {e : Expr} {v : Value} (gives : GivesOnLines (linesEvaluator.evaluate linesOrder e) v) : value e = v :=
    (gives _ (.refl _) uniform_lines).1
  have arguments {args : List Expr} {origin : Value} {values : List Value}
      (given : GivesOnLines (linesEvaluator.evaluateAll origin args) values) :
      linesEvaluator.argumentsOn (stateOf []) args origin = values := (given _ (.refl _) uniform_lines).1
  obtain ⟨upperAmong, -, upperBehind, -⟩ := evaluate_call_forms linesEvaluator uniform_lines rfl upper_listed rfl
    row (within_all _) bare (free "name") (Expr.literalsWithin_all _) (formed "name") (List.forall_mem_nil _)
    (List.forall_mem_nil _) (Nat.le_refl 0) (Nat.le_refl 0) lineField_name.value (isRow_eq_true.1 rfl) (by simp)
    rfl (.inl rfl)
  have upperSite := lineField_name.callSite upper_listed (gives_noArguments .null) (Nat.le_refl 0)
    (Nat.le_refl 0) (isRow_eq_true.1 rfl)
  obtain ⟨roundAmong, -, roundBehind, -⟩ := evaluate_call_forms linesEvaluator uniform_lines rfl round_listed rfl
    row (within_all _) bare (free "amount") (Expr.literalsWithin_all _) (formed "amount")
    (List.forall_mem_singleton.2 (key "places")) (List.forall_mem_singleton.2 (Expr.literalsWithin_all _))
    (Nat.zero_le 1) (Nat.le_refl 1) lineField_amount.value (isRow_eq_true.1 rfl) (by simp) rfl (.inl rfl)
  have roundSite := lineField_amount.callSite round_listed (gives_places .null (isRow_eq_true.1 rfl) rfl)
    (Nat.zero_le 1) (Nat.le_refl 1) (isRow_eq_true.1 rfl)
  rw [arguments (gives_noArguments linesOrder)] at upperAmong
  rw [arguments (gives_places linesOrder row rfl)] at roundAmong
  have upperOnNull := upperBehind _ _ upperSite (by simp)
  have roundOnLine := roundBehind _ _ roundSite (by simp)
  rw [arguments (gives_noArguments .null)] at upperOnNull
  rw [arguments (gives_places orderLine (isRow_eq_true.1 rfl) rfl)] at roundOnLine
  exact ⟨uniform_lines, upper_listed, round_listed, free "name", free "amount", lineField_name.value,
    lineField_amount.value, run upperOnNull, run upperAmong, run roundOnLine, run roundAmong⟩

end Evaluator
end Rowlang
