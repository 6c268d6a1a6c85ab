import Rowlang.Proofs.Engine.History
import Rowlang.Proofs.Eval.Scope

/-!
# Writing and reading back

A value that is written through a path of keys is what the path reads afterwards, and nothing else is
written. Where writing fails, nothing is written at all. To say so, writing is told once more as a program
that writes into the objects as it goes.

* `Record.get?_set` : an attribute that has been written is found under the same key;
* `Record.Names`, `Record.Accepts` : the name under which an attribute is written, and the value it takes;
* `Store.WrittenAt` : the objects differ in one attribute of one of them;
* `Evaluator.writeInPlace`, `Engine.setInPlace` : writing into the objects as they are;
* `Store.Leads`, `Engine.Visits` : the objects on the way of a path, by attributes and by its values;
* `Engine.setValue_readsBack` : writing as a whole.
-/

namespace Rowlang
open Rowlang.Text

/-! ## Attributes -/

namespace Record

/-- The object has attributes only, which can be written. -/
structure IsMap (r : Record) : Prop where
  resolve : ∀ key, r.resolve key = none
  methods : r.methods = []
  unsealed : r.isSealed = false

variable {r : Record} {key held : String} {v w : Value}

theorem IsMap.lookup? (h : r.IsMap) (key : String) : r.lookup? key = r.get? key := by
  rw [Record.lookup?, h.resolve, Option.none_or]

/-- The name under which the attribute `key` is written: `key` if there is such an attribute, else one that
differs in case only, and again `key` if there is none. -/
def Names (r : Record) (key held : String) : Prop :=
  held ∈ r.fields.keys ∧ equalIgnoringCase held key = true ∧ (key ∈ r.fields.keys → held = key) ∨
    held = key ∧ ∀ k ∈ r.fields.keys, equalIgnoringCase k key = false

/-- The value that the attribute takes for `v`: `v` itself, or the choice that it names, in its spelling. -/
def Accepts (r : Record) (key : String) (v w : Value) : Prop :=
  r.choices? key = none ∧ w = v ∨
    ∃ choices c, r.choices? key = some choices ∧
      choices.find? (equalIgnoringCase · v.render) = some c ∧ w = .text c

end Record

namespace Dictionary

variable {α : Type} {d : Dictionary α} {key : String} {p : String → Bool}

theorem isSome_get? : (d.get? key).isSome = true ↔ key ∈ d.keys := by
  obtain ⟨entries⟩ := d
  unfold get? keys
  induction entries with
  | nil => simp
  | cons e rest ih =>
    obtain ⟨k, v⟩ := e
    rw [lookup_cons]
    by_cases same : key = k
    · simp [same]
    · simp [same, ih]

/-- The first name that fulfils a condition is still the first when it is given another value. -/
theorem find?_keys_insert (found : d.keys.find? p = some key) (v : α) :
    (d.insert key v).keys.find? p = some key := by
  have chosen : p key = true := List.find?_some found
  obtain ⟨entries⟩ := d
  unfold keys insert at *
  induction entries with
  | nil => cases found
  | cons e rest ih =>
    obtain ⟨k, old⟩ := e
    dsimp only [insertEntry]
    by_cases same : key = k
    · rw [if_pos same, List.map_cons, List.find?_cons_of_pos chosen]
    · rw [if_neg same]
      split
      · rw [List.map_cons, List.find?_cons_of_pos chosen]
      · rw [List.map_cons, List.find?_cons] at found ⊢
        split at found
        · cases found
          exact absurd rfl same
        · rename_i other
          simpa [other] using ih found

end Dictionary

namespace Record

variable {r : Record} {key held : String} {v w : Value}

theorem heldKey?_of_mem (h : key ∈ r.fields.keys) : r.heldKey? key = some key := by
  rw [heldKey?, if_pos (Dictionary.isSome_get?.2 h)]

theorem heldKey?_of_not_mem (h : key ∉ r.fields.keys) :
    r.heldKey? key = r.fields.keys.find? (equalIgnoringCase · key) := by
  rw [heldKey?, if_neg (mt Dictionary.isSome_get?.1 h)]

theorem names_heldKey (r : Record) (key : String) : r.Names key ((r.heldKey? key).getD key) := by
  by_cases exact : key ∈ r.fields.keys
  · rw [heldKey?_of_mem exact]
    exact .inl ⟨exact, equalIgnoringCase_refl key, fun _ => rfl⟩
  · rw [heldKey?_of_not_mem exact]
    cases found : r.fields.keys.find? (equalIgnoringCase · key) with
    | none => exact .inr ⟨rfl, by simpa using found⟩
    | some held =>
      have similar := List.find?_some found
      exact .inl ⟨List.mem_of_find?_eq_some found, similar, fun held => absurd held exact⟩

/-- An attribute that has been written is held under the same name. -/
theorem heldKey?_set (r : Record) (key : String) (v : Value) :
    (r.set key v).heldKey? key = some ((r.heldKey? key).getD key) := by
  have written k w : k ∈ ((r.fields.insert k w).keys) :=
    Dictionary.isSome_get?.1 (by rw [Dictionary.get?_insert_self, Option.isSome_some])
  by_cases exact : key ∈ r.fields.keys
  · rw [heldKey?_of_mem exact]
    refine heldKey?_of_mem ?_
    rw [set, heldKey?_of_mem exact]
    exact written key v
  · cases found : r.fields.keys.find? (equalIgnoringCase · key) with
    | none =>
      rw [heldKey?_of_not_mem exact, found]
      refine heldKey?_of_mem ?_
      rw [set, heldKey?_of_not_mem exact, found]
      exact written key v
    | some held =>
      have other : key ≠ held := by
        rintro rfl
        exact exact (List.mem_of_find?_eq_some found)
      have absent : key ∉ (r.fields.insert held v).keys := by
        rw [← Dictionary.isSome_get?, Dictionary.get?_insert_of_ne _ _ other, Dictionary.isSome_get?]
        exact exact
      rw [heldKey?_of_not_mem exact, found]
      rw [set, heldKey?_of_not_mem exact, found, Option.getD_some, heldKey?_of_not_mem absent]
      exact Dictionary.find?_keys_insert found v

/-- An attribute that has been written is found under the same key. -/
theorem get?_set (r : Record) (key : String) (v : Value) : (r.set key v).get? key = some v := by
  rw [get?, heldKey?_set]
  exact Dictionary.get?_insert_self ..

theorem accepts_of_accept (h : r.accept key v = .ok w) : r.Accepts key v w := by
  unfold accept at h
  split at h
  · cases h
    exact .inl ⟨‹_›, rfl⟩
  · split at h
    · cases h
      exact .inr ⟨_, _, ‹_›, ‹_›, rfl⟩
    · cases h

end Record

/-! ## Objects -/

namespace Store

/-- The objects are made of attributes only. -/
def Maps (s : Store) : Prop := ∀ ref r, s.get? ref = some r → r.IsMap

/-- The value of an attribute of an object. -/
def attribute? (s : Store) (ref : ObjectRef) (key : String) : Option Value :=
  (s.get? ref).bind (·.lookup? key)

/-- The objects differ in one attribute of the object `ref` only, which is the one that `key` names, and has
the value `w`. -/
structure WrittenAt (s s' : Store) (ref : ObjectRef) (key : String) (w : Value) : Prop where
  others : ∀ other : ObjectRef, other.id ≠ ref.id → s'.get? other = s.get? other
  written : ∃ r r' held, s.get? ref = some r ∧ s'.get? ref = some r' ∧ r.Names key held ∧
    r' = { r with fields := r'.fields } ∧ r'.fields.get? held = some w ∧
    ∀ k, k ≠ held → r'.fields.get? k = r.fields.get? k

variable {s s' : Store} {ref : ObjectRef} {key : String} {v w : Value}

theorem lt_of_get? {r : Record} (h : s.get? ref = some r) : ref.id < s.records.size := by
  by_contra beyond
  rw [get?, Array.getElem?_eq_none (by omega)] at h
  cases h

/-- What is written where writing succeeds. -/
theorem write_cases (h : s.write ref key v = .ok s') :
    ∃ r w, s.get? ref = some r ∧ r.Accepts key v w ∧ s' = s.update ref (r.set key w) := by
  unfold write at h
  split at h
  · rename_i r known
    unfold Record.write at h
    cases accepted : r.accept key v with
    | error e =>
      rw [accepted] at h
      cases h
    | ok w =>
      cases sealed : r.isSealed with
      | true =>
        rw [accepted, sealed] at h
        cases h
      | false =>
        rw [accepted, sealed] at h
        cases h
        exact ⟨r, w, known, Record.accepts_of_accept accepted, rfl⟩
  · cases h

theorem writtenAt_update {r : Record} (known : s.get? ref = some r) (key : String) (w : Value) :
    s.WrittenAt (s.update ref (r.set key w)) ref key w where
  others other distinct := s.get?_update_of_ne _ distinct
  written := by
    refine ⟨r, r.set key w, _, known, s.get?_update_self ref _ (lt_of_get? known), r.names_heldKey key, rfl,
      Dictionary.get?_insert_self .., fun k other => Dictionary.get?_insert_of_ne _ _ other⟩

theorem attribute?_update {r : Record} (known : s.get? ref = some r) (map : r.IsMap) (key : String)
    (w : Value) : (s.update ref (r.set key w)).attribute? ref key = some w := by
  rw [attribute?, s.get?_update_self ref _ (lt_of_get? known)]
  have written : (r.set key w).IsMap := ⟨map.resolve, map.methods, map.unsealed⟩
  exact (written.lookup? key).trans (r.get?_set key w)

theorem WrittenAt.attribute?_of_ne (h : s.WrittenAt s' ref key w) {other : ObjectRef}
    (distinct : other.id ≠ ref.id) (k : String) : s'.attribute? other k = s.attribute? other k := by
  rw [attribute?, h.others other distinct, attribute?]

end Store

/-! ## Writing in place -/

/-- A program over the objects. What it has written stays written if it fails. -/
abbrev InPlace := ExceptT EvalError (StateT Store Eval)

/-- Checks a value for an attribute of the object `r`, to which `ref` refers, and writes it. -/
def Record.writeInPlace (r : Record) (ref : ObjectRef) (key : String) (v : Value) : InPlace Unit := do
  let w ← liftM (r.accept key v)
  if r.isSealed then throw (.readOnly ref.typeName key)
  modifyThe Store (·.update ref (r.set key w))

/-- Writes an attribute of the object that `target` is. -/
def Value.writeInPlace (target : Value) (e : Expr) (key : String) (v : Value) : InPlace Unit := do
  match target with
  | .object ref =>
    match (← getThe Store).get? ref with
    | none => throw (.readOnly ref.typeName key)
    | some r => r.writeInPlace ref key v
  | other => throw (.notAnObject e.render other.typeName)

/-- Writes a value through an expression into the objects as they are, starting from `target`. -/
def Evaluator.writeInPlace (delimiter : String) (target : Value) (e : Expr) (v : Value) : InPlace Unit := do
  match e.target? with
  | none => throw (.unsupportedTarget e.render)
  | some (path, key) =>
    let object ← (Evaluator.mk (← getThe Store) delimiter).evaluateSteps target path
    object.writeInPlace e key v

/-- Writes a value through a text into the objects as they are. -/
def Engine.setInPlace (e : Engine) (target : Value) (source : String) (v : Value) (store : Store) :
    (Except EvalError Unit × Engine) × Store :=
  let (x, e) := e.compile source
  let ((r, store), _, e) :=
    e.run (.ofRoot target) ((Evaluator.writeInPlace e.delimiter target x.expr v).run.run store)
  ((r, e), store)

def Store.afterWriting (s : Store) : Except EvalError Store → Except EvalError Unit × Store
  | .ok s' => (.ok (), s')
  | .error e => (.error e, s)

theorem Value.writeInPlace_object (store : Store) (ref : ObjectRef) (e : Expr) (key : String) (v : Value) :
    ((Value.object ref).writeInPlace e key v).run.run store =
      pure (store.afterWriting (store.write ref key v)) := by
  change ((match store.get? ref with
    | none => throw (.readOnly ref.typeName key)
    | some r => r.writeInPlace ref key v : InPlace Unit)).run.run store = _
  unfold Store.write
  cases store.get? ref with
  | none => rfl
  | some r =>
    dsimp only
    unfold Record.writeInPlace Record.write
    cases r.accept key v with
    | error reason => rfl
    | ok w => cases r.isSealed <;> rfl

/-- Writing into the objects as they are does what writing does, and leaves them alone where that fails. -/
theorem Evaluator.writeInPlace_eq (env : Evaluator) (target : Value) (e : Expr) (v : Value) :
    (writeInPlace env.delimiter target e v).run.run env.store =
      env.store.afterWriting <$> env.write target e v := by
  unfold writeInPlace write
  cases e.target? with
  | none => rfl
  | some t =>
    obtain ⟨path, key⟩ := t
    change (env.evaluateSteps target path >>= fun object => (object.writeInPlace e key v).run.run env.store) = _
    rw [map_bind]
    refine bind_congr fun object => ?_
    cases object with
    | object ref => exact Value.writeInPlace_object ..
    | _ => rfl

/-! ## Paths of attributes -/

namespace Store

/-- The attributes lead from an object over other ones, of which they are the values. -/
inductive Leads (s : Store) : ObjectRef → List String → List ObjectRef → Prop
  | nil {root} : Leads s root [] []
  | cons {root ref k keys refs} (value : s.attribute? root k = some (.object ref))
      (later : Leads s ref keys refs) : Leads s root (k :: keys) (ref :: refs)

variable {s s' : Store} {root ref : ObjectRef} {key k : String} {keys : List String} {refs : List ObjectRef}
  {w : Value}

theorem Leads.concat (h : s.Leads root keys refs)
    (value : s.attribute? (refs.getLastD root) k = some (.object ref)) :
    s.Leads root (keys ++ [k]) (refs ++ [ref]) := by
  induction h with
  | nil => exact .cons value .nil
  | cons first _ ih =>
    rw [List.getLastD_cons] at value
    exact .cons first (ih value)

/-- A path whose last object only is written to leads over the same objects. -/
theorem Leads.of_writtenAt (h : s.Leads root keys refs)
    (written : s.WrittenAt s' (refs.getLastD root) key w)
    (distinct : ((root :: refs).map (·.id)).Nodup) : s'.Leads root keys refs := by
  induction h with
  | nil => exact .nil
  | @cons root ref k keys refs first later ih =>
    rw [List.map_cons, List.nodup_cons] at distinct
    rw [List.getLastD_cons] at written
    have other : root.id ≠ (refs.getLastD ref).id := by
      intro same
      exact distinct.1 (same ▸ List.mem_map_of_mem List.getLastD_mem_cons)
    refine .cons ?_ (ih written distinct.2)
    rw [written.attribute?_of_ne other, first]

end Store

/-! ## Reading paths -/

namespace Expr

def keyPath? : Expr → Option (List String)
  | .key name => some [name]
  | .chain steps => steps.mapM keyName?
  | _ => none

theorem keys_of_mapM {steps : List Expr} {names : List String} (h : steps.mapM keyName? = some names) :
    steps = names.map .key := by
  induction steps generalizing names with
  | nil =>
    cases h
    rfl
  | cons step steps ih =>
    simp only [List.mapM_cons, Option.bind_eq_bind, Option.bind_eq_some_iff, Option.pure_def,
      Option.some.injEq] at h
    obtain ⟨name, first, names, later, rfl⟩ := h
    cases step <;> cases first
    rw [List.map_cons, ih later]

theorem of_keyPath {x : Expr} {names : List String} (path : x.keyPath? = some names) :
    (∃ name, x = .key name ∧ names = [name]) ∨ x = .chain (names.map .key) := by
  cases x with
  | key name =>
    cases path
    exact .inl ⟨name, rfl, rfl⟩
  | chain steps => exact .inr (congrArg _ (keys_of_mapM path))
  | _ => cases path

theorem target_keyPath {x : Expr} {names : List String} {name : String}
    (path : x.keyPath? = some (names ++ [name])) : x.target? = some (names.map .key, name) := by
  rcases of_keyPath path with ⟨name', rfl, same⟩ | rfl
  · rw [← List.nil_append [name']] at same
    obtain ⟨rfl, ⟨⟩⟩ := List.append_inj' same rfl
    rfl
  · simp [target?, keyName?]

end Expr

namespace Evaluator

variable (env : Evaluator) {root ref : ObjectRef} {k : String} {keys : List String} {refs : List ObjectRef}
  {v : Value}

theorem lookupKey_attribute (value : env.store.attribute? ref k = some v) (head : Bool) :
    env.lookupKey (.object ref) k head = pure v := by
  unfold Store.attribute? at value
  rw [lookupKey, value]

/-- A key that is no attribute shows the object itself or nothing, if there are no variables. -/
theorem lookupKey_missing (missing : env.store.attribute? ref k = none) (head : Bool) {s : EvalState}
    (fresh : s.bindings = .empty) :
    ((env.lookupKey (.object ref) k head).run s).1 = .object ref ∨
      ((env.lookupKey (.object ref) k head).run s).1 = .null := by
  unfold Store.attribute? at missing
  rw [lookupKey, missing]
  dsimp only
  split
  · exact .inl rfl
  · split
    · have unknown : s.bindings.get? k = none := by rw [fresh, Dictionary.get?_empty]
      refine .inr ?_
      show (s.bindings.get? k).getD .null = .null
      rw [unknown, Option.getD_none]
    · exact .inr rfl

theorem evaluateChain_leads (h : env.store.Leads root keys refs) (origin : Value) (head : Bool)
    (later : List Expr) :
    env.evaluateChain origin (.object root) head (keys.map .key ++ later) =
      env.evaluateChain origin (.object (refs.getLastD root)) (head && keys.isEmpty) later := by
  induction h generalizing head with
  | nil => simp
  | cons first _ ih =>
    rw [List.map_cons, List.cons_append, evaluateChain_key (by simp), env.lookupKey_attribute first, pure_bind,
      ih, List.getLastD_cons, Bool.false_and, List.isEmpty_cons, Bool.and_false]

theorem evaluateSteps_object (names : List String) :
    env.evaluateSteps (.object root) (names.map .key) =
      env.evaluateChain (.object root) (.object root) true (names.map .key) := by
  cases names with
  | nil => simp [evaluateSteps, evaluateChain]
  | cons name names =>
    rw [List.map_cons, evaluateSteps_row (by simp), evaluateChain_key (by simp)]

theorem evaluateSteps_leads (h : env.store.Leads root keys refs) :
    env.evaluateSteps (.object root) (keys.map .key) = pure (.object (refs.getLastD root)) := by
  have path := env.evaluateChain_leads h (.object root) true []
  rw [evaluateSteps_object]
  rw [List.append_nil] at path
  rw [path, evaluateChain]

theorem evaluateSteps_concat (h : env.store.Leads root keys refs) (k : String) :
    env.evaluateSteps (.object root) ((keys ++ [k]).map .key) =
      env.lookupKey (.object (refs.getLastD root)) k keys.isEmpty := by
  rw [evaluateSteps_object, List.map_append, env.evaluateChain_leads h, List.map_singleton,
    evaluateChain_key (by simp), Bool.true_and]
  simp only [evaluateChain, bind_pure]

theorem evaluate_keyPath {x : Expr} {names : List String} (path : x.keyPath? = some names)
    (some_key : names ≠ []) (v : Value) : env.evaluate v x = env.evaluateSteps v (names.map .key) := by
  rcases Expr.of_keyPath path with ⟨name, rfl, rfl⟩ | rfl
  · exact env.evaluate_ofSteps some_key v
  · cases names with
    | nil => exact absurd rfl some_key
    | cons name names => exact env.evaluate_chain v name _

end Evaluator

namespace Engine

def valueOf (e : Engine) (store : Store) (target : Value) (x : Expr) : Value :=
  (e.run (.ofRoot target) ((e.evaluator store).evaluate target x)).1

/-- The beginnings of a path of keys have the objects `refs` as their values. -/
inductive Visits (e : Engine) (store : Store) (root : ObjectRef) : List String → List ObjectRef → Prop
  | nil : Visits e store root [] []
  | concat {keys refs k ref} (before : Visits e store root keys refs)
      (value : e.valueOf store (.object root) (.ofSteps ((keys ++ [k]).map .key)) = .object ref) :
      Visits e store root (keys ++ [k]) (refs ++ [ref])

variable {e : Engine} {store : Store} {root : ObjectRef} {keys : List String} {refs : List ObjectRef}

/-- The values on the way of a path are attributes, if none of them comes twice. -/
theorem Visits.leads (h : e.Visits store root keys refs) (distinct : ((root :: refs).map (·.id)).Nodup) :
    store.Leads root keys refs := by
  induction h with
  | nil => exact .nil
  | @concat keys refs k ref before value ih =>
    rw [← List.cons_append, List.map_append, List.nodup_append] at distinct
    have leads := ih distinct.1
    have other : (refs.getLastD root).id ≠ ref.id :=
      distinct.2.2 _ (List.mem_map_of_mem List.getLastD_mem_cons) _ (List.mem_singleton_self _)
    refine leads.concat ?_
    have read : (((e.evaluator store).lookupKey (.object (refs.getLastD root))
        k keys.isEmpty).run ⟨.empty, e.functions⟩).1 = .object ref := by
      rw [← (e.evaluator store).evaluateSteps_concat leads,
        ← (e.evaluator store).evaluate_ofSteps (by simp)]
      exact value
    cases held : store.attribute? (refs.getLastD root) k with
    | some v =>
      rw [(e.evaluator store).lookupKey_attribute held] at read
      exact congrArg some read
    | none =>
      rcases (e.evaluator store).lookupKey_missing held keys.isEmpty
        (s := ⟨.empty, e.functions⟩) rfl with itself | nothing
      · cases itself.symm.trans read
        exact absurd rfl other
      · cases nothing.symm.trans read

/-! ## Writing through texts -/

theorem setInPlace_eq (e : Engine) (store : Store) (target : Value) (source : String) (v : Value) :
    e.setInPlace target source v store =
      (((store.afterWriting (e.setValue store target source v).1).1, (e.setValue store target source v).2),
        (store.afterWriting (e.setValue store target source v).1).2) := by
  unfold setInPlace setValue
  dsimp only
  have same := Evaluator.writeInPlace_eq ((e.compile source).2.evaluator store) target
    (e.compile source).1.expr v
  have delimiter : ((e.compile source).2.evaluator store).delimiter = (e.compile source).2.delimiter := rfl
  have here : ((e.compile source).2.evaluator store).store = store := rfl
  rw [delimiter, here] at same
  rw [same]
  rfl

/-- Writing through a path of attributes writes into the last object. -/
theorem setValue_of_leads {source key : String}
    (path : (e.compile source).1.expr.keyPath? = some (keys ++ [key]))
    (leads : store.Leads root keys refs) (v : Value) :
    e.setValue store (.object root) source v =
      (store.write (refs.getLastD root) key v, (e.compile source).2) := by
  have write : ((e.compile source).2.evaluator store).write (.object root) (e.compile source).1.expr v =
      pure (store.write (refs.getLastD root) key v) := by
    rw [Evaluator.write, Expr.target_keyPath path]
    dsimp only
    rw [((e.compile source).2.evaluator store).evaluateSteps_leads leads]
    rfl
  unfold setValue
  dsimp only
  rw [write]
  rfl

/-- A path of attributes that has been compiled is read again without being compiled. -/
theorem evaluate_of_leads {source key : String}
    (path : (e.compile source).1.expr.keyPath? = some (keys ++ [key]))
    (leads : store.Leads root keys refs) {w : Value}
    (value : store.attribute? (refs.getLastD root) key = some w) :
    ((e.compile source).2.evaluate store (.object root) source).1 = w := by
  have again : (e.compile source).2.compile source = e.compile source := by
    rw [compile_of_find? (find?_compile e source)]
  have read :
      ((e.compile source).2.evaluator store).evaluate (.object root) (e.compile source).1.expr = pure w := by
    rw [Evaluator.evaluate_keyPath _ path (by simp), Evaluator.evaluateSteps_concat _ leads,
      Evaluator.lookupKey_attribute _ value]
  unfold evaluate evaluateIn evaluateAt
  dsimp only
  rw [again]
  change ((e.compile source).2.run _ (((e.compile source).2.evaluator store).evaluate (.object root) _)).1 = w
  rw [read]
  rfl

/-- **Writing is all or nothing, and reads back.** Where writing fails, it leaves the objects as they are. A
value that is written through a path of keys, over objects none of which comes twice, changes one attribute of
the last of them, under the name that it has already if there is one that differs in case at most. The path
then has that value, or the choice that it names, in its spelling. No function that a path calls can write. -/
theorem setValue_readsBack {store : Store} (maps : store.Maps) (e : Engine) (target : Value) (source : String)
    (v : Value) :
    (∀ reason e', e.setValue store target source v = (.error reason, e') →
      e.setInPlace target source v store = ((.error reason, e'), store)) ∧
    ∀ store' e', e.setValue store target source v = (.ok store', e') →
      e.setInPlace target source v store = ((.ok (), e'), store') ∧
      ∀ root keys key refs, target = .object root →
        (e.compile source).1.expr.keyPath? = some (keys ++ [key]) →
        e.Visits store root keys refs → ((root :: refs).map (·.id)).Nodup →
        ∃ r w, store.get? (refs.getLastD root) = some r ∧ r.Accepts key v w ∧
          store.WrittenAt store' (refs.getLastD root) key w ∧
          (e'.evaluate store' target source).1 = w := by
  refine ⟨fun reason e' failed => ?_, fun store' e' succeeded => ⟨?_, ?_⟩⟩
  · rw [setInPlace_eq, failed]
    rfl
  · rw [setInPlace_eq, succeeded]
    rfl
  · rintro root keys key refs rfl path visits distinct
    have leads := visits.leads distinct
    rw [setValue_of_leads path leads] at succeeded
    obtain ⟨succeeds, rfl⟩ := Prod.mk.inj succeeded
    obtain ⟨r, w, known, accepts, rfl⟩ := Store.write_cases succeeds
    have written := Store.writtenAt_update known key w
    refine ⟨r, w, known, accepts, written, ?_⟩
    exact evaluate_of_leads path (leads.of_writtenAt written distinct)
      (Store.attribute?_update known (maps _ r known) key w)

/-- An order with an item, whose status is one of two. -/
def orderStore : Store := ⟨#[
  .ofFields (.ofList [("item", .object ⟨1, "Item"⟩)]),
  { Record.ofFields (.ofList [("Status", .text "Open")]) with
    choices := .ofList [("status", ["Open", "Closed"])] }]⟩

/-- The status is written in the spelling of its choice, and under the name that it has. -/
theorem setValue_readsBack_status :
    let e := ofGrammar expressionGrammar ", "
    let e' := (e.compile "item.status").2
    ∃ s, e.setValue orderStore (.object ⟨0, "Order"⟩) "item.status" (.text "closed") = (.ok s, e') ∧
      orderStore.WrittenAt s ⟨1, "Item"⟩ "status" (.text "Closed") ∧
      (e'.evaluate s (.object ⟨0, "Order"⟩) "item.status").1 = .text "Closed" := by
  intro e e'
  have maps : orderStore.Maps := by
    intro ref r known
    have listed := Array.mem_of_getElem? known
    simp only [orderStore, List.mem_toArray, List.mem_pair] at listed
    rcases listed with rfl | rfl <;> exact ⟨fun _ => rfl, rfl, rfl⟩
  have path : (e.compile "item.status").1.expr.keyPath? = some (["item"] ++ ["status"]) := by
    decide +kernel
  have item : orderStore.attribute? ⟨0, "Order"⟩ "item" = some (.object ⟨1, "Item"⟩) := by
    rfl
  have leads : orderStore.Leads ⟨0, "Order"⟩ ["item"] [⟨1, "Item"⟩] := .cons item .nil
  have visits : e.Visits orderStore ⟨0, "Order"⟩ ([] ++ ["item"]) ([] ++ [⟨1, "Item"⟩]) := by
    refine .concat .nil ?_
    have start : (e.evaluator orderStore).store.Leads ⟨0, "Order"⟩ [] [] := .nil
    have read := (e.evaluator orderStore).evaluateSteps_concat start "item"
    rw [List.getLastD_nil, (e.evaluator orderStore).lookupKey_attribute item] at read
    unfold valueOf
    rw [(e.evaluator orderStore).evaluate_ofSteps (by simp), read]
    rfl
  obtain ⟨s, writes⟩ : ∃ s, orderStore.write ⟨1, "Item"⟩ "status" (.text "closed") = .ok s := by
    exact ⟨_, rfl⟩
  have succeeds := setValue_of_leads path leads (.text "closed")
  rw [List.getLastD_cons, List.getLastD_nil, writes] at succeeds
  obtain ⟨r, w, known, accepts, written, reads⟩ :=
    ((setValue_readsBack maps e (.object ⟨0, "Order"⟩) "item.status" (.text "closed")).2 s e' succeeds).2
      ⟨0, "Order"⟩ ["item"] "status" [⟨1, "Item"⟩] rfl path visits (by decide)
  obtain rfl : w = .text "Closed" := by
    obtain rfl := Option.some.inj known
    rcases accepts with ⟨unlimited, -⟩ | ⟨choices, c, limited, found, rfl⟩
    · cases unlimited
    · cases limited
      cases found
      rfl
  exact ⟨s, succeeds, written, reads⟩

end Engine

end Rowlang
