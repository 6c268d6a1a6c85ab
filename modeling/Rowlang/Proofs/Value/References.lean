import Rowlang.Functions.Registry

/-!
# The objects that values refer to

Operators and built-in functions make no references: what their results refer to, they were given.

* `Value.refs` : the objects that a value refers to, itself or in its items;
* `Value.Within` : a value that refers to known objects only;
* `BinaryOperator.refs_apply`, `UnaryOperator.refs_apply` : values of operators refer to nothing;
* `FunctionProvider.Keeps`, `keeps_builtins` : functions whose values refer to what they are given.
-/

namespace Rowlang

namespace Value

mutual

/-- The objects that a value refers to, itself or in its items. -/
def refs : Value → List ObjectRef
  | .object ref => [ref]
  | .list items _ => refsOf items
  | .null | .boolean _ | .number _ | .text _ | .date _ => []

def refsOf : List Value → List ObjectRef
  | [] => []
  | v :: rest => v.refs ++ refsOf rest

end

/-- A value that refers to known objects only. -/
def Within (known : ObjectRef → Prop) (v : Value) : Prop := ∀ ref ∈ v.refs, known ref

variable {known : ObjectRef → Prop}

theorem mem_refsOf {items : List Value} {ref : ObjectRef} :
    ref ∈ refsOf items ↔ ∃ v ∈ items, ref ∈ v.refs := by
  induction items with
  | nil => simp [refsOf]
  | cons v rest ih => simp [refsOf, ih]

theorem within_of_refs {v : Value} (h : v.refs = []) : v.Within known := by
  intro ref listed
  rw [h] at listed
  cases listed

theorem within_object {ref : ObjectRef} : (object ref).Within known ↔ known ref := by
  simp [Within, refs]

theorem within_list {items : List Value} {key : Option String} :
    (list items key).Within known ↔ ∀ v ∈ items, v.Within known := by
  simp only [Within, refs, mem_refsOf]
  exact ⟨fun h v listed ref inside => h ref ⟨v, listed, inside⟩,
    fun h ref ⟨v, listed, inside⟩ => h v listed ref inside⟩

theorem within_null : null.Within known := within_of_refs rfl

theorem within_boolean (b : Bool) : (boolean b).Within known := within_of_refs rfl

theorem within_number (n : Number) : (number n).Within known := within_of_refs rfl

theorem within_text (s : String) : (text s).Within known := within_of_refs rfl

theorem within_getD {o : Option Value} (h : ∀ v, o = some v → v.Within known) :
    (o.getD .null).Within known := by
  cases o with
  | none => exact within_null
  | some v => exact h v rfl

end Value

open Value

variable {known : ObjectRef → Prop}

/-! ## Rows -/

mutual

theorem within_leafRows {items : List Value} (h : ∀ v ∈ items, v.Within known) :
    ∀ v ∈ leafRows items, v.Within known := by
  match items with
  | [] =>
    rw [leafRows]
    exact h
  | .list group key :: rest =>
    rw [leafRows]
    obtain ⟨first, later⟩ := List.forall_mem_cons.1 h
    exact List.forall_mem_append.2 ⟨within_leafRows (within_list.1 first), within_groupRows later⟩
  | .null :: _ | .boolean _ :: _ | .number _ :: _ | .text _ :: _ | .date _ :: _ | .object _ :: _ =>
    simpa only [leafRows] using h

theorem within_groupRows {items : List Value} (h : ∀ v ∈ items, v.Within known) :
    ∀ v ∈ groupRows items, v.Within known := by
  match items with
  | [] =>
    rw [groupRows]
    exact h
  | .list group key :: rest =>
    rw [groupRows]
    obtain ⟨first, later⟩ := List.forall_mem_cons.1 h
    exact List.forall_mem_append.2 ⟨within_leafRows (within_list.1 first), within_groupRows later⟩
  | .null :: rest | .boolean _ :: rest | .number _ :: rest | .text _ :: rest | .date _ :: rest
  | .object _ :: rest =>
    simp only [groupRows]
    obtain ⟨first, later⟩ := List.forall_mem_cons.1 h
    exact List.forall_mem_cons.2 ⟨first, within_groupRows later⟩

end

/-! ## Operators -/

/-- What two operands are combined to refers to no object. -/
theorem BinaryOperator.refs_apply (op : BinaryOperator) (a b : Value) : (op.apply a b).refs = [] := by
  have numeric (n : Option Number) : ((n.map number).getD .null).refs = [] := by cases n <;> rfl
  unfold BinaryOperator.apply
  split
  · rfl
  · split <;> first | rfl | exact numeric _

theorem UnaryOperator.refs_apply (op : UnaryOperator) (v : Value) : (op.apply v).refs = [] := by
  unfold UnaryOperator.apply
  split <;> rfl

/-! ## Functions -/

/-- A function whose values refer to known objects, if what it is given does. -/
def Function.Keeps (known : ObjectRef → Prop) (f : Function) : Prop :=
  ∀ target args v, target.Within known → (∀ a ∈ args, a.Within known) → f target args = .ok v →
    v.Within known

/-- All functions of a provider keep to known objects. -/
structure FunctionProvider.Keeps (known : ObjectRef → Prop) (p : FunctionProvider) : Prop where
  fixed : ∀ e ∈ p.fixed, Function.Keeps known e.2
  variadic : ∀ e ∈ p.variadic, Function.Keeps known e.2

theorem mem_of_lookup {α β : Type} [BEq α] [LawfulBEq α] {l : List (α × β)} {k : α} {v : β}
    (h : l.lookup k = some v) : (k, v) ∈ l := by
  obtain ⟨l₁, l₂, rfl, -⟩ := List.lookup_eq_some_iff.1 h
  simp

/-- A resolution to a function that keeps to known objects, or to a method. -/
def Resolution.Keeps (known : ObjectRef → Prop) : Resolution → Prop
  | .function f | .varargs f => Function.Keeps known f
  | .rawMethod | .method => True

theorem FunctionRegistry.keeps_searchFunction {providers : List FunctionProvider}
    (keeps : ∀ p ∈ providers, p.Keeps known) {name : String} {arity : Nat} {r : Resolution}
    (h : searchFunction providers name arity = some r) : r.Keeps known := by
  unfold searchFunction at h
  dsimp only at h
  cases fixed : providers.findSome? (·.lookup? (lowerName name) arity) with
  | some f =>
    rw [fixed] at h
    cases h
    obtain ⟨p, listed, found⟩ := List.exists_of_findSome?_eq_some fixed
    exact (keeps p listed).fixed _ (mem_of_lookup found)
  | none =>
    rw [fixed] at h
    obtain ⟨f, variadic, rfl⟩ := Option.map_eq_some_iff.1 h
    obtain ⟨p, listed, found⟩ := List.exists_of_findSome?_eq_some variadic
    exact (keeps p listed).variadic _ (mem_of_lookup found)

/-! ## The built-in functions -/

namespace Functions

def Plain (r : Except String Value) : Prop := ∀ v, r = .ok v → v.refs = []

theorem plain_ok {v : Value} (h : v.refs = []) : Plain (.ok v) := by
  rintro _ ⟨⟩
  exact h

theorem plain_error (e : String) : Plain (.error e) := by rintro _ ⟨⟩

theorem plain_bind {α : Type} {r : Except String α} {f : α → Except String Value}
    (h : ∀ x, Plain (f x)) : Plain (r >>= f) := by
  cases r with
  | error e => exact plain_error e
  | ok x => exact h x

theorem refs_ofChars (cs : List Char) : (ofChars cs).refs = [] := rfl

theorem refs_split (parts : List (List Char)) : (Value.ofList (parts.map ofChars)).refs = [] := by
  show refsOf (parts.map ofChars) = []
  induction parts with
  | nil => rfl
  | cons part rest ih =>
    rw [List.map_cons, refsOf, ih, refs_ofChars]
    rfl

theorem plain_onNumber (exact : Decimal → Decimal) (rounded : Float → Float) (subject : Value)
    (args : List Value) : Plain (onNumber exact rounded subject args) :=
  plain_bind fun n => by cases n <;> exact plain_ok rfl

theorem plain_subjectFunctions : ∀ f ∈ subjectFunctions, ∀ subject args, Plain (f.run subject args) := by
  simp only [subjectFunctions, List.forall_mem_cons]
  refine ⟨fun subject args => ?abs, plain_onNumber _ _, plain_onNumber _ _, fun subject args => ?round,
    fun subject args => ?pow, fun subject args => ?substring, fun subject args => ?indexOf,
    fun subject args => ?split, fun subject args => ?pad, fun subject args => ?wrap,
    fun subject args => ?startsWith, fun subject args => ?endsWith, fun subject args => plain_ok rfl,
    fun subject args => plain_ok rfl, fun subject args => plain_ok rfl, fun subject args => ?date,
    fun subject args => ?length, fun subject args => ?format, fun subject args => plain_ok rfl,
    fun subject args => ?roman, by simp⟩
  case abs => exact plain_bind fun _ => plain_ok rfl
  case round =>
    unfold round
    dsimp only
    split <;>
    · refine plain_bind fun places => ?_
      split
      · exact plain_error _
      · exact plain_bind fun n => by cases n <;> exact plain_ok rfl
  case pow => exact plain_bind fun _ => plain_bind fun _ => plain_bind fun _ => plain_ok rfl
  case substring =>
    refine plain_bind fun _ => ?_
    dsimp only
    split <;> exact plain_bind fun _ => plain_ok rfl
  case indexOf =>
    refine plain_bind fun _ => ?_
    dsimp only
    split <;> exact plain_ok rfl
  case split => exact plain_bind fun _ => plain_ok (refs_split _)
  case pad =>
    refine plain_bind fun _ => ?_
    dsimp only
    split
    · exact plain_error _
    · exact plain_ok rfl
  case wrap =>
    refine plain_bind fun _ => ?_
    dsimp only
    split <;> exact plain_ok rfl
  case startsWith => exact plain_bind fun _ => plain_ok rfl
  case endsWith => exact plain_bind fun _ => plain_ok rfl
  case date =>
    unfold date
    split
    · exact plain_ok rfl
    · dsimp only
      split <;> split <;> first | exact plain_ok rfl | exact plain_error _
  case length =>
    unfold length
    split <;> exact plain_ok rfl
  case format =>
    refine plain_bind fun _ => ?_
    dsimp only
    split
    · split
      · exact plain_ok rfl
      · exact plain_error _
    · exact plain_ok rfl
    · exact plain_bind fun _ => plain_bind fun _ => plain_ok rfl
  case roman =>
    unfold roman
    split
    · split
      · exact plain_ok rfl
      · exact plain_error _
    · exact plain_error _

theorem mem_of_foldl {pick : Value → Value → Value} (among : ∀ a b, pick a b = a ∨ pick a b = b)
    (v : Value) (rest : List Value) : rest.foldl pick v ∈ v :: rest := by
  induction rest generalizing v with
  | nil => exact List.mem_singleton_self v
  | cons w rest ih =>
    rw [List.foldl_cons]
    rcases List.mem_cons.1 (ih (pick v w)) with same | listed
    · rw [same]
      rcases among v w with same | same <;> simp [same]
    · exact List.mem_cons_of_mem _ (List.mem_cons_of_mem _ listed)

theorem mem_of_least? {values : List Value} {v : Value} (h : least? values = some v) : v ∈ values := by
  cases values with
  | nil => cases h
  | cons w rest =>
    cases h
    exact mem_of_foldl (fun a b => by split <;> simp) w rest

theorem mem_of_greatest? {values : List Value} {v : Value} (h : greatest? values = some v) :
    v ∈ values := by
  cases values with
  | nil => cases h
  | cons w rest =>
    cases h
    exact mem_of_foldl (fun a b => by split <;> simp) w rest

theorem within_candidates {target : Value} {args : List Value} (h : ∀ a ∈ args, a.Within known) :
    ∀ a ∈ candidates target args, a.Within known := by
  unfold candidates
  refine List.forall_mem_append.2 ⟨fun a listed => h a (List.mem_filter.1 listed).1, ?_⟩
  split
  · exact List.forall_mem_singleton.2 (within_number _)
  · exact List.forall_mem_nil _

theorem keeps_named {name : String} {run : Builtin}
    (h : ∀ target args v, target.Within known → (∀ a ∈ args, a.Within known) → run target args = .ok v →
      v.Within known) : Function.Keeps known (named name run) := by
  intro target args v first later made
  unfold named at made
  cases result : run target args with
  | error e =>
    rw [result] at made
    cases made
  | ok w =>
    rw [result] at made
    cases made
    exact h target args v first later result

theorem keeps_max (name : String) : Function.Keeps known (named name max) := by
  refine keeps_named fun target args v _ within made => ?_
  cases made
  exact within_getD fun v found => within_candidates within v (mem_of_greatest? found)

theorem keeps_min (name : String) : Function.Keeps known (named name min) := by
  refine keeps_named fun target args v _ within made => ?_
  cases made
  exact within_getD fun v found => within_candidates within v (mem_of_least? found)

theorem keeps_list (name : String) : Function.Keeps known (named name list) := by
  refine keeps_named fun target args v _ within made => ?_
  cases made
  exact within_list.2 within

end Functions

namespace FunctionProvider

variable {p : FunctionProvider} {f : Function}

theorem Keeps.function (h : p.Keeps known) (keeps : Function.Keeps known f) (name : String) (arity : Nat) :
    (p.function name arity f).Keeps known :=
  ⟨List.forall_mem_cons.2 ⟨keeps, h.fixed⟩, h.variadic⟩

theorem Keeps.varargs (h : p.Keeps known) (keeps : Function.Keeps known f) (name : String) :
    (p.varargs name f).Keeps known :=
  ⟨h.fixed, List.forall_mem_cons.2 ⟨keeps, h.variadic⟩⟩

theorem Keeps.foldl {α : Type} {add : FunctionProvider → α → FunctionProvider} {l : List α}
    (each : ∀ x ∈ l, ∀ p : FunctionProvider, p.Keeps known → (add p x).Keeps known) (h : p.Keeps known) :
    (l.foldl add p).Keeps known := by
  induction l generalizing p with
  | nil => exact h
  | cons x rest ih =>
    obtain ⟨first, later⟩ := List.forall_mem_cons.1 each
    exact ih later (first p h)

end FunctionProvider

open FunctionProvider Functions in
/-- The built-in functions keep to the objects that they are given. -/
theorem keeps_builtins (known : ObjectRef → Prop) : builtins.Keeps known := by
  have empty : (FunctionProvider.empty "builtin").Keeps known :=
    ⟨List.forall_mem_nil _, List.forall_mem_nil _⟩
  have subjects : (subjectFunctions.foldl addSubjectFunction (.empty "builtin")).Keeps known := by
    refine empty.foldl fun f listed p h => h.foldl fun i _ p h => h.function ?_ _ _
    refine keeps_named fun target args v _ _ made => within_of_refs ?_
    exact plain_subjectFunctions f listed _ _ v made
  exact ((subjects.varargs (keeps_max _) _).varargs (keeps_min _) _).varargs (keeps_list _) _

end Rowlang
