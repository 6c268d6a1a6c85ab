import Mathlib.Data.String.Basic
import Rowlang.Proofs.Json.Numbers

/-!
# Documents as values and back

A document that becomes a value and is written again has its structure, names, texts and booleans. Its numbers
are read and written one by one, wherever they stand.

* `Json.mapNumbers` : a document with other numbers;
* `Json.Ordered` : the members of objects stand in the order of their names;
* `Store.Extends` : the objects that documents add to a store leave those that are there;
* `Json.toJson_toValue` : a document comes back, with its numbers reread.
-/

namespace Rowlang

/-! ## Documents -/

namespace Json

mutual

def mapNumbers (f : JsonNumber → Json) : Json → Json
  | .null => .null
  | .boolean b => .boolean b
  | .number n => f n
  | .text t => .text t
  | .array items => .array (mapItems f items)
  | .object members => .object (mapMembers f members)

def mapItems (f : JsonNumber → Json) : List Json → List Json
  | [] => []
  | j :: rest => mapNumbers f j :: mapItems f rest

def mapMembers (f : JsonNumber → Json) : List (String × Json) → List (String × Json)
  | [] => []
  | (name, j) :: rest => (name, mapNumbers f j) :: mapMembers f rest

end

mutual

/-- Throughout the document, the members of objects are in the order of their names. -/
def Ordered : Json → Prop
  | .array items => OrderedItems items
  | .object members => (members.map Prod.fst).Pairwise (· < ·) ∧ OrderedMembers members
  | _ => True

def OrderedItems : List Json → Prop
  | [] => True
  | j :: rest => Ordered j ∧ OrderedItems rest

def OrderedMembers : List (String × Json) → Prop
  | [] => True
  | (_, j) :: rest => Ordered j ∧ OrderedMembers rest

end

theorem fst_mapMembers (f : JsonNumber → Json) (members : List (String × Json)) :
    (mapMembers f members).map Prod.fst = members.map Prod.fst := by
  induction members with
  | nil => rfl
  | cons member rest ih =>
    rw [mapMembers, List.map_cons, List.map_cons, ih]

end Json

/-! ## Objects -/

namespace Dictionary

variable {α : Type} {entries : List (String × α)}

theorem insertEntry_last {key : String} (value : α) (behind : ∀ k ∈ entries.map Prod.fst, k < key) :
    insertEntry key value entries = entries ++ [(key, value)] := by
  induction entries with
  | nil => rfl
  | cons e rest ih =>
    obtain ⟨here, later⟩ := List.forall_mem_cons.1 behind
    rw [insertEntry, if_neg here.ne', if_neg here.not_gt, ih later, List.cons_append]

theorem ofList_ascending (ascending : (entries.map Prod.fst).Pairwise (· < ·)) : ofList entries = ⟨entries⟩ := by
  have from_acc (acc rest : List (String × α)) (ascending : ((acc ++ rest).map Prod.fst).Pairwise (· < ·)) :
      rest.foldl (fun (d : Dictionary α) e => d.insert e.1 e.2) ⟨acc⟩ = ⟨acc ++ rest⟩ := by
    induction rest generalizing acc with
    | nil => rw [List.foldl_nil, List.append_nil]
    | cons e rest ih =>
      have behind : ∀ k ∈ acc.map Prod.fst, k < e.1 := fun k listed => by
        rw [List.map_append, List.map_cons] at ascending
        exact (List.pairwise_append.1 ascending).2.2 k listed e.1 List.mem_cons_self
      rw [List.foldl_cons, insert, insertEntry_last e.2 behind]
      simpa using ih (acc ++ [e]) (by simpa using ascending)
  exact from_acc [] entries ascending

theorem lookup_ascending (ascending : (entries.map Prod.fst).Pairwise (· < ·)) :
    ∀ e ∈ entries, entries.lookup e.1 = some e.2 := by
  induction entries with
  | nil => exact List.forall_mem_nil _
  | cons e rest ih =>
    rw [List.map_cons, List.pairwise_cons] at ascending
    refine List.forall_mem_cons.2 ⟨by rw [lookup_cons, if_pos rfl], fun e' listed => ?_⟩
    rw [lookup_cons, if_neg (ascending.1 e'.1 (List.mem_map_of_mem listed)).ne']
    exact ih ascending.2 e' listed

end Dictionary

/-- A name that an attribute has exactly is the one under which it is read, whatever names differ from it in
the case of letters only. -/
theorem Record.get?_of_get? {r : Record} {key : String} {v : Value} (held : r.fields.get? key = some v) :
    r.get? key = some v := by
  have exact : r.heldKey? key = some key := by rw [heldKey?, held, Option.isSome_some, if_pos rfl]
  rw [get?, exact]
  exact held

namespace Store

/-- All objects of a store are in the other, too. -/
structure Extends (s t : Store) : Prop where
  size : s.records.size ≤ t.records.size
  kept : ∀ ref r, s.get? ref = some r → t.get? ref = some r

namespace Extends

theorem refl (s : Store) : s.Extends s := ⟨Nat.le_refl _, fun _ _ h => h⟩

theorem trans {s t u : Store} (h : s.Extends t) (h' : t.Extends u) : s.Extends u :=
  ⟨h.size.trans h'.size, fun ref r known => h'.kept ref r (h.kept ref r known)⟩

end Extends

theorem extends_push (s : Store) (r : Record) : s.Extends ⟨s.records.push r⟩ := by
  refine ⟨by simp, fun ref r' known => ?_⟩
  unfold get? at known ⊢
  rw [Array.getElem?_push, if_neg, known]
  rintro last
  rw [last, Array.getElem?_size] at known
  cases known

theorem get?_push (s : Store) (r : Record) (typeName : String) :
    (⟨s.records.push r⟩ : Store).get? ⟨s.records.size, typeName⟩ = some r := by
  rw [get?, Array.getElem?_push_size]

end Store

/-! ## Reading and writing -/

/-- Reading takes the one store to the other, and adds no less objects than are within one another: what
writing gives from any later store, if it may go that deep. -/
structure Returns {α : Type} (s s' : Store) (write : Store → Nat → α) (given : α) : Prop where
  grows : s.Extends s'
  back : ∀ t depth, s'.Extends t → s'.records.size ≤ s.records.size + depth → write t depth = given

namespace Returns

variable {α β γ : Type} {s s' s'' : Store} {write : Store → Nat → α} {write' : Store → Nat → β} {a : α} {b : β}

theorem of_eq (same : ∀ t depth, write t depth = a) : Returns s s write a :=
  ⟨.refl s, fun t depth _ _ => same t depth⟩

theorem both (h : Returns s s' write a) (h' : Returns s' s'' write' b) (combine : α → β → γ) :
    Returns s s'' (fun t depth => combine (write t depth) (write' t depth)) (combine a b) := by
  refine ⟨h.grows.trans h'.grows, fun t depth later deep => ?_⟩
  have more := h.grows.size
  have more' := h'.grows.size
  rw [h.back t depth (h'.grows.trans later) (by omega), h'.back t depth later (by omega)]

theorem map (h : Returns s s' write a) (f : α → β) : Returns s s' (fun t depth => f (write t depth)) (f a) :=
  ⟨h.grows, fun t depth later deep => congrArg f (h.back t depth later deep)⟩

end Returns

namespace Json
open Value

theorem toJsonWithin_number (n : JsonNumber) (t : Store) (depth : Nat) :
    n.toValue.toJsonWithin t depth = n.reread := by
  have written (v : Value) (plain : v = .null ∨ ∃ m, v = .number m) :
      v.toJsonWithin t depth = v.toJson .empty := by
    rcases plain with rfl | ⟨m, rfl⟩ <;> rw [Value.toJson, toJsonWithin, toJsonWithin]
  refine written n.toValue ?_
  unfold JsonNumber.toValue
  cases n with
  | integer n => exact .inr ⟨_, rfl⟩
  | double x => cases Number.ofText? (JsonNumber.double x).text <;> simp

theorem toJsonWithin_object {t : Store} {ref : ObjectRef} {r : Record} (found : t.get? ref = some r)
    (depth : Nat) : (Value.object ref).toJsonWithin t (depth + 1) =
      .object (r.keys.map fun k => (k, ((r.get? k).map (toJsonWithin t depth)).getD .null)) := by
  rw [toJsonWithin]
  exact found

theorem fst_toFields (s : Store) (members : List (String × Json)) :
    (toFields s members).1.map Prod.fst = members.map Prod.fst := by
  induction members generalizing s with
  | nil => rfl
  | cons member rest ih =>
    rw [toFields, List.map_cons, List.map_cons, ih]

/-- An object with the given attributes is written with them, one level deeper than they are. -/
theorem returns_object {s s' : Store} {fields : List (String × Value)} {members : List (String × Json)}
    (names : fields.map Prod.fst = members.map Prod.fst) (ascending : (members.map Prod.fst).Pairwise (· < ·))
    (h : Returns s s' (fun t depth => fields.map fun e => (e.1, e.2.toJsonWithin t depth)) members) :
    Returns s (s'.add objectType (.ofFields (.ofList fields))).2
      (fun t depth => (s'.add objectType (.ofFields (.ofList fields))).1.toJsonWithin t depth)
      (.object members) := by
  rw [← names] at ascending
  refine ⟨h.grows.trans (s'.extends_push _), fun t depth later deep => ?_⟩
  have more := h.grows.size
  have size : (s'.add objectType (.ofFields (.ofList fields))).2.records.size = s'.records.size + 1 := by
    simp [Store.add]
  obtain ⟨d, rfl⟩ : ∃ d, depth = d + 1 := ⟨depth - 1, by omega⟩
  have found := later.kept _ _ (s'.get?_push (.ofFields (.ofList fields)) objectType)
  have given := h.back t d ((s'.extends_push _).trans later) (by omega)
  rw [Store.add, toJsonWithin_object found, ← given]
  have keys : (Record.ofFields (.ofList fields)).keys = fields.map Prod.fst := by
    rw [Dictionary.ofList_ascending ascending]
    rfl
  rw [keys, List.map_map]
  refine congrArg Json.object (List.map_congr_left fun e listed => ?_)
  have held : (Record.ofFields (.ofList fields)).get? e.1 = some e.2 := by
    rw [Dictionary.ofList_ascending ascending]
    exact Record.get?_of_get? (Dictionary.lookup_ascending ascending e listed)
  rw [Function.comp_apply, held]
  rfl

mutual

/-- A document that becomes a value comes back with its numbers reread. -/
theorem returns_toValue (s : Store) (j : Json) (ordered : j.Ordered) :
    Returns s (j.toValue s).2 (fun t depth => (j.toValue s).1.toJsonWithin t depth)
      (j.mapNumbers JsonNumber.reread) := by
  match j with
  | .null | .boolean _ | .text _ =>
    refine .of_eq fun t depth => ?_
    rw [toValue, toJsonWithin, mapNumbers]
  | .number n => exact .of_eq fun t depth => toJsonWithin_number n t depth
  | .array items =>
    simp only [toValue, Value.ofList, toJsonWithin, mapNumbers]
    exact (returns_toValues s items ordered).map Json.array
  | .object members =>
    rw [mapNumbers]
    refine returns_object ?_ ?_ (returns_toFields s members ordered.2)
    · rw [fst_toFields, fst_mapMembers]
    · rw [fst_mapMembers]
      exact ordered.1

theorem returns_toValues (s : Store) (items : List Json) (ordered : OrderedItems items) :
    Returns s (toValues s items).2 (fun t depth => itemsToJson t depth (toValues s items).1)
      (mapItems JsonNumber.reread items) := by
  match items with
  | [] =>
    refine .of_eq fun t depth => ?_
    rw [toValues, itemsToJson, mapItems]
  | j :: rest =>
    simp only [toValues, itemsToJson, mapItems]
    exact (returns_toValue s j ordered.1).both (returns_toValues _ rest ordered.2) List.cons

theorem returns_toFields (s : Store) (members : List (String × Json)) (ordered : OrderedMembers members) :
    Returns s (toFields s members).2
      (fun t depth => (toFields s members).1.map fun e => (e.1, e.2.toJsonWithin t depth))
      (mapMembers JsonNumber.reread members) := by
  match members with
  | [] => exact .of_eq fun t depth => rfl
  | (name, j) :: rest =>
    have first := returns_toValue s j ordered.1
    have later := returns_toFields (j.toValue s).2 rest ordered.2
    exact first.both later fun j rest => (name, j) :: rest

end

/-- **Documents come back** as they were, whatever objects there are: with the same structure, names, texts and
booleans, and with each number read and written by itself. Whole numbers of 64 bits with a sign keep their
values, and so do doubles that are whole numbers of 53 bits. Any other number is read exactly, too, if a decimal
holds its digits, and what is written is this decimal: it may lose digits only there, on its way to a double. -/
theorem toJson_toValue (s : Store) {j : Json} (ordered : j.Ordered) :
    (j.toValue s).1.toJson (j.toValue s).2 = j.mapNumbers JsonNumber.reread ∧
      (∀ (n : JsonNumber) (k : Int), n.IsWhole k → n.reread = .number (.integer k)) ∧
      ∀ (n : JsonNumber) (q : ℚ), n.IsDecimal q →
        ∃ d : Decimal, d.toRat = q ∧ n.reread = (Number.decimal d).toJson := by
  refine ⟨?_, fun n k whole => JsonNumber.reread_whole whole, fun n q => JsonNumber.reread_isDecimal⟩
  exact (returns_toValue s j ordered).back _ _ (.refl _) (Nat.le_add_left _ _)

/-- An array of objects whose members differ in the case of letters only, and the double of one tenth. -/
theorem toJson_toValue_cases :
    let inner : Json := .object [("A", .number (.integer 9223372036854775807)), ("a", .number (.double 2))]
    let outer : Json := .array [inner, .null, .object [("a", inner)]]
    let kept : Json := .object [("A", .number (.integer 9223372036854775807)), ("a", .number (.integer 2))]
    outer.Ordered ∧ (JsonNumber.integer 9223372036854775807).IsWhole 9223372036854775807 ∧
      (JsonNumber.double 2).IsWhole 2 ∧ (JsonNumber.double 0.1).IsDecimal (1 / 10) ∧
      (∃ d : Decimal, d.toRat = 1 / 10 ∧ (JsonNumber.double 0.1).reread = (Number.decimal d).toJson) ∧
      (outer.toValue .empty).1.toJson (outer.toValue .empty).2 = .array [kept, .null, .object [("a", kept)]] := by
  intro inner outer kept
  have names : (["A", "a"] : List String).Pairwise (· < ·) := by decide +kernel
  have ordered : outer.Ordered :=
    have inside : inner.Ordered := ⟨names, trivial, trivial, trivial⟩
    ⟨inside, trivial, ⟨List.pairwise_singleton _ _, inside, trivial⟩, trivial⟩
  have great : (JsonNumber.integer 9223372036854775807).IsWhole 9223372036854775807 := ⟨rfl, by decide⟩
  have double : (JsonNumber.double 2).IsWhole 2 := by
    refine ⟨false, ⟨2 ^ 52, -51⟩, 2, by decide +kernel, ?_, by decide, rfl⟩
    unfold Binary.IsNat
    decide
  have tenth : (JsonNumber.double 0.1).IsDecimal (1 / 10) := by
    have digits : (Binary.mk 0x1999999999999a (-56)).digits = (1, -1) := by decide +kernel
    refine ⟨false, ⟨0x1999999999999a, -56⟩, by decide +kernel, ?_, ?_, ?_⟩ <;> rw [digits]
    · decide
    · decide
    · norm_num [Decimal.signFactor]
  obtain ⟨back, whole, exact⟩ := toJson_toValue .empty ordered
  refine ⟨ordered, great, double, tenth, exact _ _ tenth, back.trans ?_⟩
  simp only [outer, inner, kept, mapNumbers, mapItems, mapMembers, whole _ _ great, whole _ _ double]

end Json

end Rowlang
