/-!
# Dictionaries

Values under names, kept in the order of their names.

* `Dictionary.get?`, `Dictionary.insert`, `Dictionary.keys` : the operations;
* `Dictionary.get?_insert` : inserting under a name changes what is found under it, and nothing else.
-/

namespace Rowlang

/-- Values under names. -/
structure Dictionary (α : Type) where
  entries : List (String × α)

namespace Dictionary

variable {α : Type}

def empty : Dictionary α := ⟨[]⟩

instance : Inhabited (Dictionary α) := ⟨empty⟩

def get? (d : Dictionary α) (key : String) : Option α := d.entries.lookup key

def keys (d : Dictionary α) : List String := d.entries.map Prod.fst

def size (d : Dictionary α) : Nat := d.entries.length

/-- Puts an entry at its place, over one of the same name. -/
def insertEntry (key : String) (value : α) : List (String × α) → List (String × α)
  | [] => [(key, value)]
  | (k, v) :: rest =>
    if key = k then (key, value) :: rest
    else if key < k then (key, value) :: (k, v) :: rest
    else (k, v) :: insertEntry key value rest

def insert (d : Dictionary α) (key : String) (value : α) : Dictionary α :=
  ⟨insertEntry key value d.entries⟩

/-- The dictionary of some entries; of two with one name the later is kept. -/
def ofList (entries : List (String × α)) : Dictionary α :=
  entries.foldl (fun d e => d.insert e.1 e.2) empty

@[simp] theorem get?_empty (key : String) : (empty : Dictionary α).get? key = none := rfl

theorem lookup_cons (other k : String) (v : α) (rest : List (String × α)) :
    List.lookup other ((k, v) :: rest) = if other = k then some v else rest.lookup other := by
  by_cases h : other = k
  · simp [h]
  · simp [List.lookup_cons, h, beq_eq_false_iff_ne.mpr h]

theorem lookup_insertEntry (key other : String) (value : α) (entries : List (String × α)) :
    (insertEntry key value entries).lookup other
      = if other = key then some value else entries.lookup other := by
  induction entries with
  | nil => simp [insertEntry, lookup_cons]
  | cons e rest ih =>
    obtain ⟨k, v⟩ := e
    simp only [insertEntry]
    split
    · rename_i h
      subst h
      by_cases h : other = key <;> simp [lookup_cons, h]
    · split
      · rw [lookup_cons]
      · rename_i hk _
        rw [lookup_cons, lookup_cons, ih]
        by_cases h : other = k
        · subst h
          simp [Ne.symm hk]
        · simp [h]

theorem get?_insert (d : Dictionary α) (key other : String) (value : α) :
    (d.insert key value).get? other = if other = key then some value else d.get? other :=
  lookup_insertEntry key other value d.entries

@[simp] theorem get?_insert_self (d : Dictionary α) (key : String) (value : α) :
    (d.insert key value).get? key = some value := by
  simp [get?_insert]

theorem get?_insert_of_ne (d : Dictionary α) {key other : String} (value : α)
    (h : other ≠ key) : (d.insert key value).get? other = d.get? other := by
  simp [get?_insert, h]

end Dictionary

end Rowlang
