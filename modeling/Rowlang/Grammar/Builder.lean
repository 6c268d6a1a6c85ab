import Rowlang.Grammar.Printer
import Rowlang.Parse.Error

/-!
# Building grammars

A grammar is built rule by rule. Each operation returns the builder with one more rule, or with the
rule it already had, and the number of that rule (`Extension`). Named rules may be referred to
before they are defined; building fails if one never is.

* `GrammarBuilder` : the rules so far, each made of rules before it;
* `literal`, `lexical`, `pattern` : leaves, the same leaf giving the same rule;
* `combine`, `sequence`, `choice` : rules made of others;
* `reference`, `define` : named rules;
* `build`, `buildStartingAt` : the grammar, or the `GrammarError` that stands in its way.
-/

namespace Rowlang

/-- Why a grammar cannot be built. -/
inductive GrammarError where
  /-- a rule is referred to but not defined -/
  | undefinedRule (name : String)
  | duplicateRule (name : String)
  /-- a rule is given the name of a lexical pattern -/
  | reservedName (name : String)
  | unknownLexical (name : String)
  /-- there is no rule -/
  | empty
  /-- a repetition whose body can match nothing -/
  | nullableRepetition (rule : String)
  /-- the expression of a leaf is malformed -/
  | malformedPattern
  /-- the text of the definitions does not parse -/
  | parse (error : ParseError)
deriving DecidableEq, Repr

namespace GrammarError

def message : GrammarError → String
  | .undefinedRule name => "rule '" ++ name ++ "' is referenced but never defined"
  | .duplicateRule name => "rule '" ++ name ++ "' is defined more than once"
  | .reservedName name => "'" ++ name ++ "' is a built-in lexical name and cannot be redefined"
  | .unknownLexical name => "unknown lexical pattern '" ++ name ++ "'"
  | .empty => "grammar defines no rules"
  | .nullableRepetition rule =>
    "repetition of '" ++ rule ++ "' can match without consuming input"
  | .malformedPattern => "invalid token pattern"
  | .parse e => e.message

end GrammarError

/-! ## Lexical names -/

/-- The leaf patterns that have names of their own, and their expressions. -/
def lexicalPatterns : List (String × String) := [
  ("Number", "[1-9][0-9]*"),
  ("Integer", "[0-9]+"),
  ("Decimal", "[0-9]*\\.[0-9]+"),
  ("String", "\"([^\"\\\\]|\\\\.)*\""),
  ("QuotedString", "'([^'\\\\]|\\\\.)*'"),
  ("Name", "[$a-zA-Z][$\\w]*")]

/-- Whether a name is that of a lexical pattern. No rule can be defined under such a name. -/
def isLexical (name : String) : Bool := lexicalPatterns.any (·.1 == name)

/-! ## The builder -/

/-- A rule under construction. A named rule that has only been referred to has no shape yet. -/
structure Slot where
  name : Option String
  shape : Option Shape
deriving DecidableEq, Repr

namespace Slot

def parts (s : Slot) : List Nat := (s.shape.map Shape.parts).getD []

end Slot

/-- A grammar under construction. -/
structure GrammarBuilder where
  slots : Array Slot
  /-- the leaf patterns and their rules, in order -/
  leaves : List (LeafPattern × Nat)
  /-- the named rules, defined or not -/
  names : List (String × Nat)
  /-- the defined rules in the order of their definition -/
  order : List Nat
  comments : CommentMode
  parts_lt : ∀ (id : Nat) (h : id < slots.size), ∀ c ∈ slots[id].parts, c < id
  leaves_lt : ∀ p ∈ leaves, p.2 < slots.size
  names_lt : ∀ p ∈ names, p.2 < slots.size

namespace GrammarBuilder

def empty : GrammarBuilder where
  slots := #[]
  leaves := []
  names := []
  order := []
  comments := .off
  parts_lt := by simp
  leaves_lt := by simp
  names_lt := by simp

def size (b : GrammarBuilder) : Nat := b.slots.size

/-- A builder that has the rules of `b` and perhaps more, with one rule picked out. -/
structure Extension (b : GrammarBuilder) where
  builder : GrammarBuilder
  id : Nat
  size_le : b.size ≤ builder.size
  id_lt : id < builder.size

/-- One more rule, made of rules the builder has. -/
def push (b : GrammarBuilder) (slot : Slot) (h : ∀ c ∈ slot.parts, c < b.size) : Extension b where
  builder := { b with
    slots := b.slots.push slot
    parts_lt := by
      intro id hid c hc
      simp only [Array.getElem_push] at hc
      split at hc
      · exact b.parts_lt id ‹_› c hc
      · have := h c hc
        simp only [Array.size_push] at hid
        simp only [size] at this
        omega
    leaves_lt := by
      intro p hp
      have := b.leaves_lt p hp
      simp only [Array.size_push]; omega
    names_lt := by
      intro p hp
      have := b.names_lt p hp
      simp only [Array.size_push]; omega }
  id := b.size
  size_le := by simp [size]
  id_lt := by simp [size]

/-- The rule of a leaf pattern; the same pattern always has the same rule. -/
def leaf (b : GrammarBuilder) (p : LeafPattern) : Extension b :=
  match h : b.leaves.lookup p with
  | some id => ⟨b, id, Nat.le_refl _, b.leaves_lt (p, id) (by
      obtain ⟨l₁, l₂, hl, _⟩ := List.lookup_eq_some_iff.1 h
      simp [hl])⟩
  | none =>
    let e := b.push ⟨some p.name, some (.token b.leaves.length)⟩ (by simp [Slot.parts, Shape.parts])
    { e with
      builder := { e.builder with
        leaves := b.leaves ++ [(p, e.id)]
        leaves_lt := by
          intro q hq
          rcases List.mem_append.1 hq with hq | hq
          · exact Nat.lt_of_lt_of_le (b.leaves_lt q hq) e.size_le
          · simp only [List.mem_singleton] at hq
            subst hq; exact e.id_lt } }

def literal (b : GrammarBuilder) (text : String) : Extension b := b.leaf (.literal text)

def pattern (b : GrammarBuilder) (name source : String) : Extension b := b.leaf (.regex name source)

def lexical (b : GrammarBuilder) (name : String) : Except GrammarError (Extension b) :=
  match lexicalPatterns.lookup name with
  | some source => .ok (b.pattern name source)
  | none => .error (.unknownLexical name)

/-- A rule made of rules the builder has. -/
def combine (b : GrammarBuilder) (s : Shape) (h : ∀ c ∈ s.parts, c < b.size) : Extension b :=
  b.push ⟨none, some s⟩ (by simpa [Slot.parts] using h)

/-- Joins rules from the right, two at a time, until one is left. -/
def joinRight (join : Nat → Nat → Shape)
    (parts_join : ∀ l r, (join l r).parts = [l, r]) (b : GrammarBuilder) (last : Nat)
    (hl : last < b.size) : (earlier : List Nat) → (∀ i ∈ earlier, i < b.size) → Extension b
  | [], _ => ⟨b, last, Nat.le_refl _, hl⟩
  | i :: rest, h =>
    let e := joinRight join parts_join b last hl rest fun j hj => h j (List.mem_cons_of_mem _ hj)
    let f := e.builder.combine (join i e.id) (by
      have := h i List.mem_cons_self
      have := e.size_le
      have := e.id_lt
      simp only [parts_join, List.mem_cons, List.not_mem_nil, or_false]
      rintro c (rfl | rfl) <;> omega)
    ⟨f.builder, f.id, Nat.le_trans e.size_le f.size_le, f.id_lt⟩

/-- The items one after the other, nested to the right. There has to be one. -/
def sequence (b : GrammarBuilder) (items : List Nat) (h : ∀ i ∈ items, i < b.size) :
    Option (Extension b) :=
  if hne : items = [] then none
  else some (joinRight .seq (fun _ _ => rfl) b (items.getLast hne) (h _ (List.getLast_mem hne))
    items.dropLast fun i hi => h i (List.dropLast_subset _ hi))

/-- The first of the items that matches, nested to the right. There has to be one. -/
def choice (b : GrammarBuilder) (items : List Nat) (h : ∀ i ∈ items, i < b.size) :
    Option (Extension b) :=
  if hne : items = [] then none
  else some (joinRight .alt (fun _ _ => rfl) b (items.getLast hne) (h _ (List.getLast_mem hne))
    items.dropLast fun i hi => h i (List.dropLast_subset _ hi))

/-- The rule of a name, reserved if the name is new. -/
def reference (b : GrammarBuilder) (name : String) : Extension b :=
  match h : b.names.lookup name with
  | some id => ⟨b, id, Nat.le_refl _, b.names_lt (name, id) (by
      obtain ⟨l₁, l₂, hl, _⟩ := List.lookup_eq_some_iff.1 h
      simp [hl])⟩
  | none =>
    let e := b.push ⟨some name, none⟩ (by simp [Slot.parts])
    { e with
      builder := { e.builder with
        names := b.names ++ [(name, e.id)]
        names_lt := by
          intro q hq
          rcases List.mem_append.1 hq with hq | hq
          · exact Nat.lt_of_lt_of_le (b.names_lt q hq) e.size_le
          · simp only [List.mem_singleton] at hq
            subst hq; exact e.id_lt } }

/-- Gives the named rule `id` its body. -/
def bind (b : GrammarBuilder) (id body : Nat) : GrammarBuilder :=
  { b with
    slots := b.slots.modify id fun s => { s with shape := some (.named body) }
    order := b.order ++ [id]
    parts_lt := by
      intro i hi c hc
      simp only [Array.getElem_modify] at hc
      split at hc
      · simp [Slot.parts, Shape.parts] at hc
      · exact b.parts_lt i (by simpa using hi) c hc
    leaves_lt := by simpa using b.leaves_lt
    names_lt := by simpa using b.names_lt }

theorem size_bind (b : GrammarBuilder) (id body : Nat) : (b.bind id body).size = b.size := by
  simp [bind, size]

/-- Defines the rule `name`. -/
def define (b : GrammarBuilder) (name : String) (body : Nat) :
    Except GrammarError (Extension b) :=
  if isLexical name then .error (.reservedName name)
  else
    let e := b.reference name
    match e.builder.slots[e.id]? with
    | some ⟨_, some _⟩ => .error (.duplicateRule name)
    | _ => .ok {
        builder := e.builder.bind e.id body
        id := e.id
        size_le := by rw [size_bind]; exact e.size_le
        id_lt := by rw [size_bind]; exact e.id_lt }

def withComments (b : GrammarBuilder) (mode : CommentMode) : GrammarBuilder :=
  { b with comments := mode }

/-! ## The finished grammar -/

def firstUndefined (b : GrammarBuilder) : Option Slot := b.slots.toList.find? (·.shape.isNone)

/-- The rules, a slot without a shape counting as an empty one. -/
def rules (b : GrammarBuilder) : Array Rule :=
  b.slots.map fun s => ⟨s.name, s.shape.getD (.ahead 0)⟩

/-- The grammar with its rules as they are, whether or not it can be used. -/
def assemble (b : GrammarBuilder) (lexicon : Lexicon) (start : Nat) : Grammar where
  rules := b.rules
  order := b.order
  lexicon := lexicon
  start := start
  comments := b.comments
  parts_lt := by
    intro id hid c hc
    simp only [rules, Array.getElem_map] at hc
    have hid : id < b.slots.size := by simpa [rules] using hid
    refine b.parts_lt id hid c ?_
    cases hs : b.slots[id].shape with
    | none => simp [hs, Shape.parts] at hc
    | some s => simpa [Slot.parts, hs] using hc

/-- The first repetition whose body can match nothing. -/
def firstEmptyRepetition (g : Grammar) : Option Nat :=
  let nullable := g.nullable
  (List.range g.rules.size).find? fun id =>
    match (g.shape? id).bind Shape.repeated? with
    | some c => nullable.getD c false
    | none => false

/-- The grammar that begins at `start`. Every rule must be defined, every expression well formed, and
no repetition may have a body that can match nothing; the first fault in this order is reported. -/
def buildFrom (b : GrammarBuilder) (start : Nat) : Except GrammarError Grammar :=
  match b.firstUndefined with
  | some s => .error (.undefinedRule (s.name.getD ""))
  | none =>
    match Lexicon.ofPatterns? (b.leaves.map (·.1)) with
    | none => .error .malformedPattern
    | some lexicon =>
      let g := b.assemble lexicon start
      match firstEmptyRepetition g with
      | some id => .error (.nullableRepetition (g.describe id))
      | none => .ok g

/-- The grammar that begins at the rule defined first. -/
def build (b : GrammarBuilder) : Except GrammarError Grammar :=
  match b.order with
  | [] => .error .empty
  | start :: _ => b.buildFrom start

theorem prepared_of_buildFrom {b : GrammarBuilder} {start : Nat} {g : Grammar}
    (h : b.buildFrom start = .ok g) : ∃ patterns, Lexicon.ofPatterns? patterns = some g.lexicon := by
  unfold buildFrom at h
  split at h
  · cases h
  split at h
  · cases h
  dsimp only at h
  split at h
  · cases h
  · cases h
    exact ⟨_, ‹_›⟩

theorem prepared_of_build {b : GrammarBuilder} {g : Grammar} (h : b.build = .ok g) :
    ∃ patterns, Lexicon.ofPatterns? patterns = some g.lexicon := by
  unfold build at h
  split at h
  · cases h
  · exact prepared_of_buildFrom h

def buildStartingAt (b : GrammarBuilder) (name : String) : Except GrammarError Grammar :=
  match b.names.lookup name with
  | some start => b.buildFrom start
  | none => .error (.undefinedRule name)

end GrammarBuilder

end Rowlang
