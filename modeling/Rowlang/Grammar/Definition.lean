import Rowlang.Grammar.Builder

/-!
# Definitions of rules

A grammar as its author writes it: names with bodies. Adding a body to a grammar under construction
makes the rules of its leaves first, from left to right, and those of its joints behind them.

* `Body`, `Definition` : the right side of a definition, and a whole definition;
* `Body.addTo` : the rules of a body;
* `Grammar.ofDefinitions` : the grammar of a list of definitions.
-/

namespace Rowlang

/-- The right side of a definition. Sequences and alternatives of more than two nest to the right. -/
inductive Body where
  | literal (text : String)
  /-- a lexical pattern, or a rule -/
  | name (name : String)
  | seq (left right : Body)
  | alt (left right : Body)
  | opt (body : Body)
  | star (body : Body)
  | plus (body : Body)
  /-- checks that the next `count` tokens fit what follows -/
  | ahead (count : Nat)
  /-- a body that is entered only if all that comes next fits it -/
  | guarded (body : Body)
deriving DecidableEq, Repr

namespace Body

def sequence : Body → List Body → Body
  | first, [] => first
  | first, next :: rest => .seq first (sequence next rest)

def choice : Body → List Body → Body
  | first, [] => first
  | first, next :: rest => .alt first (choice next rest)

/-- The budget of a check that has none: more tokens than a text can have. -/
def unbounded : Nat := 2 ^ 64 - 1

open GrammarBuilder in
def addTo : Body → (b : GrammarBuilder) → Extension b
  | .literal text, b => b.literal text
  | .name n, b =>
    match lexicalPatterns.lookup n with
    | some source => b.pattern n source
    | none => b.reference n
  | .seq x y, b =>
    let l := x.addTo b
    let r := y.addTo l.builder
    joined l r (.seq l.id r.id) (by simp [Shape.parts])
  | .alt x y, b =>
    let l := x.addTo b
    let r := y.addTo l.builder
    joined l r (.alt l.id r.id) (by simp [Shape.parts])
  | .opt x, b =>
    let l := x.addTo b
    wrapped l (.opt l.id) (by simp [Shape.parts])
  | .star x, b =>
    let l := x.addTo b
    wrapped l (.star l.id) (by simp [Shape.parts])
  | .plus x, b =>
    let l := x.addTo b
    wrapped l (.plus l.id) (by simp [Shape.parts])
  | .ahead count, b => b.combine (.ahead count) (by simp [Shape.parts])
  | .guarded x, b =>
    let l := x.addTo b
    wrapped l (.guarded l.id unbounded) (by simp [Shape.parts])
where
  /-- A rule made of one that was added just before. -/
  wrapped {b : GrammarBuilder} (l : Extension b) (s : Shape) (h : ∀ c ∈ s.parts, c = l.id) :
      Extension b :=
    let e := l.builder.combine s fun c hc => h c hc ▸ l.id_lt
    ⟨e.builder, e.id, Nat.le_trans l.size_le e.size_le, e.id_lt⟩
  /-- A rule made of two that were added just before. -/
  joined {b : GrammarBuilder} (l : Extension b) (r : Extension l.builder) (s : Shape)
      (h : ∀ c ∈ s.parts, c = l.id ∨ c = r.id) : Extension b :=
    let e := r.builder.combine s fun c hc => by
      rcases h c hc with rfl | rfl
      · exact Nat.lt_of_lt_of_le l.id_lt r.size_le
      · exact r.id_lt
    ⟨e.builder, e.id, Nat.le_trans (Nat.le_trans l.size_le r.size_le) e.size_le, e.id_lt⟩

end Body

/-- A rule and its body. -/
structure Definition where
  name : String
  body : Body
deriving DecidableEq, Repr

def GrammarBuilder.addDefinition (b : GrammarBuilder) (d : Definition) :
    Except GrammarError GrammarBuilder :=
  let e := d.body.addTo b
  (e.builder.define d.name e.id).map fun e => e.builder

/-- The grammar of a list of definitions, the first of which is the start. -/
def Grammar.ofDefinitions (definitions : List Definition) : Except GrammarError Grammar := do
  let b ← definitions.foldlM GrammarBuilder.addDefinition .empty
  b.build

theorem eq_ok_get {ε α : Type} {r : Except ε α} (h : r.toOption.isSome = true) :
    r = .ok (r.toOption.get h) := by
  cases r with
  | error e => simp [Except.toOption] at h
  | ok a => rfl

theorem Grammar.prepared_of_ofDefinitions {definitions : List Definition} {g : Grammar}
    (h : Grammar.ofDefinitions definitions = .ok g) :
    ∃ patterns, Lexicon.ofPatterns? patterns = some g.lexicon := by
  unfold ofDefinitions at h
  cases built : definitions.foldlM GrammarBuilder.addDefinition .empty with
  | error e => simp [built, bind, Except.bind] at h
  | ok b =>
    simp only [built, bind, Except.bind] at h
    exact b.prepared_of_build h

end Rowlang
