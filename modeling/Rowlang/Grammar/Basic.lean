import Rowlang.Lexer

/-!
# Grammars

A grammar is a table of rules that refer to each other by number, with the leaf patterns of its
lexer. Only a named rule may refer to a rule behind it, or to itself; every other rule is made of
rules that stand before it (`Grammar.parts_lt`).

* `Shape` : the ways to make a rule of others;
* `Grammar.isOptional` : whether a rule can match without consuming a token;
* `Grammar.shape?`, `Grammar.part_lt` : access to the table, and the order of its entries.
-/

namespace Rowlang

/-- How a rule is made. -/
inductive Shape where
  /-- one token of a leaf pattern -/
  | token (pattern : Nat)
  /-- one rule and then another -/
  | seq (left right : Nat)
  /-- a rule, or else another -/
  | alt (left right : Nat)
  | opt (child : Nat)
  | star (child : Nat)
  | plus (child : Nat)
  /-- matches nothing; before it, checks that the next tokens fit the rule behind it -/
  | ahead (count : Nat)
  /-- a rule that is entered only if the next tokens fit it -/
  | guarded (child : Nat) (count : Nat)
  /-- a rule with a name, bound to its body -/
  | named (body : Nat)
deriving DecidableEq, Repr

namespace Shape

/-- The rules that a rule is made of. The body of a named rule is not a part of it. -/
def parts : Shape → List Nat
  | .token _ => []
  | .seq l r => [l, r]
  | .alt l r => [l, r]
  | .opt c => [c]
  | .star c => [c]
  | .plus c => [c]
  | .ahead _ => []
  | .guarded c _ => [c]
  | .named _ => []

def references : Shape → List Nat
  | .named body => [body]
  | s => s.parts

/-- Whether a rule can match nothing, when `known` says so of the rules it refers to. -/
def isNullable (known : Nat → Bool) : Shape → Bool
  | .token _ => false
  | .seq l r => known l && known r
  | .alt l r => known l || known r
  | .opt _ => true
  | .star _ => true
  | .plus c => known c
  | .ahead _ => true
  | .guarded c _ => known c
  | .named body => known body

/-- The rule that is repeated any number of times, or at least once. -/
def repeated? : Shape → Option Nat
  | .star c => some c
  | .plus c => some c
  | _ => none

end Shape

/-- A rule of a grammar. Named rules and leaves have a name. -/
structure Rule where
  name : Option String
  shape : Shape
deriving DecidableEq, Repr

/-! ## Rules that match nothing -/

/-- One round: a rule is added if it can match nothing by what is known of the others. -/
def nullableRound (rules : Array Rule) (known : Array Bool) : Array Bool :=
  rules.map fun r => r.shape.isNullable fun id => known.getD id false

/-- Which rules can match nothing, after so many rounds. -/
def nullableAfter (rules : Array Rule) : Nat → Array Bool
  | 0 => Array.replicate rules.size false
  | n + 1 => nullableRound rules (nullableAfter rules n)

/-- Which rules can match nothing. Each round but the last adds a rule, so there are no more rounds
than rules. -/
def nullableRules (rules : Array Rule) : Array Bool := nullableAfter rules rules.size

/-! ## Grammars -/

/-- A grammar in which every reference is resolved. -/
structure Grammar where
  rules : Array Rule
  /-- the named rules in the order of their definition -/
  order : List Nat
  lexicon : Lexicon
  /-- the rule that a parse begins with -/
  start : Nat
  /-- how the lexer treats comments -/
  comments : CommentMode
  parts_lt : ∀ (id : Nat) (h : id < rules.size), ∀ c ∈ rules[id].shape.parts, c < id

namespace Grammar

def shape? (g : Grammar) (id : Nat) : Option Shape := g.rules[id]?.map (·.shape)

def name? (g : Grammar) (id : Nat) : Option String := g.rules[id]?.bind (·.name)

/-- The parts of a rule stand before it. -/
theorem part_lt {g : Grammar} {id c : Nat} {s : Shape} (h : g.shape? id = some s)
    (hc : c ∈ s.parts) : c < id := by
  simp only [shape?, Option.map_eq_some_iff] at h
  obtain ⟨r, hr, rfl⟩ := h
  obtain ⟨hid, rfl⟩ := Array.getElem?_eq_some_iff.1 hr
  exact g.parts_lt id hid c hc

/-- Counts down when a rule is taken apart, or when a named rule is entered for its body and one level of
nesting is spent. -/
def rank (g : Grammar) (levels id : Nat) : Nat := levels * (g.rules.size + 1) + min id g.rules.size

theorem rank_part_lt {g : Grammar} {id c : Nat} {s : Shape} (levels : Nat)
    (h : g.shape? id = some s) (hc : c ∈ s.parts) : g.rank levels c < g.rank levels id := by
  have less := g.part_lt h hc
  have bound : id < g.rules.size := by
    simp only [shape?, Option.map_eq_some_iff] at h
    obtain ⟨r, hr, -⟩ := h
    exact (Array.getElem?_eq_some_iff.1 hr).1
  unfold rank
  omega

theorem rank_body_lt (g : Grammar) {limit depth : Nat} (h : depth < limit) (id body : Nat) :
    g.rank (limit - (depth + 1)) body < g.rank (limit - depth) id := by
  have spent : limit - depth = limit - (depth + 1) + 1 := by omega
  unfold rank
  rw [spent, Nat.succ_mul]
  omega

def find? (g : Grammar) (name : String) : Option Nat :=
  g.order.find? fun id => g.name? id == some name

def ruleNames (g : Grammar) : List String := g.order.filterMap g.name?

/-- Which rules can match without consuming a token. -/
def nullable (g : Grammar) : Array Bool := nullableRules g.rules

/-- Whether a rule can match without consuming a token. -/
def isOptional (g : Grammar) (id : Nat) : Bool := g.nullable.getD id false

def withComments (g : Grammar) (mode : CommentMode) : Grammar := { g with comments := mode }

def scan (g : Grammar) (text : String) : Scan := g.lexicon.scan g.comments text

end Grammar

end Rowlang
