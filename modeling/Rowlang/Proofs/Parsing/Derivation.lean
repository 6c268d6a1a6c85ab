import Mathlib.Data.List.Basic
import Rowlang.Parse.Parser

/-!
# Derivations

What a grammar derives, read as plain definitions: a check of the next tokens derives nothing, and a
guarded rule what its child derives.

* `Grammar.Yields g id trees` : the trees, side by side, are a way to derive the rule `id`, each node
  of a named rule over a derivation of its body;
* `Grammar.Builds g b id tokens nodes` : the rule `id` derives the tokens, of which the builder `b`
  makes the nodes;
* `Builds.yields_collector` : the builder of syntax trees returns the derivation.
-/

namespace Rowlang

/-- The trees, side by side, derive the rule `id`. -/
inductive Grammar.Yields (g : Grammar) : Nat → List ParseTree → Prop
  | token {id t} (h : g.shape? id = some (.token t.pattern)) : Yields g id [.token t]
  | seq {id left right trees more} (h : g.shape? id = some (.seq left right))
      (first : Yields g left trees) (second : Yields g right more) : Yields g id (trees ++ more)
  | altLeft {id left right trees} (h : g.shape? id = some (.alt left right))
      (chosen : Yields g left trees) : Yields g id trees
  | altRight {id left right trees} (h : g.shape? id = some (.alt left right))
      (chosen : Yields g right trees) : Yields g id trees
  | optNone {id child} (h : g.shape? id = some (.opt child)) : Yields g id []
  | optSome {id child trees} (h : g.shape? id = some (.opt child)) (given : Yields g child trees) :
      Yields g id trees
  | star {id child} {rounds : List (List ParseTree)} (h : g.shape? id = some (.star child))
      (each : ∀ trees ∈ rounds, Yields g child trees) : Yields g id rounds.flatten
  | plus {id child} {rounds : List (List ParseTree)} (h : g.shape? id = some (.plus child))
      (some_round : rounds ≠ []) (each : ∀ trees ∈ rounds, Yields g child trees) :
      Yields g id rounds.flatten
  | ahead {id count} (h : g.shape? id = some (.ahead count)) : Yields g id []
  | guarded {id child count trees} (h : g.shape? id = some (.guarded child count))
      (inner : Yields g child trees) : Yields g id trees
  | named {id body children} (h : g.shape? id = some (.named body))
      (inner : Yields g body children) : Yields g id [.rule (g.ruleName id) children]

/-- The rule `id` derives the tokens, of which the builder `b` makes the nodes. -/
inductive Grammar.Builds {σ ν : Type} (g : Grammar) (b : TreeBuilder σ ν) :
    Nat → List Token → List ν → Prop
  | token {id t} (h : g.shape? id = some (.token t.pattern)) : Builds g b id [t] [b.token t]
  | seq {id left right tokens nodes tokens' nodes'} (h : g.shape? id = some (.seq left right))
      (first : Builds g b left tokens nodes) (second : Builds g b right tokens' nodes') :
      Builds g b id (tokens ++ tokens') (nodes ++ nodes')
  | altLeft {id left right tokens nodes} (h : g.shape? id = some (.alt left right))
      (chosen : Builds g b left tokens nodes) : Builds g b id tokens nodes
  | altRight {id left right tokens nodes} (h : g.shape? id = some (.alt left right))
      (chosen : Builds g b right tokens nodes) : Builds g b id tokens nodes
  | optNone {id child} (h : g.shape? id = some (.opt child)) : Builds g b id [] []
  | optSome {id child tokens nodes} (h : g.shape? id = some (.opt child))
      (given : Builds g b child tokens nodes) : Builds g b id tokens nodes
  | star {id child} {rounds : List (List Token × List ν)} (h : g.shape? id = some (.star child))
      (each : ∀ r ∈ rounds, Builds g b child r.1 r.2) :
      Builds g b id (rounds.flatMap (·.1)) (rounds.flatMap (·.2))
  | plus {id child} {rounds : List (List Token × List ν)} (h : g.shape? id = some (.plus child))
      (some_round : rounds ≠ []) (each : ∀ r ∈ rounds, Builds g b child r.1 r.2) :
      Builds g b id (rounds.flatMap (·.1)) (rounds.flatMap (·.2))
  | ahead {id count} (h : g.shape? id = some (.ahead count)) : Builds g b id [] []
  | guarded {id child count tokens nodes} (h : g.shape? id = some (.guarded child count))
      (inner : Builds g b child tokens nodes) : Builds g b id tokens nodes
  | named {id body tokens children node before after} (h : g.shape? id = some (.named body))
      (inner : Builds g b body tokens children)
      (built : b.rule (g.ruleName id) children before = (.ok node, after)) :
      Builds g b id tokens [node]

namespace Grammar

variable {σ ν : Type} {g : Grammar} {b : TreeBuilder σ ν} {id : Nat} {tokens : List Token} {nodes : List ν}

theorem Builds.of_seq {left right : Nat} (built : g.Builds b id tokens nodes)
    (h : g.shape? id = some (.seq left right)) : ∃ u v us vs, tokens = u ++ v ∧ nodes = us ++ vs ∧
      g.Builds b left u us ∧ g.Builds b right v vs := by
  cases built with
  | seq h' first second =>
    cases h.symm.trans h'
    exact ⟨_, _, _, _, rfl, rfl, first, second⟩
  | _ => simp_all

theorem Builds.of_opt {child : Nat} (built : g.Builds b id tokens nodes)
    (h : g.shape? id = some (.opt child)) : nodes = [] ∨ g.Builds b child tokens nodes := by
  cases built with
  | optNone => exact .inl rfl
  | optSome h' given =>
    cases h.symm.trans h'
    exact .inr given
  | _ => simp_all

/-- A named rule makes one node. -/
theorem Builds.of_named {body : Nat} (built : g.Builds b id tokens nodes)
    (h : g.shape? id = some (.named body)) : ∃ node, nodes = [node] := by
  cases built with
  | named => exact ⟨_, rfl⟩
  | _ => simp_all

end Grammar

/-! ## The tokens of a row of trees -/

namespace ParseTree

@[simp] theorem tokensOf_nil : tokensOf [] = [] := by rw [tokensOf]

@[simp] theorem tokensOf_cons (t : ParseTree) (ts : List ParseTree) :
    tokensOf (t :: ts) = t.tokens ++ tokensOf ts := by rw [tokensOf]

@[simp] theorem tokens_token (t : Token) : (ParseTree.token t).tokens = [t] := by rw [tokens]

@[simp] theorem tokens_rule (name : String) (children : List ParseTree) :
    (ParseTree.rule name children).tokens = tokensOf children := by rw [tokens]

theorem tokensOf_eq_flatMap (ts : List ParseTree) : tokensOf ts = ts.flatMap tokens := by
  induction ts with
  | nil => simp
  | cons t ts ih => simp [ih]

@[simp] theorem tokensOf_append (ts us : List ParseTree) :
    tokensOf (ts ++ us) = tokensOf ts ++ tokensOf us := by
  simp [tokensOf_eq_flatMap]

theorem tokensOf_flatten (rows : List (List ParseTree)) :
    tokensOf rows.flatten = rows.flatMap tokensOf := by
  induction rows with
  | nil => simp
  | cons ts rows ih => simp [ih]

end ParseTree

/-! ## The builder of syntax trees -/

namespace Grammar
open ParseTree

theorem yields_rounds {g : Grammar} {child : Nat} {rounds : List (List Token × List ParseTree)}
    (each : ∀ r ∈ rounds, g.Yields child r.2 ∧ tokensOf r.2 = r.1) :
    (∀ trees ∈ rounds.map (·.2), g.Yields child trees) ∧
      tokensOf (rounds.map (·.2)).flatten = rounds.flatMap (·.1) := by
  constructor
  · intro trees h
    obtain ⟨r, hr, rfl⟩ := List.mem_map.1 h
    exact (each r hr).1
  · rw [tokensOf_flatten, List.flatMap_map]
    exact List.flatMap_congr fun r hr => (each r hr).2

/-- The builder of syntax trees returns the derivation. -/
theorem Builds.yields_collector {g : Grammar} {id : Nat} {tokens : List Token}
    {trees : List ParseTree} (h : g.Builds TreeBuilder.collector id tokens trees) :
    g.Yields id trees ∧ tokensOf trees = tokens := by
  induction h with
  | token h => exact ⟨.token h, by simp [TreeBuilder.collector]⟩
  | seq h _ _ ihl ihr => exact ⟨.seq h ihl.1 ihr.1, by simp [ihl.2, ihr.2]⟩
  | altLeft h _ ih => exact ⟨.altLeft h ih.1, ih.2⟩
  | altRight h _ ih => exact ⟨.altRight h ih.1, ih.2⟩
  | optNone h => exact ⟨.optNone h, by simp⟩
  | optSome h _ ih => exact ⟨.optSome h ih.1, ih.2⟩
  | star h _ ih =>
    obtain ⟨yields, tokens⟩ := yields_rounds ih
    rw [List.flatMap_def]
    exact ⟨.star h yields, tokens⟩
  | plus h some_round _ ih =>
    obtain ⟨yields, tokens⟩ := yields_rounds ih
    rw [List.flatMap_def]
    exact ⟨.plus h (by simpa using some_round) yields, tokens⟩
  | ahead h => exact ⟨.ahead h, by simp⟩
  | guarded h _ ih => exact ⟨.guarded h ih.1, ih.2⟩
  | named h _ built ih =>
    simp only [TreeBuilder.collector, Prod.mk.injEq, Except.ok.injEq] at built
    rw [← built.1]
    exact ⟨.named h ih.1, by simp [ih.2]⟩

end Grammar

end Rowlang
