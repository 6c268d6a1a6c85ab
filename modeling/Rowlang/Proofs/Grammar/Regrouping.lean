import Rowlang.Proofs.Grammar.Emptiness

/-!
# Sequences and alternatives nested to the right

What a body becomes when its parentheses are left out wherever it is a sequence within a sequence, or a
choice within a choice.

* `Body.regroup` : the body with all sequences and alternatives nested to the right;
* `Body.Derives.of_regroup` : it has no other words;
* `Definition.Admissible.regroup` : definitions that make a grammar still do.
-/

namespace Rowlang

namespace Body

/-- One body after another; the items of the first come one by one. -/
def seqAppend : Body → Body → Body
  | .seq x y, z => .seq x (y.seqAppend z)
  | x, z => .seq x z

/-- One body or another; the alternatives of the first come one by one. -/
def altAppend : Body → Body → Body
  | .alt x y, z => .alt x (y.altAppend z)
  | x, z => .alt x z

/-- The body with all sequences and alternatives nested to the right. -/
def regroup : Body → Body
  | .literal text => .literal text
  | .name n => .name n
  | .seq x y => x.regroup.seqAppend y.regroup
  | .alt x y => x.regroup.altAppend y.regroup
  | .opt x => .opt x.regroup
  | .star x => .star x.regroup
  | .plus x => .plus x.regroup
  | .ahead count => .ahead count
  | .guarded x => .guarded x.regroup

theorem seqAppend_assoc (x y z : Body) :
    (x.seqAppend y).seqAppend z = x.seqAppend (y.seqAppend z) := by
  induction x with
  | seq a b _ ih => exact congrArg (Body.seq a) ih
  | _ => rfl

theorem altAppend_assoc (x y z : Body) :
    (x.altAppend y).altAppend z = x.altAppend (y.altAppend z) := by
  induction x with
  | alt a b _ ih => exact congrArg (Body.alt a) ih
  | _ => rfl

theorem altAppend_seqAppend (x y z : Body) :
    (x.seqAppend y).altAppend z = .alt (x.seqAppend y) z := by
  cases x <;> rfl

theorem seqAppend_altAppend (x y z : Body) :
    (x.altAppend y).seqAppend z = .seq (x.altAppend y) z := by
  cases x <;> rfl

/-! ## What is in a body -/

section
variable {α : Type} {f : Body → List α}

theorem append_seqAppend (seq : ∀ x y, f (.seq x y) = f x ++ f y) (x y : Body) :
    f (x.seqAppend y) = f x ++ f y := by
  induction x with
  | seq a b _ ih => rw [seqAppend, seq, ih, seq, List.append_assoc]
  | _ => exact seq _ _

theorem append_altAppend (alt : ∀ x y, f (.alt x y) = f x ++ f y) (x y : Body) :
    f (x.altAppend y) = f x ++ f y := by
  induction x with
  | alt a b _ ih => rw [altAppend, alt, ih, alt, List.append_assoc]
  | _ => exact alt _ _

end

theorem mentions_regroup (x : Body) : x.regroup.mentions = x.mentions := by
  induction x with
  | literal | name | ahead => rfl
  | seq x y ihx ihy => rw [regroup, append_seqAppend (f := mentions) fun _ _ => rfl, ihx, ihy, mentions]
  | alt x y ihx ihy => rw [regroup, append_altAppend (f := mentions) fun _ _ => rfl, ihx, ihy, mentions]
  | opt x ih | star x ih | plus x ih | guarded x ih => exact ih

theorem repeated_regroup (x : Body) : x.regroup.repeated = x.repeated.map regroup := by
  induction x with
  | literal | name | ahead => rfl
  | seq x y ihx ihy =>
    rw [regroup, append_seqAppend (f := repeated) fun _ _ => rfl, ihx, ihy, repeated, List.map_append]
  | alt x y ihx ihy =>
    rw [regroup, append_altAppend (f := repeated) fun _ _ => rfl, ihx, ihy, repeated, List.map_append]
  | opt x ih | guarded x ih => exact ih
  | star x ih | plus x ih => exact congrArg (x.regroup :: ·) ih

/-! ## The words of a body -/

section
variable {τ : Type} {rules : List Definition} {is : LeafPattern → τ → Prop} {x y : Body} {w : List τ}

theorem Derives.of_seqAppend (h : (x.seqAppend y).Derives rules is w) :
    (Body.seq x y).Derives rules is w := by
  induction x generalizing w with
  | seq a b _ ih =>
    cases h with
    | seq first later =>
      cases ih later with
      | seq second third =>
        rw [← List.append_assoc]
        exact .seq (.seq first second) third
  | _ => exact h

theorem Derives.of_altAppend (h : (x.altAppend y).Derives rules is w) :
    (Body.alt x y).Derives rules is w := by
  induction x generalizing w with
  | alt a b _ ih =>
    cases h with
    | altLeft chosen => exact .altLeft (.altLeft chosen)
    | altRight other =>
      cases ih other with
      | altLeft chosen => exact .altLeft (.altRight chosen)
      | altRight chosen => exact .altRight chosen
  | _ => exact h

/-- Regrouping gives a body no new words. -/
theorem Derives.of_regroup (h : x.regroup.Derives rules is w) : x.Derives rules is w := by
  induction x generalizing w with
  | literal | name | ahead => exact h
  | seq x y ihx ihy =>
    cases h.of_seqAppend with
    | seq first second => exact .seq (ihx first) (ihy second)
  | alt x y ihx ihy =>
    cases h.of_altAppend with
    | altLeft chosen => exact .altLeft (ihx chosen)
    | altRight chosen => exact .altRight (ihy chosen)
  | opt x ih =>
    cases h with
    | optNone => exact .optNone
    | optSome given => exact .optSome (ih given)
  | star x ih =>
    cases h with
    | star each => exact .star fun w listed => ih (each w listed)
  | plus x ih =>
    cases h with
    | plus some_round each => exact .plus some_round fun w listed => ih (each w listed)
  | guarded x ih =>
    cases h with
    | guarded inner => exact .guarded (ih inner)

end

end Body

/-! ## Definitions -/

def Definition.regroup (d : Definition) : Definition := ⟨d.name, d.body.regroup⟩

theorem Definition.map_name_regroup (ds : List Definition) :
    (ds.map regroup).map (·.name) = ds.map (·.name) := by
  rw [List.map_map]
  rfl

/-- Regrouped definitions give a body no new words. -/
theorem Body.Derives.of_regrouped {τ : Type} {ds : List Definition} {is : LeafPattern → τ → Prop}
    {x : Body} {w : List τ} (h : x.Derives (ds.map Definition.regroup) is w) : x.Derives ds is w := by
  induction h with
  | literal h => exact .literal h
  | lexical known h => exact .lexical known h
  | rule other defined _ ih =>
    obtain ⟨d, listed, rfl⟩ := List.mem_map.1 defined
    exact .rule (d := d) other listed ih.of_regroup
  | seq _ _ ihx ihy => exact .seq ihx ihy
  | altLeft _ ih => exact .altLeft ih
  | altRight _ ih => exact .altRight ih
  | optNone => exact .optNone
  | optSome _ ih => exact .optSome ih
  | star _ ih => exact .star ih
  | plus some_round _ ih => exact .plus some_round ih
  | ahead => exact .ahead
  | guarded _ ih => exact .guarded ih

/-- **Definitions that make a grammar** still do when their bodies are regrouped. -/
theorem Definition.Admissible.regroup {ds : List Definition} (h : Definition.Admissible ds) :
    Definition.Admissible (ds.map Definition.regroup) where
  nonempty := by simpa using h.nonempty
  distinct := by rw [map_name_regroup]; exact h.distinct
  unreserved := by
    intro d mapped
    obtain ⟨d, listed, rfl⟩ := List.mem_map.1 mapped
    exact h.unreserved d listed
  closed := by
    intro d mapped n mentioned
    obtain ⟨d, listed, rfl⟩ := List.mem_map.1 mapped
    rw [map_name_regroup]
    exact h.closed d listed n (d.body.mentions_regroup ▸ mentioned)
  consuming := by
    intro d mapped x among empty
    obtain ⟨d, listed, rfl⟩ := List.mem_map.1 mapped
    obtain ⟨y, inside, rfl⟩ := List.mem_map.1 (d.body.repeated_regroup ▸ among)
    exact h.consuming d listed y inside empty.of_regrouped.of_regroup

end Rowlang
