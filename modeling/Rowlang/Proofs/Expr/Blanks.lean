import Rowlang.Expr.Reading
import Rowlang.Proofs.Lexing.Lexemes
import Rowlang.Proofs.Parsing.Soundness

/-!
# Blank texts

Whatever the grammar, a text without tokens is no expression: of nothing, the builder of expressions makes
empty arguments at most.

* `ExprNode.ofRule_empty` : what a rule makes of empty arguments;
* `Grammar.Builds.empty` : the nodes of a derivation without tokens;
* `Expr.ofText_blank` : a blank text is not read.
-/

namespace Rowlang
open Rowlang.Text

/-! ## Scanning -/

namespace Lexicon

theorem scan_blank (lexicon : Lexicon) (mode : CommentMode) {text : String}
    (blank : text.toList.all isBlank = true) : (lexicon.scan mode text).tokens = [] := by
  have ended : (Cursor.ofText text.toList).skipBlanks.rest = [] :=
    skipBlanks_rest (List.all_eq_true.1 blank) (List.append_nil _).symm (by simp)
  have skipped : skipTrivia mode [] (.ofText text.toList) =
      .ok ([], (Cursor.ofText text.toList).skipBlanks) :=
    skipTrivia_of_uncommented (by rw [ended]; rfl)
  rw [scan, scanFrom_of_ended skipped ended]

end Lexicon

/-! ## Building -/

namespace ExprNode

section
variable {children : List ExprNode} (bare : ∀ child ∈ children, child = .arguments [])
include bare

theorem callOf_empty : callOf children = .error "function call without a name" := by
  unfold callOf
  dsimp only
  split
  · rename_i named
    obtain ⟨child, given, found⟩ := List.exists_of_findSome?_eq_some named
    rw [bare child given] at found
    cases found
  · rfl

theorem chainOf_empty (e : Expr) : chainOf children ≠ .ok e := by
  intro made
  cases children with
  | nil => cases made
  | cons child rest =>
    obtain rfl := bare child List.mem_cons_self
    cases made

/-- What a rule makes of no nodes and of empty arguments is empty arguments, unless it makes nothing. -/
theorem ofRule_empty {name : String} {node : ExprNode} (made : ofRule name children = .ok node) :
    node = .arguments [] := by
  have unread : children.filterMap expr? = [] := by
    refine List.filterMap_eq_nil_iff.2 fun child given => ?_
    rw [bare child given]
    rfl
  have first : children = [] ∨ ∃ rest, children = .arguments [] :: rest := by
    cases children with
    | nil => exact .inl rfl
    | cons child rest =>
      obtain rfl := bare child List.mem_cons_self
      exact .inr ⟨rest, rfl⟩
  unfold ofRule at made
  split at made
  case h_3 =>
    rw [unread] at made
    exact (Except.ok.inj made).symm
  case h_4 =>
    rw [callOf_empty bare] at made
    cases made
  case h_7 =>
    split at made
    · cases made
      exact bare _ (List.mem_of_find?_eq_some ‹_›)
    · cases made
  case h_8 =>
    cases tried : chainOf children with
    | error => simp [tried] at made
    | ok e => exact absurd tried (chainOf_empty bare e)
  case h_5 | h_6 | h_16 =>
    simp [firstExpr, branchesOf, unread] at made
  case h_20 =>
    split at made
    · cases made
      exact bare _ (List.mem_singleton_self _)
    · cases made
  all_goals
    rcases first with rfl | ⟨rest, rfl⟩ <;> cases made
end

end ExprNode

/-- A derivation of no tokens makes empty arguments only. -/
theorem Grammar.Builds.empty {g : Grammar} {id : Nat} {tokens : List Token} {nodes : List ExprNode}
    (built : g.Builds Expr.builder id tokens nodes) (nothing : tokens = []) :
    ∀ node ∈ nodes, node = .arguments [] := by
  induction built with
  | token => cases nothing
  | seq _ _ _ first second =>
    obtain ⟨left, right⟩ := List.append_eq_nil_iff.1 nothing
    exact List.forall_mem_append.2 ⟨first left, second right⟩
  | altLeft _ _ ih | altRight _ _ ih | optSome _ _ ih | guarded _ _ ih => exact ih nothing
  | optNone | ahead => exact List.forall_mem_nil _
  | star _ _ ih | plus _ _ _ ih =>
    intro node made
    obtain ⟨round, listed, made⟩ := List.mem_flatMap.1 made
    exact ih round listed (List.flatMap_eq_nil_iff.1 nothing round listed) node made
  | named _ _ made ih =>
    have made := congrArg Prod.fst made
    exact List.forall_mem_singleton.2 (ExprNode.ofRule_empty (ih nothing) made)

/-! ## Reading -/

/-- A blank text is not an expression of any grammar. -/
theorem Expr.ofText_blank (g : Grammar) {text : String} (blank : text.toList.all isBlank = true) (e : Expr) :
    ofText g text ≠ .ok e := by
  intro read
  unfold ofText at read
  split at read
  · rename_i parsed
    obtain ⟨-, nodes, built, node⟩ := Parser.parseAll_builds (Prod.ext parsed rfl)
    have bare := built.empty (g.lexicon.scan_blank g.comments blank)
    rcases node with rfl | ⟨-, before, after, made⟩
    · cases bare _ (List.mem_singleton_self _)
    · cases ExprNode.ofRule_empty bare (congrArg Prod.fst made)
  · cases read
  · cases read

end Rowlang
