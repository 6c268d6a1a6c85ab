import Rowlang.Proofs.Eval.Mapping
import Rowlang.Proofs.Functions.Searching

/-!
# Splitting and joining

The parts of a text between the occurrences of a separator are the text again when the separator is put
between them, wherever the occurrences stand and however they overlap.

* `Functions.intercalate_partsOf` : the parts, put together;
* `Aggregate.summary_join` : what `join` makes of rows that are texts;
* `Evaluator.valueOn_join`, `Evaluator.valueOn_joinWith` : the rows themselves, joined with the usual delimiter
  or with a given one;
* `Evaluator.join_split` : joining undoes splitting.
-/

namespace Rowlang
open Rowlang.Text

namespace Functions

/-! ## Parts -/

/-- The parts of a text, put together with the separator between them. -/
theorem intercalate_partsOf (sep cs : List Char) : sep.intercalate (partsOf sep cs) = cs := by
  unfold partsOf
  split
  · rename_i none
    rw [none, intercalate_singles]
  · rename_i some_sep
    exact intercalate_splitOn some_sep cs

theorem not_infix_of_mem_partsOf {sep : List Char} (some_sep : sep ≠ []) (cs : List Char) :
    ∀ part ∈ partsOf sep cs, ¬ sep <:+: part := by
  rw [partsOf, dif_neg some_sep]
  exact not_infix_of_mem_splitOn some_sep cs

def textParts (t s : String) : List String := (partsOf s.toList t.toList).map String.ofList

theorem split_eq (t s : String) : split (.text t) [.text s] = .ok (.ofList ((textParts t s).map .text)) := by
  rw [textParts, List.map_map]
  rfl

theorem intercalate_textParts (t s : String) : s.intercalate (textParts t s) = t := by
  rw [← String.toList_inj, String.toList_intercalate, textParts, List.map_map]
  have chars : String.toList ∘ String.ofList = id := funext fun cs => String.toList_ofList
  rw [chars, List.map_id, intercalate_partsOf]

end Functions

/-! ## Joined rows -/

/-- Texts are put together as they are, the empty ones included. -/
theorem Aggregate.summary_join (delimiter : String) (texts : List String) :
    Aggregate.summary delimiter (texts.map .text) .join = .text (delimiter.intercalate texts) := by
  have kept : (texts.map Value.text).filter (!·.isNull) = texts.map Value.text :=
    List.filter_eq_self.2 (List.forall_mem_map.2 fun _ _ => rfl)
  have shown : (texts.map Value.text).map Value.render = texts := by
    rw [List.map_map]
    exact List.map_id texts
  rw [summary, kept, shown]

namespace Evaluator

variable (env : Evaluator) (state : EvalState)

theorem plain_texts (texts : List String) :
    ∀ r ∈ texts.map Value.text, IsPlain r ∧ ∀ ref, r ≠ .object ref :=
  List.forall_mem_map.2 fun _ _ => ⟨by rintro _ _ ⟨⟩, by rintro _ ⟨⟩⟩

theorem leafRows_texts (texts : List String) : leafRows (texts.map .text) = texts.map .text :=
  leafRows_flat fun r listed => (plain_texts texts r listed).1

/-- The rows themselves are joined with the usual delimiter. -/
theorem valueOn_join (texts : List String) :
    env.valueOn state (.key "join") (.ofList (texts.map .text)) = .text (env.delimiter.intercalate texts) := by
  have named : Aggregate.ofName? "join" = some .join := Aggregate.join.ofName?_name
  have summed := env.looksAt_summary (a := .join) (by decide) (texts.map .text) none [] [] (by simp)
  simp only [evaluateSteps] at summed
  rw [valueOn, Value.ofList, evaluate_list rfl]
  show ((env.aggregate (texts.map .text) none [.key "join"]).run state).1 = _
  rw [aggregate_named named, summed.run_pure, leafRows_texts, Aggregate.summary_join]

/-- With two arguments, `join` puts the text of the second between the values of the first. -/
theorem run_joinWith {items rows : List Value} (key : Option String) {e d : Expr} {given v : Value}
    {values : List Value} {s' s'' : EvalState}
    (delimits : (env.evaluate (.list items key) d).run state = (given, s')) (flat : leafRows items = rows)
    (runs : RunsTo (fun row => env.evaluate row e) s' rows values s'')
    (joined : Aggregate.summary given.render values .join = v) :
    (env.evaluate (.list items key) (.call "join" [e, d])).run state = (v, s'') := by
  have named : Aggregate.ofName? "join" = some .join := Aggregate.join.ofName?_name
  rw [evaluate_list rfl]
  show (env.aggregate items key [.call "join" [e, d]]).run state = _
  rw [aggregate_call named, List.take_succ_cons, List.take_zero]
  simp only [evaluateSteps, bind_pure]
  have rendered : (Value.render <$> env.evaluate (.list items key) d).run state = (given.render, s') := by
    rw [← bind_pure_comp, Eval.run_bind delimits]
    rfl
  rw [applyAggregate.eq_def]
  dsimp only
  rw [Eval.run_bind rendered, flat]
  simp only [evaluateSteps]
  rw [Eval.run_bind runs.mapM, ← joined]
  rfl

/-- The listed texts are joined with the text of the second argument, if there is one. -/
theorem valueOn_joinWith (texts : List String) (d : Expr) :
    env.valueOn state (.call "join" [.key "self", d]) (.ofList (texts.map .text)) =
      .text ((env.valueOn state d (.ofList (texts.map .text))).render.intercalate texts) := by
  have joined := env.run_joinWith state none (d := d) rfl (leafRows_texts texts)
    (runsTo_self (plain_texts texts) _) (Aggregate.summary_join _ texts)
  rw [valueOn, Value.ofList, joined]
  rfl

/-- **Joining undoes splitting**, whatever the separator is: the parts of a text are the text again when they
are joined, as they are, with the separator as the usual delimiter or as the text of a delimiter that is given.
A separator that is not empty occurs in none of the parts. -/
theorem join_split (t s : String) : ∃ parts : List String,
    Functions.split (.text t) [.text s] = .ok (.ofList (parts.map .text)) ∧
      (∀ (env : Evaluator) (state : EvalState), env.delimiter = s →
        env.valueOn state (.key "join") (.ofList (parts.map .text)) = .text t) ∧
      (∀ (env : Evaluator) (state : EvalState) (d : Expr),
        (env.valueOn state d (.ofList (parts.map .text))).render = s →
          env.valueOn state (.call "join" [.key "self", d]) (.ofList (parts.map .text)) = .text t) ∧
      (s ≠ "" → ∀ part ∈ parts, ¬ s.toList <:+: part.toList) := by
  refine ⟨Functions.textParts t s, Functions.split_eq t s, ?_, ?_, ?_⟩
  · intro env state delimits
    rw [valueOn_join, delimits, Functions.intercalate_textParts]
  · intro env state d delimits
    rw [valueOn_joinWith, delimits, Functions.intercalate_textParts]
  · intro some_sep part listed
    obtain ⟨cs, inside, rfl⟩ := List.mem_map.1 listed
    have nonempty : s.toList ≠ [] := by simpa using some_sep
    rw [String.toList_ofList]
    exact Functions.not_infix_of_mem_partsOf nonempty t.toList cs inside

/-- A separator that overlaps itself and stands at both ends, which leaves an empty part in front. -/
theorem join_split_overlapping : ∃ parts : List String,
    Functions.split (.text "aabaaa") [.text "aa"] = .ok (.ofList (parts.map .text)) ∧
      (⟨⟨#[]⟩, "aa"⟩ : Evaluator).valueOn (stateOf []) (.key "join") (.ofList (parts.map .text)) =
        .text "aabaaa" ∧
      orderEvaluator.valueOn (stateOf []) (.call "join" [.key "self", .literal (.text "aa")])
        (.ofList (parts.map .text)) = .text "aabaaa" ∧
      "aa" ≠ "" ∧ ∀ part ∈ parts, ¬ "aa".toList <:+: part.toList := by
  obtain ⟨parts, split, usual, given, apart⟩ := join_split "aabaaa" "aa"
  refine ⟨parts, split, usual _ _ rfl, given _ _ _ ?_, by decide, apart (by decide)⟩
  rw [valueOn, Value.ofList, evaluate, if_neg (by decide), evaluateRow]
  rfl

end Evaluator

end Rowlang
