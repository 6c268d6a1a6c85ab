import Rowlang.Proofs.Expr.Words

/-!
# Completeness of the parser on expressions

* `Leaves` : what may be left of a flat word, a colon that belongs to a choice further out;
* `Parser.Ready` : what the parser makes of the words of each rule, at one depth;
* `Parser.ready` : it does so at every depth;
* `Parser.ends_word` : the parser consumes every word of `Expression`.
-/

namespace Rowlang

/-! ## What is left of a word -/

/-- What is left behind a flat word in front of `v`: nothing of the word, or a colon for one of the
question marks in front of it and all that follows. -/
inductive Leaves {τ : Type} (is : LeafPattern → τ → Prop) : Nat → List τ → List τ → Prop
  | nothing {n : Nat} {v : List τ} : Leaves is n v v
  | colon {n : Nat} {v w : List τ} {t : τ} (mark : is (.literal ":") t) (later : Flat is n w) :
      Leaves is (n + 1) v (t :: (w ++ v))

/-- The same for a choice, which also leaves an assignment to it. -/
inductive ChoiceLeaves {τ : Type} (is : LeafPattern → τ → Prop) : Nat → List τ → List τ → Prop
  | of_leaves {n : Nat} {v r : List τ} (leaves : Leaves is n v r) : ChoiceLeaves is n v r
  | assign {n : Nat} {v w : List τ} {t : τ} (mark : ∃ leaf ∈ assignMarks, is leaf t)
      (later : Flat is n w) : ChoiceLeaves is n v (t :: (w ++ v))

theorem Leaves.of_zero {τ : Type} {is : LeafPattern → τ → Prop} {v r : List τ}
    (h : Leaves is 0 v r) : r = v := by
  cases h
  rfl

section Avoiding
variable {g : Grammar} {n : Nat} {v r : List Token} {leaves : List LeafPattern}

/-- What is left avoids what both the tokens behind the word and a colon avoid. -/
theorem Leaves.avoids (h : Leaves g.Is n v r) (behind : g.Avoids leaves v)
    (apart : disjoint leaves [.literal ":"] = true) : g.Avoids leaves r := by
  cases h with
  | nothing => exact behind
  | colon mark _ =>
    exact Grammar.Begins.avoids ⟨_, _, rfl, _, List.mem_singleton_self _, mark⟩ apart

end Avoiding

namespace Parser

variable {σ ν : Type} {p : Parser σ ν} {depth id n : Nat} {t : Token} {u v w : List Token}

/-- The tokens that may extend a word of `Expression`. -/
abbrev Behind (p : Parser σ ν) (v : List Token) : Prop :=
  p.grammar.Avoids (expressionTables.extend "Expression") v

/-- What the parser makes of the words of the rules of expressions, with `depth` named rules open. -/
structure Ready (p : Parser σ ν) (depth : Nat) : Prop where
  declines : ∀ {name id}, name ∈ expressionRules.map (·.name) → p.grammar.find? name = some id →
    p.Declines expressionTables depth (.name name) id
  reads : ∀ {name id}, name ∈ expressionRules.map (·.name) →
    expressionTables.settled name = true → p.grammar.find? name = some id →
    p.Reads expressionRules expressionTables depth (.name name) id
  conditional : ∀ {id n w v}, p.grammar.find? "Conditional" = some id → Flat p.grammar.Is n w →
    p.Behind v → p.Ends depth (.once id) (w ++ v) (ChoiceLeaves p.grammar.Is n v)
  conditionalTail : ∀ {id n t w v}, p.grammar.find? "ConditionalTail" = some id →
    p.grammar.Is (.literal "?") t → Flat p.grammar.Is (n + 1) w → p.Behind v →
    p.Ends depth (.once id) (t :: (w ++ v)) (Leaves p.grammar.Is n v)
  expression : ∀ {id n w v}, p.grammar.find? "Expression" = some id → Flat p.grammar.Is n w →
    p.Behind v → p.Ends depth (.once id) (w ++ v) (Leaves p.grammar.Is n v)
  assignTail : ∀ {id n t w v}, p.grammar.find? "AssignTail" = some id →
    (∃ leaf ∈ assignMarks, p.grammar.Is leaf t) → Flat p.grammar.Is n w → p.Behind v →
    p.Ends depth (.once id) (t :: (w ++ v)) (Leaves p.grammar.Is n v)

/-- Below, a body is declined that the next token decides. -/
theorem Ready.declines_body (ready : p.Ready depth) (defines : p.grammar.Defines expressionRules)
    {b : Body} (realised : p.grammar.realises expressionRules b id = true)
    (decided : b.decided = true) : p.Declines expressionTables depth b id :=
  declines_of_decided defines (fun _ defined _ => ready.declines (List.mem_map_of_mem defined)) b id
    realised decided

theorem Ready.reads_body (ready : p.Ready depth) (defines : p.grammar.Defines expressionRules)
    (distinct : p.Distinct) {b : Body} (realised : p.grammar.realises expressionRules b id = true)
    (predictive : b.predictive expressionTables = true) :
    p.Reads expressionRules expressionTables depth b id :=
  reads_of_predictive defines distinct expressionTables_lawful
    (fun _ defined _ => ready.declines (List.mem_map_of_mem defined))
    (fun _ defined _ => ready.reads (List.mem_map_of_mem defined)) b id realised predictive

/-! ## Calls -/

def callBody : Body :=
  .sequence (.name "Name") [.literal "(", .opt (.name "Arguments"), .literal ")"]

theorem undecided_call :
    ∀ d ∈ expressionRules, ¬ d.body.decided = true → d.name = "FunctionCall" := by
  decide

theorem irregular_settled : ∀ d ∈ expressionRules, expressionTables.settled d.name = true →
    ¬ d.regular = true → d.name = "Expression" ∨ d.name = "Step" ∨ d.name = "FunctionCall" := by
  decide

section Rules
variable (defines : p.grammar.Defines expressionRules) (distinct : p.Distinct)
include defines

/-- A call is entered behind a check of two tokens, a name and a parenthesis. -/
theorem call_made (found : p.grammar.find? "FunctionCall" = some id) : ∃ body rest k k',
    p.grammar.shape? id = some (.named body) ∧ p.grammar.guard? body = some (rest, 2) ∧
    p.grammar.realises expressionRules callBody rest = true ∧
    p.grammar.lexicon.patterns[k]? = some (lexicalLeaf "Name") ∧
    p.grammar.lexicon.patterns[k']? = some (.literal "(") ∧
    ∀ depth (s : Stream), s.Complete → ∃ s', p.grammar.lookAhead p.limit depth rest 2 0 s =
      (.ok (if (s.rest.take 2).map (·.pattern) = [k, k'] then some (0, 2) else none), s') := by
  obtain ⟨body, named, realised⟩ := defines.body (d := ⟨"FunctionCall", .seq (.ahead 2) callBody⟩)
    (by decide) found
  obtain ⟨_, guarded, made⟩ := defines.made realised
  cases made with
  | @seq _ _ l rest check call =>
    obtain ⟨_, check, made⟩ := defines.made check
    cases made with
    | ahead =>
      obtain ⟨_, shape, made⟩ := defines.made call
      cases made with
      | seq name more =>
        have name : p.grammar.isLeaf (lexicalLeaf "Name") _ = true := name
        obtain ⟨k, first, leaf⟩ := Grammar.shape?_of_isLeaf name
        obtain ⟨_, shape', made⟩ := defines.made more
        cases made with
        | seq parenthesis _ =>
          obtain ⟨k', second, leaf'⟩ := Grammar.shape?_of_isLeaf parenthesis
          refine ⟨body, rest, k, k', named, ?_, call, leaf, leaf', fun depth s complete => ?_⟩
          · simp [Grammar.guard?, guarded, check]
          · exact Grammar.lookAhead_two shape first shape' second complete

theorem refuses_call (found : p.grammar.find? "FunctionCall" = some id)
    (other : ∀ t t' v, w = t :: t' :: v → p.grammar.Is (lexicalLeaf "Name") t →
      ¬ p.grammar.Is (.literal "(") t') : p.Refuses depth (.once id) w := by
  obtain ⟨body, rest, k, k', named, guard, -, leaf, leaf', check⟩ := call_made defines found
  refine refuses_named named fun _ => refuses_guard guard fun s same complete => ?_
  obtain ⟨s', look⟩ := check (depth + 1) s complete
  refine ⟨s', look.trans ?_⟩
  rw [if_neg]
  intro fits
  match hw : w, same with
  | [], same => simp [same] at fits
  | [t], same => simp [same] at fits
  | t :: t' :: v, same =>
    simp only [same, List.take_succ_cons, List.take_zero, List.map_cons, List.map_nil,
      List.cons.injEq, and_true] at fits
    obtain ⟨rfl, rfl⟩ := fits
    exact other t t' v rfl leaf leaf'

theorem refuses_call_of_name {t : Token} (found : p.grammar.find? "FunctionCall" = some id)
    (avoids : p.grammar.Avoids [.literal "("] w) : p.Refuses depth (.once id) (t :: w) := by
  refine refuses_call defines found ?_
  rintro t t' v ⟨⟩ - parenthesis
  exact avoids t' rfl ⟨_, List.mem_singleton_self _, parenthesis⟩

/-- A rule that is a head with a tail, which may be missing. -/
theorem ends_tailed {name head tail : String} {R Q : List Token → Prop}
    (defined : ⟨name, .seq (.name head) (.opt (.name tail))⟩ ∈ expressionRules)
    (rules : lexicalPatterns.lookup head = none ∧ lexicalPatterns.lookup tail = none)
    (found : p.grammar.find? name = some id)
    (first : depth < p.limit → ∀ id, p.grammar.find? head = some id →
      p.Ends (depth + 1) (.once id) w R)
    (second : depth < p.limit → ∀ id, p.grammar.find? tail = some id → ∀ v, R v →
      p.Ends (depth + 1) (.once id) v Q ∨ p.Refuses (depth + 1) (.once id) v ∧ Q v) :
    p.Ends depth (.once id) w Q := by
  obtain ⟨body, named, realised⟩ := defines.body defined found
  refine ends_named named fun below => ?_
  obtain ⟨_, shape, made⟩ := defines.made realised
  cases made with
  | seq realisedHead realisedTail =>
    have plain := guard?_of_ne_ahead defines shape realisedHead (by rintro _ ⟨⟩)
    have foundHead := Grammar.find?_of_realises rules.1 realisedHead
    obtain ⟨_, shape', made⟩ := defines.made realisedTail
    cases made with
    | opt realisedTail =>
      have foundTail := Grammar.find?_of_realises rules.2 realisedTail
      refine ends_seq shape plain (first below _ foundHead) fun v left => ?_
      rcases second below _ foundTail v left with given | ⟨none, left⟩
      · exact ends_opt shape' given
      · exact (ends_opt_none shape' none).mono fun _ same => same ▸ left

theorem declines_rule (deeper : depth < p.limit → p.Ready (depth + 1)) {d : Definition}
    (defined : d ∈ expressionRules) (found : p.grammar.find? d.name = some id) :
    p.Declines expressionTables depth (.name d.name) id where
  refuses := by
    intro w avoids
    rw [Body.first_rule (expressionRules_other d defined)] at avoids
    by_cases decided : d.body.decided = true
    · obtain ⟨body, named, realised⟩ := defines.body defined found
      refine refuses_named named fun below => ?_
      have declines := (deeper below).declines_body defines realised decided
      exact declines.refuses (avoids.of_subset (expressionTables_lawful d defined).2)
    · have call : d.name = "FunctionCall" := undecided_call d defined decided
      rw [call] at found avoids
      refine refuses_call defines found ?_
      rintro t t' v rfl name -
      exact avoids t rfl ⟨_, List.mem_singleton_self _, name⟩

include distinct

theorem reads_call (found : p.grammar.find? "FunctionCall" = some id)
    (deeper : depth < p.limit → p.Ready (depth + 1)) :
    p.Reads expressionRules expressionTables depth (.name "FunctionCall") id where
  takes := by
    intro u v word _
    obtain ⟨body, rest, k, k', named, guard, realised, leaf, leaf', check⟩ := call_made defines found
    have whole : callBody.Derives expressionRules p.grammar.Is u := by
      cases Word.body (d := ⟨"FunctionCall", .seq (.ahead 2) callBody⟩) word (by decide) with
      | seq nothing call =>
        cases nothing
        exact call
    refine ends_named named fun below => ends_guard guard ?_ ?_
    · intro s same complete
      obtain ⟨s', look⟩ := check (depth + 1) s complete
      refine ⟨(0, 2), s', look.trans ?_⟩
      rw [if_pos]
      -- the word begins with a name and a parenthesis, each of which has one pattern only
      obtain ⟨t, t', u', rfl, is, is'⟩ := Word.call word
      simp [same, distinct.same is leaf, distinct.same is' leaf']
    · have reads := (deeper below).reads_body defines distinct realised (by decide)
      exact reads.takes whole Grammar.avoids_nil

/-! ## From one depth to the one above -/

section Deeper
variable (deeper : depth < p.limit → p.Ready (depth + 1))
include deeper

theorem reads_regular {d : Definition} (defined : d ∈ expressionRules) (regular : d.regular = true)
    (found : p.grammar.find? d.name = some id) :
    p.Reads expressionRules expressionTables depth (.name d.name) id where
  takes := by
    intro u v word avoids
    rw [Body.extend_rule (expressionRules_other d defined)] at avoids
    simp only [Definition.regular, Bool.and_eq_true] at regular
    obtain ⟨⟨predictive, -⟩, extend⟩ := regular
    obtain ⟨body, named, realised⟩ := defines.body defined found
    refine ends_named named fun below => ?_
    have reads := (deeper below).reads_body defines distinct realised predictive
    refine reads.takes (Word.body word defined) (avoids.of_subset fun leaf listed => ?_)
    simpa using List.all_eq_true.1 extend leaf listed

/-- A step is a call or a key; a name without a parenthesis behind it is a key. -/
theorem reads_step (found : p.grammar.find? "Step" = some id) :
    p.Reads expressionRules expressionTables depth (.name "Step") id where
  takes := by
    intro u v word avoids
    let d : Definition := ⟨"Step", .alt (.name "FunctionCall") (.name "Key")⟩
    have defined : d ∈ expressionRules := by decide
    obtain ⟨body, named, realised⟩ := defines.body defined found
    refine ends_named named fun below => ?_
    obtain ⟨_, shape, made⟩ := defines.made realised
    cases made with
    | alt call key =>
      cases Word.body (d := d) word defined with
      | altLeft word =>
        have reads := (deeper below).reads_body defines distinct call (by decide)
        exact ends_altLeft shape (reads.takes word Grammar.avoids_nil)
      | altRight word =>
        have reads := (deeper below).reads_body defines distinct key (by decide)
        obtain ⟨t, rfl, name⟩ := Word.key word
        have found := Grammar.find?_of_realises (by decide) call
        exact ends_altRight shape (refuses_call_of_name defines found avoids)
          (reads.takes word Grammar.avoids_nil)

end Deeper

/-! ## Choices and assignments -/

section Choices
variable (deeper : depth < p.limit → p.Ready (depth + 1))
include deeper

omit distinct in
/-- An operand, and what may follow it in a choice. -/
theorem ends_choice {r : List Token} {Q : List Token → Prop}
    (found : p.grammar.find? "Conditional" = some id) (word : Word p.grammar.Is "LogicalOr" u)
    (avoids : p.grammar.Avoids (expressionTables.extend "LogicalOr") r)
    (tail : depth < p.limit → ∀ id, p.grammar.find? "ConditionalTail" = some id →
      p.Ends (depth + 1) (.once id) r Q ∨ p.grammar.Avoids [.literal "?"] r ∧ Q r) :
    p.Ends depth (.once id) (u ++ r) Q := by
  have defined : ⟨"Conditional", .seq (.name "LogicalOr") (.opt (.name "ConditionalTail"))⟩ ∈
    expressionRules := by decide
  refine ends_tailed (R := (· = r)) defines defined (by decide) found (fun below _ found => ?_) ?_
  · exact ((deeper below).reads (by decide) (by decide) found).takes word avoids
  · rintro below id found r rfl
    exact (tail below id found).imp_right fun ⟨avoids, left⟩ =>
      ⟨((deeper below).declines (by decide) found).refuses avoids, left⟩

omit distinct in
/-- A choice over a flat word: it goes on behind a question mark, and stops at any other mark. -/
theorem ends_conditional (found : p.grammar.find? "Conditional" = some id)
    (flat : Flat p.grammar.Is n w) (behind : p.Behind v) :
    p.Ends depth (.once id) (w ++ v) (ChoiceLeaves p.grammar.Is n v) := by
  cases flat with
  | operand operand =>
    refine ends_choice defines deeper found operand (behind.of_subset (by decide)) ?_
    exact fun _ _ _ => .inr ⟨behind.of_subset (by decide), .of_leaves .nothing⟩
  | question operand mark later =>
    rw [List.append_assoc, List.cons_append]
    refine ends_choice defines deeper found operand (mark.avoids (by decide)) ?_
    exact fun below _ found =>
      .inl (((deeper below).conditionalTail found mark later behind).mono fun _ => .of_leaves)
  | colon operand mark later =>
    rw [List.append_assoc, List.cons_append]
    refine ends_choice defines deeper found operand (mark.avoids (by decide)) ?_
    exact fun _ _ _ => .inr ⟨mark.avoids (by decide), .of_leaves (.colon mark later)⟩
  | assign operand mark later =>
    rw [List.append_assoc, List.cons_append]
    refine ends_choice defines deeper found operand
      (Grammar.IsOf.avoids mark (by decide)) ?_
    exact fun _ _ _ => .inr ⟨Grammar.IsOf.avoids mark (by decide), .assign mark later⟩

omit distinct in
theorem ends_expression (found : p.grammar.find? "Expression" = some id)
    (flat : Flat p.grammar.Is n w) (behind : p.Behind v) :
    p.Ends depth (.once id) (w ++ v) (Leaves p.grammar.Is n v) := by
  have defined : ⟨"Expression", .seq (.name "Conditional") (.opt (.name "AssignTail"))⟩ ∈
    expressionRules := by decide
  refine ends_tailed (R := ChoiceLeaves p.grammar.Is n v) defines defined (by decide) found
    (fun below _ found => ?_) ?_
  · exact (deeper below).conditional found flat behind
  · rintro below id found r (leaves | ⟨mark, later⟩)
    · refine .inr ⟨((deeper below).declines (by decide) found).refuses ?_, leaves⟩
      have behind : p.grammar.Avoids assignMarks v := behind.of_subset (by decide)
      exact leaves.avoids behind (by decide)
    · exact .inl ((deeper below).assignTail found mark later behind)

theorem ends_assignTail (found : p.grammar.find? "AssignTail" = some id)
    (mark : p.grammar.IsOf assignMarks t) (flat : Flat p.grammar.Is n w) (behind : p.Behind v) :
    p.Ends depth (.once id) (t :: (w ++ v)) (Leaves p.grammar.Is n v) := by
  let d : Definition := ⟨"AssignTail", .seq (.name "AssignOp") (.name "Expression")⟩
  obtain ⟨body, named, realised⟩ := defines.body (d := d) (by decide) found
  refine ends_named named fun below => ?_
  obtain ⟨_, shape, made⟩ := defines.made realised
  cases made with
  | seq op value =>
    have plain := guard?_of_ne_ahead defines shape op (by rintro _ ⟨⟩)
    have reads := (deeper below).reads_body defines distinct op (by decide)
    have value := Grammar.find?_of_realises (by decide) value
    refine ends_seq shape plain (reads.takes (Word.of_mark mark) Grammar.avoids_nil) ?_
    rintro r rfl
    exact (deeper below).expression value flat behind

omit deeper in
/-- The branches of a choice: there is a second one if the first leaves a colon. -/
theorem ends_branches (ready : p.Ready depth) (realised : p.grammar.realises expressionRules
      (.seq (.name "Expression") (.opt (.seq (.literal ":") (.name "Expression")))) id = true)
    (flat : Flat p.grammar.Is (n + 1) w) (behind : p.Behind v) :
    p.Ends depth (.once id) (w ++ v) (Leaves p.grammar.Is n v) := by
  obtain ⟨_, shape, made⟩ := defines.made realised
  cases made with
  | seq first second =>
    have plain := guard?_of_ne_ahead defines shape first (by rintro _ ⟨⟩)
    have first := Grammar.find?_of_realises (by decide) first
    obtain ⟨_, shape', made⟩ := defines.made second
    cases made with
    | opt second =>
      have declines := ready.declines_body defines second (by decide)
      refine ends_seq shape plain (ready.expression first flat behind) ?_
      rintro r (_ | ⟨mark, later⟩)
      · have none := declines.refuses (behind.of_subset (by decide))
        exact (ends_opt_none shape' none).mono fun _ same => same ▸ .nothing
      obtain ⟨_, shape, made⟩ := defines.made second
      cases made with
      | seq colon second =>
        have plain := guard?_of_ne_ahead defines shape colon (by rintro _ ⟨⟩)
        have reads := ready.reads_body defines distinct colon (by decide)
        have second := Grammar.find?_of_realises (by decide) second
        refine ends_opt shape' (ends_seq shape plain (reads.takes (.literal mark) Grammar.avoids_nil) ?_)
        rintro r rfl
        exact ready.expression second later behind

theorem ends_conditionalTail (found : p.grammar.find? "ConditionalTail" = some id)
    (mark : p.grammar.Is (.literal "?") t) (flat : Flat p.grammar.Is (n + 1) w)
    (behind : p.Behind v) :
    p.Ends depth (.once id) (t :: (w ++ v)) (Leaves p.grammar.Is n v) := by
  let d : Definition := ⟨"ConditionalTail", .seq (.literal "?") (.seq (.name "Expression")
    (.opt (.seq (.literal ":") (.name "Expression"))))⟩
  obtain ⟨body, named, realised⟩ := defines.body (d := d) (by decide) found
  refine ends_named named fun below => ?_
  obtain ⟨_, shape, made⟩ := defines.made realised
  cases made with
  | seq question branches =>
    have plain := guard?_of_ne_ahead defines shape question (by rintro _ ⟨⟩)
    have reads := (deeper below).reads_body defines distinct question (by decide)
    refine ends_seq shape plain (reads.takes (.literal mark) Grammar.avoids_nil) ?_
    rintro r rfl
    exact ends_branches defines distinct (deeper below) branches flat behind

/-- What is so of the rules below a depth is so at that depth. -/
theorem ready_of_deeper : p.Ready depth where
  declines := by
    intro name id listed found
    obtain ⟨d, defined, rfl⟩ := List.mem_map.1 listed
    exact declines_rule defines deeper defined found
  reads := by
    intro name id listed settled found
    obtain ⟨d, defined, rfl⟩ := List.mem_map.1 listed
    by_cases regular : d.regular = true
    · exact reads_regular defines distinct deeper defined regular found
    rcases irregular_settled d defined settled regular with name | name | name <;> rw [name] at found ⊢
    · refine ⟨fun word avoids => ?_⟩
      rw [Body.extend_rule (by decide)] at avoids
      exact (ends_expression defines deeper found (Word.flat_of_expression word) avoids).mono
        fun _ => Leaves.of_zero
    · exact reads_step defines distinct deeper found
    · exact reads_call defines distinct found deeper
  conditional := ends_conditional defines deeper
  conditionalTail := ends_conditionalTail defines distinct deeper
  expression := ends_expression defines deeper
  assignTail := ends_assignTail defines distinct deeper

end Choices

theorem ready (depth : Nat) : p.Ready depth :=
  ready_of_deeper defines distinct fun _ => ready (depth + 1)
termination_by p.limit - depth

/-- **The parser finds every word of expressions**, and leaves nothing of it. -/
theorem ends_word (found : p.grammar.find? "Expression" = some id)
    (word : Word p.grammar.Is "Expression" w) : p.Ends depth (.once id) w (· = []) := by
  have ends := (ready defines distinct depth).expression (v := []) found (Word.flat_of_expression word)
    (by rintro t ⟨⟩)
  rw [List.append_nil] at ends
  exact ends.mono fun _ => Leaves.of_zero

end Rules

end Parser

end Rowlang
