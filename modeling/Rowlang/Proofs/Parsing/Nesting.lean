import Rowlang.Proofs.Grammar.Start
import Rowlang.Proofs.Parsing.Simulation
import Rowlang.Proofs.Parsing.Soundness

/-!
# The nesting of rules

The limit of a parser bounds the nesting of the named rules in the trees it makes, and does nothing else: a
parse that does not meet the limit is the same with any larger one.

* `ParseTree.nesting` : how many named rules are nested in each other;
* `TreeBuilder.Measures` : measures of nodes that grow with the nesting of rules;
* `Parser.Run.measure_le` : what an attempt makes, is measured no higher than the limit that is left;
* `TreeBuilder.counted` : a builder that counts the nesting below each node (`Parser.exists_counted`);
* `Parser.parse_limit` : the limit adds errors of the limit only.
-/

namespace Rowlang
open Rowlang.Text

namespace ParseTree

mutual

def nesting : ParseTree → Nat
  | .token _ => 0
  | .rule _ children => nestingOf children + 1

def nestingOf : List ParseTree → Nat
  | [] => 0
  | c :: cs => max c.nesting (nestingOf cs)

end

theorem nestingOf_le_iff {trees : List ParseTree} {n : Nat} :
    nestingOf trees ≤ n ↔ ∀ t ∈ trees, t.nesting ≤ n := by
  induction trees with
  | nil => simp [nestingOf]
  | cons t trees ih => rw [nestingOf, Nat.max_le, List.forall_mem_cons, ih]

end ParseTree

/-! ## Measures of nodes -/

section
variable {σ ν : Type}

/-- A measure of nodes by which tokens count nothing, and a rule at most one more than all the nodes it is
given. -/
structure TreeBuilder.Measures (b : TreeBuilder σ ν) (m : ν → Nat) : Prop where
  token : ∀ t, m (b.token t) = 0
  rule : ∀ {name children node before after}, b.rule name children before = (.ok node, after) →
    ∀ n, (∀ c ∈ children, m c ≤ n) → m node ≤ n + 1

/-- The largest nesting among several nodes. -/
def deepest : List (ν × Nat) → Nat
  | [] => 0
  | c :: cs => max c.2 (deepest cs)

theorem deepest_le_iff {children : List (ν × Nat)} {n : Nat} :
    deepest children ≤ n ↔ ∀ c ∈ children, c.2 ≤ n := by
  induction children with
  | nil => simp [deepest]
  | cons c children ih => rw [deepest, Nat.max_le, List.forall_mem_cons, ih]

/-- The builder that counts, with each node, how many named rules are nested in each other there. -/
def TreeBuilder.counted (b : TreeBuilder σ ν) : TreeBuilder σ (ν × Nat) where
  token t := (b.token t, 0)
  rule name children s :=
    let made := b.rule name (children.map (·.1)) s
    (made.1.map fun node => (node, deepest children + 1), made.2)

theorem TreeBuilder.hom_counted (b : TreeBuilder σ ν) : b.counted.Hom b (·.1) Eq where
  token t := rfl
  rule name children s s' same := by
    subst same
    refine ⟨?_, rfl⟩
    show _ = Except.map _ ((b.rule name (children.map (·.1)) s).1.map _)
    cases (b.rule name (children.map (·.1)) s).1 <;> rfl

theorem TreeBuilder.rule_counted {b : TreeBuilder σ ν} {name : String} {children : List (ν × Nat)}
    {before after : σ} {x : ν × Nat} (h : b.counted.rule name children before = (.ok x, after)) :
    b.rule name (children.map (·.1)) before = (.ok x.1, after) ∧ x.2 = deepest children + 1 := by
  obtain ⟨outcome, rfl⟩ := Prod.mk.inj h
  cases made : (b.rule name (children.map (·.1)) before).1 with
  | error e =>
    rw [made] at outcome
    cases outcome
  | ok node =>
    rw [made] at outcome
    cases outcome
    exact ⟨Prod.ext made rfl, rfl⟩

theorem TreeBuilder.measures_counted (b : TreeBuilder σ ν) : b.counted.Measures (·.2) where
  token t := rfl
  rule made n bound := by
    rw [(rule_counted made).2]
    exact Nat.succ_le_succ (deepest_le_iff.2 bound)

end

/-! ## Parses -/

namespace Parser

variable {σ ν : Type} {m : ν → Nat}

/-- Such a measure of what an attempt makes is bounded by the limit that is left: each named rule uses up
one, and gives it back when it is done. -/
theorem Run.measure_le {p : Parser σ ν} (measures : p.builder.Measures m) {depth : Nat}
    {within : Option Nat} {a : Attempt} {s s' : ParseState σ} {o : Outcome ν}
    (run : p.Run depth within a s o s') {nodes : List ν} (made : o = .ok (some nodes)) :
    ∀ node ∈ nodes, m node ≤ p.limit - depth := by
  induction run generalizing nodes with
  | token =>
    cases made
    exact List.forall_mem_singleton.2 (Nat.le_trans (Nat.le_of_eq (measures.token _)) (Nat.zero_le _))
  | guardOpen _ _ _ ih | altRight _ _ _ _ ih | star _ _ ih => exact ih made
  | altLeft _ _ _ ih => exact ih made
  | lastRound _ _ ih => exact ih made
  | seqBoth _ _ _ _ ih ih' | plus _ _ _ ih ih' | round _ _ _ ih ih' =>
    cases made
    exact List.forall_mem_append.2 ⟨ih rfl, ih' rfl⟩
  | @opt _ _ _ _ _ found _ _ _ ih =>
    cases made
    cases found with
    | none => simp
    | some nodes => exact ih rfl
  | ahead | noRound =>
    cases made
    simp
  | seqLeft _ _ _ unmatched | plusFirst _ _ unmatched | namedBody _ _ _ _ unmatched =>
    exact absurd made (unmatched _)
  | named _ shallow _ _ built ih =>
    cases made
    have bound := measures.rule built _ (ih rfl)
    refine List.forall_mem_singleton.2 ?_
    omega
  | _ => cases made

/-- What a named rule makes of a whole text is measured no higher than the limit. -/
theorem measure_le_of_parseRule {g : Grammar} {b : TreeBuilder σ ν} (measures : b.Measures m) {id : Nat}
    (named : ∃ body, g.shape? id = some (.named body)) {limit : Nat} {text : String} {init : σ} {node : ν}
    (h : (parseRule ⟨g, b, limit⟩ id text init).1 = .ok node) : m node ≤ limit := by
  obtain ⟨body, named⟩ := named
  unfold parseRule at h
  rw [parseAll_eq] at h
  generalize ParseState.mk _ _ = s at h
  rcases tried : tryParse ⟨g, b, limit⟩ 0 none id s with ⟨e | (_ | nodes), s₁⟩ <;> rw [tried] at h
  · cases h
  · cases h
  · have run := run_of_tryParse tried
    obtain ⟨tokens, rest, builds⟩ := run.builds
    -- a named rule makes one node
    obtain ⟨node', rfl⟩ := Grammar.Builds.of_named builds named
    have bound := run.measure_le measures rfl
    simp only [andThen] at h
    split at h <;> cases h
    exact bound _ (List.mem_singleton_self _)

theorem nesting_le_of_parse {g : Grammar} (built : g.Built) {limit : Nat} {text : String} {t : ParseTree}
    (h : (parse ⟨g, .collector, limit⟩ text ()).1 = .ok t) : t.nesting ≤ limit := by
  have measures : TreeBuilder.collector.Measures ParseTree.nesting := by
    refine ⟨fun t => ?_, fun {name children node before after} made n bound => ?_⟩
    · rw [TreeBuilder.collector, ParseTree.nesting]
    · cases made
      rw [ParseTree.nesting]
      exact Nat.succ_le_succ (ParseTree.nestingOf_le_iff.2 bound)
  exact measure_le_of_parseRule measures built.start_named h

/-- A node that a named rule makes of a whole text comes of a derivation in which no more named rules are
nested in each other than the limit allows. -/
theorem exists_counted {g : Grammar} {b : TreeBuilder σ ν} {limit id : Nat} {text : String} {init : σ}
    {node : ν} (named : ∃ body, g.shape? id = some (.named body))
    (h : (parseRule ⟨g, b, limit⟩ id text init).1 = .ok node) :
    ∃ n ≤ limit, g.Builds b.counted id (g.scan text).tokens [(node, n)] := by
  have hom : Parser.Hom ⟨g, b.counted, limit⟩ ⟨g, b, limit⟩ (·.1) Eq :=
    ⟨rfl, Nat.le_refl _, b.hom_counted⟩
  obtain ⟨outcome, -⟩ := hom.parseRule id text init init rfl
    (fun more => absurd more (Nat.lt_irrefl _)) fun more => absurd more (Nat.lt_irrefl _)
  rw [h] at outcome
  cases counted : (parseRule ⟨g, b.counted, limit⟩ id text init).1 with
  | error e =>
    rw [counted] at outcome
    cases outcome
  | ok x =>
    rw [counted] at outcome
    obtain rfl : node = x.1 := Except.ok.inj outcome
    obtain ⟨body, rule⟩ := named
    obtain ⟨-, nodes, builds, made⟩ := parseAll_builds (Prod.ext counted rfl)
    obtain ⟨x', rfl⟩ := builds.of_named rule
    rcases made with same | ⟨several, -⟩
    · cases same
      exact ⟨x.2, measure_le_of_parseRule b.measures_counted ⟨body, rule⟩ counted, builds⟩
    · exact absurd rfl several

/-- **The limit adds errors of the limit only.** A parse of a text that can be scanned to its end gives, if
it does not end with the error of the limit, the same with every larger limit, whatever the builder and the
rule; and the tree of the start rule has no more rules nested in each other than the limit allows. -/
theorem parse_limit {g : Grammar} (built : g.Built) {text : String} {place : Location}
    (scans : (g.scan text).ending = .complete place) {n m : Nat} (more : n ≤ m) :
    (∀ {σ ν : Type} (b : TreeBuilder σ ν) (id : Nat) (init : σ),
      ¬ MeetsLimit (parseRule ⟨g, b, n⟩ id text init).1 →
        parseRule ⟨g, b, m⟩ id text init = parseRule ⟨g, b, n⟩ id text init) ∧
    ∀ t, (parse ⟨g, .collector, n⟩ text ()).1 = .ok t → t.nesting ≤ n := by
  refine ⟨fun b id init reached => ?_, fun t => nesting_le_of_parse built⟩
  have hom : Parser.Hom ⟨g, b, n⟩ ⟨g, b, m⟩ (fun node => node) Eq := ⟨rfl, more, .refl b⟩
  obtain ⟨outcome, beside⟩ := hom.parseRule id text init init rfl
    (fun _ => ⟨place, scans⟩) fun _ => reached
  refine Prod.ext (outcome.trans (congrFun Except.map_id _)) ?_
  exact congrArg₂ ParseState.mk beside.stream beside.building.symm

/-- Three rules are nested in each other, which three allows, so that five makes no difference. -/
theorem parse_limit_brackets :
    let g := bracketGrammar
    (parseRule ⟨g, .collector, 5⟩ g.start "((x))" () = parseRule ⟨g, .collector, 3⟩ g.start "((x))" ()) ∧
      ∃ t, (parse ⟨g, .collector, 3⟩ "((x))" ()).1 = .ok t ∧ t.nesting ≤ 3 := by
  intro g
  have built : g.Built := Grammar.built_ofDefinitions (eq_ok_get bracketRules_build)
  have scans : (g.scan "((x))").ending = .complete ⟨5, 1, 6⟩ := by decide +kernel
  have parses : (parse ⟨g, .collector, 3⟩ "((x))" ()).1.isOk = true := by decide +kernel
  obtain ⟨same, nested⟩ := parse_limit built scans (n := 3) (m := 5) (by decide)
  cases tree : (parse ⟨g, .collector, 3⟩ "((x))" ()).1 with
  | error e => simp [tree, Except.isOk, Except.toBool] at parses
  | ok t =>
    refine ⟨same .collector g.start () ?_, t, rfl, nested t tree⟩
    show ¬ MeetsLimit (parse ⟨g, .collector, 3⟩ "((x))" ()).1
    rw [tree]
    rintro ⟨_, _, _, ⟨⟩⟩

end Parser

end Rowlang
