import Mathlib.Data.Finset.Card
import Rowlang.Engine
import Rowlang.Proofs.Expr.Blanks

/-!
# Sessions of an engine

Whatever an engine has done before, a text is compiled as if it were read at that moment, and the node of a
text that has been compiled is kept for good.

* `Engine.Operation`, `Engine.after` : what can be done with an engine, and the engine behind a session;
* `Engine.texts` : the texts that a session compiles;
* `Engine.Fails`, `Engine.LastFailure` : the failure that a session shows;
* `Engine.compile_cases`, `Engine.perform_cases` : what one operation does to what an engine keeps;
* `Engine.Keeps`, `Engine.keeps_after` : what an engine keeps of a session;
* `Engine.compile_session` : compiling behind a session.
-/

namespace Rowlang
open Rowlang.Text

/-- The expression of a text, and null for a text that is none. -/
def Expr.ofTextOrNull (g : Grammar) (text : String) : Expr :=
  match ofText g text with
  | .ok x => x
  | .error _ => .null

/-- The message that is kept of a text: none if it is blank or an expression. -/
def Expr.failure? (g : Grammar) (text : String) : Option String :=
  if text.toList.all isBlank then none
  else
    match ofText g text with
    | .ok _ => none
    | .error e => some (text ++ ": " ++ e.message)

namespace Engine

/-! ## Sessions -/

/-- What can be done with an engine. An evaluation whose value is converted in the end is one of
`evaluate`. -/
inductive Operation where
  | compile (source : String)
  /-- reads a text without keeping anything -/
  | tryCompile (source : String)
  | evaluateAt (store : Store) (context : Context) (current : Value) (source : String)
  | evaluateIn (store : Store) (context : Context) (source : String)
  | evaluate (store : Store) (root : Value) (source : String)
  | evaluateExpr (store : Store) (context : Context) (current : Value) (x : Expr)
  | setValue (store : Store) (target : Value) (source : String) (v : Value)
  | register (p : FunctionProvider)
  | lastError
  | takeLastError

def Operation.source? : Operation → Option String
  | .compile source | .evaluateAt _ _ _ source | .evaluateIn _ _ source | .evaluate _ _ source
  | .setValue _ _ source _ => some source
  | .tryCompile _ | .evaluateExpr .. | .register _ | .lastError | .takeLastError => none

def perform (e : Engine) : Operation → Engine
  | .compile source => (e.compile source).2
  | .tryCompile _ => e
  | .evaluateAt store c current source => (e.evaluateAt store c current source).2.2
  | .evaluateIn store c source => (e.evaluateIn store c source).2.2
  | .evaluate store root source => (e.evaluate store root source).2
  | .evaluateExpr store c current x => (e.run c ((e.evaluator store).evaluate current x)).2.2
  | .setValue store target source v => (e.setValue store target source v).2
  | .register p => e.register p
  | .lastError => e
  | .takeLastError => e.takeLastError.2

def after (e : Engine) (session : List Operation) : Engine := session.foldl perform e

def texts (session : List Operation) : List String := session.filterMap Operation.source?

/-- Behind the session `before`, the operation compiles a text for the first time of which a message is kept. -/
def Fails (g : Grammar) (before : List Operation) (op : Operation) (m : String) : Prop :=
  ∃ source, op.source? = some source ∧ source ∉ texts before ∧ Expr.failure? g source = some m

/-- A session has a failure with the message `m`, behind which there is no other one, and which has not been
taken. -/
def LastFailure (g : Grammar) (session : List Operation) (m : String) : Prop :=
  ∃ before op later, session = before ++ op :: later ∧ Fails g before op m ∧
    ∀ between op' rest, later = between ++ op' :: rest →
      op' ≠ .takeLastError ∧ ∀ m', ¬ Fails g (before ++ op :: between) op' m'

variable {e e' : Engine} {g : Grammar} {session before : List Operation} {op : Operation}
  {source m : String}

theorem after_concat (e : Engine) (session : List Operation) (op : Operation) :
    e.after (session ++ [op]) = (e.after session).perform op := by
  simp [after]

theorem texts_concat (session : List Operation) (op : Operation) :
    texts (session ++ [op]) = texts session ++ op.source?.toList := by
  cases h : op.source? <;> simp [texts, h]

/-- What one more operation changes of the last failure. -/
theorem lastFailure_concat :
    LastFailure g (session ++ [op]) m ↔ Fails g session op m ∨
      op ≠ .takeLastError ∧ (∀ m', ¬ Fails g session op m') ∧ LastFailure g session m := by
  constructor
  · rintro ⟨before, op', later, same, fails, last⟩
    rcases List.eq_nil_or_concat' later with rfl | ⟨later, op'', rfl⟩
    · obtain ⟨rfl, ⟨⟩⟩ := List.append_inj' same rfl
      exact .inl fails
    · rw [← List.cons_append, ← List.append_assoc] at same
      obtain ⟨rfl, ⟨⟩⟩ := List.append_inj' same rfl
      obtain ⟨kept, none⟩ := last later op [] rfl
      refine .inr ⟨kept, none, before, op', later, rfl, fails, fun between op'' rest same => ?_⟩
      exact last between op'' (rest ++ [op]) (by simp [same])
  · rintro (fails | ⟨kept, none, before, op', later, rfl, fails, last⟩)
    · exact ⟨session, op, [], rfl, fails, fun between op' rest same => by simp at same⟩
    · refine ⟨before, op', later ++ [op], by simp, fails, fun between op'' rest same => ?_⟩
      rcases List.eq_nil_or_concat' rest with rfl | ⟨rest, op''', rfl⟩
      · obtain ⟨rfl, ⟨⟩⟩ := List.append_inj' same rfl
        exact ⟨kept, none⟩
      · rw [← List.cons_append, ← List.append_assoc] at same
        exact last between op'' rest (List.append_inj' same rfl).1

/-! ## One operation -/

/-- The engines keep the same, apart from their functions. -/
structure Same (e e' : Engine) : Prop where
  grammar : e'.grammar = e.grammar
  compiled : e'.compiled = e.compiled
  lastError : e'.lastError = e.lastError

theorem same_run {α : Type} (e : Engine) (c : Context) (x : Eval α) : e.Same (e.run c x).2.2 :=
  ⟨rfl, rfl, rfl⟩

theorem go_append (source : String) (n : Nat) (cs cs' : List CompiledText) :
    find?.go source n (cs ++ cs') = (find?.go source n cs).or (find?.go source (n + cs.length) cs') := by
  induction cs generalizing n with
  | nil => rfl
  | cons c cs ih =>
    simp only [List.cons_append, find?.go]
    split
    · rfl
    · rw [ih, List.length_cons, Nat.add_right_comm, Nat.add_assoc]

theorem go_eq_none (source : String) (n : Nat) (cs : List CompiledText) :
    find?.go source n cs = none ↔ source ∉ cs.map (·.source) := by
  induction cs generalizing n with
  | nil => simp [find?.go]
  | cons c cs ih =>
    simp only [find?.go]
    split
    · simp [*]
    · rename_i other
      rw [ih]
      simp [Ne.symm other]

theorem find?_eq_none : e.find? source = none ↔ source ∉ e.compiled.map (·.source) := go_eq_none ..

theorem expr_of_go {n : Nat} {cs : List CompiledText} {node : Compiled}
    (h : find?.go source n cs = some node) : ⟨source, node.expr⟩ ∈ cs := by
  induction cs generalizing n with
  | nil => cases h
  | cons c cs ih =>
    simp only [find?.go] at h
    split at h
    · rename_i same
      cases h
      subst same
      exact List.mem_cons_self
    · exact List.mem_cons_of_mem _ (ih h)

/-- A text that is found is found at the same place however many come behind. -/
theorem find?_of_prefix {node : Compiled} (longer : e.compiled <+: e'.compiled)
    (found : e.find? source = some node) : e'.find? source = some node := by
  obtain ⟨more, same⟩ := longer
  unfold find? at found ⊢
  rw [← same, go_append, found]
  rfl

theorem compile_of_find? {node : Compiled} (found : e.find? source = some node) :
    e.compile source = (node, e) := by
  unfold compile
  rw [found]

/-- A text is found among those compiled, or kept behind them. -/
theorem compile_cases (e : Engine) (source : String) :
    (∃ node, e.find? source = some node ∧ e.compile source = (node, e)) ∨
      e.find? source = none ∧ e.compile source =
        { e with lastError := (Expr.failure? e.grammar source).or e.lastError }.keep source
          (Expr.ofTextOrNull e.grammar source) := by
  cases found : e.find? source with
  | some node => exact .inl ⟨node, rfl, compile_of_find? found⟩
  | none =>
  refine .inr ⟨rfl, ?_⟩
  unfold compile Expr.failure? Expr.ofTextOrNull read
  rw [found]
  dsimp only
  split
  · rename_i blank
    cases read : Expr.ofText e.grammar source with
    | ok x => exact absurd read (Expr.ofText_blank e.grammar blank x)
    | error err => rfl
  · cases Expr.ofText e.grammar source with
    | ok x => rfl
    | error err => rfl

/-- An operation leaves what compiling its text leaves; if it has none, it leaves all as it is, or takes the
last message. -/
theorem perform_cases (e : Engine) (op : Operation) :
    (∃ source, op.source? = some source ∧ (e.compile source).2.Same (e.perform op)) ∨
      op.source? = none ∧ (op = .takeLastError ∧ e.perform op = { e with lastError := none } ∨
        op ≠ .takeLastError ∧ e.Same (e.perform op)) := by
  cases op with
  | compile source => exact .inl ⟨source, rfl, rfl, rfl, rfl⟩
  | evaluateAt store c current source => exact .inl ⟨source, rfl, same_run ..⟩
  | evaluateIn store c source => exact .inl ⟨source, rfl, same_run ..⟩
  | evaluate store root source => exact .inl ⟨source, rfl, same_run ..⟩
  | setValue store target source v => exact .inl ⟨source, rfl, same_run ..⟩
  | evaluateExpr store c current x => exact .inr ⟨rfl, .inr ⟨nofun, same_run ..⟩⟩
  | tryCompile | register | lastError => exact .inr ⟨rfl, .inr ⟨nofun, rfl, rfl, rfl⟩⟩
  | takeLastError => exact .inr ⟨rfl, .inl ⟨rfl, rfl⟩⟩

/-- Texts are only ever added. -/
theorem compiled_compile (e : Engine) (source : String) : e.compiled <+: (e.compile source).2.compiled := by
  rcases e.compile_cases source with ⟨node, -, same⟩ | ⟨-, same⟩ <;> rw [same]
  exact List.prefix_append ..

theorem find?_compile (e : Engine) (source : String) :
    (e.compile source).2.find? source = some (e.compile source).1 := by
  rcases e.compile_cases source with ⟨node, found, same⟩ | ⟨fresh, same⟩ <;> rw [same]
  · exact found
  · unfold find? at fresh ⊢
    simp [keep, go_append, fresh, find?.go]

theorem compiled_perform (e : Engine) (op : Operation) : e.compiled <+: (e.perform op).compiled := by
  rcases e.perform_cases op with ⟨source, -, same⟩ | ⟨-, ⟨-, same⟩ | ⟨-, same⟩⟩
  · rw [same.compiled]
    exact e.compiled_compile source
  · rw [same]
  · rw [same.compiled]

/-! ## Sessions as a whole -/

theorem compiled_after (e : Engine) (session : List Operation) :
    e.compiled <+: (e.after session).compiled := by
  induction session generalizing e with
  | nil => exact List.prefix_rfl
  | cons op session ih => exact (e.compiled_perform op).trans (ih _)

/-- What an engine with the grammar `g` keeps of a session. -/
structure Keeps (g : Grammar) (session : List Operation) (e : Engine) : Prop where
  grammar : e.grammar = g
  exprs : ∀ c ∈ e.compiled, c.expr = Expr.ofTextOrNull g c.source
  distinct : (e.compiled.map (·.source)).Nodup
  listed : ∀ source, source ∈ e.compiled.map (·.source) ↔ source ∈ texts session
  lastError : ∀ m, e.lastError = some m ↔ LastFailure g session m

theorem keeps_ofGrammar (g : Grammar) (delimiter : String) : Keeps g [] (ofGrammar g delimiter) where
  grammar := rfl
  exprs := List.forall_mem_nil _
  distinct := List.nodup_nil
  listed _ := Iff.rfl
  lastError m := by
    constructor
    · rintro ⟨⟩
    · rintro ⟨before, op, later, same, -⟩
      simp at same

theorem Keeps.of_same (h : Keeps g session e) (same : e.Same e') : Keeps g session e' where
  grammar := same.grammar.trans h.grammar
  exprs := same.compiled ▸ h.exprs
  distinct := same.compiled ▸ h.distinct
  listed := same.compiled ▸ h.listed
  lastError := same.lastError ▸ h.lastError

theorem Keeps.compile (h : Keeps g session e) (compiles : op.source? = some source) :
    Keeps g (session ++ [op]) (e.compile source).2 := by
  have kept : op ≠ .takeLastError := by
    rintro rfl
    cases compiles
  have compiled : texts (session ++ [op]) = texts session ++ [source] := by
    rw [texts_concat, compiles]
    rfl
  rcases e.compile_cases source with ⟨node, found, same⟩ | ⟨fresh, same⟩ <;> rw [same]
  · -- compiled before
    have before : source ∈ texts session := by
      rw [← h.listed]
      by_contra absent
      rw [find?_eq_none.2 absent] at found
      cases found
    have none m' : ¬ Fails g session op m' := by
      rintro ⟨source', compiles', absent, -⟩
      cases compiles.symm.trans compiles'
      exact absent before
    refine ⟨h.grammar, h.exprs, h.distinct, fun source' => ?_, fun m => ?_⟩
    · rw [h.listed, compiled, List.mem_append, List.mem_singleton]
      exact ⟨.inl, fun listed => listed.elim id (· ▸ before)⟩
    · rw [h.lastError, lastFailure_concat]
      simp [none, kept]
  · -- compiled for the first time
    have absent : source ∉ texts session := by
      rw [← h.listed]
      exact find?_eq_none.1 fresh
    have fails m' : Fails g session op m' ↔ Expr.failure? g source = some m' := by
      constructor
      · rintro ⟨source', compiles', -, failure⟩
        cases compiles.symm.trans compiles'
        exact failure
      · exact fun failure => ⟨source, compiles, absent, failure⟩
    refine ⟨h.grammar, ?_, ?_, fun source' => ?_, fun m => ?_⟩
    · exact List.forall_mem_append.2 ⟨h.exprs, List.forall_mem_singleton.2 (h.grammar ▸ rfl)⟩
    · simpa [keep, List.nodup_append, h.distinct] using find?_eq_none.1 fresh
    · simp [keep, compiled, ← h.listed]
    · rw [lastFailure_concat, ← h.lastError, h.grammar, fails]
      cases failure : Expr.failure? g source with
      | none => simp [keep, fails, failure, kept]
      | some m' => simp [keep, fails, failure]

theorem Keeps.perform (h : Keeps g session e) (op : Operation) :
    Keeps g (session ++ [op]) (e.perform op) := by
  rcases e.perform_cases op with ⟨source, compiles, same⟩ | ⟨silent, effect⟩
  · exact (h.compile compiles).of_same same
  have compiled : texts (session ++ [op]) = texts session := by
    rw [texts_concat, silent]
    exact List.append_nil _
  have none m' : ¬ Fails g session op m' := by
    rintro ⟨source, compiles, -⟩
    cases silent.symm.trans compiles
  rcases effect with ⟨rfl, same⟩ | ⟨kept, same⟩
  · rw [same]
    refine ⟨h.grammar, h.exprs, h.distinct, compiled ▸ h.listed, fun m => ?_⟩
    simp [lastFailure_concat, none]
  · refine Keeps.of_same ⟨h.grammar, h.exprs, h.distinct, compiled ▸ h.listed, fun m => ?_⟩ same
    rw [h.lastError, lastFailure_concat]
    simp [none, kept]

/-- What an engine keeps of a session that it has not begun with. -/
theorem keeps_after (g : Grammar) (delimiter : String) (session : List Operation) :
    Keeps g session ((ofGrammar g delimiter).after session) := by
  induction session using List.reverseRecOn with
  | nil => exact keeps_ofGrammar g delimiter
  | append_singleton session op ih =>
    rw [after_concat]
    exact ih.perform op

/-- The expression of a text, whenever it is compiled. -/
theorem Keeps.expr_compile (h : Keeps g session e) (source : String) :
    (e.compile source).1.expr = Expr.ofTextOrNull g source := by
  rcases e.compile_cases source with ⟨node, found, same⟩ | ⟨-, same⟩ <;> rw [same]
  · exact h.exprs _ (expr_of_go found)
  · rw [← h.grammar]
    rfl

/-- **The cache cannot be noticed.** Behind whatever session, a text is compiled to the expression that is
read, or to null if there is none, and it stays the same node for good. As many nodes are kept as texts have
been compiled, and the message that is kept is that of the last text which failed when it was compiled for the
first time, unless it has been taken. -/
theorem compile_session (g : Grammar) (delimiter : String) (session : List Operation) (source : String) :
    let e := (ofGrammar g delimiter).after session
    (e.compile source).1.expr = (match e.read source with
      | .ok x => x
      | .error _ => .null) ∧
    (∀ later, (((e.compile source).2.after later).compile source).1 = (e.compile source).1) ∧
    e.cached = (texts session).toFinset.card ∧
    ∀ m, e.lastError = some m ↔ LastFailure g session m := by
  intro e
  have keeps : Keeps g session e := keeps_after g delimiter session
  refine ⟨?_, fun later => ?_, ?_, keeps.lastError⟩
  · rw [keeps.expr_compile, read, keeps.grammar]
    rfl
  · have found := find?_of_prefix (compiled_after (e.compile source).2 later) (find?_compile e source)
    rw [compile_of_find? found]
  · have same : (texts session).toFinset = (e.compiled.map (·.source)).toFinset := by
      ext source
      rw [List.mem_toFinset, List.mem_toFinset, keeps.listed]
    rw [same, List.toFinset_card_of_nodup keeps.distinct, List.length_map]
    rfl

end Engine

end Rowlang
