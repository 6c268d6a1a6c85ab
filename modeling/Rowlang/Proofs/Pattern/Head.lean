import Rowlang.Proofs.Pattern.Language
import Rowlang.Proofs.Pattern.Reader

/-!
# The fixed beginning of an expression

What is found from the written form alone is a beginning of all words, with one exception: more
quantifiers may be piled upon the plus sign behind the last character of it, and allow that character
to be left out.

* `headVanishes` : the exception;
* `certainHead` : the beginning without a character that may be left out;
* `begins_certainHead` : all words begin so.
-/

namespace Rowlang.Pattern
open Rowlang.Text

/-! ## Piled quantifiers -/

/-- A text without the question mark that makes the quantifier in front of it lazy. -/
def behindLazy (cs : List Char) : List Char := if cs.head? == some '?' then cs.drop 1 else cs

theorem length_behindLazy_le (cs : List Char) : (behindLazy cs).length ≤ cs.length := by
  unfold behindLazy; split <;> simp

/-- Whether the quantifiers that a text begins with, one upon the other, allow that what they repeat
is left out. -/
def stackVanishes : List Char → Bool
  | '*' :: _ => true
  | '?' :: _ => true
  | '+' :: rest => stackVanishes (behindLazy rest)
  | '{' :: rest =>
    let body := rest.takeWhile (· != '}')
    match readBounds body with
    | some (0, _) => true
    | _ => stackVanishes (behindLazy (rest.drop (body.length + 1)))
  | _ => false
termination_by cs => cs.length
decreasing_by
  · have := length_behindLazy_le rest; simp only [List.length_cons]; omega
  · have := length_behindLazy_le (rest.drop ((rest.takeWhile (· != '}')).length + 1))
    simp only [List.length_drop, List.length_cons] at this ⊢; omega

/-- Whether the last of the plain characters that an expression begins with may be left out after
all. -/
def plainVanishes : List Char → Bool
  | [] => false
  | ['\\'] => false
  | '\\' :: e :: rest => if e.isAlphanum then false else loose rest (plainVanishes rest)
  | c :: rest => if isOperator c then false else loose rest (plainVanishes rest)
where
  /-- The answer for a character with `rest` behind it, `tail` being the one for `rest`. -/
  loose (rest : List Char) (tail : Bool) : Bool :=
    match rest with
    | '*' :: _ => false
    | '?' :: _ => false
    | '{' :: _ => false
    | '+' :: _ => stackVanishes rest
    | _ => tail

/-- Whether the last character of the fixed beginning may be left out. -/
def headVanishes (source : List Char) : Bool := !hasAlternation source && plainVanishes source

/-- The fixed beginning without a character that may be left out. -/
def certainHead (source : List Char) : List Char :=
  if headVanishes source then (fixedHead source).dropLast else fixedHead source

example : certainHead "ab+*c".toList = "a".toList := by decide +kernel

/-- The plain characters without one that may be left out. -/
def certainPlain (source : List Char) : List Char :=
  if plainVanishes source then (plainHead source).dropLast else plainHead source

theorem certainHead_of_alternation {source : List Char} (h : hasAlternation source = true) :
    certainHead source = [] := by
  simp [certainHead, headVanishes, fixedHead, h]

theorem certainHead_eq_certainPlain {source : List Char} (h : hasAlternation source = false) :
    certainHead source = certainPlain source := by
  simp [certainHead, headVanishes, fixedHead, certainPlain, h]

/-! ## Readers of plain characters -/

/-- The reader behind the items `items`, with nothing open. -/
def Reader.behind (items : List Regex) : Reader := ⟨⟨none, items⟩, [], []⟩

section Spelling
variable {items base : List Regex} {x e : Regex} {c : Char} {done head cs rest : List Char}

/-- The words of the items `items`, last item first, in front of those of `tail`. -/
def inFront (items : List Regex) (tail : Regex) : Regex :=
  items.foldl (fun tail item => .seq item tail) tail

/-- Items whose words are all `done`. -/
def Spells (items : List Regex) (done : List Char) : Prop :=
  ∀ tail head, tail.Begins head → (inFront items tail).Begins (done ++ head)

/-- Items that begin with `done` whatever stands behind them. -/
def Leads (items : List Regex) (done : List Char) : Prop := ∀ tail, (inFront items tail).Begins done

theorem spells_nil : Spells [] [] := fun _ _ begins => begins

theorem Spells.leads (spells : Spells items done) : Leads items done := by
  intro tail
  simpa using spells tail [] (Regex.begins_nil tail)

theorem Spells.single (spells : Spells items done) (c : Char) :
    Spells (.one (.single c) :: items) (done ++ [c]) := by
  intro tail head begins
  rw [List.append_assoc]
  exact spells _ _ (begins.seq_single c)

theorem Spells.leads_cons (spells : Spells items done) (begins : x.Begins head) :
    Leads (x :: items) (done ++ head) :=
  fun tail => spells _ _ (begins.seq_left tail)

theorem founded_behind (x : Regex) (items : List Regex) :
    (Reader.behind (x :: items)).Founded items :=
  ⟨[x], rfl, fun _ _ h => absurd h (List.cons_ne_nil _ _)⟩

theorem readRest_cons {r : Reader} (h : r.readRest (c :: rest) = some e) :
    ∃ n r', r.step c rest = some (n, r') ∧ r'.readRest (rest.drop n) = some e := by
  unfold Reader.readRest at h
  split at h
  · cases h
  · exact ⟨_, _, ‹_›, h⟩

theorem begins_of_founded {r : Reader} (leads : Leads base done) (founded : r.Founded base)
    (quiet : r.Quiet cs) (read : r.readRest cs = some e) : e.Begins done := by
  obtain ⟨newer, rfl⟩ := founded.items_of_readRest quiet read
  have := leads (inFront newer .empty)
  rwa [inFront, inFront, ← List.foldl_append] at this

/-- Where no quantifier comes next, all items read stay. -/
theorem begins_of_unquantified (leads : Leads base done)
    (first : ∀ c rest, cs = c :: rest → isQuantifier c = true → base = [])
    (quiet : (Reader.behind base).Quiet cs) (read : (Reader.behind base).readRest cs = some e) :
    e.Begins done := by
  cases cs with
  | nil =>
    simp only [Reader.readRest, Reader.finish, Reader.behind, Option.some.injEq] at read
    subst read
    exact leads .empty
  | cons c rest =>
    obtain ⟨n, r', step, read⟩ := readRest_cons read
    have founded : r'.Founded base :=
      Reader.founded_of_step (Reader.step_of_step step) ⟨[], rfl⟩ (fun h => quiet.not_bar h)
        fun found => ⟨[], rfl, fun _ _ _ => first c rest rfl found⟩
    exact begins_of_founded leads founded (Reader.quiet_step step quiet) read

/-! ## Quantifiers -/

theorem drop_lazy (k : Nat) (rest : List Char) :
    rest.drop (if (rest.drop k).head? == some '?' then k + 1 else k) = behindLazy (rest.drop k) := by
  unfold behindLazy
  split
  · rw [List.drop_drop]
  · rfl

theorem begins_between (greedy : Bool) {low : Nat} (positive : 0 < low) (high : Option Nat)
    (begins : x.Begins head) : (Regex.between greedy x low high).Begins head := by
  cases high with
  | none => exact begins.atLeast greedy positive
  | some high => exact (begins.times positive).seq_left _

theorem quantify_behind {k n : Nat} {f : Bool → Regex → Regex} {r' : Reader}
    (h : (Reader.behind (x :: items)).quantify k rest f = some (n, r')) :
    ∃ greedy, n = (if (rest.drop k).head? == some '?' then k + 1 else k) ∧
      r' = Reader.behind (f greedy x :: items) := by
  cases h
  exact ⟨_, rfl, rfl⟩

/-- Whatever becomes of the last item, those in front of it stay. -/
theorem begins_of_vanished (spells : Spells items done)
    (quiet : (Reader.behind (x :: items)).Quiet cs)
    (read : (Reader.behind (x :: items)).readRest cs = some e) : e.Begins (done ++ []) := by
  rw [List.append_nil]
  exact begins_of_founded spells.leads (founded_behind x items) quiet read

/-- Quantifiers upon an item keep to its beginning, unless they allow that it is left out. -/
theorem begins_of_stack (spells : Spells items done) (begins : x.Begins head)
    (quiet : (Reader.behind (x :: items)).Quiet cs)
    (read : (Reader.behind (x :: items)).readRest cs = some e) :
    e.Begins (done ++ if stackVanishes cs then [] else head) := by
  fun_induction stackVanishes cs generalizing x with
  | case1 rest => exact begins_of_vanished spells quiet read
  | case2 rest => exact begins_of_vanished spells quiet read
  | case3 rest ih =>
    obtain ⟨n, r', step, read⟩ := readRest_cons read
    have quiet := Reader.quiet_step step quiet
    obtain ⟨greedy, rfl, rfl⟩ := quantify_behind step
    rw [drop_lazy] at quiet read
    exact ih (begins.plus greedy) quiet read
  | case4 rest body high => exact begins_of_vanished spells quiet read
  | case5 rest body positive =>
    rename_i ih
    obtain ⟨n, r', step, read⟩ := readRest_cons read
    have quiet := Reader.quiet_step step quiet
    have step : (if body.length < rest.length then
        (readBounds body).bind fun bounds =>
          (Reader.behind (x :: items)).quantify (body.length + 1) rest fun greedy a =>
            a.between greedy bounds.1 bounds.2
        else none) = some (n, r') := step
    split at step
    · obtain ⟨⟨low, high⟩, counted, step⟩ := Option.bind_eq_some_iff.1 step
      obtain ⟨greedy, rfl, rfl⟩ := quantify_behind step
      rw [drop_lazy] at quiet read
      refine ih (begins_between greedy (Nat.pos_of_ne_zero ?_) high begins) quiet read
      rintro rfl
      exact positive high counted
    · cases step
  | case6 cs star optional plus braces =>
    refine begins_of_unquantified (spells.leads_cons begins) ?_ quiet read
    rintro c rest rfl found
    simp only [isQuantifier, Bool.or_eq_true, beq_iff_eq] at found
    obtain ((rfl | rfl) | rfl) | rfl := found
    · exact (star rest rfl).elim
    · exact (plus rest rfl).elim
    · exact (optional rest rfl).elim
    · exact (braces rest rfl).elim

/-! ## Plain characters -/

theorem keep_ne_nil {c : Char} {tail : List Char} {later : Bool}
    (h : plainVanishes.loose rest later = true) : plainHead.keep c rest tail ≠ [] := by
  unfold plainVanishes.loose at h
  unfold plainHead.keep
  split at h <;> simp_all

theorem plainHead_ne_nil (h : plainVanishes cs = true) : plainHead cs ≠ [] := by
  unfold plainVanishes at h
  split at h
  · cases h
  · cases h
  · split at h
    · cases h
    · rw [plainHead, if_neg ‹_›]
      exact keep_ne_nil h
  · split at h
    · cases h
    · rw [plainHead, if_neg ‹_›]
      · exact keep_ne_nil h
      all_goals assumption

theorem certainPlain_cons (c : Char) (cs : List Char) :
    (if plainVanishes cs then (c :: plainHead cs).dropLast else c :: plainHead cs) =
      c :: certainPlain cs := by
  unfold certainPlain
  split
  · rw [List.dropLast_cons_of_ne_nil (plainHead_ne_nil ‹_›)]
  · rfl

theorem begins_of_kept (spells : Spells items done)
    (quiet : (Reader.behind (.one (.single c) :: items)).Quiet rest)
    (read : (Reader.behind (.one (.single c) :: items)).readRest rest = some e)
    (later : (∀ d cs, rest = d :: cs → isQuantifier d = true → False) →
      e.Begins (done ++ [c] ++ certainPlain rest)) :
    e.Begins (done ++ if plainVanishes.loose rest (plainVanishes rest) then
      (plainHead.keep c rest (plainHead rest)).dropLast
      else plainHead.keep c rest (plainHead rest)) := by
  unfold plainVanishes.loose
  split
  · exact begins_of_vanished spells quiet read
  · exact begins_of_vanished spells quiet read
  · exact begins_of_vanished spells quiet read
  · simpa [plainHead.keep] using begins_of_stack spells (Regex.begins_single c) quiet read
  · rename_i star optional braces plus
    have kept : plainHead.keep c rest (plainHead rest) = c :: plainHead rest := by
      unfold plainHead.keep
      split <;> first | rfl | simp_all
    rw [kept, certainPlain_cons, ← List.singleton_append, ← List.append_assoc]
    refine later ?_
    rintro d cs rfl found
    simp only [isQuantifier, Bool.or_eq_true, beq_iff_eq] at found
    obtain ((rfl | rfl) | rfl) | rfl := found
    · exact star cs rfl
    · exact plus cs rfl
    · exact optional cs rfl
    · exact braces cs rfl

theorem step_behind_plain (plain : isOperator c = false) (unescaped : c ≠ '\\') :
    (Reader.behind items).step c rest = some (0, .behind (.one (.single c) :: items)) := by
  show (Reader.behind items).stepPlain c rest = _
  unfold Reader.stepPlain
  split <;> first | exact absurd plain (by decide) | skip
  rw [Item.read.eq_def, if_neg (by simpa using unescaped)]
  rfl

theorem step_behind_escape {d : Char} {n : Nat} {r' : Reader} (plain : d.isAlphanum = false)
    (h : (Reader.behind items).step '\\' (d :: rest) = some (n, r')) :
    n = 1 ∧ r' = .behind (.one (.single d) :: items) := by
  obtain ⟨⟨i, k⟩, read, h⟩ := Option.map_eq_some_iff.1 h
  have named : hexLength? d = none := by
    unfold hexLength?
    split <;> first | exact absurd plain (by decide) | rfl
  simp only [Item.read, beq_self_eq_true, if_true, named] at read
  obtain ⟨i, escaped, pair⟩ := Option.map_eq_some_iff.1 read
  cases pair
  cases h
  unfold escapeItem at escaped
  split at escaped <;> first | exact absurd plain (by decide) | skip
  split at escaped
  · cases escaped
    exact ⟨rfl, rfl⟩
  · cases escaped

theorem begins_of_stopped (spells : Spells items done)
    (first : ∀ c rest, cs = c :: rest → isQuantifier c = true → items = [])
    (quiet : (Reader.behind items).Quiet cs) (read : (Reader.behind items).readRest cs = some e)
    (stopped : certainPlain cs = []) : e.Begins (done ++ certainPlain cs) := by
  rw [stopped, List.append_nil]
  exact begins_of_unquantified spells.leads first quiet read

/-- The expression read begins with what stands in front of the reader, and the plain characters that
are left to it. -/
theorem begins_of_plain (spells : Spells items done)
    (first : ∀ c rest, cs = c :: rest → isQuantifier c = true → items = [])
    (quiet : (Reader.behind items).Quiet cs) (read : (Reader.behind items).readRest cs = some e) :
    e.Begins (done ++ certainPlain cs) := by
  fun_induction plainHead cs generalizing items done with
  | case1 => exact begins_of_stopped spells first quiet read rfl
  | case2 => exact begins_of_stopped spells first quiet read rfl
  | case3 d rest named =>
    refine begins_of_stopped spells first quiet read ?_
    rw [certainPlain, plainVanishes, if_pos named, plainHead, if_pos named]
    rfl
  | case4 d rest plain ih =>
    obtain ⟨n, r', step, read⟩ := readRest_cons read
    have quiet := Reader.quiet_step step quiet
    obtain ⟨rfl, rfl⟩ := step_behind_escape (by simpa using plain) step
    rw [certainPlain, plainVanishes, if_neg plain, plainHead, if_neg plain]
    refine begins_of_kept spells quiet read fun unquantified => ?_
    exact ih (spells.single d) (fun c cs h found => (unquantified c cs h found).elim) quiet read
  | case5 c rest single escape operator =>
    refine begins_of_stopped spells first quiet read ?_
    rw [certainPlain, plainVanishes, if_pos operator, plainHead, if_pos operator]
    · rfl
    all_goals assumption
  | case6 c rest single escape plain ih =>
    obtain ⟨n, r', step, read⟩ := readRest_cons read
    have quiet := Reader.quiet_step step quiet
    have unescaped : c ≠ '\\' := by
      rintro rfl
      cases rest with
      | nil => exact single rfl rfl
      | cons d rest => exact escape d rest rfl rfl
    rw [step_behind_plain (by simpa using plain) unescaped] at step
    cases step
    rw [certainPlain, plainVanishes, if_neg plain, plainHead, if_neg plain]
    · refine begins_of_kept spells quiet read fun unquantified => ?_
      exact ih (spells.single c) (fun d cs h found => (unquantified d cs h found).elim) quiet read
    all_goals assumption

end Spelling

/-- All words of an expression begin with its fixed beginning, as far as that may not be left out. -/
theorem begins_certainHead {source : String} {r : Regex} (h : Regex.ofText? source = some r) :
    r.Begins (certainHead source.toList) := by
  cases bars : hasAlternation source.toList with
  | true =>
    rw [certainHead_of_alternation bars]
    exact Regex.begins_nil r
  | false =>
    rw [certainHead_eq_certainPlain bars, ← List.nil_append (certainPlain _)]
    exact begins_of_plain spells_nil (fun _ _ _ _ => rfl) (Reader.quiet_of_outside rfl bars) h

end Rowlang.Pattern
