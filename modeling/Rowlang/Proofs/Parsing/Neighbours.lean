import Mathlib.Data.List.Chain
import Rowlang.Proofs.Parsing.Predictive

/-!
# Tokens that never stand side by side

* `Parting` : leaf patterns that are to be kept apart, with what is known of how the words of rules end;
* `Body.endsIn`, `Body.parts` : whether the words of a body may end with such a pattern, and whether the body
  keeps the patterns apart wherever it puts two words together;
* `Body.Derives.parted` : in a word of definitions that keep them apart, they are.
-/

namespace Rowlang

/-- Leaf patterns that are kept apart, so that none of `behind` comes right behind one of `front`. -/
structure Parting where
  front : List LeafPattern
  behind : List LeafPattern
  /-- the rules whose words may end with one of `front` -/
  last : String → Bool

namespace Body

/-- Whether a word of a body may end with one of the patterns in front. -/
def endsIn (p : Parting) : Body → Bool
  | .literal text => p.front.contains (.literal text)
  | .name n =>
    match lexicalPatterns.lookup n with
    | some source => p.front.contains (.regex n source)
    | none => p.last n
  | .seq x y => y.endsIn p || y.nullable && x.endsIn p
  | .alt x y => x.endsIn p || y.endsIn p
  | .opt x => x.endsIn p
  | .star x => x.endsIn p
  | .plus x => x.endsIn p
  | .ahead _ => false
  | .guarded x => x.endsIn p

/-- Whether words of `x` may stand in front of words of `y`. -/
def joins (t : Tables) (p : Parting) (x y : Body) : Bool := !x.endsIn p || disjoint p.behind (y.first t)

/-- Whether a body keeps the patterns apart wherever it puts two words together. -/
def parts (t : Tables) (p : Parting) : Body → Bool
  | .literal _ => true
  | .name _ => true
  | .seq x y => x.parts t p && y.parts t p && joins t p x y
  | .alt x y => x.parts t p && y.parts t p
  | .opt x => x.parts t p
  | .star x => x.parts t p && joins t p x x
  | .plus x => x.parts t p && joins t p x x
  | .ahead _ => true
  | .guarded x => x.parts t p

end Body

/-- Every rule keeps the patterns apart, and its words end as is known. -/
def Parting.Lawful (p : Parting) (t : Tables) (rules : List Definition) : Prop :=
  ∀ d ∈ rules, d.body.parts t p = true ∧ (d.body.endsIn p = true → p.last d.name = true)

instance (p : Parting) (t : Tables) (rules : List Definition) : Decidable (p.Lawful t rules) :=
  inferInstanceAs (Decidable
    (∀ d ∈ rules, d.body.parts t p = true ∧ (d.body.endsIn p = true → p.last d.name = true)))

section Words
variable {g : Grammar} {rules : List Definition} {t : Tables} {p : Parting} {x y b : Body}
  {ends ends' : Bool} {v w : List Token}

/-- None of the tokens behind comes right behind one in front. -/
def Grammar.KeepsApart (g : Grammar) (p : Parting) (w : List Token) : Prop :=
  w.IsChain fun t t' => g.IsOf p.front t → ¬ g.IsOf p.behind t'

/-- The patterns are kept apart in a word, which ends with one of those in front only if `ends` says so. -/
structure Grammar.Parted (g : Grammar) (p : Parting) (ends : Bool) (w : List Token) : Prop where
  apart : g.KeepsApart p w
  last : ∀ t ∈ w.getLast?, g.IsOf p.front t → ends = true

theorem avoids_flatten {as : List LeafPattern} {ws : List (List Token)} (each : ∀ w ∈ ws, g.Avoids as w) :
    g.Avoids as ws.flatten := by
  induction ws with
  | nil => rintro t ⟨⟩
  | cons w ws ih =>
    obtain ⟨first, later⟩ := List.forall_mem_cons.1 each
    intro t head
    rw [List.flatten_cons, List.head?_append] at head
    rcases Option.or_eq_some_iff.1 head with head | ⟨-, head⟩
    · exact first t head
    · exact ih later t head

namespace Grammar.Parted

theorem nil : g.Parted p ends [] := ⟨.nil, by simp⟩

theorem single {token : Token} (h : g.IsOf p.front token → ends = true) : g.Parted p ends [token] :=
  ⟨.singleton _, by simpa using h⟩

theorem mono (h : g.Parted p ends w) (more : ends = true → ends' = true) : g.Parted p ends' w :=
  ⟨h.apart, fun t ht is => more (h.last t ht is)⟩

/-- Words that are put together keep the patterns apart, if the second word begins with none of those behind
where the first may end with one of those in front. -/
theorem append (h : g.Parted p ends w) (h' : g.Parted p ends' v)
    (joined : ends = true → g.Avoids p.behind v) (empty : v = [] → ends = true → ends' = true) :
    g.Parted p ends' (w ++ v) where
  apart := List.isChain_append.2
    ⟨h.apart, h'.apart, fun t ht t' ht' is => joined (h.last t ht is) t' ht'⟩
  last t ht is := by
    rw [List.getLast?_append] at ht
    rcases Option.or_eq_some_iff.1 ht with last | ⟨none, last⟩
    · exact h'.last t last is
    · exact empty (List.getLast?_eq_none_iff.1 none) (h.last t last is)

theorem flatten {ws : List (List Token)} (each : ∀ w ∈ ws, g.Parted p ends w)
    (joined : ends = true → ∀ w ∈ ws, g.Avoids p.behind w) : g.Parted p ends ws.flatten := by
  induction ws with
  | nil => exact nil
  | cons w ws ih =>
    obtain ⟨first, later⟩ := List.forall_mem_cons.1 each
    have parted := ih later fun ending v hv => joined ending v (List.mem_cons_of_mem _ hv)
    exact first.append parted
      (fun ending => avoids_flatten fun v hv => joined ending v (List.mem_cons_of_mem _ hv)) fun _ => id

end Grammar.Parted

/-! ## Words of definitions -/

/-- Where words of `x` may stand in front of words of `y`, no word of `y` begins with a pattern behind, if a
word of `x` may end with one in front. -/
theorem Body.Derives.avoids_of_joins (lawful : t.Lawful rules) (word : y.Derives rules g.Is w)
    (joins : Body.joins t p x y = true) (ending : x.endsIn p = true) : g.Avoids p.behind w := by
  rcases word.begins lawful with ⟨rfl, -⟩ | begins
  · rintro t ⟨⟩
  · simp only [Body.joins, ending, Bool.not_true, Bool.false_or] at joins
    exact begins.avoids joins

/-- **The words of a body that keeps the patterns apart** have them apart, and end as the body tells. -/
theorem Body.Derives.parted (lawful : t.Lawful rules) (apart : p.Lawful t rules)
    (word : b.Derives rules g.Is w) (parts : b.parts t p = true) : g.Parted p (b.endsIn p) w := by
  have listed {leaf : LeafPattern} {leaves : List LeafPattern} {token : Token} (is : g.Is leaf token)
      (h : g.IsOf leaves token) : leaves.contains leaf = true := by
    obtain ⟨leaf', listed, is'⟩ := h
    cases is.unique is'
    exact List.contains_iff_mem.2 listed
  induction word with
  | literal is => exact .single fun h => listed is h
  | lexical known is => exact .single fun h => by simpa [Body.endsIn, known] using listed is h
  | @rule d w other defined inner ih =>
    obtain ⟨parts, last⟩ := apart d defined
    refine (ih parts).mono fun ending => ?_
    simpa [Body.endsIn, other] using last ending
  | @seq x y u v _ second ihx ihy =>
    simp only [Body.parts, Bool.and_eq_true] at parts
    obtain ⟨⟨partsX, partsY⟩, joins⟩ := parts
    refine (ihx partsX).append ((ihy partsY).mono fun ending => ?_) (second.avoids_of_joins lawful joins)
      fun empty ending => ?_
    · simp [Body.endsIn, ending]
    · rcases second.begins lawful with ⟨-, nullable⟩ | begins
      · simp [Body.endsIn, nullable, ending]
      · exact absurd empty begins.ne_nil
  | altLeft _ ih =>
    simp only [Body.parts, Bool.and_eq_true] at parts
    exact (ih parts.1).mono fun ending => by simp [Body.endsIn, ending]
  | altRight _ ih =>
    simp only [Body.parts, Bool.and_eq_true] at parts
    exact (ih parts.2).mono fun ending => by simp [Body.endsIn, ending]
  | optNone | ahead => exact .nil
  | optSome _ ih | guarded _ ih => exact ih parts
  | star each ih | plus _ each ih =>
    simp only [Body.parts, Bool.and_eq_true] at parts
    exact .flatten (fun w hw => ih w hw parts.1)
      fun ending w hw => (each w hw).avoids_of_joins lawful parts.2 ending

end Words

end Rowlang
