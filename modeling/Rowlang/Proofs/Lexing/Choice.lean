import Rowlang.Lexicon
import Rowlang.Proofs.Pattern.Head

/-!
# The choice between patterns

* `Lexicon.Offers` : a pattern of the lexicon takes some characters of a text;
* `Match.IsBest` : the best of several matches, by length, fixed beginning and number;
* `Matcher.Overlooked` : a pattern that is not tried, since the one character of its fixed beginning may
  be left out after all;
* `Lexicon.longestMatch_isBest` : the match chosen is the best of those that are not overlooked, and so
  the best of all unless that one is overlooked.
-/

namespace Rowlang
open Rowlang.Text Rowlang.Pattern

/-! ## Fixed beginnings -/

namespace LeafPattern

/-- Whether the last character of the fixed beginning may be left out. -/
def loose : LeafPattern → Bool
  | .literal _ => false
  | .regex _ source => headVanishes source.toList

/-- The texts that a pattern matches. -/
def Spells : LeafPattern → List Char → Prop
  | .literal text, cs => cs = text.toList
  | .regex _ source, cs => ∃ r, Regex.ofText? source = some r ∧ r.Denotes cs

end LeafPattern

namespace Matcher

variable {m : Matcher} {p : LeafPattern} {cs : List Char} {n : Nat}

/-- The part of the fixed beginning that may not be left out. -/
def certain (m : Matcher) : List Char := if m.pattern.loose then m.head.dropLast else m.head

theorem pattern_eq (h : ofPattern? p = some m) : m.pattern = p := by
  unfold ofPattern? at h
  cases p with
  | literal text =>
    cases h
    rfl
  | regex name source =>
    obtain ⟨r, -, h⟩ := Option.map_eq_some_iff.1 h
    cases h
    rfl

theorem spells (h : ofPattern? p = some m) (taken : m.matchLength cs = some n) :
    n ≤ cs.length ∧ p.Spells (cs.take n) := by
  unfold ofPattern? at h
  cases p with
  | literal text =>
    cases h
    simp only [matchLength] at taken
    split at taken
    · rename_i found
      cases taken
      have found := List.isPrefixOf_iff_prefix.1 found
      exact ⟨found.length_le, (List.prefix_iff_eq_take.1 found).symm⟩
    · cases taken
  | regex name source =>
    obtain ⟨r, read, h⟩ := Option.map_eq_some_iff.1 h
    cases h
    obtain ⟨rest, matched, rfl⟩ := Option.map_eq_some_iff.1 taken
    obtain ⟨u, rfl, word⟩ := Regex.matchRest_denotes matched
    have same : (u ++ rest).take ((u ++ rest).length - rest.length) = u := by simp
    exact ⟨Nat.sub_le _ _, r, read, by rwa [same]⟩

/-- A match takes at most the whole text, and the certain beginning of the pattern comes first. -/
theorem certain_prefix (h : ofPattern? p = some m) (taken : m.matchLength cs = some n) :
    n ≤ cs.length ∧ m.certain <+: cs.take n := by
  obtain ⟨le, spells⟩ := spells h taken
  refine ⟨le, ?_⟩
  unfold ofPattern? at h
  cases p with
  | literal text =>
    cases h
    exact spells ▸ List.prefix_rfl
  | regex name source =>
    obtain ⟨r, read, h⟩ := Option.map_eq_some_iff.1 h
    cases h
    obtain ⟨r', read', word⟩ := spells
    cases read.symm.trans read'
    exact begins_certainHead read _ word

/-- Not tried before the first character of the text: the fixed beginning is one other character, but
may be left out. -/
def Overlooked (m : Matcher) (cs : List Char) : Prop :=
  m.pattern.loose = true ∧ ∃ first c rest, m.head = [first] ∧ first.toNat < 128 ∧
    cs = c :: rest ∧ c ≠ first

theorem mayStartWith_of_overlooked {c : Char} {rest : List Char} (h : m.Overlooked (c :: rest)) :
    m.mayStartWith c = false := by
  obtain ⟨-, first, d, rest, head, ascii, same, other⟩ := h
  cases same
  simp only [mayStartWith, head, Bool.or_eq_false_iff, decide_eq_false_iff_not, beq_eq_false_iff_ne]
  exact ⟨by omega, other.symm⟩

/-- What is not tried cannot match, or is overlooked. -/
theorem overlooked_of_not_mayStartWith {c : Char} {rest : List Char} (h : ofPattern? p = some m)
    (taken : m.matchLength (c :: rest) = some n) (skipped : m.mayStartWith c = false) :
    m.Overlooked (c :: rest) := by
  obtain ⟨-, begins⟩ := certain_prefix h taken
  cases head : m.head with
  | nil => simp [mayStartWith, head] at skipped
  | cons first later =>
    simp only [mayStartWith, head, Bool.or_eq_false_iff, decide_eq_false_iff_not,
      beq_eq_false_iff_ne] at skipped
    have differs {later : List Char} (h : first :: later <+: (c :: rest).take n) : False := by
      have := (h.trans (List.take_prefix n _))
      exact skipped.2 (List.cons_prefix_cons.1 this).1
    unfold certain at begins
    split at begins
    · rename_i loose
      cases later with
      | nil => exact ⟨loose, first, c, rest, head, by omega, rfl, fun h => skipped.2 h.symm⟩
      | cons second later =>
        rw [head] at begins
        exact (differs begins).elim
    · rw [head] at begins
      exact (differs begins).elim

end Matcher

/-! ## The best match -/

namespace Lexicon

/-- `a` is at least as good as `b`: it takes more characters, or else its fixed beginning is longer, or
else its number is not greater. -/
def Match.AtLeast (a b : Match) : Prop :=
  b.length < a.length ∨ b.length = a.length ∧
    (b.matcher.head.length < a.matcher.head.length ∨
      b.matcher.head.length = a.matcher.head.length ∧ a.id ≤ b.id)

/-- The best of the matches with a property. -/
def Match.IsBest (among : Match → Prop) (m : Match) : Prop :=
  among m ∧ ∀ m', among m' → m.AtLeast m'

theorem Match.beats_eq_false {a b : Match} : b.beats a = false ↔ a.AtLeast b := by
  simp only [beats, AtLeast, Bool.or_eq_false_iff, Bool.and_eq_false_iff, decide_eq_false_iff_not,
    beq_eq_false_iff_ne, gt_iff_lt]
  omega

theorem Match.atLeast_refl (a : Match) : a.AtLeast a := .inr ⟨rfl, .inr ⟨rfl, Nat.le_refl _⟩⟩

theorem Match.AtLeast.trans {a b c : Match} (h₁ : a.AtLeast b) (h₂ : b.AtLeast c) : a.AtLeast c := by
  unfold AtLeast at h₁ h₂ ⊢
  omega

theorem Match.AtLeast.total (a b : Match) : a.AtLeast b ∨ b.AtLeast a := by
  unfold AtLeast
  omega

theorem Match.AtLeast.antisymm {a b : Match} (h₁ : a.AtLeast b) (h₂ : b.AtLeast a) :
    a.id = b.id ∧ a.length = b.length := by
  unfold AtLeast at h₁ h₂
  omega

theorem foldl_better_best {ms : List Match} {best : Option Match} {r : Match}
    (h : ms.foldl Match.better best = some r) :
    ∀ m, best = some m ∨ m ∈ ms → r.AtLeast m := by
  induction ms generalizing best with
  | nil =>
    rintro m (rfl | hm)
    · cases h; exact Match.atLeast_refl _
    · cases hm
  | cons a ms ih =>
    intro m hm
    have later := ih h
    have beats {b : Match} (hb : Match.better best a = some b) (ha : b.AtLeast a)
        (hbest : ∀ m, best = some m → b.AtLeast m) : r.AtLeast m := by
      have top := later b (.inl hb)
      rcases hm with hm | hm
      · exact top.trans (hbest m hm)
      · rcases List.mem_cons.1 hm with rfl | hm
        · exact top.trans ha
        · exact later m (.inr hm)
    cases best with
    | none => exact beats rfl (Match.atLeast_refl a) (by simp)
    | some b =>
      by_cases wins : a.beats b = true
      · refine beats (b := a) (by simp [Match.better, wins]) (Match.atLeast_refl a) ?_
        rintro _ ⟨rfl⟩
        rcases Match.AtLeast.total a b with h | h
        · exact h
        · rw [Match.beats_eq_false.2 h] at wins
          cases wins
      · refine beats (b := b) (by simp [Match.better, wins])
          (Match.beats_eq_false.1 (by simpa using wins)) ?_
        rintro _ ⟨rfl⟩
        exact Match.atLeast_refl b

theorem foldl_better_none {ms : List Match} {best : Option Match}
    (h : ms.foldl Match.better best = none) : best = none ∧ ms = [] := by
  induction ms generalizing best with
  | nil => exact ⟨h, rfl⟩
  | cons a ms ih =>
    have := (ih h).1
    unfold Match.better at this
    split at this
    · cases this
    · split at this <;> cases this

/-! ## The patterns of a lexicon -/

/-- Some pattern of the lexicon takes characters at the beginning of a text. -/
structure Offers (lexicon : Lexicon) (cs : List Char) (m : Match) : Prop where
  numbered : lexicon.matchers[m.id]? = some m.matcher
  taken : m.matcher.matchLength cs = some m.length
  nonempty : 0 < m.length

variable {lexicon : Lexicon} {cs : List Char} {m : Match} {patterns : List LeafPattern}

theorem matchAt_eq_some {a : Matcher × Nat} : matchAt cs a = some m ↔
    a = (m.matcher, m.id) ∧ m.matcher.matchLength cs = some m.length ∧ 0 < m.length := by
  obtain ⟨matcher, id⟩ := a
  unfold matchAt
  constructor
  · intro h
    split at h
    · cases h; exact ⟨rfl, ‹_›, Nat.succ_pos _⟩
    · cases h
  · rintro ⟨same, taken, nonempty⟩
    cases same
    obtain ⟨n, more⟩ := Nat.exists_eq_succ_of_ne_zero (Nat.ne_of_gt nonempty)
    cases m
    cases more
    rw [taken]

theorem mem_offers : m ∈ lexicon.matchers.zipIdx.filterMap (matchAt cs) ↔ lexicon.Offers cs m := by
  simp only [List.mem_filterMap, matchAt_eq_some]
  constructor
  · rintro ⟨-, listed, rfl, taken, nonempty⟩
    exact ⟨List.mk_mem_zipIdx_iff_getElem?.1 listed, taken, nonempty⟩
  · rintro ⟨numbered, taken, nonempty⟩
    exact ⟨_, List.mk_mem_zipIdx_iff_getElem?.2 numbered, rfl, taken, nonempty⟩

theorem mem_matches {c : Char} : m ∈ (lexicon.candidates c).filterMap (matchAt cs) ↔
    lexicon.Offers cs m ∧ m.matcher.mayStartWith c = true := by
  simp only [candidates, List.mem_filterMap, List.mem_filter, matchAt_eq_some]
  constructor
  · rintro ⟨-, ⟨listed, tried⟩, rfl, taken, nonempty⟩
    exact ⟨⟨List.mk_mem_zipIdx_iff_getElem?.1 listed, taken, nonempty⟩, tried⟩
  · rintro ⟨⟨numbered, taken, nonempty⟩, tried⟩
    exact ⟨_, ⟨List.mk_mem_zipIdx_iff_getElem?.2 numbered, tried⟩, rfl, taken, nonempty⟩

theorem Offers.ext {m' : Match} (h : lexicon.Offers cs m) (h' : lexicon.Offers cs m')
    (same : m.id = m'.id ∧ m.length = m'.length) : m = m' := by
  have matcher : m.matcher = m'.matcher := by
    have := h.numbered
    rw [same.1, h'.numbered] at this
    exact (Option.some.inj this).symm
  cases m; cases m'
  obtain ⟨rfl, rfl⟩ := same
  cases matcher; rfl

theorem bestOf_isBest {numbered : List (Matcher × Nat)} (h : bestOf numbered cs = some m) :
    m.IsBest (· ∈ numbered.filterMap (matchAt cs)) := by
  refine ⟨?_, fun m' listed => foldl_better_best h m' (.inr listed)⟩
  rcases foldl_better_mem h with none | listed
  · cases none
  · exact listed

theorem exists_best (offered : lexicon.Offers cs m) : ∃ m : Match, m.IsBest (lexicon.Offers cs) := by
  cases chosen : bestOf lexicon.matchers.zipIdx cs with
  | none =>
    have listed := mem_offers.2 offered
    rw [(foldl_better_none chosen).2] at listed
    cases listed
  | some m =>
    obtain ⟨listed, best⟩ := bestOf_isBest chosen
    exact ⟨m, mem_offers.1 listed, fun m' offered => best m' (mem_offers.2 offered)⟩

theorem longestMatch_eq_none {c : Char} {rest : List Char}
    (h : lexicon.longestMatch (c :: rest) = none) (offered : lexicon.Offers (c :: rest) m) :
    m.matcher.mayStartWith c = false := by
  refine Bool.eq_false_iff.2 fun tried => ?_
  have listed := mem_matches.2 ⟨offered, tried⟩
  rw [(foldl_better_none h).2] at listed
  cases listed

/-- The match chosen is the best of the patterns that are tried. -/
theorem longestMatch_eq_some {c : Char} {rest : List Char} :
    lexicon.longestMatch (c :: rest) = some m ↔
      m.IsBest fun m => lexicon.Offers (c :: rest) m ∧ m.matcher.mayStartWith c = true := by
  have sound {m : Match} (h : lexicon.longestMatch (c :: rest) = some m) :
      m.IsBest fun m => lexicon.Offers (c :: rest) m ∧ m.matcher.mayStartWith c = true := by
    obtain ⟨listed, best⟩ := bestOf_isBest h
    exact ⟨mem_matches.1 listed, fun m' tried => best m' (mem_matches.2 tried)⟩
  refine ⟨sound, fun ⟨tried, best⟩ => ?_⟩
  cases chosen : lexicon.longestMatch (c :: rest) with
  | none =>
    exact absurd tried.2 (Bool.eq_false_iff.1 (longestMatch_eq_none chosen tried.1))
  | some m' =>
    obtain ⟨tried', best'⟩ := sound chosen
    rw [tried'.1.ext tried.1 ((best' m tried).antisymm (best m' tried'))]

/-! ## What is overlooked -/

theorem ofPattern?_of_numbered (h : ofPatterns? patterns = some lexicon) {id : Nat}
    {matcher : Matcher} (numbered : lexicon.matchers[id]? = some matcher) :
    ∃ p, Matcher.ofPattern? p = some matcher := by
  obtain ⟨matchers, made, rfl⟩ := Option.map_eq_some_iff.1 h
  dsimp only at numbered
  clear h
  induction patterns generalizing id matchers with
  | nil =>
    cases made
    cases numbered
  | cons p patterns ih =>
    rw [List.mapM_cons] at made
    obtain ⟨first, prepared, made⟩ := Option.bind_eq_some_iff.1 made
    obtain ⟨later, made', together⟩ := Option.bind_eq_some_iff.1 made
    cases together
    cases id with
    | zero =>
      cases numbered
      exact ⟨p, prepared⟩
    | succ id => exact ih later made' numbered

theorem mayStartWith_iff (h : ofPatterns? patterns = some lexicon) {c : Char} {rest : List Char}
    (offered : lexicon.Offers (c :: rest) m) :
    m.matcher.mayStartWith c = true ↔ ¬ m.matcher.Overlooked (c :: rest) := by
  obtain ⟨p, prepared⟩ := ofPattern?_of_numbered h offered.numbered
  constructor
  · intro tried overlooked
    rw [Matcher.mayStartWith_of_overlooked overlooked] at tried
    cases tried
  · intro seen
    cases tried : m.matcher.mayStartWith c with
    | true => rfl
    | false =>
      exact (seen (Matcher.overlooked_of_not_mayStartWith prepared offered.taken tried)).elim

theorem not_offers_nil (h : ofPatterns? patterns = some lexicon) : ¬ lexicon.Offers [] m := by
  intro offered
  obtain ⟨p, prepared⟩ := ofPattern?_of_numbered h offered.numbered
  have := (Matcher.certain_prefix prepared offered.taken).1
  have := offered.nonempty
  simp_all

/-- The match chosen is the best of those that are not overlooked. -/
theorem longestMatch_eq_some_iff (h : ofPatterns? patterns = some lexicon) :
    lexicon.longestMatch cs = some m ↔
      m.IsBest fun m => lexicon.Offers cs m ∧ ¬ m.matcher.Overlooked cs := by
  cases cs with
  | nil =>
    constructor
    · intro chosen; cases chosen
    · rintro ⟨⟨offered, -⟩, -⟩
      exact (not_offers_nil h offered).elim
  | cons c rest =>
    rw [longestMatch_eq_some]
    have same (m : Match) : lexicon.Offers (c :: rest) m ∧ m.matcher.mayStartWith c = true ↔
        lexicon.Offers (c :: rest) m ∧ ¬ m.matcher.Overlooked (c :: rest) :=
      and_congr_right fun offered => mayStartWith_iff h offered
    simp only [Match.IsBest, same]

/-- Nothing is chosen where all patterns that take characters are overlooked. -/
theorem longestMatch_eq_none_iff (h : ofPatterns? patterns = some lexicon) :
    lexicon.longestMatch cs = none ↔ ∀ m, lexicon.Offers cs m → m.matcher.Overlooked cs := by
  constructor
  · intro none m offered
    cases cs with
    | nil => exact (not_offers_nil h offered).elim
    | cons c rest =>
      obtain ⟨p, prepared⟩ := ofPattern?_of_numbered h offered.numbered
      exact Matcher.overlooked_of_not_mayStartWith prepared offered.taken
        (longestMatch_eq_none none offered)
  · intro overlooked
    cases chosen : lexicon.longestMatch cs with
    | none => rfl
    | some m =>
      obtain ⟨⟨offered, seen⟩, -⟩ := (longestMatch_eq_some_iff h).1 chosen
      exact (seen (overlooked m offered)).elim

/-- **The index of first characters.** The match chosen is the best of all that the patterns offer,
those that are overlooked left out. So it is the best of all unless that one is overlooked, and every
match begins with the fixed beginning of its pattern, but for a last character that may be left out. -/
theorem longestMatch_isBest (h : ofPatterns? patterns = some lexicon) (cs : List Char) :
    (∀ m, lexicon.longestMatch cs = some m ↔
      m.IsBest fun m => lexicon.Offers cs m ∧ ¬ m.matcher.Overlooked cs) ∧
    ((∀ m, lexicon.longestMatch cs = some m ↔ m.IsBest (lexicon.Offers cs)) ↔
      ¬ ∃ m : Match, m.IsBest (lexicon.Offers cs) ∧ m.matcher.Overlooked cs) ∧
    ∀ matcher ∈ lexicon.matchers, ∀ n, matcher.matchLength cs = some n →
      matcher.certain <+: cs.take n ∧
        (matcher.pattern.loose = false → matcher.head <+: cs.take n) := by
  refine ⟨fun m => longestMatch_eq_some_iff h, ⟨?_, ?_⟩, ?_⟩
  · rintro same ⟨m, best, overlooked⟩
    exact ((longestMatch_eq_some_iff h).1 ((same m).2 best)).1.2 overlooked
  · intro seen m
    rw [longestMatch_eq_some_iff h]
    constructor
    · rintro ⟨⟨offered, -⟩, best⟩
      obtain ⟨top, offered', best'⟩ := exists_best offered
      have beats := best top ⟨offered', fun overlooked => seen ⟨top, ⟨offered', best'⟩, overlooked⟩⟩
      exact ⟨offered, fun m' offered => beats.trans (best' m' offered)⟩
    · rintro ⟨offered, best⟩
      exact ⟨⟨offered, fun overlooked => seen ⟨m, ⟨offered, best⟩, overlooked⟩⟩,
        fun m' offered => best m' offered.1⟩
  · intro matcher listed n taken
    obtain ⟨id, numbered⟩ := List.mem_iff_getElem?.1 listed
    obtain ⟨p, prepared⟩ := ofPattern?_of_numbered h numbered
    have begins := (Matcher.certain_prefix prepared taken).2
    refine ⟨begins, fun kept => ?_⟩
    rwa [Matcher.certain, kept, if_neg Bool.false_ne_true] at begins

/-- The expression `a+*b` matches the text `b`, which does not begin with `a`: nothing is chosen, and
the match is overlooked. -/
theorem longestMatch_piled : ∃ lexicon : Lexicon,
    ofPatterns? [.regex "P" "a+*b"] = some lexicon ∧
    (lexicon.longestMatch ['b']).isNone ∧
    (∃ m, lexicon.Offers ['b'] m) ∧
    ((∀ m, lexicon.longestMatch ['b'] = some m ↔ m.IsBest (lexicon.Offers ['b'])) ↔
      ¬ ∃ m : Match, m.IsBest (lexicon.Offers ['b']) ∧ m.matcher.Overlooked ['b']) := by
  have run : (ofPatterns? [.regex "P" "a+*b"]).map (fun lexicon =>
      ((lexicon.longestMatch ['b']).isNone, lexicon.matchers[0]?.map (·.matchLength ['b']))) =
      some (true, some (some 1)) := by decide +kernel
  obtain ⟨lexicon, h, run⟩ := Option.map_eq_some_iff.1 run
  obtain ⟨none, run⟩ := Prod.mk.inj run
  obtain ⟨matcher, numbered, taken⟩ := Option.map_eq_some_iff.1 run
  exact ⟨lexicon, h, none, ⟨⟨0, matcher, 1⟩, numbered, taken, Nat.one_pos⟩,
    (longestMatch_isBest h ['b']).2.1⟩

end Lexicon

end Rowlang
