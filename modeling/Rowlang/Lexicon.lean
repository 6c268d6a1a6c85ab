import Rowlang.Pattern.Head
import Rowlang.Pattern.Reading

/-!
# Lexicons

The leaf patterns of a grammar. A pattern is a fixed text or a regular expression, and its number is
its place in the lexicon.

* `Lexicon.ofPatterns?` : the lexicon of a list of patterns, unless an expression is malformed;
* `Lexicon.candidates` : the patterns worth trying before a given character;
* `Lexicon.longestMatch` : the pattern that takes the most characters; of several, the one with the
  longest fixed beginning, and of those the first.
-/

namespace Rowlang
open Rowlang.Text Rowlang.Pattern

/-- What a leaf pattern is written as. -/
inductive LeafPattern where
  /-- matched character by character, and named by its text -/
  | literal (text : String)
  /-- a regular expression under a name -/
  | regex (name source : String)
deriving DecidableEq, Repr

namespace LeafPattern

def name : LeafPattern → String
  | .literal text => text
  | .regex name _ => name

def source : LeafPattern → String
  | .literal text => text
  | .regex _ source => source

def isLiteral : LeafPattern → Bool
  | .literal _ => true
  | .regex _ _ => false

end LeafPattern

/-- A pattern ready to be matched: its definition, the text its matches begin with, and what remains
of a text behind a match. -/
structure Matcher where
  pattern : LeafPattern
  head : List Char
  /-- the expression of a pattern that is not a fixed text -/
  regex : Option Regex

namespace Matcher

/-- Prepares a pattern, unless its expression is malformed. -/
def ofPattern? (p : LeafPattern) : Option Matcher :=
  match p with
  | .literal text => some ⟨p, text.toList, none⟩
  | .regex _ source => (Regex.ofText? source).map fun r => ⟨p, fixedHead source.toList, some r⟩

/-- The number of characters that the pattern takes at the beginning of `cs`. -/
def matchLength (m : Matcher) (cs : List Char) : Option Nat :=
  match m.regex with
  | none => if m.head.isPrefixOf cs then some m.head.length else none
  | some r => (r.matchRest cs).map fun rest => cs.length - rest.length

/-- Whether a match may begin with `c`, as far as the fixed beginning tells. Beginnings outside ASCII
are not looked at. -/
def mayStartWith (m : Matcher) (c : Char) : Bool :=
  match m.head with
  | [] => true
  | h :: _ => 128 ≤ h.toNat || h == c

end Matcher

/-- The leaf patterns of one grammar. -/
structure Lexicon where
  matchers : List Matcher

namespace Lexicon

/-- The lexicon of a list of patterns, unless an expression is malformed. -/
def ofPatterns? (patterns : List LeafPattern) : Option Lexicon :=
  (patterns.mapM Matcher.ofPattern?).map Lexicon.mk

def size (lexicon : Lexicon) : Nat := lexicon.matchers.length

def patterns (lexicon : Lexicon) : List LeafPattern := lexicon.matchers.map (·.pattern)

/-- A pattern that matches, by its number, with the number of characters it takes. -/
structure Match where
  id : Nat
  matcher : Matcher
  length : Nat

/-- Whether `a` is preferred to `b`: it takes more characters, or its fixed beginning is longer, or
it comes first. -/
def Match.beats (a b : Match) : Bool :=
  a.length > b.length || (a.length == b.length &&
    (a.matcher.head.length > b.matcher.head.length ||
      (a.matcher.head.length == b.matcher.head.length && a.id < b.id)))

/-- The preferred one of two matches, if there is one. -/
def Match.better (best : Option Match) (m : Match) : Option Match :=
  match best with
  | none => some m
  | some b => if m.beats b then some m else some b

/-- A match of one pattern at the beginning of `cs`. Taking nothing is no match. -/
def matchAt (cs : List Char) (m : Matcher × Nat) : Option Match :=
  match m.1.matchLength cs with
  | some (n + 1) => some ⟨m.2, m.1, n + 1⟩
  | _ => none

/-- The preferred match of the numbered patterns at the beginning of `cs`. -/
def bestOf (numbered : List (Matcher × Nat)) (cs : List Char) : Option Match :=
  (numbered.filterMap (matchAt cs)).foldl Match.better none

/-- The patterns, with their numbers, that may match before `c`. -/
def candidates (lexicon : Lexicon) (c : Char) : List (Matcher × Nat) :=
  lexicon.matchers.zipIdx.filter fun m => m.1.mayStartWith c

/-- The preferred match at the beginning of a text. -/
def longestMatch (lexicon : Lexicon) (cs : List Char) : Option Match :=
  match cs with
  | [] => none
  | c :: _ => bestOf (lexicon.candidates c) cs

/-! ## Matches are not empty -/

theorem length_pos_of_matchAt {cs : List Char} {m : Matcher × Nat} {r : Match}
    (h : matchAt cs m = some r) : 0 < r.length := by
  unfold matchAt at h
  split at h <;> simp at h
  subst h; simp

theorem foldl_better_mem {ms : List Match} {best : Option Match} {r : Match}
    (h : ms.foldl Match.better best = some r) : best = some r ∨ r ∈ ms := by
  induction ms generalizing best with
  | nil => exact .inl h
  | cons m ms ih =>
    rcases ih h with hb | hm
    · unfold Match.better at hb
      split at hb
      · simp_all
      · split at hb <;> simp_all
    · exact .inr (List.mem_cons_of_mem _ hm)

theorem length_pos_of_bestOf {numbered : List (Matcher × Nat)} {cs : List Char} {r : Match}
    (h : bestOf numbered cs = some r) : 0 < r.length := by
  rcases foldl_better_mem h with h | h
  · simp at h
  · obtain ⟨m, _, hm⟩ := List.mem_filterMap.1 h
    exact length_pos_of_matchAt hm

theorem length_pos_of_longestMatch {lexicon : Lexicon} {cs : List Char} {r : Match}
    (h : lexicon.longestMatch cs = some r) : 0 < r.length := by
  unfold longestMatch at h
  split at h
  · simp at h
  · exact length_pos_of_bestOf h

end Lexicon

end Rowlang
