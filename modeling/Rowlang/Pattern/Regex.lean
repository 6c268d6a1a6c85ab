import Rowlang.Text.Blank
import Rowlang.Text.Word

/-!
# Regular expressions

The expressions that leaf patterns are written in, and how they match at the beginning of a text.
Of two alternatives the first that leads to a match is taken, and a repetition prefers more rounds,
or fewer where it is lazy: the match is the first in this order of preference, not the longest.

* `CharSet.has` : membership in a character class;
* `Regex.run r s k` : the first way, in order of preference, in which `r` consumes a beginning of
  `s` such that `k` accepts what is left;
* `Regex.matchRest` : what the preferred match leaves of a text.

A round of a repetition that consumes nothing ends it: the first round may be empty, a later one
counts only if it consumes something.
-/

namespace Rowlang.Pattern
open Rowlang.Text

/-- A set of characters. -/
inductive CharSet where
  | range (first last : Char)
  | digit
  | word
  | blank
  | none
  | union (a b : CharSet)
  | inter (a b : CharSet)
  | compl (a : CharSet)
deriving DecidableEq, Repr

namespace CharSet

def has : CharSet → Char → Bool
  | .range first last, c => first ≤ c && c ≤ last
  | .digit, c => isDecimal c
  | .word, c => isWord c
  | .blank, c => isBlank c
  | .none, _ => false
  | .union a b, c => a.has c || b.has c
  | .inter a b, c => a.has c && b.has c
  | .compl a, c => !a.has c

def single (c : Char) : CharSet := .range c c

def notNewline : CharSet := .compl (single '\n')

def diff (a b : CharSet) : CharSet := .inter a (.compl b)

def symmDiff (a b : CharSet) : CharSet := .union (a.diff b) (b.diff a)

@[simp] theorem has_single (a c : Char) : (single a).has c = true ↔ c = a := by
  simp only [single, has, Bool.and_eq_true, decide_eq_true_eq]
  constructor
  · rintro ⟨h₁, h₂⟩; exact Char.le_antisymm h₂ h₁
  · rintro rfl; exact ⟨Char.le_refl _, Char.le_refl _⟩

end CharSet

/-- A regular expression. -/
inductive Regex where
  /-- matches nothing but the empty text -/
  | empty
  /-- one character of a set -/
  | one (set : CharSet)
  | seq (a b : Regex)
  /-- `a`, or else `b` -/
  | alt (a b : Regex)
  /-- `a` or nothing, by preference as `greedy` says -/
  | opt (greedy : Bool) (a : Regex)
  /-- one round of `a` or more, as many as possible if `greedy` -/
  | plus (greedy : Bool) (a : Regex)
deriving DecidableEq, Repr

namespace Regex

def star (greedy : Bool) (a : Regex) : Regex := .opt greedy (.plus greedy a)

def times (a : Regex) : Nat → Regex
  | 0 => .empty
  | n + 1 => .seq a (a.times n)

/-- `a` at most `n` times, each round after the first within the one before. -/
def upTo (greedy : Bool) (a : Regex) : Nat → Regex
  | 0 => .empty
  | n + 1 => .opt greedy (.seq a (a.upTo greedy n))

def atLeast (greedy : Bool) (a : Regex) : Nat → Regex
  | 0 => a.star greedy
  | n + 1 => .seq (a.times n) (.plus greedy a)

/-! ## Matching -/

/-- Further rounds of a repetition whose single round is `round`. The number bounds the characters
left, each round consuming one at least. -/
def again {α : Type} (round : List Char → (List Char → Option α) → Option α) (greedy : Bool)
    (k : List Char → Option α) : Nat → List Char → Option α
  | 0, s => k s
  | n + 1, s =>
    let more (_ : Unit) := round s fun s' =>
      if s'.length < s.length then again round greedy k n s' else none
    if greedy then (more ()).or (k s) else (k s).or (more ())

/-- The first way, in order of preference, to match a beginning of `s` that `k` can go on from. -/
def run {α : Type} : Regex → List Char → (List Char → Option α) → Option α
  | .empty, s, k => k s
  | .one set, s, k =>
    match s with
    | [] => none
    | c :: rest => if set.has c then k rest else none
  | .seq a b, s, k => a.run s fun s' => b.run s' k
  | .alt a b, s, k => (a.run s k).or (b.run s k)
  | .opt greedy a, s, k => if greedy then (a.run s k).or (k s) else (k s).or (a.run s k)
  | .plus greedy a, s, k => a.run s fun s' =>
    if s'.length < s.length then again a.run greedy k s'.length s' else k s'

/-- What the preferred match at the beginning of `s` leaves of it. -/
def matchRest (r : Regex) (s : List Char) : Option (List Char) := r.run s some

end Regex

end Rowlang.Pattern
