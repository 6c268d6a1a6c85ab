import Rowlang.Lexer

/-!
# The tokens that a parse has before it

The tokens of a text are scanned only as far as the parse looks ahead, so a text that cannot be
scanned to its end fails at the moment when the parse reaches the bad place.

* `Stream.peek n` : the token `n` places ahead, if there is one;
* `Stream.advance` : consumes a token;
* `Stream.place?` : where the next token begins, or where the text ends.
-/

namespace Rowlang
open Rowlang.Text

/-- Tokens not consumed yet. -/
structure Stream where
  /-- the tokens still to come, scanned already or not -/
  rest : List Token
  /-- what comes behind them -/
  ending : ScanEnd
  /-- how many of the tokens to come have been scanned already -/
  buffered : Nat
  /-- the most tokens that were ever scanned but not consumed -/
  highWater : Nat

namespace Stream

def ofScan (s : Scan) : Stream := ⟨s.tokens, s.ending, 0, 0⟩

/-- The stream once `n` tokens have been scanned. -/
def noteBuffered (s : Stream) (n : Nat) : Stream :=
  { s with buffered := max s.buffered n, highWater := max s.highWater (max s.buffered n) }

@[simp] theorem rest_noteBuffered (s : Stream) (n : Nat) : (s.noteBuffered n).rest = s.rest := rfl

/-- The token `index` places ahead, or nothing if the text ends before it. -/
def peek (s : Stream) (index : Nat) : Except LexError (Option Token × Stream) :=
  match s.rest[index]? with
  | some t => .ok (some t, s.noteBuffered (index + 1))
  | none =>
    match s.ending with
    | .complete _ => .ok (none, s.noteBuffered s.rest.length)
    | .failed e => .error e

/-- The stream behind its first token. -/
def advance (s : Stream) : Stream :=
  { s with rest := s.rest.tail, buffered := s.buffered - 1 }

/-- Where the next token begins, or where the text ends. -/
def place? (s : Stream) : Except LexError (Location × Stream) :=
  match s.peek 0 with
  | .error e => .error e
  | .ok (some t, s) => .ok (t.start, s)
  | .ok (none, s) => .ok (s.ending.place, s)

theorem rest_of_peek {s s' : Stream} {n : Nat} {t : Option Token} (h : s.peek n = .ok (t, s')) :
    s'.rest = s.rest ∧ t = s.rest[n]? := by
  unfold peek at h
  split at h
  · simp only [Except.ok.injEq, Prod.mk.injEq] at h
    obtain ⟨rfl, rfl⟩ := h
    simp [*]
  · split at h <;> simp only [Except.ok.injEq, Prod.mk.injEq, reduceCtorEq] at h
    obtain ⟨rfl, rfl⟩ := h
    simp [*]

end Stream

end Rowlang
