import Rowlang.Lexicon
import Rowlang.Token

/-!
# Cutting text into tokens

Tokens are taken from the left, each the longest match of the lexicon. Blanks between tokens are
passed over, and so are comments where they are recognised.

* `CommentMode` : whether comments are recognised, and whether tokens carry them;
* `skipTrivia` : passes over blanks and comments;
* `Lexicon.scan` : the tokens of a text and how the scan ended, at the end of the text or with a
  `LexError`.
-/

namespace Rowlang
open Rowlang.Text

/-- How `//` and `/* */` comments are treated. -/
inductive CommentMode where
  /-- comments are not recognised -/
  | off
  /-- comments separate tokens like blanks -/
  | skip
  /-- comments are kept with the token behind them -/
  | attach
deriving DecidableEq, Repr

/-- Why a scan failed. -/
inductive LexError where
  /-- no pattern matches at a character -/
  | unexpectedCharacter (found : Char) (place : Location)
  /-- a `/*` is never closed -/
  | unterminatedComment (place : Location)
deriving DecidableEq, Repr

namespace LexError

def place : LexError → Location
  | .unexpectedCharacter _ p => p
  | .unterminatedComment p => p

def message : LexError → String
  | .unexpectedCharacter found p =>
    "unexpected character " ++ quoteChar found ++ " at line " ++ toString p.line ++ ", column "
      ++ toString p.column
  | .unterminatedComment p =>
    "unterminated comment starting at line " ++ toString p.line ++ ", column " ++ toString p.column

end LexError

/-! ## Positions in a text -/

/-- The text still to be scanned, and where it begins. -/
structure Cursor where
  rest : List Char
  place : Location

namespace Cursor

def ofText (cs : List Char) : Cursor := ⟨cs, .start⟩

/-- The cursor `n` characters further on. -/
def drop (c : Cursor) (n : Nat) : Cursor := ⟨c.rest.drop n, c.place.advance (c.rest.take n)⟩

/-- The cursor behind the blanks that come first. -/
def skipBlanks (c : Cursor) : Cursor := c.drop (c.rest.takeWhile isBlank).length

theorem length_drop_le (c : Cursor) (n : Nat) : (c.drop n).rest.length ≤ c.rest.length := by
  simp [drop]

theorem length_skipBlanks_le (c : Cursor) : c.skipBlanks.rest.length ≤ c.rest.length :=
  length_drop_le _ _

end Cursor

/-! ## Comments -/

/-- The number of characters up to and including the next `*/`. -/
def closeLength : List Char → Option Nat
  | [] => none
  | '*' :: '/' :: _ => some 2
  | _ :: rest => (closeLength rest).map (· + 1)

/-- What the beginning of a text is, as far as comments go. -/
inductive CommentStart where
  | none
  /-- a comment of so many characters -/
  | complete (length : Nat)
  | unterminated
deriving DecidableEq, Repr

/-- The comment that a text begins with. A line comment ends before the end of its line. -/
def commentStart : List Char → CommentStart
  | '/' :: '/' :: rest => .complete (2 + (rest.takeWhile (· != '\n')).length)
  | '/' :: '*' :: rest =>
    match closeLength rest with
    | some n => .complete (2 + n)
    | none => .unterminated
  | _ => .none

theorem commentStart_complete {cs : List Char} {n : Nat} (h : commentStart cs = .complete n) :
    0 < n ∧ 0 < cs.length := by
  unfold commentStart at h
  split at h
  · simp at h; simp; omega
  · split at h <;> simp at h
    simp; omega
  · simp at h

/-- Passes over blanks and, unless comments are off, over comments. Returns the comments that are to
be attached, nearest first, and the cursor behind them. -/
def skipTrivia (mode : CommentMode) (passed : List Comment) (c : Cursor) :
    Except LexError (List Comment × Cursor) :=
  let c' := c.skipBlanks
  if mode = .off then .ok (passed, c')
  else
    match h : commentStart c'.rest with
    | .none => .ok (passed, c')
    | .unterminated => .error (.unterminatedComment c'.place)
    | .complete n =>
      let behind := c'.drop n
      let comment : Comment :=
        ⟨String.ofList (c'.rest.take n), c'.place, behind.place.offset⟩
      have : behind.rest.length < c.rest.length := by
        have h₁ := commentStart_complete h
        have h₂ : c'.rest.length ≤ c.rest.length := c.length_skipBlanks_le
        have h₃ : behind.rest.length = c'.rest.length - n := by simp [behind, Cursor.drop]
        omega
      skipTrivia mode (if mode = .attach then comment :: passed else passed) behind
termination_by c.rest.length

theorem length_skipTrivia_le {mode : CommentMode} {passed cs : List Comment} {c c' : Cursor}
    (h : skipTrivia mode passed c = .ok (cs, c')) : c'.rest.length ≤ c.rest.length := by
  fun_induction skipTrivia mode passed c with
  | case1 passed c b hm =>
    simp only [Except.ok.injEq, Prod.mk.injEq] at h
    rw [← h.2]; exact c.length_skipBlanks_le
  | case2 passed c b hm hc =>
    simp only [Except.ok.injEq, Prod.mk.injEq] at h
    rw [← h.2]; exact c.length_skipBlanks_le
  | case3 => simp at h
  | case4 passed c b hm n hc behind comment _ ih =>
    exact Nat.le_trans (ih h) (Nat.le_trans (Cursor.length_drop_le _ _) c.length_skipBlanks_le)

/-! ## Tokens -/

/-- How a scan ended. -/
inductive ScanEnd where
  /-- the whole text was scanned; the location is that of its end -/
  | complete (place : Location)
  | failed (error : LexError)
deriving DecidableEq, Repr

/-- Where a scan stopped. -/
def ScanEnd.place : ScanEnd → Location
  | .complete p => p
  | .failed e => e.place

/-- The outcome of a scan: the tokens found, and how it ended. -/
structure Scan where
  tokens : List Token
  ending : ScanEnd

namespace Lexicon

/-- The tokens from a cursor on. -/
def scanFrom (lexicon : Lexicon) (mode : CommentMode) (c : Cursor) : Scan :=
  match ht : skipTrivia mode [] c with
  | .error e => ⟨[], .failed e⟩
  | .ok (comments, here) =>
    match hr : here.rest with
    | [] => ⟨[], .complete here.place⟩
    | found :: _ =>
      match hm : lexicon.longestMatch here.rest with
      | none => ⟨[], .failed (.unexpectedCharacter found here.place)⟩
      | some m =>
        let behind := here.drop m.length
        let token : Token := {
          pattern := m.id
          name := m.matcher.pattern.name
          text := String.ofList (here.rest.take m.length)
          start := here.place
          stop := behind.place.offset
          comments }
        have : behind.rest.length < c.rest.length := by
          have h₁ := length_skipTrivia_le ht
          have h₂ := length_pos_of_longestMatch hm
          have h₃ : behind.rest.length = here.rest.length - m.length := by
            simp [behind, Cursor.drop]
          have h₄ : 0 < here.rest.length := by simp [hr]
          omega
        let later := lexicon.scanFrom mode behind
        ⟨token :: later.tokens, later.ending⟩
termination_by c.rest.length

def scan (lexicon : Lexicon) (mode : CommentMode) (text : String) : Scan :=
  lexicon.scanFrom mode (.ofText text.toList)

end Lexicon

end Rowlang
