import Rowlang.Functions.Number
import Rowlang.Text.Case
import Rowlang.Text.Search

/-!
# Functions of texts

The subject is taken by its text in a report. Places in a text are counted in characters.

* `substring`, `indexOf`, `length` : places and lengths;
* `split` : the parts between separators;
* `pad`, `wrap` : layout;
* `startsWith`, `endsWith`, `upper`, `lower`, `trim` : the ends and the letters of a text.
-/

namespace Rowlang.Functions
open Rowlang.Text

def charsOf (v : Value) : List Char := v.render.toList

def ofChars (cs : List Char) : Value := .text (String.ofList cs)

/-! ## Places -/

/-- A place brought into the range from 0 to `length`. -/
def clamp (length : Nat) (i : Int) : Nat := min i.toNat length

def slice (cs : List Char) (start stop : Nat) : List Char := (cs.take stop).drop start

def substring : Builtin := fun subject args => do
  let cs := charsOf subject
  let start := clamp cs.length (← intArgument args 0)
  let stop ← if 1 < args.length then (clamp cs.length) <$> intArgument args 1 else pure cs.length
  return ofChars (slice cs start stop)

def indexOf : Builtin := fun subject args => do
  let needle := charsOf (← argument args 0)
  match cut? needle (charsOf subject) with
  | some (before, _) => return .ofNat before.length
  | none => return .ofInt (-1)

def length : Builtin := fun subject _ =>
  match subject with
  | .list items _ => .ok (.ofNat items.length)
  | .null => .ok (.ofNat 0)
  | v => .ok (.ofNat (charsOf v).length)

/-! ## Parts -/

/-- The parts of a text between separators; the single characters if the separator is empty. -/
def partsOf (sep cs : List Char) : List (List Char) :=
  if h : sep = [] then cs.map fun c => [c] else splitOn sep h cs

def split : Builtin := fun subject args => do
  let sep := charsOf (← argument args 0)
  return .ofList ((partsOf sep (charsOf subject)).map ofChars)

/-! ## Layout -/

def maxPadWidth : Nat := 10000

def pad : Builtin := fun subject args => do
  let cs := charsOf subject
  let width := (← intArgument args 0).toNat
  if maxPadWidth < width then
    throw ("width " ++ toString width ++ " exceeds " ++ toString maxPadWidth)
  let fill := match args[1]? with
    | some v => (charsOf v).headD ' '
    | none => ' '
  return ofChars (List.replicate (width - cs.length) fill ++ cs)

/-- The lines of some words, `line` being what the first line has so far: a word goes to a new line
if it does not fit the width. -/
def wrapWords (width : Nat) (line : List Char) : List (List Char) → List (List Char)
  | [] => [line]
  | w :: ws =>
    if line.isEmpty then wrapWords width w ws
    else if width < line.length + 1 + w.length then line :: wrapWords width w ws
    else wrapWords width (line ++ ' ' :: w) ws

/-- The lines of a text, each broken between words. -/
def wrapLines (width : Nat) (cs : List Char) : List (List Char) :=
  (lines cs).flatMap fun line => wrapWords width [] (words line)

def wrap : Builtin := fun subject args => do
  let width := (← intArgument args 0).toNat
  if width = 0 then return .text subject.render
  else return ofChars (List.intercalate ['\n'] (wrapLines width (charsOf subject)))

/-! ## Ends and letters -/

def startsWith : Builtin := fun subject args => do
  return .boolean ((charsOf (← argument args 0)).isPrefixOf (charsOf subject))

def endsWith : Builtin := fun subject args => do
  return .boolean ((charsOf (← argument args 0)).isSuffixOf (charsOf subject))

def upper : Builtin := fun subject _ => .ok (ofChars (toUpper (charsOf subject)))

def lower : Builtin := fun subject _ => .ok (ofChars (toLower (charsOf subject)))

def trim : Builtin := fun subject _ => .ok (ofChars (Text.trim (charsOf subject)))

end Rowlang.Functions
