import Rowlang.Pattern.Regex
import Rowlang.Number.Notation

/-!
# Reading regular expressions

The written form of leaf patterns, read from left to right with a stack of open groups and, within
a character class, a stack of open brackets. Each step takes one character, and as many of those
behind it as belong to it.

* `Reader.step` : one step;
* `Reader.finish` : the expression at the end of the text, if nothing is left open;
* `Regex.ofText?` : the expression that a text denotes.

Read are characters, escapes of single characters and of their classes, brackets, groups without a name,
alternatives, and repetitions. Anchors and word boundaries (`^`, `$`, `\b`, `\<`), flags, named groups and
classes by Unicode property (`\p`) are not.
-/

namespace Rowlang.Pattern
open Rowlang.Text

/-! ## Single characters and escapes -/

/-- What stands at one place of an expression: a character, or an escape for a whole class. -/
inductive Item where
  | char (c : Char)
  | set (s : CharSet)
deriving DecidableEq, Repr

def Item.toSet : Item → CharSet
  | .char c => .single c
  | .set s => s

/-- The meaning of a backslash followed by `c`. Letters and digits have a meaning of their own or
none; so have the angle brackets. Any other ASCII character stands for itself. -/
def escapeItem (c : Char) : Option Item :=
  match c with
  | 'd' => some (.set .digit)
  | 'D' => some (.set (.compl .digit))
  | 'w' => some (.set .word)
  | 'W' => some (.set (.compl .word))
  | 's' => some (.set .blank)
  | 'S' => some (.set (.compl .blank))
  | 'n' => some (.char '\n')
  | 't' => some (.char '\t')
  | 'r' => some (.char '\r')
  | 'a' => some (.char '\x07')
  | 'f' => some (.char '\x0c')
  | 'v' => some (.char '\x0b')
  | c => if c.toNat < 128 && !c.isAlphanum && c != '<' && c != '>' then some (.char c) else none

/-- How many hexadecimal digits stand behind an escape by number, unless braces enclose them. -/
def hexLength? : Char → Option Nat
  | 'x' => some 2
  | 'u' => some 4
  | 'U' => some 8
  | _ => none

/-- The character with the number that some hexadecimal digits stand for. -/
def hexChar? (digits : List Char) : Option Char :=
  let n := (digits.filterMap hexDigit?).foldl (16 * · + ·) 0
  -- numbers that are no character's are taken to the character 0
  let valid := (Char.ofNat n).toNat == n
  if !digits.isEmpty && digits.all (fun d => (hexDigit? d).isSome) && valid then some (Char.ofNat n) else none

/-- The character of an escape by number, read from behind its letter, and the length of the number. -/
def readHex (length : Nat) (cs : List Char) : Option (Char × Nat) :=
  match cs with
  | '{' :: body =>
    let digits := body.takeWhile (· != '}')
    if digits.length < body.length then (hexChar? digits).map (·, digits.length + 2) else none
  | cs => if length ≤ cs.length then (hexChar? (cs.take length)).map (·, length) else none

/-- The item that begins with `c`, and how many of the characters behind `c` belong to it. -/
def Item.read (c : Char) (rest : List Char) : Option (Item × Nat) :=
  if c == '\\' then
    match rest with
    | [] => none
    | e :: more =>
      match hexLength? e with
      | some length => (readHex length more).map fun (c, n) => (.char c, n + 1)
      | none => (escapeItem e).map (·, 1)
  else some (.char c, 0)

/-! ## Character classes -/

/-- The operators between parts of a class. -/
inductive SetOp where
  | inter | diff | symmDiff
deriving DecidableEq, Repr

def SetOp.apply : SetOp → CharSet → CharSet → CharSet
  | .inter, a, b => .inter a b
  | .diff, a, b => a.diff b
  | .symmDiff, a, b => a.symmDiff b

/-- A bracket that is still open: whether it is negated, the operator and left operand that wait for
the part being read, and that part. -/
structure OpenSet where
  negated : Bool
  pending : Option (SetOp × CharSet)
  part : CharSet

namespace OpenSet

def add (o : OpenSet) (s : CharSet) : OpenSet := { o with part := .union o.part s }

def operand (o : OpenSet) : CharSet :=
  match o.pending with
  | some (op, left) => op.apply left o.part
  | none => o.part

/-- Begins the right operand of `op`. -/
def combine (o : OpenSet) (op : SetOp) : OpenSet :=
  { o with pending := some (op, o.operand), part := .none }

def close (o : OpenSet) : CharSet := if o.negated then .compl o.operand else o.operand

end OpenSet

/-- The named classes of ASCII characters. -/
def namedSet? (name : String) : Option CharSet :=
  let lower := CharSet.range 'a' 'z'
  let upper := CharSet.range 'A' 'Z'
  let figure := CharSet.range '0' '9'
  let alpha := CharSet.union lower upper
  let alnum := CharSet.union alpha figure
  let graph := CharSet.range '!' '~'
  match name with
  | "alnum" => some alnum
  | "alpha" => some alpha
  | "ascii" => some (.range '\x00' '\x7f')
  | "blank" => some (.union (.single ' ') (.single '\t'))
  | "cntrl" => some (.union (.range '\x00' '\x1f') (.single '\x7f'))
  | "digit" => some figure
  | "graph" => some graph
  | "lower" => some lower
  | "print" => some (.union graph (.single ' '))
  | "punct" => some (graph.diff alnum)
  | "space" => some (.union (.range '\t' '\r') (.single ' '))
  | "upper" => some upper
  | "word" => some (.union alnum (.single '_'))
  | "xdigit" => some (.union figure (.union (.range 'a' 'f') (.range 'A' 'F')))
  | _ => none

/-- A named class, read from behind its `[:`, and its length. -/
def readNamedSet (cs : List Char) : Option (CharSet × Nat) :=
  let negated := cs.head? == some '^'
  let name := (if negated then cs.drop 1 else cs).takeWhile (· != ':')
  let length := name.length + (if negated then 1 else 0)
  if (cs.drop length).take 2 == [':', ']'] then
    (namedSet? (String.ofList name)).map fun s => (if negated then .compl s else s, length + 2)
  else none

/-- A bracket just opened, and the characters that stand for themselves because they come first:
hyphens, or else a closing bracket. -/
def OpenSet.begin (cs : List Char) : OpenSet × Nat :=
  let negated := cs.head? == some '^'
  let mark := if negated then 1 else 0
  let cs := cs.drop mark
  let fresh : OpenSet := ⟨negated, none, .none⟩
  let hyphens := (cs.takeWhile (· == '-')).length
  if hyphens > 0 then (fresh.add (.single '-'), mark + hyphens)
  else if cs.head? == some ']' then (fresh.add (.single ']'), mark + 1)
  else (fresh, mark)

/-- The character, escape or range that begins with `c` within brackets. A hyphen makes a range
unless a closing bracket or another hyphen follows it. -/
def OpenSet.readRange (c : Char) (rest : List Char) : Option (CharSet × Nat) := do
  let (first, n) ← Item.read c rest
  match rest.drop n with
  | '-' :: d :: more =>
    if d == ']' || d == '-' then return (first.toSet, n)
    let (last, m) ← Item.read d more
    match first, last with
    | .char a, .char b => if a ≤ b then return (.range a b, n + 2 + m) else none
    | _, _ => none
  | _ => return (first.toSet, n)

/-! ## Repetition counts -/

/-- Digits with blanks around them, below `2 ^ 32`. -/
def readCount (cs : List Char) : Option Nat :=
  let digits := trim cs
  if digits.isEmpty || !digits.all Char.isDigit then none
  else
    let n := digits.foldl (fun n d => 10 * n + (d.toNat - '0'.toNat)) 0
    if n < 2 ^ 32 then some n else none

/-- The bounds that stand between braces: `n`, `n,` or `n,m`. The second is absent where there is no
upper bound. -/
def readBounds (cs : List Char) : Option (Nat × Option Nat) := do
  let low ← readCount (cs.takeWhile (· != ','))
  match cs.dropWhile (· != ',') with
  | [] => return (low, some low)
  | _ :: [] => return (low, none)
  | _ :: rest =>
    if (trim rest).isEmpty then return (low, none)
    let high ← readCount rest
    if low ≤ high then return (low, some high) else none

/-- `a` repeated between `low` and `high` times. -/
def Regex.between (greedy : Bool) (a : Regex) (low : Nat) (high : Option Nat) : Regex :=
  match high with
  | none => a.atLeast greedy low
  | some high => .seq (a.times low) (a.upTo greedy (high - low))

/-! ## Groups -/

/-- A group that is still open: its complete alternatives, if there are any, and the items of the
current one, last item first. -/
structure OpenGroup where
  earlier : Option Regex
  items : List Regex

namespace OpenGroup

def empty : OpenGroup := ⟨none, []⟩

def add (g : OpenGroup) (r : Regex) : OpenGroup := { g with items := r :: g.items }

def close (g : OpenGroup) : Regex :=
  let current := g.items.foldl (fun tail item => .seq item tail) .empty
  match g.earlier with
  | none => current
  | some r => .alt r current

def bar (g : OpenGroup) : OpenGroup := ⟨some g.close, []⟩

/-- Repeats the item read last. There has to be one. -/
def quantify (g : OpenGroup) (f : Regex → Regex) : Option OpenGroup :=
  match g.items with
  | [] => none
  | r :: items => some { g with items := f r :: items }

end OpenGroup

/-! ## The reader -/

/-- Open groups, innermost first, and the open brackets of the class being read, if any. -/
structure Reader where
  group : OpenGroup
  outer : List OpenGroup
  brackets : List OpenSet

namespace Reader

def add (r : Reader) (item : Regex) : Reader := { r with group := r.group.add item }

/-- One step within brackets, `current` being the innermost. -/
def stepClass (r : Reader) (current : OpenSet) (outer : List OpenSet) (c : Char)
    (rest : List Char) : Option (Nat × Reader) :=
  match c, rest with
  | ']', _ =>
    match outer with
    | [] => some (0, { r.add (.one current.close) with brackets := [] })
    | parent :: outer => some (0, { r with brackets := parent.add current.close :: outer })
  | '[', rest =>
    match if rest.head? == some ':' then readNamedSet (rest.drop 1) else none with
    | some (s, n) => some (n + 1, { r with brackets := current.add s :: outer })
    | none =>
      let (inner, n) := OpenSet.begin rest
      some (n, { r with brackets := inner :: current :: outer })
  | '&', '&' :: _ => some (1, { r with brackets := current.combine .inter :: outer })
  | '-', '-' :: _ => some (1, { r with brackets := current.combine .diff :: outer })
  | '~', '~' :: _ => some (1, { r with brackets := current.combine .symmDiff :: outer })
  | c, rest =>
    (OpenSet.readRange c rest).map fun (s, n) => (n, { r with brackets := current.add s :: outer })

/-- Repeats the last item; a question mark right behind the quantifier, which is `n` characters
long, makes it lazy. -/
def quantify (r : Reader) (n : Nat) (rest : List Char) (f : Bool → Regex → Regex) :
    Option (Nat × Reader) :=
  let lazily := (rest.drop n).head? == some '?'
  (r.group.quantify (f (!lazily))).map fun g => (if lazily then n + 1 else n, { r with group := g })

def stepPlain (r : Reader) (c : Char) (rest : List Char) : Option (Nat × Reader) :=
  match c with
  | '(' =>
    let opened := { r with group := .empty, outer := r.group :: r.outer }
    match rest with
    | '?' :: ':' :: _ => some (2, opened)
    | '?' :: _ => none
    | _ => some (0, opened)
  | ')' =>
    match r.outer with
    | [] => none
    | parent :: outer => some (0, { r with group := parent.add r.group.close, outer })
  | '|' => some (0, { r with group := r.group.bar })
  | '*' => r.quantify 0 rest .star
  | '+' => r.quantify 0 rest .plus
  | '?' => r.quantify 0 rest .opt
  | '{' =>
    let body := rest.takeWhile (· != '}')
    if body.length < rest.length then
      (readBounds body).bind fun (low, high) =>
        r.quantify (body.length + 1) rest fun greedy a => a.between greedy low high
    else none
  | '[' =>
    let (bracket, n) := OpenSet.begin rest
    some (n, { r with brackets := [bracket] })
  | '.' => some (0, r.add (.one .notNewline))
  | '^' => none
  | '$' => none
  | c => (Item.read c rest).map fun (item, n) => (n, r.add (.one item.toSet))

/-- One step: takes `c` and the returned number of characters behind it. -/
def step (r : Reader) (c : Char) (rest : List Char) : Option (Nat × Reader) :=
  match r.brackets with
  | [] => r.stepPlain c rest
  | current :: outer => r.stepClass current outer c rest

def finish (r : Reader) : Option Regex :=
  match r.brackets, r.outer with
  | [], [] => some r.group.close
  | _, _ => none

def readRest (r : Reader) : List Char → Option Regex
  | [] => r.finish
  | c :: rest =>
    match r.step c rest with
    | none => none
    | some (n, r') => r'.readRest (rest.drop n)
termination_by cs => cs.length
decreasing_by simp only [List.length_drop, List.length_cons]; omega

end Reader

/-- The expression that a text denotes, or nothing if it is malformed or has what is not read here. -/
def Regex.ofText? (text : String) : Option Regex :=
  Reader.readRest ⟨.empty, [], []⟩ text.toList

end Rowlang.Pattern
