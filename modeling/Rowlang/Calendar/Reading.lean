import Rowlang.Calendar.Parts
import Rowlang.Calendar.Printer

/-!
# Reading moments

* `readItems?` : reads a text by the items of a pattern;
* `Moment.ofText?`, `Date.ofText?` : a moment, or a day, by a pattern that is given as text;
* `Moment.ofInternet?` : a moment in the form of an internet timestamp;
* `Moment.guess?` : a moment in any of the usual forms.

Blanks before a number are skipped, and a blank of a pattern stands for any number of blanks.
-/

namespace Rowlang
open Rowlang.Text

/-! ## Scanning -/

/-- A number of at least `least` and at most `most` digits, and the rest of the text. -/
def scanNumber? (least most : Nat) (cs : List Char) : Option (Int × List Char) :=
  let digits := (cs.take most).takeWhile Char.isDigit
  if digits.length < least ∨ 2 ^ 63 ≤ digitValue digits then none
  else some (digitValue digits, cs.drop digits.length)

/-- A number with an optional sign; a signed number has any length. -/
def scanSigned? (most : Nat) (cs : List Char) : Option (Int × List Char) :=
  match cs with
  | '-' :: rest => (scanNumber? 1 rest.length rest).map fun (n, rest) => (-n, rest)
  | '+' :: rest => scanNumber? 1 rest.length rest
  | cs => scanNumber? 1 most cs

/-- The fraction of a second: up to nine digits, and the others ignored. -/
def scanFraction? (cs : List Char) : Option (Int × List Char) := do
  let (n, rest) ← scanNumber? 1 9 cs
  return (n * 10 ^ (9 - (cs.length - rest.length)), rest.dropWhile Char.isDigit)

/-- The fraction of a second of exactly that many digits. -/
def scanFixedFraction? (digits : Nat) (cs : List Char) : Option (Int × List Char) := do
  let (n, rest) ← scanNumber? digits digits cs
  return (n * 10 ^ (9 - digits), rest)

/-- The rest of the text behind one that may differ in the case of its letters. -/
def skipIgnoringCase? (word cs : List Char) : Option (List Char) :=
  if (cs.take word.length).map Char.toLower == word.map Char.toLower then some (cs.drop word.length)
  else none

/-- The first of some names whose first three letters the text has, and what is behind it: the whole
name if `long`, where the text has it. -/
def scanName? (names : List String) (long : Bool) (cs : List Char) : Option (Nat × List Char) := do
  let i ← names.findIdx? fun n => (skipIgnoringCase? (n.toList.take 3) cs).isSome
  let name := (names.getD i "").toList
  let rest := cs.drop 3
  return (i, if long then (skipIgnoringCase? (name.drop 3) rest).getD rest else rest)

/-- What may stand between the hours and the minutes of an offset. -/
inductive OffsetSeparator where
  | colon
  | lenient

/-- The text behind a separator. -/
def OffsetSeparator.skip? (s : OffsetSeparator) (cs : List Char) : Option (List Char) :=
  match s with
  | .colon => match cs with
    | ':' :: rest => some rest
    | _ => none
  | .lenient => some (cs.dropWhile fun c => c == ':' || isBlank c)

/-- The minutes of an offset. -/
def scanOffsetMinutes? (optional : Bool) (cs : List Char) : Option (Int × List Char) :=
  match cs with
  | a :: b :: rest =>
    if a.isDigit && a < '6' && b.isDigit then some (digitValue [a, b], rest) else none
  | [] => if optional then some (0, []) else none
  | [_] => none

/-- An offset from universal time in seconds: a sign, two digits for hours and two for minutes.
If `zulu`, the letter Z stands for no offset. -/
def scanOffset? (separator : OffsetSeparator) (zulu optional : Bool) (cs : List Char) :
    Option (Int × List Char) :=
  match cs with
  | [] => none
  | c :: rest =>
    if zulu && (c == 'Z' || c == 'z') then some (0, rest)
    else do
      guard (c == '+' || c == '-' || c == '−')
      let (hours, rest) ← scanNumber? 2 2 rest
      let rest ← separator.skip? rest
      let (minutes, rest) ← scanOffsetMinutes? optional rest
      let seconds := hours * 3600 + minutes * 60
      return (if c == '+' then seconds else -seconds, rest)

/-! ## Items -/

/-- The parts read so far, and the rest of the text. -/
abbrev PartsReader := CalendarParts × List Char

def putRead? (parts : CalendarParts) (p : CalendarPart) (r : Option (Int × List Char)) :
    Option PartsReader := do
  let (v, rest) ← r
  return (← parts.put? p v, rest)

/-- Adds an hour, from 0, as its half of the day and its place in it. -/
def putHour? (parts : CalendarParts) (v : Int) : Option CalendarParts := do
  let parts ← parts.put? .half (v / 12)
  parts.put? .hour (v % 12)

def readNumber? (n : CalendarNumber) (parts : CalendarParts) (cs : List Char) :
    Option PartsReader :=
  let cs := trimStart cs
  let digits (p : CalendarPart) (most : Nat) := putRead? parts p (scanNumber? 1 most cs)
  match n with
  | .year => putRead? parts .year (scanSigned? 4 cs)
  | .century => digits .century 2
  | .yearOfCentury => digits .yearOfCentury 2
  | .isoYear => putRead? parts .isoYear (scanSigned? 4 cs)
  | .isoYearOfCentury => digits .isoYearOfCentury 2
  | .quarter => digits .quarter 1
  | .month => digits .month 2
  | .day => digits .day 2
  | .ordinal => digits .ordinal 3
  | .weekFromSunday => digits .weekFromSunday 2
  | .weekFromMonday => digits .weekFromMonday 2
  | .isoWeek => digits .isoWeek 2
  | .weekdayFromSunday => do
    let (v, rest) ← scanNumber? 1 1 cs
    guard (v < 7)
    return (← parts.put? .weekday ((v + 6) % 7), rest)
  | .weekdayFromMonday => do
    let (v, rest) ← scanNumber? 1 1 cs
    return (← parts.put? .weekday (v - 1), rest)
  | .hour => do
    let (v, rest) ← scanNumber? 1 2 cs
    return (← putHour? parts v, rest)
  | .hour12 => do
    let (v, rest) ← scanNumber? 1 2 cs
    guard (1 ≤ v && v ≤ 12)
    return (← parts.put? .hour (v % 12), rest)
  | .minute => digits .minute 2
  | .second => digits .second 2
  | .nanosecond => digits .nanosecond 9
  | .timestamp => digits .timestamp cs.length

def readName? (n : CalendarName) (parts : CalendarParts) (cs : List Char) : Option PartsReader :=
  let name (p : CalendarPart) (first : Nat) (names : List String) (long : Bool) := do
    let (i, rest) ← scanName? names long cs
    return (← parts.put? p (first + i : Nat), rest)
  let half := do
    match skipIgnoringCase? "am".toList cs with
    | some rest => return (← parts.put? .half 0, rest)
    | none => return (← parts.put? .half 1, ← skipIgnoringCase? "pm".toList cs)
  match n with
  | .shortMonth => name .month 1 monthNames false
  | .longMonth => name .month 1 monthNames true
  | .shortWeekday => name .weekday 0 weekdayNames false
  | .longWeekday => name .weekday 0 weekdayNames true
  | .lowerHalf => half
  | .upperHalf => half

/-- Reads a fraction of a second behind a point, if there is one. -/
def readFraction? (scan : List Char → Option (Int × List Char)) (parts : CalendarParts)
    (cs : List Char) : Option PartsReader :=
  match cs with
  | '.' :: rest => putRead? parts .nanosecond (scan rest)
  | cs => some (parts, cs)

def readLiteral? (c : Char) (parts : CalendarParts) : List Char → Option PartsReader
  | d :: rest => if c == d then some (parts, rest) else none
  | [] => none

/-- Reads an internet timestamp in which blanks may stand between the components. -/
def readInternet? (parts : CalendarParts) (cs : List Char) : Option PartsReader := do
  let blank (r : PartsReader) : Option PartsReader := some (r.1, trimStart r.2)
  let lit (c : Char) (r : PartsReader) := readLiteral? c r.1 r.2
  let num (n : CalendarNumber) (r : PartsReader) := readNumber? n r.1 r.2
  let r ← num .year (parts, cs) >>= blank >>= lit '-' >>= num .month >>= blank >>= lit '-'
    >>= num .day
  let r ← match r.2 with
    | c :: rest => if c == 't' || c == 'T' || c == ' ' then some (r.1, rest) else none
    | [] => none
  let r ← num .hour r >>= blank >>= lit ':' >>= num .minute >>= blank >>= lit ':' >>= num .second
  let r ← readFraction? scanFraction? r.1 r.2 >>= blank
  match skipIgnoringCase? "utc".toList r.2 with
  | some rest => putRead? r.1 .offset (some (0, rest))
  | none => putRead? r.1 .offset (scanOffset? .lenient true false r.2)

def readItem? (item : PatternItem) (parts : CalendarParts) (cs : List Char) : Option PartsReader :=
  match item with
  | .literal c => readLiteral? c parts cs
  | .blank _ => some (parts, trimStart cs)
  | .number n _ => readNumber? n parts cs
  | .name n => readName? n parts cs
  | .fraction none => readFraction? scanFraction? parts cs
  | .fraction (some digits) => readFraction? (scanFixedFraction? digits) parts cs
  | .bareFraction digits => putRead? parts .nanosecond (scanFixedFraction? digits cs)
  | .zoneName => some (parts, cs.dropWhile (!isBlank ·))
  | .zoneOffset lenient =>
    putRead? parts .offset (scanOffset? .lenient lenient lenient (trimStart cs))
  | .internet => readInternet? parts cs

def readItems? (items : List PatternItem) (cs : List Char) : Option CalendarParts := do
  let (parts, rest) ← items.foldlM (fun r item => readItem? item r.1 r.2) ([], cs)
  guard rest.isEmpty
  return parts

/-! ## Moments and days -/

def Moment.ofText? (pattern text : String) : Option Moment := do
  (← readItems? (← PatternItem.ofChars? pattern.toList) text.toList).moment? 0

def Date.ofText? (pattern text : String) : Option Date := do
  (← readItems? (← PatternItem.ofChars? pattern.toList) text.toList).date?

def Date.start (d : Date) : Moment := ⟨d, .midnight⟩

/-- The local time of an internet timestamp: all its numbers have their full width, and it has an
offset of less than a day. -/
def Moment.ofInternet? (text : String) : Option Moment := do
  let num (p : CalendarPart) (width : Nat) (r : PartsReader) :=
    putRead? r.1 p (scanNumber? width width r.2)
  let lit (c : Char) (r : PartsReader) := readLiteral? c r.1 r.2
  let r ← num .year 4 ([], text.toList) >>= lit '-' >>= num .month 2 >>= lit '-' >>= num .day 2
  let r ← match r.2 with
    | c :: rest => if c == 't' || c == 'T' || c == ' ' then some (r.1, rest) else none
    | [] => none
  let (hour, rest) ← scanNumber? 2 2 r.2
  let r ← lit ':' (← putHour? r.1 hour, rest) >>= num .minute 2 >>= lit ':' >>= num .second 2
  let r ← readFraction? scanFraction? r.1 r.2
  let (offset, rest) ← scanOffset? .colon true false r.2
  guard (offset.natAbs ≤ (23 * 60 + 59) * 60 && rest.isEmpty)
  (← r.1.put? .offset offset).moment? offset

/-- The moment that a text says in one of the usual forms: an internet timestamp, a date with a time
to the second or to the minute, or a date. -/
def Moment.guess? (text : String) : Option Moment :=
  Moment.ofInternet? text
    <|> Moment.ofText? "%Y-%m-%d %H:%M:%S" text
    <|> Moment.ofText? "%Y-%m-%dT%H:%M:%S" text
    <|> Moment.ofText? "%Y-%m-%d %H:%M" text
    <|> (Date.ofText? "%Y-%m-%d" text).map Date.start

end Rowlang
