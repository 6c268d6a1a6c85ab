import Rowlang.Text.Blank

/-!
# Date patterns

The patterns by which moments are written and read. A pattern is text with directives, a percent
sign and a letter each; a number may have a padding before its letter.

* `PatternItem` : what a pattern is made of;
* `PatternItem.ofChars?` : the reading of a pattern.
-/

namespace Rowlang
open Rowlang.Text

/-- How a number is brought to its width. -/
inductive Padding where
  | none
  | zeros
  | spaces
deriving DecidableEq, Repr

/-- The numbers of a moment. -/
inductive CalendarNumber where
  | year | century | yearOfCentury
  | isoYear | isoYearOfCentury
  | quarter | month | day | ordinal
  | weekFromSunday | weekFromMonday | isoWeek
  | weekdayFromSunday | weekdayFromMonday
  | hour | hour12 | minute | second | nanosecond
  | timestamp
deriving DecidableEq, Repr

/-- The names of a moment. -/
inductive CalendarName where
  | shortMonth | longMonth
  | shortWeekday | longWeekday
  | lowerHalf | upperHalf
deriving DecidableEq, Repr

/-- An item of a pattern. -/
inductive PatternItem where
  | literal (c : Char)
  | blank (c : Char)
  | number (n : CalendarNumber) (padding : Padding)
  | name (n : CalendarName)
  /-- the fraction of a second behind its point: that many digits, or as many as are needed -/
  | fraction (digits : Option Nat)
  /-- the fraction of a second without its point -/
  | bareFraction (digits : Nat)
  | zoneName
  /-- the offset from universal time; `lenient` lets the minutes be left out -/
  | zoneOffset (lenient : Bool)
  /-- date, time and offset in the form of an internet timestamp -/
  | internet
deriving DecidableEq, Repr

namespace PatternItem

def numberOf? (c : Char) : Option (CalendarNumber × Padding) :=
  match c with
  | 'C' => some (.century, .zeros)
  | 'G' => some (.isoYear, .zeros)
  | 'H' => some (.hour, .zeros)
  | 'I' => some (.hour12, .zeros)
  | 'M' => some (.minute, .zeros)
  | 'S' => some (.second, .zeros)
  | 'U' => some (.weekFromSunday, .zeros)
  | 'V' => some (.isoWeek, .zeros)
  | 'W' => some (.weekFromMonday, .zeros)
  | 'Y' => some (.year, .zeros)
  | 'd' => some (.day, .zeros)
  | 'e' => some (.day, .spaces)
  | 'f' => some (.nanosecond, .zeros)
  | 'g' => some (.isoYearOfCentury, .zeros)
  | 'j' => some (.ordinal, .zeros)
  | 'k' => some (.hour, .spaces)
  | 'l' => some (.hour12, .spaces)
  | 'm' => some (.month, .zeros)
  | 'q' => some (.quarter, .none)
  | 's' => some (.timestamp, .none)
  | 'u' => some (.weekdayFromMonday, .none)
  | 'w' => some (.weekdayFromSunday, .none)
  | 'y' => some (.yearOfCentury, .zeros)
  | _ => none

/-- The number that a letter stands for, with its usual padding, as an item. -/
def plain (n : CalendarNumber) : PatternItem := .number n .zeros

/-- `%H:%M:%S` -/
def timeItems : List PatternItem :=
  [plain .hour, .literal ':', plain .minute, .literal ':', plain .second]

/-- `%m/%d/%y` -/
def shortDateItems : List PatternItem :=
  [plain .month, .literal '/', plain .day, .literal '/', plain .yearOfCentury]

/-- `%Y-%m-%d` -/
def dateItems : List PatternItem :=
  [plain .year, .literal '-', plain .month, .literal '-', plain .day]

def ofLetter? (c : Char) : Option (List PatternItem) :=
  match numberOf? c with
  | some (n, padding) => some [.number n padding]
  | none =>
    match c with
    | 'A' => some [.name .longWeekday]
    | 'a' => some [.name .shortWeekday]
    | 'B' => some [.name .longMonth]
    | 'b' | 'h' => some [.name .shortMonth]
    | 'P' => some [.name .lowerHalf]
    | 'p' => some [.name .upperHalf]
    | 'D' | 'x' => some shortDateItems
    | 'F' => some dateItems
    | 'R' => some (timeItems.take 3)
    | 'T' | 'X' => some timeItems
    | 'r' => some ([plain .hour12] ++ timeItems.drop 1 ++ [.blank ' ', .name .upperHalf])
    | 'c' => some ([.name .shortWeekday, .blank ' ', .name .shortMonth, .blank ' ',
        .number .day .spaces, .blank ' '] ++ timeItems ++ [.blank ' ', plain .year])
    | 'v' => some [.number .day .spaces, .literal '-', .name .shortMonth, .literal '-', plain .year]
    | 'n' => some [.blank '\n']
    | 't' => some [.blank '\t']
    | 'Z' => some [.zoneName]
    | 'z' => some [.zoneOffset false]
    | '+' => some [.internet]
    | '%' => some [.literal '%']
    | _ => none

/-- A padding that is given before a letter. -/
def paddingOf? (c : Char) : Option Padding :=
  match c with
  | '-' => some .none
  | '0' => some .zeros
  | '_' => some .spaces
  | _ => none

/-- The number of digits of a fraction that a character asks for. -/
def digitsOf? (c : Char) : Option Nat :=
  match c with
  | '3' => some 3
  | '6' => some 6
  | '9' => some 9
  | _ => none

/-- Reads a pattern; none if a directive is unknown or unfinished. -/
def ofChars? : List Char → Option (List PatternItem)
  | [] => some []
  | '%' :: '.' :: 'f' :: rest => (.fraction none :: ·) <$> ofChars? rest
  | '%' :: '.' :: n :: 'f' :: rest => do
    return .fraction (some (← digitsOf? n)) :: (← ofChars? rest)
  | '%' :: ':' :: ':' :: ':' :: 'z' :: rest => (.zoneOffset false :: ·) <$> ofChars? rest
  | '%' :: ':' :: ':' :: 'z' :: rest => (.zoneOffset false :: ·) <$> ofChars? rest
  | '%' :: ':' :: 'z' :: rest => (.zoneOffset false :: ·) <$> ofChars? rest
  | '%' :: '#' :: 'z' :: rest => (.zoneOffset true :: ·) <$> ofChars? rest
  | '%' :: p :: rest =>
    match rest with
    | [] => ofLetter? p
    | c :: after =>
      match paddingOf? p, digitsOf? p with
      | some padding, _ => do
        let (n, _) ← numberOf? c
        return .number n padding :: (← ofChars? after)
      | none, some digits => do
        guard (c == 'f')
        return .bareFraction digits :: (← ofChars? after)
      | none, none => return (← ofLetter? p) ++ (← ofChars? (c :: after))
  | ['%'] => none
  | c :: rest => ((if isBlank c then .blank c else .literal c) :: ·) <$> ofChars? rest

end PatternItem

end Rowlang
