import Rowlang.Calendar.Moment
import Rowlang.Number.Notation

/-!
# Moments from parts

What a text says about a moment is collected part by part: its year, its month, its hour, and so on.
Parts may repeat as long as they agree. A moment is then made from the parts that suffice for it,
and must agree with all others.

* `CalendarParts.put?` : adds a part;
* `CalendarParts.date?`, `CalendarParts.clock?`, `CalendarParts.moment?` : what the parts determine.
-/

namespace Rowlang

/-- The parts that a moment is made from. -/
inductive CalendarPart where
  | year | century | yearOfCentury
  | isoYear | isoYearOfCentury
  | quarter | month | day | ordinal
  | weekFromSunday | weekFromMonday | isoWeek
  /-- from 0 for Monday -/
  | weekday
  /-- 0 before noon and 1 after it -/
  | half
  /-- from 0 in each half of the day -/
  | hour
  | minute | second | nanosecond
  | timestamp
  | offset
deriving DecidableEq, Repr

def CalendarPart.range : CalendarPart → Int × Int
  | .year => (-2 ^ 31, 2 ^ 31 - 1)
  | .century => (0, 2 ^ 31 - 1)
  | .yearOfCentury => (0, 99)
  | .isoYear => (-2 ^ 31, 2 ^ 31 - 1)
  | .isoYearOfCentury => (0, 99)
  | .quarter => (1, 4)
  | .month => (1, 12)
  | .day => (1, 31)
  | .ordinal => (1, 366)
  | .weekFromSunday => (0, 53)
  | .weekFromMonday => (0, 53)
  | .isoWeek => (1, 53)
  | .weekday => (0, 6)
  | .half => (0, 1)
  | .hour => (0, 11)
  | .minute => (0, 59)
  | .second => (0, 60)
  | .nanosecond => (0, 999999999)
  | .timestamp => (-2 ^ 63, 2 ^ 63 - 1)
  | .offset => (-2 ^ 31, 2 ^ 31 - 1)

/-- The parts collected so far, each with its value. -/
abbrev CalendarParts := List (CalendarPart × Int)

namespace CalendarParts

def put? (parts : CalendarParts) (p : CalendarPart) (v : Int) : Option CalendarParts :=
  if v < p.range.1 ∨ p.range.2 < v then none
  else
    match parts.lookup p with
    | none => some ((p, v) :: parts)
    | some w => if v = w then some parts else none

def nat? (parts : CalendarParts) (p : CalendarPart) : Option Nat := (parts.lookup p).map Int.toNat

def allows (parts : CalendarParts) (p : CalendarPart) (v : Int) : Bool :=
  match parts.lookup p with
  | none => true
  | some w => v == w

/-! ## Days -/

/-- A year from the parts that give it in full, its century and its number in the century. The
outer result is none if they disagree or do not suffice. A number alone is taken to lie between
1970 and 2069. -/
def resolveYear (full century rest : Option Int) : Option (Option Int) :=
  match full, century, rest with
  | full, none, none => some full
  | some y, q, r =>
    if 0 ≤ y ∧ q.getD (y / 100) = y / 100 ∧ r.getD (y % 100) = y % 100 then some (some y) else none
  | none, some q, some r => some (some (q * 100 + r))
  | none, none, some r => some (some (r + if r < 70 then 2000 else 1900))
  | none, some _, none => none

/-- Whether the parts of year, month and day allow a day. -/
def allowsDay (parts : CalendarParts) (d : Date) : Bool :=
  parts.allows .year d.year && parts.allows .month d.month && parts.allows .day d.day
    && (if 0 ≤ d.year then
        parts.allows .century (d.year / 100) && parts.allows .yearOfCentury (d.year % 100)
      else (parts.lookup .century).isNone && (parts.lookup .yearOfCentury).isNone)

/-- Whether the parts of a week that is counted by its Thursday allow a day. -/
def allowsIsoWeek (parts : CalendarParts) (d : Date) : Bool :=
  let (year, week) := d.isoWeek
  parts.allows .isoYear year && parts.allows .isoWeek week && parts.allows .weekday d.weekday
    && (if 0 ≤ year then parts.allows .isoYearOfCentury (year % 100)
      else (parts.lookup .isoYearOfCentury).isNone)

/-- Whether the number in the year and the other week numbers allow a day. -/
def allowsOrdinal (parts : CalendarParts) (d : Date) : Bool :=
  parts.allows .ordinal d.ordinal && parts.allows .weekFromSunday (d.weekFrom 6)
    && parts.allows .weekFromMonday (d.weekFrom 0)

/-- A day from the first group of parts that suffices. -/
def candidate? (parts : CalendarParts) (year isoYear : Option Int) : Option Date :=
  match year, parts.nat? .month, parts.nat? .day with
  | some y, some m, some d => Date.ofYearMonthDay? y m d
  | _, _, _ =>
    match year, parts.nat? .ordinal with
    | some y, some n => Date.ofOrdinal? y n
    | _, _ =>
      match parts.nat? .weekday with
      | none => none
      | some weekday =>
        match year, parts.nat? .weekFromSunday, parts.nat? .weekFromMonday with
        | some y, some week, _ => Date.ofWeekFrom? 6 y week weekday
        | some y, none, some week => Date.ofWeekFrom? 0 y week weekday
        | _, _, _ =>
          match isoYear, parts.nat? .isoWeek with
          | some y, some week => Date.ofIsoWeek? y week weekday
          | _, _ => none

def date? (parts : CalendarParts) : Option Date := do
  let year ← resolveYear (parts.lookup .year) (parts.lookup .century) (parts.lookup .yearOfCentury)
  let isoYear ← resolveYear (parts.lookup .isoYear) none (parts.lookup .isoYearOfCentury)
  let d ← parts.candidate? year isoYear
  guard (parts.allowsDay d && parts.allowsIsoWeek d && parts.allowsOrdinal d
    && parts.allows .quarter d.quarter)
  return d

/-! ## Times -/

/-- The time that the parts determine. Seconds may be left out; their sixtieth is a leap second. -/
def clock? (parts : CalendarParts) : Option Clock := do
  let half ← parts.nat? .half
  let hour ← parts.nat? .hour
  let minute ← parts.nat? .minute
  let second := (parts.nat? .second).getD 0
  let nanos := (parts.nat? .nanosecond).getD 0
  guard ((parts.lookup .nanosecond).isNone || (parts.lookup .second).isSome)
  if second = 60 then Clock.of? (12 * half + hour) minute 59 (nanosPerSecond + nanos)
  else Clock.of? (12 * half + hour) minute second nanos

/-! ## Moments -/

/-- The parts of the moment of a timestamp, added to those that are there. In a leap second the
timestamp may be that of the next second. -/
def withTimestamp? (parts : CalendarParts) (n : Int) : Option CalendarParts := do
  let m ← Moment.ofTimestamp? n
  let (m, parts) ←
    if parts.nat? .second = some 60 then
      if m.clock.second = 59 then some (m, parts)
      else if m.clock.second = 0 then (Moment.ofTimestamp? (n - 1)).map (·, parts)
      else none
    else (parts.put? .second m.clock.second).map (m, ·)
  let parts ← parts.put? .year m.date.year
  let parts ← parts.put? .ordinal m.date.ordinal
  let parts ← parts.put? .half (m.clock.hour / 12 : Nat)
  let parts ← parts.put? .hour (m.clock.hour % 12 : Nat)
  parts.put? .minute m.clock.minute

/-- The moment that the parts determine, in the time of the offset `offset`. A timestamp must agree
with the other parts, or makes up for them. -/
def moment? (parts : CalendarParts) (offset : Int) : Option Moment :=
  match parts.date?, parts.clock? with
  | some date, some clock =>
    let m : Moment := ⟨date, clock⟩
    match parts.lookup .timestamp with
    | none => some m
    | some n =>
      let own := m.timestamp - offset
      if n = own ∨ (nanosPerSecond ≤ clock.nanos ∧ n = own + 1) then some m else none
  | _, _ => do
    let n ← parts.lookup .timestamp
    let parts ← parts.withTimestamp? (n + offset)
    return ⟨← parts.date?, ← parts.clock?⟩

end CalendarParts

end Rowlang
