/-!
# The calendar

Days of the Gregorian calendar, which is extended to all years, and the ways to number them.

* `Date.ordinal`, `Date.ofOrdinal?` : the day within its year;
* `Date.dayNumber`, `Date.ofDayNumber?` : the day counted from the first of January of year 1;
* `Date.weekday` : the day of the week;
* `Date.isoWeek`, `Date.ofIsoWeek?` : the week, which belongs to the year that has its Thursday.
-/

namespace Rowlang

/-! ## Years and months -/

def isLeapYear (y : Int) : Bool := y % 4 == 0 && (y % 100 != 0 || y % 400 == 0)

def daysInYear (y : Int) : Nat := if isLeapYear y then 366 else 365

def daysInMonth (y : Int) (m : Nat) : Nat :=
  if m = 2 then if isLeapYear y then 29 else 28
  else if m = 4 ∨ m = 6 ∨ m = 9 ∨ m = 11 then 30
  else 31

def daysBeforeMonth (y : Int) (m : Nat) : Nat :=
  (List.range (m - 1)).foldl (fun days i => days + daysInMonth y (i + 1)) 0

/-- The number of days from the first of January of year 1 to that of a year. -/
def daysBeforeYear (y : Int) : Int :=
  365 * (y - 1) + (y - 1) / 4 - (y - 1) / 100 + (y - 1) / 400

/-- The day of the week of a day that is counted from the first of January of year 1, a Monday. -/
def weekdayOf (dayNumber : Int) : Nat := ((dayNumber - 1) % 7).toNat

/-! ## Days -/

/-- Whether there is such a day, in the years that are supported. -/
def isDate (year : Int) (month day : Nat) : Bool :=
  -262143 ≤ year && year ≤ 262142 && 1 ≤ month && month ≤ 12 && 1 ≤ day
    && day ≤ daysInMonth year month

/-- A day. -/
structure Date where
  year : Int
  month : Nat
  day : Nat
  valid : isDate year month day = true
deriving DecidableEq, Repr

namespace Date

/-- The day with the given numbers, if there is one. -/
def ofYearMonthDay? (year : Int) (month day : Nat) : Option Date :=
  if h : isDate year month day = true then some ⟨year, month, day, h⟩ else none

def ordinal (d : Date) : Nat := daysBeforeMonth d.year d.month + d.day

def ofOrdinal? (year : Int) (n : Nat) : Option Date :=
  let month := ((List.range 12).filter fun i => daysBeforeMonth year (i + 1) < n).length
  ofYearMonthDay? year month (n - daysBeforeMonth year month)

def dayNumber (d : Date) : Int := daysBeforeYear d.year + d.ordinal

def ofDayNumber? (n : Int) : Option Date :=
  let guess := (n - 1) * 400 / 146097
  [guess, guess + 1, guess + 2].findSome? fun year =>
    let k := n - daysBeforeYear year
    if 1 ≤ k ∧ k ≤ daysInYear year then ofOrdinal? year k.toNat else none

/-- The quarter of the year, from 1. -/
def quarter (d : Date) : Nat := (d.month - 1) / 3 + 1

/-! ## Weeks -/

def weekday (d : Date) : Nat := weekdayOf d.dayNumber

/-- The number of the week, if weeks start on the day `start` and week 1 has the first such day. -/
def weekFrom (start : Nat) (d : Date) : Nat := (d.ordinal + 6 - (d.weekday + 7 - start) % 7) / 7

/-- The number of weeks of a year, counted by their Thursdays. -/
def isoWeeks (year : Int) : Nat :=
  let first := weekdayOf (daysBeforeYear year + 1)
  if first = 3 ∨ (first = 2 ∧ isLeapYear year) then 53 else 52

/-- The year that has the Thursday of the week of a day, and the number of that week in it. -/
def isoWeek (d : Date) : Int × Nat :=
  let week := (d.ordinal + 9 - d.weekday) / 7
  if week = 0 then (d.year - 1, isoWeeks (d.year - 1))
  else if isoWeeks d.year < week then (d.year + 1, 1)
  else (d.year, week)

/-- The day of a week that is given by its year and number. -/
def ofIsoWeek? (year : Int) (week weekday : Nat) : Option Date :=
  if week = 0 ∨ isoWeeks year < week then none
  else
    let fourth := daysBeforeYear year + 4
    ofDayNumber? (fourth - weekdayOf fourth + 7 * (week - 1 : Nat) + weekday)

/-- The day of a week that is given by its number, if weeks start on the day `start` and week 1 has
the first such day of the year. -/
def ofWeekFrom? (start : Nat) (year : Int) (week weekday : Nat) : Option Date :=
  let first := weekdayOf (daysBeforeYear year + 1)
  let n : Int := 1 + ((start + 7 - first) % 7 : Nat) + ((week : Int) - 1) * 7
    + ((weekday + 7 - start) % 7 : Nat)
  if 53 < week ∨ n ≤ 0 then none else ofOrdinal? year n.toNat

/-! ## Order -/

def compare (a b : Date) : Ordering :=
  (Ord.compare a.year b.year).then ((Ord.compare a.month b.month).then (Ord.compare a.day b.day))

end Date

example : (Date.ofDayNumber? 738945).map (fun d => (d.year, d.month, d.day)) = some (2024, 2, 29) := by
  decide +kernel

end Rowlang
