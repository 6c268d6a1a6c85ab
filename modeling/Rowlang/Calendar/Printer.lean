import Rowlang.Calendar.Moment
import Rowlang.Calendar.Pattern
import Rowlang.Number.Notation

/-!
# Writing moments

* `Moment.write?` : a moment by the items of a pattern; a moment has no time zone, so the items
  that ask for one have no text;
* `Moment.formatted?` : a moment by a pattern that is given as text;
* `Moment.text` : the date, and the time unless it is midnight.
-/

namespace Rowlang

/-! ## Names -/

def monthNames : List String :=
  ["January", "February", "March", "April", "May", "June", "July", "August", "September",
    "October", "November", "December"]

def weekdayNames : List String :=
  ["Monday", "Tuesday", "Wednesday", "Thursday", "Friday", "Saturday", "Sunday"]

/-! ## Numbers -/

/-- A number of two digits. It is kept in one byte, and its tens are a character counted from the
digit zero. -/
def twoDigits (padding : Padding) (n : Int) : List Char :=
  let v := (n % 256).toNat
  let ones := Char.ofNat ('0'.toNat + v % 10)
  match v / 10, padding with
  | 0, .none => [ones]
  | 0, .spaces => [' ', ones]
  | tens, _ => [Char.ofNat ('0'.toNat + tens), ones]

/-- A number that is padded to a width. Its sign counts, and stands before zeros. -/
def paddedNumber (padding : Padding) (width : Nat) (plus : Bool) (n : Int) : List Char :=
  let sign := if n < 0 then ['-'] else if plus then ['+'] else []
  let digits := digitsOf n.natAbs
  match padding with
  | .none => sign ++ digits
  | .zeros => sign ++ padZeros (width - sign.length) digits
  | .spaces => List.replicate (width - sign.length - digits.length) ' ' ++ sign ++ digits

/-- A year, of four digits. Years of another length, and years before year 0, have a sign. -/
def yearDigits (padding : Padding) (y : Int) : List Char :=
  if 0 ≤ y ∧ y < 10000 then paddedNumber padding 4 false y else paddedNumber padding 5 true y

namespace Moment

def writeNumber (m : Moment) (n : CalendarNumber) (padding : Padding) : List Char :=
  let d := m.date
  let t := m.clock
  match n with
  | .year => yearDigits padding d.year
  | .century => twoDigits padding (d.year / 100)
  | .yearOfCentury => twoDigits padding (d.year % 100)
  | .isoYear => yearDigits padding d.isoWeek.1
  | .isoYearOfCentury => twoDigits padding (d.isoWeek.1 % 100)
  | .quarter => digitsOf d.quarter
  | .month => twoDigits padding d.month
  | .day => twoDigits padding d.day
  | .ordinal => paddedNumber padding 3 false d.ordinal
  | .weekFromSunday => twoDigits padding (d.weekFrom 6)
  | .weekFromMonday => twoDigits padding (d.weekFrom 0)
  | .isoWeek => twoDigits padding d.isoWeek.2
  | .weekdayFromSunday => digitsOf ((d.weekday + 1) % 7)
  | .weekdayFromMonday => digitsOf (d.weekday + 1)
  | .hour => twoDigits padding t.hour
  | .hour12 => twoDigits padding t.hour12
  | .minute => twoDigits padding t.minute
  | .second => twoDigits padding t.second
  | .nanosecond => paddedNumber padding 9 false t.fraction
  | .timestamp => paddedNumber padding 9 false m.timestamp

def writeName (m : Moment) (n : CalendarName) : List Char :=
  let month := (monthNames.getD (m.date.month - 1) "").toList
  let weekday := (weekdayNames.getD m.date.weekday "").toList
  match n with
  | .shortMonth => month.take 3
  | .longMonth => month
  | .shortWeekday => weekday.take 3
  | .longWeekday => weekday
  | .lowerHalf => if m.clock.isAfternoon then "pm".toList else "am".toList
  | .upperHalf => if m.clock.isAfternoon then "PM".toList else "AM".toList

/-- The first `digits` of the nine digits of a fraction of a second. -/
def fractionDigits (t : Clock) (digits : Nat) : List Char :=
  padZeros digits (digitsOf (t.fraction / 10 ^ (9 - digits)))

/-- The fraction of a second behind a point, in groups of three digits; nothing if it is zero. -/
def shortFraction (t : Clock) : List Char :=
  let n := t.fraction
  if n = 0 then []
  else '.' :: fractionDigits t (if n % 1000000 = 0 then 3 else if n % 1000 = 0 then 6 else 9)

def writeItem? (m : Moment) : PatternItem → Option (List Char)
  | .literal c => some [c]
  | .blank c => some [c]
  | .number n padding => some (m.writeNumber n padding)
  | .name n => some (m.writeName n)
  | .fraction none => some (shortFraction m.clock)
  | .fraction (some digits) => some ('.' :: fractionDigits m.clock digits)
  | .bareFraction digits => some (fractionDigits m.clock digits)
  | .zoneName => none
  | .zoneOffset _ => none
  | .internet => none

def write? (m : Moment) (items : List PatternItem) : Option (List Char) :=
  return (← items.mapM m.writeItem?).flatten

/-- A moment by a pattern; none if the pattern is malformed or asks for a time zone. -/
def formatted? (m : Moment) (pattern : String) : Option String := do
  return String.ofList (← m.write? (← PatternItem.ofChars? pattern.toList))

def write (m : Moment) (items : List PatternItem) : String :=
  String.ofList (items.flatMap fun i => (m.writeItem? i).getD [])

/-- The date, and the time behind `separator`, with the fraction of its second. -/
def exactText (m : Moment) (separator : Char) : String :=
  m.write (PatternItem.dateItems ++ .literal separator :: PatternItem.timeItems ++ [.fraction none])

/-- The date, and the time to the second unless it is midnight. -/
def text (m : Moment) : String :=
  if m.clock = .midnight then m.write PatternItem.dateItems
  else m.write (PatternItem.dateItems ++ .blank ' ' :: PatternItem.timeItems)

end Moment

end Rowlang
