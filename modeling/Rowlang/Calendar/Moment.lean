import Rowlang.Calendar.Date

/-!
# Moments

A day together with a time of day, without a time zone. A minute may have a leap second: then the
nanoseconds of its last second go beyond one second.

* `Clock.of?` : the time with given hours, minutes, seconds and nanoseconds;
* `Moment.timestamp`, `Moment.ofTimestamp?` : seconds from the first of January 1970;
* `Moment.compare` : the order in time.
-/

namespace Rowlang

/-- The nanoseconds of a second. -/
def nanosPerSecond : Nat := 1000000000

/-- Whether a second of the day and its nanoseconds make a time. -/
def isClock (seconds nanos : Nat) : Bool :=
  seconds < 86400 && nanos < 2 * nanosPerSecond && (nanos < nanosPerSecond || seconds % 60 == 59)

/-- A time of day. -/
structure Clock where
  seconds : Nat
  nanos : Nat
  valid : isClock seconds nanos = true
deriving DecidableEq, Repr

namespace Clock

def midnight : Clock := ⟨0, 0, by decide⟩

def of? (hour minute second nanos : Nat) : Option Clock :=
  let seconds := hour * 3600 + minute * 60 + second
  if h : minute < 60 ∧ second < 60 ∧ isClock seconds nanos = true then
    some ⟨seconds, nanos, h.2.2⟩
  else none

def hour (t : Clock) : Nat := t.seconds / 3600

def hour12 (t : Clock) : Nat := if t.hour % 12 = 0 then 12 else t.hour % 12

def isAfternoon (t : Clock) : Bool := 12 ≤ t.hour

def minute (t : Clock) : Nat := t.seconds / 60 % 60

/-- The second of the minute, 60 in a leap second. -/
def second (t : Clock) : Nat := t.seconds % 60 + t.nanos / nanosPerSecond

def fraction (t : Clock) : Nat := t.nanos % nanosPerSecond

end Clock

/-- A day and a time. -/
structure Moment where
  date : Date
  clock : Clock
deriving DecidableEq, Repr

namespace Moment

def compare (a b : Moment) : Ordering :=
  (a.date.compare b.date).then
    ((Ord.compare a.clock.seconds b.clock.seconds).then (Ord.compare a.clock.nanos b.clock.nanos))

def epoch : Int := 719163

def timestamp (m : Moment) : Int := (m.date.dayNumber - epoch) * 86400 + m.clock.seconds

def ofTimestamp? (n : Int) : Option Moment := do
  let date ← Date.ofDayNumber? (n / 86400 + epoch)
  let seconds := (n % 86400).toNat
  let clock ← Clock.of? (seconds / 3600) (seconds / 60 % 60) (seconds % 60) 0
  return ⟨date, clock⟩

end Moment

end Rowlang
