/-
Points in time to the nanosecond, without a time zone. A leap second is the second that follows the
59th of a minute under the same number: its nanoseconds count from a thousand million on.
-/
import Rollup.Calendar.Date

namespace Rollup

/-- A date and a time of day. -/
structure Timestamp where
  date : Date
  /-- The seconds since midnight. -/
  second : Nat
  nano : Nat
  second_lt : second < 86400
  nano_lt : nano < 2000000000
  deriving DecidableEq, Repr

namespace Timestamp

/-- A second of a day. -/
def atSecond (d : Date) (second : Nat) (h : second < 86400) : Timestamp :=
  ⟨d, second, 0, h, by decide⟩

/-- The first second of a date. -/
def midnight (d : Date) : Timestamp :=
  atSecond d 0 (by decide)

/-- The time of day an hour, a minute and a second give; second 60 is a leap second. -/
def of? (d : Date) (hour minute second nano : Nat) : Option Timestamp :=
  let leap := if second == 60 then 1 else 0
  let count := 3600 * hour + 60 * minute + (second - leap)
  let nano := nano + 1000000000 * leap
  if h : (hour < 24 ∧ minute < 60 ∧ second ≤ 60) ∧ count < 86400 ∧ nano < 2000000000 then
    some ⟨d, count, nano, h.2.1, h.2.2⟩
  else none

/-- Seconds since the first of January 1970; a leap second has the number of the one before. -/
def toEpoch (t : Timestamp) : Int :=
  86400 * t.date.toDays + t.second

theorem emod_day_lt (n : Int) : (n % 86400).toNat < 86400 := by
  omega

/-- The timestamp at a number of seconds since the first of January 1970, when the calendar has
the date. -/
def ofEpoch? (n : Int) : Option Timestamp :=
  (Date.ofDays? (n / 86400)).map fun d => atSecond d (n % 86400).toNat (emod_day_lt n)

/-- The timestamp some seconds later. Of a leap second only the number changes. -/
def later? (seconds : Int) (t : Timestamp) : Option Timestamp :=
  (ofEpoch? (t.toEpoch + seconds)).map fun u => { u with nano := t.nano, nano_lt := t.nano_lt }

/-- The hour of the day. -/
def hour (t : Timestamp) : Nat :=
  t.second / 3600

/-- The minute of the hour. -/
def minute (t : Timestamp) : Nat :=
  t.second / 60 % 60

/-- The second of the minute. -/
def secondOfMinute (t : Timestamp) : Nat :=
  t.second % 60

/-! ## Writing -/

/-- A number with zeros in front of it up to a width. -/
def padded (width n : Nat) : String :=
  let ds := Nat.toDigits 10 n
  String.ofList (List.replicate (width - ds.length) '0' ++ ds)

/-- A year of four digits; one before the year 0 or after 9999 has a sign. -/
def yearText (year : Int) : String :=
  let digits := padded 4 year.natAbs
  if year < 0 then "-" ++ digits else if 9999 < year then "+" ++ digits else digits

/-- A month behind its year. -/
def monthText (d : Date) : String :=
  yearText d.year ++ "-" ++ padded 2 d.month

/-- A date with dashes between its parts. -/
def dateText (d : Date) : String :=
  monthText d ++ "-" ++ padded 2 d.day

/-- A date and its hour. -/
def hourText (t : Timestamp) : String :=
  dateText t.date ++ "T" ++ padded 2 t.hour

/-- A date, its hour and the minute. -/
def minuteText (t : Timestamp) : String :=
  hourText t ++ ":" ++ padded 2 t.minute

/-- A fraction of a second in as many groups of three digits as it needs. -/
def fractionText (nano : Nat) : String :=
  if nano == 0 then ""
  else if nano % 1000000 == 0 then "." ++ padded 3 (nano / 1000000)
  else if nano % 1000 == 0 then "." ++ padded 6 (nano / 1000)
  else "." ++ padded 9 nano

/-- The timestamp to the second; a leap second is shown as the one before. -/
def secondText (t : Timestamp) : String :=
  minuteText t ++ ":" ++ padded 2 t.secondOfMinute

/-- The timestamp with all it holds; a leap second is number 60. -/
def text (t : Timestamp) : String :=
  let leap := t.nano / 1000000000
  minuteText t ++ ":" ++ padded 2 (t.secondOfMinute + leap) ++ fractionText (t.nano % 1000000000)

end Timestamp

end Rollup
