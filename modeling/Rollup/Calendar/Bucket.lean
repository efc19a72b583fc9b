/-
Time buckets: a timestamp cut down to the start of the second, minute, hour, day, week, month,
quarter or year it lies in. A week may start before the first date; such a bucket has no start.
-/
import Rollup.Calendar.Grain
import Rollup.Calendar.Reading

namespace Rollup

theorem firstMonthOfQuarter_le {month : Nat} (h : month ≤ 12) : (month - 1) / 3 * 3 + 1 ≤ 12 := by
  omega

namespace Grain

/-- The start of the week a date lies in. -/
def weekStart? (startsOnSunday : Bool) (d : Date) : Option Timestamp :=
  (Date.ofDays? (d.toDays - d.daysSince startsOnSunday)).map Timestamp.midnight

/-- The start of the last whole part of a day, of so many seconds, up to a timestamp. -/
def partStart (seconds : Nat) (t : Timestamp) : Timestamp :=
  .atSecond t.date (t.second / seconds * seconds)
    (Nat.lt_of_le_of_lt (Nat.div_mul_le_self _ _) t.second_lt)

/-- The start of the bucket a timestamp lies in. -/
def truncate? (g : Grain) (t : Timestamp) : Option Timestamp :=
  let firstOf (month : Nat) (h₁ : 1 ≤ month) (h₂ : month ≤ 12) :=
    some (Timestamp.midnight (t.date.firstOf month h₁ h₂))
  match g with
  | second => some (partStart 1 t)
  | minute => some (partStart 60 t)
  | hour => some (partStart 3600 t)
  | day => some (.midnight t.date)
  | isoWeek => weekStart? false t.date
  | week => weekStart? true t.date
  | month => firstOf t.date.month t.date.isDate.2.1.1 t.date.isDate.2.1.2
  | quarter => firstOf ((t.date.month - 1) / 3 * 3 + 1) (Nat.le_add_left 1 _)
      (firstMonthOfQuarter_le t.date.isDate.2.1.2)
  | year => firstOf 1 (Nat.le_refl 1) (by decide)

/-- How results show a timestamp at a grain. -/
def format (g : Grain) (t : Timestamp) : String :=
  match g with
  | second => t.secondText
  | minute => t.minuteText
  | hour => t.hourText
  | day | isoWeek | week => Timestamp.dateText t.date
  | month => Timestamp.monthText t.date
  | quarter => toString t.date.year ++ "-Q" ++ toString ((t.date.month - 1) / 3 + 1)
  | year => Timestamp.yearText t.date.year

end Grain

/-- A timestamp at a grain: the start of a bucket, unless it comes from a store, which is trusted. -/
structure Bucket where
  grain : Grain
  start : Timestamp
  deriving DecidableEq, Repr

/-- Why a value has no bucket. -/
inductive BucketFault where
  | notTimestamp
  /-- The week of the timestamp begins before the first date. It is counted back to without a check,
  so this is no answer: the program ends. -/
  | beforeCalendar
  deriving DecidableEq, Repr

namespace Bucket

/-- The bucket a timestamp lies in. -/
def of (g : Grain) (t : Timestamp) : Except BucketFault Bucket :=
  match g.truncate? t with
  | some start => .ok ⟨g, start⟩
  | none => .error .beforeCalendar

/-- The bucket of a timestamp, when one was found. -/
def ofFound (g : Grain) : Option Timestamp → Except BucketFault Bucket
  | some t => of g t
  | none => .error .notTimestamp

/-- The bucket of a timestamp in text. -/
def read (g : Grain) (s : String) : Except BucketFault Bucket :=
  ofFound g (Timestamp.read? s)

/-- The bucket of a number of seconds since 1970. -/
def ofEpoch (g : Grain) (n : Int) : Except BucketFault Bucket :=
  ofFound g (Timestamp.ofEpoch? n)

/-- The bucket as rows show it, in the form of its grain. -/
def display (b : Bucket) : String :=
  b.grain.format b.start

end Bucket

end Rollup
