/-
Dates of the proleptic Gregorian calendar, and their day numbers. Day 0 is the first of January 1970.
A day number between those of the first and the last date has exactly one date: `ofDays?` finds it,
and the date it finds is valid by `yearStart_le_lt` and `monthAndDay_valid`.
-/

namespace Rollup

/-! ## Years and months -/

/-- Every fourth year is leap, but of the hundredth ones only every fourth. -/
def isLeap (year : Int) : Bool :=
  year % 4 == 0 && (year % 100 != 0 || year % 400 == 0)

/-- The number of days in a month. -/
def daysIn (leap : Bool) (month : Nat) : Nat :=
  if month == 2 then (if leap then 29 else 28)
  else if month == 4 || month == 6 || month == 9 || month == 11 then 30 else 31

/-- The number of days of the year before a month begins. -/
def daysBefore (leap : Bool) : (month : Nat) → Nat
  | 0 | 1 => 0
  | month + 2 => daysBefore leap (month + 1) + daysIn leap (month + 1)

/-- The days of a leap year or of a common one. -/
def daysInYear (leap : Bool) : Nat :=
  if leap then 366 else 365

/-- The day number of the first of January. -/
def yearStart (year : Int) : Int :=
  365 * (year - 1) + (year - 1) / 4 - (year - 1) / 100 + (year - 1) / 400 - 719162

theorem yearStart_succ (year : Int) :
    yearStart (year + 1) = yearStart year + daysInYear (isLeap year) := by
  by_cases h₄ : year % 4 = 0 <;> by_cases h₁ : year % 100 = 0 <;> by_cases h₂ : year % 400 = 0 <;>
    simp [yearStart, daysInYear, isLeap, h₄, h₁, h₂] <;> omega

/-- The year a day is in: by the mean length of a year it is off by one at most. -/
def yearOf (n : Int) : Int :=
  let guess := (400 * (n + 719162)) / 146097 + 1
  if n < yearStart guess then guess - 1
  else if yearStart (guess + 1) ≤ n then guess + 1 else guess

theorem yearStart_le_lt (n : Int) : yearStart (yearOf n) ≤ n ∧ n < yearStart (yearOf n + 1) := by
  simp only [yearOf]
  split
  · simp only [yearStart] at *
    omega
  · split <;> simp only [yearStart] at * <;> omega

/-- The month from `month` on that a day of the year falls in, with the day of the month. -/
def monthFrom (leap : Bool) : (left month day : Nat) → Nat × Nat
  | 0, month, day => (month, day + 1)
  | left + 1, month, day =>
    if day < daysIn leap month then (month, day + 1)
    else monthFrom leap left (month + 1) (day - daysIn leap month)

/-- The month and the day of the month of a day of the year, of which the first is number 0. -/
def monthAndDay (leap : Bool) (day : Nat) : Nat × Nat :=
  monthFrom leap 11 1 day

theorem monthAndDay_valid : ∀ leap, ∀ day < daysInYear leap,
    (1 ≤ (monthAndDay leap day).1 ∧ (monthAndDay leap day).1 ≤ 12) ∧
      (1 ≤ (monthAndDay leap day).2 ∧
        (monthAndDay leap day).2 ≤ daysIn leap (monthAndDay leap day).1) := by
  decide +kernel

/-! ## Dates -/

/-- The first year that has dates. -/
def firstYear : Int := -262143

/-- The last year that has dates. -/
def lastYear : Int := 262142

/-- Whether there is such a date. -/
def IsDate (year : Int) (month day : Nat) : Prop :=
  (firstYear ≤ year ∧ year ≤ lastYear) ∧ (1 ≤ month ∧ month ≤ 12) ∧
    (1 ≤ day ∧ day ≤ daysIn (isLeap year) month)

instance (year : Int) (month day : Nat) : Decidable (IsDate year month day) :=
  inferInstanceAs (Decidable (_ ∧ _))

/-- A date of the calendar. -/
structure Date where
  year : Int
  month : Nat
  day : Nat
  isDate : IsDate year month day
  deriving DecidableEq, Repr

namespace Date

/-- The date with a year, a month and a day, when there is one. -/
def of? (year : Int) (month day : Nat) : Option Date :=
  if h : IsDate year month day then some ⟨year, month, day, h⟩ else none

/-- The day number. -/
def toDays (d : Date) : Int :=
  yearStart d.year + daysBefore (isLeap d.year) d.month + (d.day - 1)

/-- The date with a day number, when it is one of the calendar. -/
def ofDays? (n : Int) : Option Date :=
  let year := yearOf n
  let (month, day) := monthAndDay (isLeap year) (n - yearStart year).toNat
  of? year month day

/-- The number of days since the last Monday, or since the last Sunday when weeks start there. -/
def daysSince (startsOnSunday : Bool) (d : Date) : Nat :=
  ((d.toDays + if startsOnSunday then 4 else 3) % 7).toNat

theorem isDate_firstOf {year : Int} {month day : Nat} (h : IsDate year month day) {first : Nat}
    (h₁ : 1 ≤ first) (h₂ : first ≤ 12) : IsDate year first 1 := by
  refine ⟨h.1, ⟨h₁, h₂⟩, Nat.le_refl 1, ?_⟩
  unfold daysIn
  split
  · split <;> decide
  · split <;> decide

/-- The first day of a month of the same year. -/
def firstOf (d : Date) (month : Nat) (h₁ : 1 ≤ month) (h₂ : month ≤ 12) : Date :=
  ⟨d.year, month, 1, isDate_firstOf d.isDate h₁ h₂⟩

end Date

end Rollup
