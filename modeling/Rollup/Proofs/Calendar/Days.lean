/-
Dates in their order, and their day numbers. Dates are ordered by the year, the month and the day.
The numbers follow one another in that order without a gap: they grow with the dates, every number
from that of the first date to that of the last has a date, and `ofDays?` finds it.
-/
import Mathlib
import Rollup.Calendar.Date

namespace Rollup

/-! ## Years -/

theorem yearStart_mono {y z : Int} (h : y ≤ z) : yearStart y ≤ yearStart z := by
  unfold yearStart
  omega

/-! ## Months -/

theorem daysBefore_succ (leap : Bool) {month : Nat} (h : 1 ≤ month) :
    daysBefore leap (month + 1) = daysBefore leap month + daysIn leap month := by
  obtain ⟨k, rfl⟩ := Nat.exists_eq_add_of_le' h
  rfl

theorem daysBefore_mono (leap : Bool) {month later : Nat} (h : month ≤ later) :
    daysBefore leap month ≤ daysBefore leap later := by
  induction later, h using Nat.le_induction with
  | base => exact Nat.le_refl _
  | succ later _ ih =>
    cases later with
    | zero => exact ih
    | succ k => exact Nat.le_trans ih (Nat.le_add_right _ _)

theorem daysBefore_year (leap : Bool) : daysBefore leap 13 = daysInYear leap := by
  cases leap <;> rfl

/-- The month and day that a day of the year is told by count as many days as it has before it. -/
theorem daysBefore_monthFrom (leap : Bool) (left : Nat) {month : Nat} (day : Nat) (h : 1 ≤ month) :
    daysBefore leap (monthFrom leap left month day).1 + (monthFrom leap left month day).2 =
      daysBefore leap month + day + 1 := by
  induction left generalizing month day with
  | zero => exact (Nat.add_assoc _ _ _).symm
  | succ left ih =>
    rw [monthFrom]
    split
    · exact (Nat.add_assoc _ _ _).symm
    · have := daysBefore_succ leap h
      rw [ih _ (Nat.le_add_left 1 month)]
      omega

namespace Date

/-! ## The order -/

/-- The year, the month and the day, the first one counting most. -/
def key (d : Date) : Int ×ₗ Nat ×ₗ Nat :=
  toLex (d.year, toLex (d.month, d.day))

theorem key_injective : Function.Injective key := by
  rintro ⟨y, m, d, _⟩ ⟨y', m', d', _⟩ h
  obtain ⟨rfl, rfl, rfl⟩ : y = y' ∧ m = m' ∧ d = d' := by simpa [key] using h
  rfl

instance : LinearOrder Date :=
  LinearOrder.lift' key key_injective

theorem lt_iff {d e : Date} : d < e ↔ d.year < e.year ∨
    d.year = e.year ∧ (d.month < e.month ∨ d.month = e.month ∧ d.day < e.day) := by
  change d.key < e.key ↔ _
  rw [key, key, Prod.Lex.toLex_lt_toLex, Prod.Lex.toLex_lt_toLex]

theorem le_iff {d e : Date} : d ≤ e ↔ d.year < e.year ∨
    d.year = e.year ∧ (d.month < e.month ∨ d.month = e.month ∧ d.day ≤ e.day) := by
  change d.key ≤ e.key ↔ _
  rw [key, key, Prod.Lex.toLex_le_toLex, Prod.Lex.toLex_le_toLex]

/-! ## Day numbers -/

/-- The number of a date is in its month. -/
theorem toDays_mem_month (d : Date) :
    yearStart d.year + daysBefore (isLeap d.year) d.month ≤ d.toDays ∧
      d.toDays < yearStart d.year + daysBefore (isLeap d.year) (d.month + 1) := by
  obtain ⟨-, ⟨hmonth, -⟩, hday, hlast⟩ := d.isDate
  rw [daysBefore_succ _ hmonth, toDays]
  omega

/-- The number of a date is in its year. -/
theorem toDays_mem_year (d : Date) :
    yearStart d.year ≤ d.toDays ∧ d.toDays < yearStart (d.year + 1) := by
  have hmonth := d.toDays_mem_month
  have hlast : daysBefore (isLeap d.year) (d.month + 1) ≤ daysInYear (isLeap d.year) :=
    (daysBefore_mono _ (Nat.succ_le_succ d.isDate.2.1.2)).trans (daysBefore_year _).le
  rw [yearStart_succ]
  omega

theorem toDays_strictMono : StrictMono toDays := by
  intro d e h
  rcases lt_iff.1 h with hyear | ⟨hyear, hmonth | ⟨hmonth, hday⟩⟩
  · exact d.toDays_mem_year.2.trans_le ((yearStart_mono hyear).trans e.toDays_mem_year.1)
  · have hd := d.toDays_mem_month.2
    have he := e.toDays_mem_month.1
    have hmonths := daysBefore_mono (isLeap e.year) (show d.month + 1 ≤ e.month from hmonth)
    rw [hyear] at hd
    omega
  · simp only [toDays, hyear, hmonth]
    omega

/-- The number of the first date. -/
def firstDay : Int :=
  yearStart firstYear

/-- The number of the last date. -/
def lastDay : Int :=
  yearStart (lastYear + 1) - 1

theorem toDays_mem (d : Date) : firstDay ≤ d.toDays ∧ d.toDays ≤ lastDay := by
  have hfirst := yearStart_mono d.isDate.1.1
  have hlast := yearStart_mono (Int.add_le_add_right d.isDate.1.2 1)
  have hyear := d.toDays_mem_year
  unfold firstDay lastDay
  omega

/-- A day number has a date between those of the first and the last one, and it is found. -/
theorem exists_of_mem_days {n : Int} (hfirst : firstDay ≤ n) (hlast : n ≤ lastDay) :
    ∃ d, ofDays? n = some d ∧ d.toDays = n := by
  obtain ⟨hle, hlt⟩ := yearStart_le_lt n
  have hyear : firstYear ≤ yearOf n ∧ yearOf n ≤ lastYear := by
    constructor <;> by_contra hout
    · have := yearStart_mono (show yearOf n + 1 ≤ firstYear by omega)
      unfold firstDay at hfirst
      omega
    · have := yearStart_mono (show lastYear + 1 ≤ yearOf n by omega)
      unfold lastDay at hlast
      omega
  have hday : (n - yearStart (yearOf n)).toNat < daysInYear (isLeap (yearOf n)) := by
    rw [yearStart_succ] at hlt
    omega
  obtain ⟨hmonth, hone, hdays⟩ := monthAndDay_valid _ _ hday
  refine ⟨⟨yearOf n, _, _, hyear, hmonth, hone, hdays⟩, dif_pos ⟨hyear, hmonth, hone, hdays⟩, ?_⟩
  have hcount := daysBefore_monthFrom (isLeap (yearOf n)) 11 (n - yearStart (yearOf n)).toNat
    (Nat.le_refl 1)
  simp only [toDays, monthAndDay] at hone ⊢
  have hjanuary : daysBefore (isLeap (yearOf n)) 1 = 0 := rfl
  omega

theorem ofDays?_toDays (d : Date) : ofDays? d.toDays = some d := by
  obtain ⟨e, he, hdays⟩ := exists_of_mem_days d.toDays_mem.1 d.toDays_mem.2
  rw [he, toDays_strictMono.injective hdays]

theorem of?_eq_some_iff {year : Int} {month day : Nat} {d : Date} :
    of? year month day = some d ↔ d.year = year ∧ d.month = month ∧ d.day = day := by
  constructor
  · intro h
    obtain ⟨_, ⟨⟩⟩ := Option.dite_none_right_eq_some.1 h
    exact ⟨rfl, rfl, rfl⟩
  · rintro ⟨rfl, rfl, rfl⟩
    exact dif_pos d.isDate

/-- Only the numbers from the first date to the last one have dates. -/
theorem mem_days_of_ofDays? {n : Int} {d : Date} (h : ofDays? n = some d) :
    firstDay ≤ n ∧ n ≤ lastDay := by
  obtain ⟨hle, hlt⟩ := yearStart_le_lt n
  have hyear : d.year = yearOf n := (of?_eq_some_iff.1 h).1
  have hfirst := yearStart_mono d.isDate.1.1
  have hlast := yearStart_mono (Int.add_le_add_right d.isDate.1.2 1)
  rw [hyear] at hfirst hlast
  unfold firstDay lastDay
  omega

theorem ofDays?_eq_some_iff {n : Int} {d : Date} : ofDays? n = some d ↔ d.toDays = n := by
  constructor
  · intro h
    obtain ⟨hfirst, hlast⟩ := mem_days_of_ofDays? h
    obtain ⟨e, he, hdays⟩ := exists_of_mem_days hfirst hlast
    cases h.symm.trans he
    exact hdays
  · rintro rfl
    exact d.ofDays?_toDays

theorem ofDays?_eq_none_iff {n : Int} : ofDays? n = none ↔ n < firstDay ∨ lastDay < n := by
  constructor
  · intro h
    by_contra hmem
    obtain ⟨d, hd, -⟩ := exists_of_mem_days (n := n) (by omega) (by omega)
    cases h.symm.trans hd
  · intro h
    rw [Option.eq_none_iff_forall_ne_some]
    intro d hd
    obtain ⟨hfirst, hlast⟩ := mem_days_of_ofDays? hd
    omega

end Date

end Rollup
