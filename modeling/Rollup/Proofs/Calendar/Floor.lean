/-
Truncation as a floor. The units of a grain (its seconds, minutes, .., years) follow one another in
time, so each has a number that grows with the timestamps in it. Truncation goes to the start of the
unit a timestamp is in: not behind it, in the same unit, and to one start for the whole unit. All
that is expected of a floor follows from these three facts and the growing numbers.
-/
import Rollup.Calendar.Bucket
import Rollup.Proofs.Calendar.Days

namespace Rollup

namespace Timestamp

/-! ## The order -/

/-- The date, the second of the day and the nanosecond, the first one counting most. -/
def key (t : Timestamp) : Date ×ₗ Nat ×ₗ Nat :=
  toLex (t.date, toLex (t.second, t.nano))

theorem key_injective : Function.Injective key := by
  rintro ⟨d, s, n, _, _⟩ ⟨d', s', n', _, _⟩ h
  obtain ⟨rfl, rfl, rfl⟩ : d = d' ∧ s = s' ∧ n = n' := by simpa [key] using h
  rfl

instance : LinearOrder Timestamp :=
  LinearOrder.lift' key key_injective

theorem le_iff {t u : Timestamp} : t ≤ u ↔ t.date < u.date ∨
    t.date = u.date ∧ (t.second < u.second ∨ t.second = u.second ∧ t.nano ≤ u.nano) := by
  change t.key ≤ u.key ↔ _
  rw [key, key, Prod.Lex.toLex_le_toLex, Prod.Lex.toLex_le_toLex]

theorem date_mono : Monotone date := by
  intro t u h
  rcases le_iff.1 h with h | ⟨h, -⟩
  · exact h.le
  · exact h.le

theorem toEpoch_mono : Monotone toEpoch := by
  intro t u h
  have ht := t.second_lt
  rcases le_iff.1 h with h | ⟨h, hsecond⟩
  · have := Date.toDays_strictMono h
    simp only [toEpoch]
    omega
  · simp only [toEpoch, h]
    omega

theorem midnight_le {d : Date} {t : Timestamp} (h : d ≤ t.date) : midnight d ≤ t := by
  rcases h.lt_or_eq with h | h
  · exact le_iff.2 (.inl h)
  · refine le_iff.2 (.inr ⟨h, ?_⟩)
    change 0 < t.second ∨ 0 = t.second ∧ 0 ≤ t.nano
    omega

/-- The second after the 59th of a minute, which has the same number and more nanoseconds. -/
def IsLeapSecond (t : Timestamp) : Prop :=
  1000000000 ≤ t.nano

instance (t : Timestamp) : Decidable t.IsLeapSecond :=
  inferInstanceAs (Decidable (_ ≤ _))

/-- The second a clock shows; a leap second is number 60. -/
def clockSecond (t : Timestamp) : Nat :=
  t.secondOfMinute + t.nano / 1000000000

theorem clockSecond_of_not_leap {t : Timestamp} (h : ¬ t.IsLeapSecond) :
    t.clockSecond = t.second % 60 := by
  unfold IsLeapSecond at h
  unfold clockSecond secondOfMinute
  omega

end Timestamp

/-! ## Calendar units -/

/-- The quarter of the year a month is in. -/
def quarterOf (month : Nat) : Nat :=
  if month ≤ 3 then 1 else if month ≤ 6 then 2 else if month ≤ 9 then 3 else 4

/-- A Monday, the fifth of January 1970, or the Sunday before it. -/
def firstOfWeek (startsOnSunday : Bool) : Int :=
  if startsOnSunday then 3 else 4

/-- The number of the week a date is in, when weeks start on Mondays or on Sundays. -/
def Date.weekNumber (startsOnSunday : Bool) (d : Date) : Int :=
  (d.toDays - firstOfWeek startsOnSunday) / 7

namespace Grain

/-- Whether two timestamps are in the same calendar unit. -/
def SameUnit : Grain → Timestamp → Timestamp → Prop
  | second, t, u => t.date = u.date ∧ t.hour = u.hour ∧ t.minute = u.minute ∧
      t.clockSecond = u.clockSecond
  | minute, t, u => t.date = u.date ∧ t.hour = u.hour ∧ t.minute = u.minute
  | hour, t, u => t.date = u.date ∧ t.hour = u.hour
  | day, t, u => t.date = u.date
  | isoWeek, t, u => t.date.weekNumber false = u.date.weekNumber false
  | week, t, u => t.date.weekNumber true = u.date.weekNumber true
  | month, t, u => t.date.year = u.date.year ∧ t.date.month = u.date.month
  | quarter, t, u => t.date.year = u.date.year ∧ quarterOf t.date.month = quarterOf u.date.month
  | year, t, u => t.date.year = u.date.year

instance : (g : Grain) → (t u : Timestamp) → Decidable (g.SameUnit t u)
  | second, _, _ => inferInstanceAs (Decidable (_ ∧ _))
  | minute, _, _ => inferInstanceAs (Decidable (_ ∧ _))
  | hour, _, _ => inferInstanceAs (Decidable (_ ∧ _))
  | day, t, u => inferInstanceAs (Decidable (t.date = u.date))
  | isoWeek, t, u => inferInstanceAs (Decidable
      (t.date.weekNumber false = u.date.weekNumber false))
  | week, t, u => inferInstanceAs (Decidable
      (t.date.weekNumber true = u.date.weekNumber true))
  | month, _, _ => inferInstanceAs (Decidable (_ ∧ _))
  | quarter, _, _ => inferInstanceAs (Decidable (_ ∧ _))
  | year, t, u => inferInstanceAs (Decidable (t.date.year = u.date.year))

/-- The number of the unit a timestamp is in. -/
def unit : Grain → Timestamp → Int
  | second, t => t.toEpoch
  | minute, t => t.toEpoch / 60
  | hour, t => t.toEpoch / 3600
  | day, t => t.date.toDays
  | isoWeek, t => t.date.weekNumber false
  | week, t => t.date.weekNumber true
  | month, t => 12 * t.date.year + t.date.month
  | quarter, t => 4 * t.date.year + quarterOf t.date.month
  | year, t => t.date.year

theorem quarterOf_mem {month : Nat} (h₁ : 1 ≤ month) (h₂ : month ≤ 12) :
    quarterOf month = (month - 1) / 3 + 1 := by
  unfold quarterOf
  split
  · omega
  · split
    · omega
    · split <;> omega

variable {g : Grain} {t u : Timestamp}

/-- Units have the same number exactly if they are the same. -/
theorem sameUnit_iff (ht : ¬ t.IsLeapSecond) (hu : ¬ u.IsLeapSecond) :
    g.SameUnit t u ↔ g.unit t = g.unit u := by
  have hday : t.date = u.date ↔ t.date.toDays = u.date.toDays :=
    Date.toDays_strictMono.injective.eq_iff.symm
  have hseconds := And.intro t.second_lt u.second_lt
  have hmonths := And.intro t.date.isDate.2.1 u.date.isDate.2.1
  cases g with
  | second =>
    simp only [SameUnit, unit, hday, Timestamp.hour, Timestamp.minute,
      Timestamp.clockSecond_of_not_leap ht, Timestamp.clockSecond_of_not_leap hu, Timestamp.toEpoch]
    omega
  | minute =>
    simp only [SameUnit, unit, hday, Timestamp.hour, Timestamp.minute, Timestamp.toEpoch]
    omega
  | hour =>
    simp only [SameUnit, unit, hday, Timestamp.hour, Timestamp.toEpoch]
    omega
  | day => exact hday
  | isoWeek => exact Iff.rfl
  | week => exact Iff.rfl
  | month =>
    simp only [SameUnit, unit]
    omega
  | quarter =>
    simp only [SameUnit, unit, quarterOf_mem hmonths.1.1 hmonths.1.2,
      quarterOf_mem hmonths.2.1 hmonths.2.2]
    omega
  | year => exact Iff.rfl

theorem unit_mono (g : Grain) : Monotone g.unit := by
  intro t u h
  have hepoch := Timestamp.toEpoch_mono h
  have hdate := Timestamp.date_mono h
  have hdays := Date.toDays_strictMono.monotone hdate
  have hmonths := And.intro t.date.isDate.2.1 u.date.isDate.2.1
  cases g with
  | second => exact hepoch
  | minute => exact Int.ediv_le_ediv (by decide) hepoch
  | hour => exact Int.ediv_le_ediv (by decide) hepoch
  | day => exact hdays
  | isoWeek => exact Int.ediv_le_ediv (by decide) (Int.sub_le_sub_right hdays _)
  | week => exact Int.ediv_le_ediv (by decide) (Int.sub_le_sub_right hdays _)
  | month =>
    have := Date.le_iff.1 hdate
    simp only [unit]
    omega
  | quarter =>
    have := Date.le_iff.1 hdate
    simp only [unit, quarterOf_mem hmonths.1.1 hmonths.1.2, quarterOf_mem hmonths.2.1 hmonths.2.2]
    omega
  | year =>
    have := Date.le_iff.1 hdate
    simp only [unit]
    omega

/-! ## Starts of units -/

theorem weekStart_eq (startsOnSunday : Bool) (d : Date) :
    d.toDays - d.daysSince startsOnSunday =
      firstOfWeek startsOnSunday + 7 * d.weekNumber startsOnSunday := by
  cases startsOnSunday <;>
    simp only [Date.daysSince, Date.weekNumber, firstOfWeek, if_true, Bool.false_eq_true,
      if_false] <;>
    omega

theorem weekStart?_eq_some_iff {startsOnSunday : Bool} {d : Date} {u : Timestamp} :
    weekStart? startsOnSunday d = some u ↔ ∃ first : Date, u = .midnight first ∧
      first.toDays = firstOfWeek startsOnSunday + 7 * d.weekNumber startsOnSunday := by
  rw [weekStart?, weekStart_eq, Option.map_eq_some_iff]
  simp only [Date.ofDays?_eq_some_iff]
  exact exists_congr fun _ => and_comm.trans (and_congr_left fun _ => eq_comm)

/-- The start of a unit is not behind the timestamps in it. -/
theorem le_of_truncate? (h : g.truncate? t = some u) : u ≤ t := by
  have hpart (k : Nat) : partStart k t ≤ t := by
    have := Nat.div_mul_le_self t.second k
    refine Timestamp.le_iff.2 (.inr ⟨rfl, ?_⟩)
    change t.second / k * k < t.second ∨ t.second / k * k = t.second ∧ 0 ≤ t.nano
    omega
  have hfirst (month : Nat) (h₁ : 1 ≤ month) (h₂ : month ≤ 12) (hle : month ≤ t.date.month) :
      Timestamp.midnight (t.date.firstOf month h₁ h₂) ≤ t := by
    have hday := t.date.isDate.2.2.1
    refine Timestamp.midnight_le (Date.le_iff.2 (.inr ⟨rfl, ?_⟩))
    change month < t.date.month ∨ month = t.date.month ∧ 1 ≤ t.date.day
    omega
  have hweek {startsOnSunday : Bool} (h : weekStart? startsOnSunday t.date = some u) : u ≤ t := by
    obtain ⟨first, rfl, hfirst⟩ := weekStart?_eq_some_iff.1 h
    refine Timestamp.midnight_le (Date.toDays_strictMono.le_iff_le.1 ?_)
    rw [Date.weekNumber] at hfirst
    omega
  cases g with
  | second => cases h; exact hpart 1
  | minute => cases h; exact hpart 60
  | hour => cases h; exact hpart 3600
  | day => cases h; exact Timestamp.midnight_le (le_refl _)
  | isoWeek => exact hweek h
  | week => exact hweek h
  | month => cases h; exact hfirst _ _ _ (le_refl _)
  | quarter =>
    have := t.date.isDate.2.1.1
    cases h
    exact hfirst _ _ _ (by omega)
  | year => cases h; exact hfirst 1 _ _ t.date.isDate.2.1.1

/-- The start of a unit is in it. -/
theorem unit_of_truncate? (h : g.truncate? t = some u) : g.unit u = g.unit t := by
  have hsecond := t.second_lt
  have hweek {startsOnSunday : Bool} (h : weekStart? startsOnSunday t.date = some u) :
      u.date.weekNumber startsOnSunday = t.date.weekNumber startsOnSunday := by
    obtain ⟨first, rfl, hfirst⟩ := weekStart?_eq_some_iff.1 h
    change first.weekNumber startsOnSunday = _
    rw [Date.weekNumber, hfirst]
    omega
  cases g with
  | second =>
    cases h
    simp only [unit, Timestamp.toEpoch, partStart, Timestamp.atSecond]
    omega
  | minute =>
    cases h
    simp only [unit, Timestamp.toEpoch, partStart, Timestamp.atSecond]
    omega
  | hour =>
    cases h
    simp only [unit, Timestamp.toEpoch, partStart, Timestamp.atSecond]
    omega
  | day => cases h; rfl
  | isoWeek => exact hweek h
  | week => exact hweek h
  | month => cases h; rfl
  | quarter =>
    have hmonth := t.date.isDate.2.1
    cases h
    change 4 * t.date.year + ((quarterOf ((t.date.month - 1) / 3 * 3 + 1) : Nat) : Int) =
      4 * t.date.year + (quarterOf t.date.month : Int)
    rw [quarterOf_mem (by omega) (firstMonthOfQuarter_le hmonth.2), quarterOf_mem hmonth.1 hmonth.2]
    omega
  | year => cases h; rfl

/-- A unit has one start. -/
theorem truncate?_congr (h : g.unit t = g.unit u) : g.truncate? t = g.truncate? u := by
  have hseconds := And.intro t.second_lt u.second_lt
  have hmonths := And.intro t.date.isDate.2.1 u.date.isDate.2.1
  have hpart {k : Nat} (hdays : t.date.toDays = u.date.toDays)
      (hsecond : t.second / k = u.second / k) : partStart k t = partStart k u := by
    simp only [partStart, Date.toDays_strictMono.injective hdays, hsecond]
  have hfirst {m n : Nat} (hm h₁ hn h₂) (hyear : t.date.year = u.date.year) (hmn : m = n) :
      Timestamp.midnight (t.date.firstOf m hm h₁) = .midnight (u.date.firstOf n hn h₂) := by
    subst hmn
    simp only [Date.firstOf, hyear]
  have hweek {startsOnSunday : Bool} (h : t.date.weekNumber startsOnSunday =
      u.date.weekNumber startsOnSunday) :
      weekStart? startsOnSunday t.date = weekStart? startsOnSunday u.date := by
    simp only [weekStart?, weekStart_eq, h]
  cases g with
  | second =>
    simp only [unit, Timestamp.toEpoch] at h
    exact congrArg some (hpart (by omega) (by omega))
  | minute =>
    simp only [unit, Timestamp.toEpoch] at h
    exact congrArg some (hpart (by omega) (by omega))
  | hour =>
    simp only [unit, Timestamp.toEpoch] at h
    exact congrArg some (hpart (by omega) (by omega))
  | day =>
    exact congrArg (some ∘ Timestamp.midnight) (Date.toDays_strictMono.injective h)
  | isoWeek => exact hweek h
  | week => exact hweek h
  | month =>
    simp only [unit] at h
    exact congrArg some (hfirst _ _ _ _ (by omega) (by omega))
  | quarter =>
    simp only [unit, quarterOf_mem hmonths.1.1 hmonths.1.2,
      quarterOf_mem hmonths.2.1 hmonths.2.2] at h
    exact congrArg some (hfirst _ _ _ _ (by omega) (by omega))
  | year => exact congrArg some (hfirst _ _ _ _ h rfl)

/-! ## Units inside units -/

/-- The grains whose units are each inside one unit of the grain. -/
def parts : Grain → List Grain
  | second => [second]
  | minute => [second, minute]
  | hour => [second, minute, hour]
  | day => [second, minute, hour, day]
  | isoWeek => [second, minute, hour, day, isoWeek]
  | week => [second, minute, hour, day, week]
  | month => [second, minute, hour, day, month]
  | quarter => [second, minute, hour, day, month, quarter]
  | year => [second, minute, hour, day, month, quarter, year]

/-- Two timestamps with a boundary between them where a unit of the grain ends, and no unit of
another grain but its parts. -/
def apart : Grain → Timestamp × Timestamp
  | second => (noon ⟨2024, 5, 15, by decide⟩ 0, noon ⟨2024, 5, 15, by decide⟩ 1)
  | minute => (noon ⟨2024, 5, 15, by decide⟩ 0, noon ⟨2024, 5, 15, by decide⟩ 60)
  | hour => (noon ⟨2024, 5, 15, by decide⟩ 0, noon ⟨2024, 5, 15, by decide⟩ 3600)
  | day => (noon ⟨2024, 5, 15, by decide⟩ 0, noon ⟨2024, 5, 16, by decide⟩ 0)
  | isoWeek => (noon ⟨2024, 5, 12, by decide⟩ 0, noon ⟨2024, 5, 13, by decide⟩ 0)
  | week => (noon ⟨2024, 5, 11, by decide⟩ 0, noon ⟨2024, 5, 12, by decide⟩ 0)
  | month => (noon ⟨2024, 2, 29, by decide⟩ 0, noon ⟨2024, 3, 1, by decide⟩ 0)
  | quarter => (noon ⟨2022, 6, 30, by decide⟩ 0, noon ⟨2022, 7, 1, by decide⟩ 0)
  | year => (noon ⟨2024, 12, 31, by decide⟩ 0, noon ⟨2025, 1, 1, by decide⟩ 0)
where
  noon (d : Date) (later : Fin 3601) : Timestamp :=
    .atSecond d (43200 + later) (by omega)

theorem mem_all (g : Grain) : g ∈ all := by
  cases g <;> decide

/-- The parts of a grain are all the grains whose units are each inside one of its own. -/
theorem mem_parts_iff {f g : Grain} :
    f ∈ g.parts ↔ ∀ t u, f.SameUnit t u → g.SameUnit t u := by
  constructor
  · intro hpart t u h
    cases g <;> simp only [parts, List.mem_cons, List.not_mem_nil, or_false] at hpart <;>
      rcases hpart with rfl | rfl | rfl | rfl | rfl | rfl | rfl <;>
      simp_all [SameUnit]
  · intro h
    by_contra hpart
    have hapart : ∀ f ∈ all, ∀ g ∈ all, f ∉ g.parts →
        f.SameUnit g.apart.1 g.apart.2 ∧ ¬ g.SameUnit g.apart.1 g.apart.2 := by
      decide +kernel
    obtain ⟨hsame, hdiffer⟩ := hapart f (mem_all f) g (mem_all g) hpart
    exact hdiffer (h _ _ hsame)

/-! ## The floor -/

variable {g : Grain} {t u start later : Timestamp}

theorem nano_of_truncate? (h : g.truncate? t = some start) : start.nano = 0 := by
  have hweek {startsOnSunday : Bool} (h : weekStart? startsOnSunday t.date = some start) :
      start.nano = 0 := by
    obtain ⟨first, rfl, -⟩ := weekStart?_eq_some_iff.1 h
    rfl
  cases g <;> first | exact hweek h | (cases h; rfl)

theorem not_isLeapSecond_of_truncate? (h : g.truncate? t = some start) :
    ¬ start.IsLeapSecond := by
  rw [Timestamp.IsLeapSecond, nano_of_truncate? h]
  decide

/-- The start of a unit is its own start. -/
theorem truncate?_start (h : g.truncate? t = some start) : g.truncate? start = some start := by
  rw [truncate?_congr (unit_of_truncate? h), h]

theorem truncate?_mono (hle : t ≤ u) (ht : g.truncate? t = some start)
    (hu : g.truncate? u = some later) : start ≤ later := by
  rcases le_or_gt later t with hlater | hlater
  · -- a timestamp between the start of a unit and one in it is in the unit as well
    have hunit : g.unit t = g.unit u := by
      refine le_antisymm (unit_mono g hle) ?_
      rw [← unit_of_truncate? hu]
      exact unit_mono g hlater
    have hsame : some start = some later := by
      rw [← ht, ← hu, truncate?_congr hunit]
    exact (Option.some.inj hsame).le
  · exact (le_of_truncate? ht).trans hlater.le

/-- Two units have one start exactly if they are the same. -/
theorem truncate?_eq_iff (ht : g.truncate? t = some start) (hu : g.truncate? u = some later) :
    start = later ↔ g.unit t = g.unit u := by
  constructor
  · rintro rfl
    rw [← unit_of_truncate? ht, unit_of_truncate? hu]
  · intro hunit
    have hsame : some start = some later := by
      rw [← ht, ← hu, truncate?_congr hunit]
    exact Option.some.inj hsame

/-- Where a unit has a start, so have its parts. -/
theorem exists_truncate?_of_mem_parts {f : Grain} (hpart : f ∈ g.parts)
    (ht : g.truncate? t = some start) : ∃ first, f.truncate? t = some first := by
  -- of the units that may have no start, the weeks, each is part of itself only
  by_cases hweek : f = isoWeek ∨ f = week
  · have hself : f = g := by
      rcases hweek with rfl | rfl <;> revert hpart <;> cases g <;> decide
    exact ⟨start, hself ▸ ht⟩
  · cases f <;> first | exact ⟨_, rfl⟩ | exact (hweek (by decide)).elim

theorem truncate?_part {f : Grain} (hpart : f ∈ g.parts) (hleap : ¬ t.IsLeapSecond)
    (ht : g.truncate? t = some start) : (f.truncate? t).bind g.truncate? = some start := by
  obtain ⟨first, hfirst⟩ := exists_truncate?_of_mem_parts hpart ht
  have hstart := not_isLeapSecond_of_truncate? hfirst
  have hsame : f.SameUnit first t := (sameUnit_iff hstart hleap).2 (unit_of_truncate? hfirst)
  have hunit : g.unit first = g.unit t :=
    (sameUnit_iff hstart hleap).1 (mem_parts_iff.1 hpart _ _ hsame)
  rw [hfirst, Option.bind_some, truncate?_congr hunit, ht]

/-- Truncation is a floor on the calendar units of the grain. It leads to no later time, is done
after one time, keeps the order, and makes two times equal exactly if they are in the same unit;
and truncating before to a grain whose units are parts of those makes no difference. -/
theorem truncate?_isFloor (g : Grain) {t u start later : Timestamp} (hle : t ≤ u)
    (htleap : ¬ t.IsLeapSecond) (huleap : ¬ u.IsLeapSecond)
    (ht : g.truncate? t = some start) (hu : g.truncate? u = some later) :
    start ≤ t ∧ g.truncate? start = some start ∧ start ≤ later ∧
      (start = later ↔ g.SameUnit t u) ∧
      ∀ f : Grain, (∀ v w, f.SameUnit v w → g.SameUnit v w) →
        (f.truncate? t).bind g.truncate? = some start :=
  ⟨le_of_truncate? ht, truncate?_start ht, truncate?_mono hle ht hu,
    (truncate?_eq_iff ht hu).trans (sameUnit_iff htleap huleap).symm,
    fun _ hinside => truncate?_part (mem_parts_iff.2 hinside) htleap ht⟩

/-- The end of the leap day of 2024, a Thursday. -/
def leapDay : Timestamp :=
  ⟨⟨2024, 2, 29, by decide⟩, 86399, 500000000, by decide, by decide⟩

/-- The Sunday of that week, and the Monday it began on. -/
def sundayBehind : Timestamp :=
  .midnight ⟨2024, 3, 3, by decide⟩

/-- The Monday that week began on. -/
def mondayBefore : Timestamp :=
  .midnight ⟨2024, 2, 26, by decide⟩

/-- One week of two months. -/
theorem truncate?_isFloor_leapDay : leapDay ≤ sundayBehind ∧
    isoWeek.truncate? leapDay = some mondayBefore ∧
    isoWeek.truncate? sundayBehind = some mondayBefore ∧ mondayBefore ≤ leapDay ∧
    isoWeek.SameUnit leapDay sundayBehind ∧
    (hour.truncate? leapDay).bind isoWeek.truncate? = some mondayBefore := by
  have hle : leapDay ≤ sundayBehind := Timestamp.le_iff.2 (.inl (Date.lt_iff.2 (by decide)))
  have ht : isoWeek.truncate? leapDay = some mondayBefore := by decide +kernel
  have hu : isoWeek.truncate? sundayBehind = some mondayBefore := by decide +kernel
  obtain ⟨hstart, -, -, hunit, hparts⟩ :=
    truncate?_isFloor isoWeek hle (by decide) (by decide) ht hu
  exact ⟨hle, ht, hu, hstart, hunit.1 rfl, hparts hour (mem_parts_iff.1 (by decide))⟩

end Grain

end Rollup
