/-
Timestamps in a week that began before the first date. The first date is a Thursday, so the three
days before the first Sunday, and the four before the first Monday, are in weeks that start before
the calendar.
Reading a timestamp gives a bucket or finds that there is none, unless it is in these days and the
grain is that week; then the program ends. No other timestamp of the calendar has this fault.
-/
import Rollup.Proofs.Calendar.Floor

namespace Rollup

namespace Grain

/-- How many days at the beginning of the calendar are in a unit that began before it. -/
def cutDays : Grain → Nat
  | isoWeek => 4
  | week => 3
  | _ => 0

variable {g : Grain} {t : Timestamp}

/-- Only of a week the start may be missing, in the days before the first one that begins. -/
theorem truncate?_eq_none_iff :
    g.truncate? t = none ↔ t.date.toDays < Date.firstDay + g.cutDays := by
  have hdays := t.date.toDays_mem
  have hfirst : Date.firstDay = -96465292 := by decide
  have hstart {u : Timestamp} (h : g.truncate? t = some u) (hcut : g.cutDays = 0) :
      g.truncate? t = none ↔ t.date.toDays < Date.firstDay + g.cutDays := by
    simp only [h, reduceCtorEq, hcut, false_iff]
    omega
  have hweek (startsOnSunday : Bool) : weekStart? startsOnSunday t.date = none ↔
      firstOfWeek startsOnSunday + 7 * t.date.weekNumber startsOnSunday < Date.firstDay := by
    have hlast : firstOfWeek startsOnSunday + 7 * t.date.weekNumber startsOnSunday ≤
        t.date.toDays := by
      rw [Date.weekNumber]
      omega
    rw [weekStart?, weekStart_eq, Option.map_eq_none_iff, Date.ofDays?_eq_none_iff]
    omega
  cases g with
  | isoWeek =>
    refine (hweek false).trans ?_
    simp only [Date.weekNumber, firstOfWeek, cutDays, Bool.false_eq_true, if_false]
    omega
  | week =>
    refine (hweek true).trans ?_
    simp only [Date.weekNumber, firstOfWeek, cutDays, if_true]
    omega
  | second | minute | hour | day | month | quarter | year => exact hstart rfl rfl

end Grain

/-! ## Seconds since 1970 -/

namespace Timestamp

/-- A number of seconds is in the day it is divided into, if that is one of the calendar. -/
theorem ofEpoch?_eq_some {n : Int} {t : Timestamp} (h : ofEpoch? n = some t) :
    t.date.toDays = n / 86400 := by
  obtain ⟨d, hd, rfl⟩ := Option.map_eq_some_iff.1 h
  exact Date.ofDays?_eq_some_iff.1 hd

theorem ofEpoch?_eq_none_iff {n : Int} :
    ofEpoch? n = none ↔ n < 86400 * Date.firstDay ∨ 86400 * (Date.lastDay + 1) ≤ n := by
  rw [ofEpoch?, Option.map_eq_none_iff, Date.ofDays?_eq_none_iff]
  omega

end Timestamp

namespace Bucket

variable {g : Grain}

theorem of_eq_beforeCalendar_iff {t : Timestamp} :
    of g t = .error .beforeCalendar ↔ t.date.toDays < Date.firstDay + g.cutDays := by
  rw [← Grain.truncate?_eq_none_iff, of]
  cases g.truncate? t <;> simp

theorem ofFound_eq_beforeCalendar_iff {found : Option Timestamp} :
    ofFound g found = .error .beforeCalendar ↔
      ∃ t, found = some t ∧ t.date.toDays < Date.firstDay + g.cutDays := by
  cases found with
  | none => simp [ofFound]
  | some t => simp [ofFound, of_eq_beforeCalendar_iff]

theorem ofFound_eq_notTimestamp_iff {found : Option Timestamp} :
    ofFound g found = .error .notTimestamp ↔ found = none := by
  cases found with
  | none => simp [ofFound]
  | some t =>
    rw [ofFound, of]
    cases g.truncate? t <;> simp

/-- Reading a timestamp ends the program exactly in the days at the beginning of the calendar that
are in a week begun before. Any other number of seconds, and any other text, gives a bucket or is
found to be no timestamp: the numbers outside the calendar, and the texts that are not read. -/
theorem read_beforeCalendar_iff (g : Grain) :
    (∀ n : Int64,
      (ofEpoch g n.toInt = .error .beforeCalendar ↔
        86400 * Date.firstDay ≤ n.toInt ∧ n.toInt < 86400 * (Date.firstDay + g.cutDays)) ∧
      (ofEpoch g n.toInt = .error .notTimestamp ↔
        n.toInt < 86400 * Date.firstDay ∨ 86400 * (Date.lastDay + 1) ≤ n.toInt)) ∧
    ∀ s,
      (read g s = .error .beforeCalendar ↔
        ∃ t, Timestamp.read? s = some t ∧ t.date.toDays < Date.firstDay + g.cutDays) ∧
      (read g s = .error .notTimestamp ↔ Timestamp.read? s = none) := by
  refine ⟨fun n => ⟨?_, ofFound_eq_notTimestamp_iff.trans Timestamp.ofEpoch?_eq_none_iff⟩,
    fun s => ⟨ofFound_eq_beforeCalendar_iff, ofFound_eq_notTimestamp_iff⟩⟩
  rw [ofEpoch, ofFound_eq_beforeCalendar_iff]
  constructor
  · rintro ⟨t, ht, hcut⟩
    have hday := Timestamp.ofEpoch?_eq_some ht
    have hfirst := t.date.toDays_mem.1
    omega
  · rintro ⟨hfirst, hcut⟩
    cases ht : Timestamp.ofEpoch? n.toInt with
    | none =>
      have hout := Timestamp.ofEpoch?_eq_none_iff.1 ht
      have hlast : Date.firstDay + g.cutDays ≤ Date.lastDay := by
        cases g <;> decide
      omega
    | some t =>
      have hday := Timestamp.ofEpoch?_eq_some ht
      exact ⟨t, rfl, by omega⟩

/-- The first second of the calendar, at the grain of weeks, and the last minute before its first
Monday, at that of ISO weeks. -/
theorem read_beforeCalendar_firstDays :
    ofEpoch .week (-8334601228800 : Int64).toInt = .error .beforeCalendar ∧
      read .isoWeek "-262143-01-04 23:59" = .error .beforeCalendar := by
  decide +kernel

end Bucket

end Rollup
