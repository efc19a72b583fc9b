/-
Weeks counted from a fixed day. T-SQL moves a date by the remainder, by seven, of the days since a
Monday or a Sunday around 1900. The remainder has the sign of these days: from the fixed day on, the
date is moved back to the start of its week, which is the one of the program; before, it is moved on
to the start of the next week, unless its own starts on it.
-/
import Rollup.Proofs.Sql.DateFunctions

namespace Rollup.Sql.DateExpr

/-- The day from which the truncation to a week counts. -/
def countedFrom : Grain → Date
  | .week => sunday
  | _ => monday

variable {since d start : Date} {startsOnSunday : Bool}

/-- A date is moved by a remainder that is no longer than a week and has the sign of the days. -/
theorem backByRemainder_value? (since d : Date) :
    (backByRemainder since).value? d = d.later? (-((d.toDays - since.toDays).tmod 7)) := by
  simp only [backByRemainder, value?, DateShift.apply?, DateStep.apply?, DateField.value,
    Arithmetic.apply, Option.bind_some, Option.map_some]

/-- From a day that starts a week on, the remainder of the days is the place in the week. -/
theorem tmod_of_le (hsince : since.placeInWeek startsOnSunday = 0) (h : since ≤ d) :
    (d.toDays - since.toDays).tmod 7 = d.placeInWeek startsOnSunday := by
  have hdays := Date.toDays_strictMono.monotone h
  rw [Int.tmod_eq_emod_of_nonneg (by omega)]
  unfold Date.placeInWeek at *
  omega

/-- Before, it is what the place in the week lacks to the start of the next one, counted down. -/
theorem tmod_of_lt (hsince : since.placeInWeek startsOnSunday = 0) (h : d < since) :
    (d.toDays - since.toDays).tmod 7 = -((7 - d.placeInWeek startsOnSunday) % 7) := by
  have hdays := Date.toDays_strictMono h
  rw [← Int.neg_sub, Int.neg_tmod, Int.tmod_eq_emod_of_nonneg (by omega)]
  unfold Date.placeInWeek at *
  omega

theorem eq_weekStart_iff
    (hstart : start.toDays = firstOfWeek startsOnSunday + 7 * d.weekNumber startsOnSunday) :
    d = start ↔ d.placeInWeek startsOnSunday = 0 := by
  rw [weekStart_eq_place] at hstart
  rw [← Date.toDays_strictMono.injective.eq_iff]
  omega

theorem denotes_backByRemainder_iff {target : Date} : (backByRemainder since).Denotes d target ↔
    target.toDays = d.toDays - (d.toDays - since.toDays).tmod 7 := by
  rw [Int.sub_eq_add_neg, ← Date.later?_eq_some_iff, ← backByRemainder_value?]
  constructor
  · rintro ⟨v, hv, rfl⟩
    exact hv
  · intro h
    exact ⟨target, h, rfl⟩

/-- The remainder leads to the start of the week exactly from the fixed day on, and on the days that
start a week. -/
theorem backByRemainder_denotes_weekStart_iff (hsince : since.placeInWeek startsOnSunday = 0)
    (hstart : start.toDays = firstOfWeek startsOnSunday + 7 * d.weekNumber startsOnSunday) :
    (backByRemainder since).Denotes d start ↔ since ≤ d ∨ d = start := by
  have hmem := d.placeInWeek_mem startsOnSunday
  rw [denotes_backByRemainder_iff, hstart, weekStart_eq_place, eq_weekStart_iff hstart]
  rcases le_or_gt since d with h | h
  · rw [tmod_of_le hsince h]
    exact ⟨fun _ => .inl h, fun _ => rfl⟩
  · rw [tmod_of_lt hsince h, or_iff_right h.not_ge]
    omega

/-- Otherwise it leads to the start of the next week. -/
theorem backByRemainder_denotes_next (hsince : since.placeInWeek startsOnSunday = 0)
    (hstart : start.toDays = firstOfWeek startsOnSunday + 7 * d.weekNumber startsOnSunday)
    (hfirst : 1 ≤ d.year) (hlast : d.year ≤ 9999)
    (hmiss : ¬ (backByRemainder since).Denotes d start) :
    ∃ next, start.later? 7 = some next ∧ (backByRemainder since).Denotes d next := by
  rw [backByRemainder_denotes_weekStart_iff hsince hstart, not_or, not_le,
    eq_weekStart_iff hstart] at hmiss
  obtain ⟨hbefore, hplace⟩ := hmiss
  have hmem := d.placeInWeek_mem startsOnSunday
  obtain ⟨next, hnext⟩ := Date.exists_near hfirst hlast (7 - d.placeInWeek startsOnSunday)
    (by omega) (by omega)
  rw [Date.later?_eq_some_iff] at hnext
  rw [weekStart_eq_place] at hstart
  refine ⟨next, Date.later?_eq_some_iff.2 (by omega), denotes_backByRemainder_iff.2 ?_⟩
  rw [tmod_of_lt hsince hbefore]
  omega

/-- The weeks of T-SQL are those of the program from the first days of 1900 on. Before, only a date
that starts a week comes to itself, as it should; every other comes to the start of the week behind
its own. -/
theorem truncation?_tsql_denotes_iff {g : Grain} (hg : g ∈ [Grain.isoWeek, .week]) {d : Date}
    (hfirst : 1 ≤ d.year) (hlast : d.year ≤ 9999) (x : String) :
    ∃ e start, truncation? .tsql g = some e ∧ truncate? .tsql g x = some (e.2.sql x) ∧
      g.truncate? (.midnight d) = some (.midnight start) ∧
      (e.2.Denotes d start ↔ countedFrom g ≤ d ∨ d = start) ∧
      (¬ e.2.Denotes d start → ∃ next, start.later? 7 = some next ∧ e.2.Denotes d next) := by
  have hmonday : monday.placeInWeek false = 0 := by decide
  have hsunday : sunday.placeInWeek true = 0 := by decide
  simp only [List.mem_cons, List.not_mem_nil, or_false] at hg
  rcases hg with rfl | rfl
  · obtain ⟨start, hstart⟩ := exists_weekStart hfirst hlast false
    exact ⟨_, start, rfl, sql_truncation? rfl x,
      Grain.weekStart?_eq_some_iff.2 ⟨start, rfl, hstart⟩,
      backByRemainder_denotes_weekStart_iff hmonday hstart,
      backByRemainder_denotes_next hmonday hstart hfirst hlast⟩
  · obtain ⟨start, hstart⟩ := exists_weekStart hfirst hlast true
    exact ⟨_, start, rfl, sql_truncation? rfl x,
      Grain.weekStart?_eq_some_iff.2 ⟨start, rfl, hstart⟩,
      backByRemainder_denotes_weekStart_iff hsunday hstart,
      backByRemainder_denotes_next hsunday hstart hfirst hlast⟩

/-- The last Saturday of 1899, and the Monday of its week. -/
def lastSaturday : Date := ⟨1899, 12, 30, by decide⟩

/-- The Monday of that week. -/
def christmas : Date := ⟨1899, 12, 25, by decide⟩

/-- A Tuesday of 1900, in the week that is counted from. -/
def secondOfJanuary : Date := ⟨1900, 1, 2, by decide⟩

theorem truncation?_tsql_denotes_iff_secondOfJanuary :
    truncate? .tsql .isoWeek "t" = some ((isoWeek .tsql).2.sql "t") ∧
      Grain.isoWeek.truncate? (.midnight secondOfJanuary) = some (.midnight monday) ∧
      (isoWeek .tsql).2.Denotes secondOfJanuary monday := by
  obtain ⟨e, start, he, hsql, hstart, hdenotes, -⟩ :=
    truncation?_tsql_denotes_iff (show Grain.isoWeek ∈ [Grain.isoWeek, .week] by decide)
      (show 1 ≤ secondOfJanuary.year by decide) (show secondOfJanuary.year ≤ 9999 by decide) "t"
  have hmonday : Grain.isoWeek.truncate? (.midnight secondOfJanuary) = some (.midnight monday) := by
    decide +kernel
  cases he
  cases hstart.symm.trans hmonday
  exact ⟨hsql, hmonday, hdenotes.2 (.inl (Date.le_iff.2 (by decide)))⟩

/-- Two days before the Monday that is counted from, the remainder is -2, and leads on to it. -/
theorem isoWeek_tsql_lastSaturday :
    Grain.isoWeek.truncate? (.midnight lastSaturday) = some (.midnight christmas) ∧
      ¬ (isoWeek .tsql).2.Denotes lastSaturday christmas ∧
      (isoWeek .tsql).2.Denotes lastSaturday monday := by
  have hvalue : (backByRemainder monday).value? lastSaturday = some monday := by decide +kernel
  refine ⟨by decide +kernel, ?_, monday, hvalue, rfl⟩
  rintro ⟨v, hv, hshows⟩
  cases hvalue.symm.trans hv
  exact absurd hshows (show monday ≠ christmas by decide)

end Rollup.Sql.DateExpr
