/-
What the truncations to weeks and quarters come to on a date. The SQL of each is the text of an
expression in the date functions of its dialect, and every function has the meaning it is documented
with. The functions work on all dates of the calendar: what a database makes of dates outside of the
range it stores is no part of their meaning.
-/
import Rollup.Proofs.Calendar.Floor
import Rollup.Sql.Truncation

namespace Rollup

namespace Date

/-! ## Counting from a date -/

/-- The date some days later, or earlier for a negative number. -/
def later? (d : Date) (days : Int) : Option Date :=
  ofDays? (d.toDays + days)

/-- The date some months later: the same day, or the last one of a month that is too short. -/
def monthsLater? (d : Date) (months : Int) : Option Date :=
  let count := 12 * d.year + (d.month - 1) + months
  let year := count / 12
  let month := (count % 12).toNat + 1
  of? year month (min d.day (daysIn (isLeap year) month))

/-- The place of a date in its week, zero on the day weeks start. -/
def placeInWeek (startsOnSunday : Bool) (d : Date) : Int :=
  (d.toDays - firstOfWeek startsOnSunday) % 7

theorem placeInWeek_mem (startsOnSunday : Bool) (d : Date) :
    0 ≤ d.placeInWeek startsOnSunday ∧ d.placeInWeek startsOnSunday < 7 :=
  ⟨Int.emod_nonneg _ (by decide), Int.emod_lt_of_pos _ (by decide)⟩

theorem later?_eq_some_iff {d e : Date} {days : Int} :
    d.later? days = some e ↔ e.toDays = d.toDays + days :=
  ofDays?_eq_some_iff

/-- Around a date whose year has four digits there are dates on all days. -/
theorem exists_near {d : Date} (hfirst : 1 ≤ d.year) (hlast : d.year ≤ 9999) (days : Int)
    (hback : -7 ≤ days) (hon : days ≤ 7) : ∃ e, d.later? days = some e := by
  have hyear := d.toDays_mem_year
  have hlow := yearStart_mono hfirst
  have hhigh := yearStart_mono (show d.year + 1 ≤ 10000 by omega)
  have hends : firstDay ≤ yearStart 1 - 7 ∧ yearStart 10000 + 7 ≤ lastDay := by decide
  obtain ⟨e, he, -⟩ := exists_of_mem_days (n := d.toDays + days) (by omega) (by omega)
  exact ⟨e, he⟩

/-- In one year the months after the first are counted by their numbers. -/
theorem monthsLater?_january (d : Date) {months : Nat} (h : months < 12) :
    (d.firstOf 1 (by decide) (by decide)).monthsLater? months =
      some (d.firstOf (months + 1) (by omega) (by omega)) := by
  have hcount : 12 * d.year + ((1 : Nat) - 1 : Int) + months = 12 * d.year + months := by omega
  have hyear : (12 * d.year + months) / 12 = d.year := by omega
  have hmonth : ((12 * d.year + months) % 12).toNat = months := by omega
  have hday : min 1 (daysIn (isLeap d.year) (months + 1)) = 1 :=
    Nat.min_eq_left (isDate_firstOf d.isDate (by omega) (by omega)).2.2.2
  rw [monthsLater?]
  simp only [firstOf, hcount, hyear, hmonth, hday]
  exact of?_eq_some_iff.2 ⟨rfl, rfl, rfl⟩

end Date

theorem Timestamp.yearText_of_mem {year : Int} (hfirst : 0 ≤ year) (hlast : year ≤ 9999) :
    yearText year = padded 4 year.toNat := by
  have hdigits : year.natAbs = year.toNat := by omega
  rw [yearText, hdigits, if_neg (by omega), if_neg (by omega)]

theorem Timestamp.digitsValue_padded (width n : Nat) :
    digitsValue (padded width n).toList = n := by
  rw [padded, String.toList_ofList]
  change Nat.ofDigitChars 10 _ 0 = n
  rw [Nat.ofDigitChars_append, Nat.ofDigitChars_replicate_zero, Nat.mul_zero,
    Nat.ofDigitChars_ten_toDigits]

namespace Sql

/-! ## Functions on dates -/

/-- A unit that `DATE_TRUNC` goes back to the start of. Weeks start on Mondays. -/
inductive DateUnit where
  | week
  | quarter

/-- A unit as `DATE_TRUNC` is given it. -/
def DateUnit.name : DateUnit → String
  | week => "week"
  | quarter => "quarter"

/-- The first day of the unit that a date is in. -/
def DateUnit.start? (d : Date) : DateUnit → Option Date
  | week => Date.ofDays? (firstOfWeek false + 7 * d.weekNumber false)
  | quarter => Date.of? d.year (3 * quarterOf d.month - 2) 1

/-- What makes a date of a date. -/
inductive DateStep where
  | dateTrunc (unit : DateUnit)
  | plusDay
  | minusDay
  /-- The date alone, by `DATE`. -/
  | datePart
  /-- The date alone, by a cast. -/
  | castDate

/-- A step as it is written, `x` being the SQL of the date. -/
def DateStep.sql (x : String) : DateStep → String
  | dateTrunc unit => "DATE_TRUNC('" ++ unit.name ++ "', " ++ x ++ ")"
  | plusDay => x ++ " + INTERVAL '1 day'"
  | minusDay => x ++ " - INTERVAL '1 day'"
  | datePart => "DATE(" ++ x ++ ")"
  | castDate => "CAST(" ++ x ++ " AS DATE)"

/-- The date a step makes of a date. -/
def DateStep.apply? (d : Date) : DateStep → Option Date
  | dateTrunc unit => unit.start? d
  | plusDay => d.later? 1
  | minusDay => d.later? (-1)
  | datePart | castDate => some d

/-- What makes a date of a date and a number. -/
inductive DateShift where
  /-- `DATEADD` with the unit of days, which may be written in capital letters. -/
  | addDays (capital : Bool)
  | subDays
  | addQuarters

/-- A shift as it is written, `x` being the SQL of the date and `n` that of the number. -/
def DateShift.sql (x n : String) : DateShift → String
  | addDays capital =>
    "DATEADD(" ++ (if capital then "DAY" else "day") ++ ", " ++ n ++ ", " ++ x ++ ")"
  | subDays => "DATE_SUB(" ++ x ++ ", INTERVAL " ++ n ++ " DAY)"
  | addQuarters => x ++ " + INTERVAL " ++ n ++ " QUARTER"

/-- The date a shift makes of a date and a number. -/
def DateShift.apply? (d : Date) (n : Int) : DateShift → Option Date
  | addDays _ => d.later? n
  | subDays => d.later? (-n)
  | addQuarters => d.monthsLater? (3 * n)

/-- What makes a number of a date. -/
inductive DateField where
  | year
  | quarter
  | quarterPart
  /-- The number of a day in the week, Monday being 0. -/
  | weekday
  /-- The number of a day in the week, Sunday being 1. -/
  | dayOfWeek
  /-- The days from a fixed date on. -/
  | daysFrom (since : Date)

/-- A field as it is written, `x` being the SQL of the date. -/
def DateField.sql (x : String) : DateField → String
  | year => "YEAR(" ++ x ++ ")"
  | quarter => "QUARTER(" ++ x ++ ")"
  | quarterPart => "DATEPART(QUARTER, " ++ x ++ ")"
  | weekday => "WEEKDAY(" ++ x ++ ")"
  | dayOfWeek => "DAYOFWEEK(" ++ x ++ ")"
  | daysFrom since =>
    "DATEDIFF(DAY, '" ++ Timestamp.padded 4 since.year.toNat ++ Timestamp.padded 2 since.month ++
      Timestamp.padded 2 since.day ++ "', " ++ x ++ ")"

/-- The number a field makes of a date. -/
def DateField.value (d : Date) : DateField → Int
  | year => d.year
  | quarter | quarterPart => quarterOf d.month
  | weekday => d.placeInWeek false
  | dayOfWeek => d.placeInWeek true + 1
  | daysFrom since => d.toDays - since.toDays

/-- A modifier of SQLite's `date`. -/
inductive DateModifier where
  | days (n : Int)
  /-- Forward to the next day of the week with a number, Sunday being 0, unless it is one. -/
  | weekday (n : Nat)

/-- A modifier as it is written. -/
def DateModifier.text : DateModifier → String
  | days n =>
    (if 0 ≤ n then "+" else "") ++ toString n ++ (if n.natAbs = 1 then " day" else " days")
  | weekday n => "weekday " ++ toString n

/-- The date a modifier makes of a date. -/
def DateModifier.apply? (d : Date) : DateModifier → Option Date
  | days n => d.later? n
  | weekday n => d.later? ((n - d.placeInWeek true) % 7)

/-- A field that `strftime` writes, by four digits of a year and two of a month. -/
inductive WrittenField where
  | year
  | month

/-- A field as `strftime` is given it. -/
def WrittenField.format : WrittenField → String
  | year => "%Y"
  | month => "%m"

/-- What is written of a date. -/
def WrittenField.text (d : Date) : WrittenField → String
  | year => Timestamp.padded 4 d.year.toNat
  | month => Timestamp.padded 2 d.month

/-- The operators on numbers. -/
inductive Arithmetic where
  | plus
  | minus
  | times
  | quotient
  | remainder

/-- An operator as it is written. -/
def Arithmetic.sign : Arithmetic → String
  | plus => " + "
  | minus => " - "
  | times => " * "
  | quotient => " / "
  | remainder => " % "

/-- Whole numbers are divided without the remainder, which has the sign of what is divided. -/
def Arithmetic.apply (a b : Int) : Arithmetic → Int
  | plus => a + b
  | minus => a - b
  | times => a * b
  | quotient => a.tdiv b
  | remainder => a.tmod b

/-! ## Expressions -/

/-- What an expression comes to. -/
inductive DateKind where
  | date
  | number
  | text

/-- The values of a kind. -/
@[reducible]
def DateKind.Value : DateKind → Type
  | date => Date
  | number => Int
  | text => String

/-- An expression in the date functions of databases. -/
inductive DateExpr : DateKind → Type where
  /-- The date that is truncated. -/
  | given : DateExpr .date
  | number (n : Int) : DateExpr .number
  | paren (e : DateExpr .number) : DateExpr .number
  | negated (e : DateExpr .number) : DateExpr .number
  | arithmetic (o : Arithmetic) (a b : DateExpr .number) : DateExpr .number
  | step (f : DateStep) (e : DateExpr .date) : DateExpr .date
  | shift (f : DateShift) (e : DateExpr .date) (n : DateExpr .number) : DateExpr .date
  | field (f : DateField) (e : DateExpr .date) : DateExpr .number
  /-- The day of a year with a number, the first of January being 1. -/
  | makeDate (year day : DateExpr .number) : DateExpr .date
  | dateFromParts (year month day : DateExpr .number) : DateExpr .date
  /-- The text of a date, moved by one modifier after the other. -/
  | moved (e : DateExpr .date) (modifiers : List DateModifier) : DateExpr .text
  | strftime (f : WrittenField) (e : DateExpr .date) : DateExpr .text
  | castInteger (e : DateExpr .text) : DateExpr .number
  /-- The text of the first day of a month. -/
  | printMonth (year month : DateExpr .number) : DateExpr .text

namespace DateExpr

/-- The SQL of an expression, `x` being the SQL of the date. -/
def sql (x : String) {k : DateKind} : DateExpr k → String
  | given => x
  | number n => toString n
  | paren e => "(" ++ e.sql x ++ ")"
  | negated e => "-" ++ e.sql x
  | arithmetic o a b => a.sql x ++ o.sign ++ b.sql x
  | step f e => f.sql (e.sql x)
  | shift f e n => f.sql (e.sql x) (n.sql x)
  | field f e => f.sql (e.sql x)
  | makeDate y n => "MAKEDATE(" ++ y.sql x ++ ", " ++ n.sql x ++ ")"
  | dateFromParts y m n =>
    "DATEFROMPARTS(" ++ y.sql x ++ ", " ++ m.sql x ++ ", " ++ n.sql x ++ ")"
  | moved e modifiers =>
    "date(" ++ e.sql x ++ String.join (modifiers.map fun m => ", '" ++ m.text ++ "'") ++ ")"
  | strftime f e => "strftime('" ++ f.format ++ "', " ++ e.sql x ++ ")"
  | castInteger e => "CAST(" ++ e.sql x ++ " AS INTEGER)"
  | printMonth y m => "printf('%04d-%02d-01', " ++ y.sql x ++ ", " ++ m.sql x ++ ")"

end DateExpr

/-! ## Meaning -/

/-- What an expression comes to on a date, when every date in it is one of the calendar. -/
def DateExpr.value? (d : Date) {k : DateKind} : DateExpr k → Option k.Value
  | given => some d
  | number n => some n
  | paren e => e.value? d
  | negated e => (e.value? d).map (- ·)
  | arithmetic o a b => (a.value? d).bind fun m => (b.value? d).map fun n => o.apply m n
  | step f e => (e.value? d).bind f.apply?
  | shift f e n => (e.value? d).bind fun moved => (n.value? d).bind fun n => f.apply? moved n
  | field f e => (e.value? d).map f.value
  | makeDate y n => (y.value? d).bind fun y => (n.value? d).bind fun n =>
      if n ≤ 0 then none else (Date.of? y 1 1).bind (·.later? (n - 1))
  | dateFromParts y m n => (y.value? d).bind fun y => (m.value? d).bind fun m =>
      (n.value? d).bind fun n => Date.of? y m.toNat n.toNat
  | moved e modifiers =>
    (e.value? d).bind fun e => (modifiers.foldlM DateModifier.apply? e).map Timestamp.dateText
  | strftime f e => (e.value? d).map f.text
  | castInteger e => (e.value? d).map fun s => (digitsValue s.toList : Int)
  | printMonth y m => (y.value? d).bind fun y => (m.value? d).map fun m =>
      Timestamp.padded 4 y.toNat ++ "-" ++ Timestamp.padded 2 m.toNat ++ "-01"

/-- Whether a value is a date, or the text of one. -/
def DateKind.Shows (start : Date) : {k : DateKind} → k.Value → Prop
  | date, e => e = start
  | number, _ => False
  | text, s => s = Timestamp.dateText start

/-- Whether an expression comes to a date where the given one is another. -/
def DateExpr.Denotes {k : DateKind} (e : DateExpr k) (d start : Date) : Prop :=
  ∃ v, e.value? d = some v ∧ DateKind.Shows start v

/-! ## Truncations as expressions -/

namespace DateExpr

/-- A Monday and a Sunday. -/
def monday : Date := ⟨1900, 1, 1, by decide⟩

/-- The Sunday that weeks are counted from in T-SQL. -/
def sunday : Date := ⟨1899, 12, 31, by decide⟩

/-- One less. -/
def minusOne (n : DateExpr .number) : DateExpr .number :=
  arithmetic .minus n (number 1)

/-- The date less the remainder by seven of the days from a fixed date on. -/
def backByRemainder (since : Date) : DateExpr .date :=
  shift (.addDays true) (step .castDate given)
    (negated (paren (arithmetic .remainder (field (.daysFrom since) given) (number 7))))

/-- The first month behind a number of quarters. -/
def monthAfterQuarters (n : DateExpr .number) : DateExpr .number :=
  arithmetic .plus (arithmetic .times (paren n) (number 3)) (number 1)

/-- The truncation to weeks that start on Mondays. -/
def isoWeek : Dialect → Σ k, DateExpr k
  | .duckdb | .postgres | .snowflake => ⟨_, step (.dateTrunc .week) given⟩
  | .mysql => ⟨_, shift .subDays (step .datePart given) (field .weekday given)⟩
  | .tsql => ⟨_, backByRemainder monday⟩
  | .sqlite => ⟨_, moved given [.weekday 0, .days (-6)]⟩

/-- The truncation to weeks that start on Sundays. -/
def week : Dialect → Σ k, DateExpr k
  | .duckdb | .postgres => ⟨_, step .minusDay (step (.dateTrunc .week) (step .plusDay given))⟩
  | .snowflake => ⟨_, shift (.addDays false)
      (step (.dateTrunc .week) (shift (.addDays false) given (number 1))) (number (-1))⟩
  | .mysql => ⟨_, shift .subDays (step .datePart given) (minusOne (field .dayOfWeek given))⟩
  | .tsql => ⟨_, backByRemainder sunday⟩
  | .sqlite => ⟨_, moved given [.days 1, .weekday 0, .days (-7)]⟩

/-- The truncation to quarters. -/
def quarter : Dialect → Σ k, DateExpr k
  | .duckdb | .postgres | .snowflake => ⟨_, step (.dateTrunc .quarter) given⟩
  | .mysql => ⟨_, shift .addQuarters (makeDate (field .year given) (number 1))
      (minusOne (field .quarter given))⟩
  | .tsql => ⟨_, dateFromParts (field .year given)
      (monthAfterQuarters (minusOne (field .quarterPart given))) (number 1)⟩
  | .sqlite => ⟨_, printMonth (castInteger (strftime .year given))
      (monthAfterQuarters (arithmetic .quotient
        (paren (minusOne (castInteger (strftime .month given)))) (number 3)))⟩

/-- The truncation to a week or a quarter. -/
def truncation? (d : Dialect) : Grain → Option (Σ k, DateExpr k)
  | .isoWeek => some (isoWeek d)
  | .week => some (week d)
  | .quarter => some (quarter d)
  | _ => none

/-! ## Their SQL

On both sides a text is put together from pieces, cut at other places. -/

theorem sql_backByRemainder {since : Date} {digits : String} (x : String)
    (hdigits : Timestamp.padded 4 since.year.toNat ++ (Timestamp.padded 2 since.month ++
      Timestamp.padded 2 since.day) = digits) :
    (Truncation.backByRemainder digits).render x = (backByRemainder since).sql x := by
  have hcuts : "DATEADD(DAY, -(DATEDIFF(DAY, '" = "DATEADD(" ++ "DAY" ++ ", " ++ "-" ++ "(" ++
        "DATEDIFF(DAY, '" ∧
      ") % 7), CAST(" = ")" ++ " % " ++ toString (7 : Int) ++ ")" ++ ", " ++ "CAST(" ∧
      " AS DATE))" = " AS DATE)" ++ ")" :=
    ⟨rfl, rfl, rfl⟩
  dsimp only [Truncation.render, backByRemainder, sql, DateShift.sql, DateStep.sql, DateField.sql,
    Arithmetic.sign]
  simp only [← hdigits, hcuts, String.append_assoc, if_true]

theorem sql_isoWeek (dialect : Dialect) (x : String) :
    truncate? dialect .isoWeek x = some ((isoWeek dialect).2.sql x) := by
  cases dialect with
  | duckdb | postgres | snowflake => rfl
  | mysql =>
    have hcuts : "DATE_SUB(DATE(" = "DATE_SUB(" ++ "DATE(" ∧
        "), INTERVAL WEEKDAY(" = ")" ++ ", INTERVAL " ++ "WEEKDAY(" ∧ ") DAY)" = ")" ++ " DAY)" :=
      ⟨rfl, rfl, rfl⟩
    refine congrArg some ?_
    dsimp only [Truncation.mysql, Truncation.render, isoWeek, sql, DateShift.sql, DateStep.sql,
      DateField.sql]
    simp only [hcuts, String.append_assoc]
  | tsql => exact congrArg some (sql_backByRemainder x (by decide))
  | sqlite => rfl

theorem sql_week (dialect : Dialect) (x : String) :
    truncate? dialect .week x = some ((week dialect).2.sql x) := by
  cases dialect with
  | duckdb | postgres | snowflake => rfl
  | mysql =>
    have hcuts : "DATE_SUB(DATE(" = "DATE_SUB(" ++ "DATE(" ∧
        "), INTERVAL DAYOFWEEK(" = ")" ++ ", INTERVAL " ++ "DAYOFWEEK(" ∧
        ") - 1 DAY)" = ")" ++ " - " ++ toString (1 : Int) ++ " DAY)" :=
      ⟨rfl, rfl, rfl⟩
    refine congrArg some ?_
    dsimp only [Truncation.mysql, Truncation.render, week, minusOne, sql, DateShift.sql,
      DateStep.sql, DateField.sql, Arithmetic.sign]
    simp only [hcuts, String.append_assoc]
  | tsql => exact congrArg some (sql_backByRemainder x (by decide))
  | sqlite => rfl

theorem sql_quarter (dialect : Dialect) (x : String) :
    truncate? dialect .quarter x = some ((quarter dialect).2.sql x) := by
  cases dialect with
  | duckdb | postgres | snowflake => rfl
  | mysql =>
    have hcuts : "MAKEDATE(YEAR(" = "MAKEDATE(" ++ "YEAR(" ∧
        "), 1) + INTERVAL QUARTER(" =
          ")" ++ ", " ++ toString (1 : Int) ++ ")" ++ " + INTERVAL " ++ "QUARTER(" ∧
        ") - 1 QUARTER" = ")" ++ " - " ++ toString (1 : Int) ++ " QUARTER" :=
      ⟨rfl, rfl, rfl⟩
    refine congrArg some ?_
    dsimp only [Truncation.mysql, Truncation.render, quarter, minusOne, sql, DateShift.sql,
      DateField.sql, Arithmetic.sign]
    simp only [hcuts, String.append_assoc]
  | tsql =>
    have hcuts : "DATEFROMPARTS(YEAR(" = "DATEFROMPARTS(" ++ "YEAR(" ∧
        "), (DATEPART(QUARTER, " = ")" ++ ", " ++ "(" ++ "DATEPART(QUARTER, " ∧
        ") - 1) * 3 + 1, 1)" = ")" ++ " - " ++ toString (1 : Int) ++ ")" ++ " * " ++
          toString (3 : Int) ++ " + " ++ toString (1 : Int) ++ ", " ++ toString (1 : Int) ++ ")" :=
      ⟨rfl, rfl, rfl⟩
    refine congrArg some ?_
    dsimp only [Truncation.tsql?, Truncation.render, quarter, monthAfterQuarters, minusOne, sql,
      DateField.sql, Arithmetic.sign]
    simp only [hcuts, String.append_assoc]
  | sqlite =>
    have hcuts : "printf('%04d-%02d-01', CAST(strftime('%Y', " =
          "printf('%04d-%02d-01', " ++ "CAST(" ++ "strftime('" ++ "%Y" ++ "', " ∧
        ") AS INTEGER), ((CAST(strftime('%m', " = ")" ++ " AS INTEGER)" ++ ", " ++ "(" ++ "(" ++
          "CAST(" ++ "strftime('" ++ "%m" ++ "', " ∧
        ") AS INTEGER) - 1) / 3) * 3 + 1)" = ")" ++ " AS INTEGER)" ++ " - " ++
          toString (1 : Int) ++ ")" ++ " / " ++ toString (3 : Int) ++ ")" ++ " * " ++
          toString (3 : Int) ++ " + " ++ toString (1 : Int) ++ ")" :=
      ⟨rfl, rfl, rfl⟩
    refine congrArg some ?_
    dsimp only [Truncation.sqlite, Truncation.render, quarter, monthAfterQuarters, minusOne, sql,
      WrittenField.format, Arithmetic.sign]
    simp only [hcuts, String.append_assoc]

/-- The SQL of a truncation is the text of its expression. -/
theorem sql_truncation? {dialect : Dialect} {g : Grain} {e : Σ k, DateExpr k}
    (h : truncation? dialect g = some e) (x : String) :
    truncate? dialect g x = some (e.2.sql x) := by
  cases g <;> cases h
  · exact sql_isoWeek dialect x
  · exact sql_week dialect x
  · exact sql_quarter dialect x

/-! ## What they come to -/

variable {d start : Date}

/-- Going back by the place of a date in its week leads to the start of the week. -/
theorem weekStart_eq_place (startsOnSunday : Bool) (d : Date) :
    firstOfWeek startsOnSunday + 7 * d.weekNumber startsOnSunday =
      d.toDays - d.placeInWeek startsOnSunday := by
  have := Int.mul_ediv_add_emod (d.toDays - firstOfWeek startsOnSunday) 7
  rw [Date.weekNumber, Date.placeInWeek]
  omega

/-- The week of a date whose year has four digits starts on a date. -/
theorem exists_weekStart (hfirst : 1 ≤ d.year) (hlast : d.year ≤ 9999) (startsOnSunday : Bool) :
    ∃ start : Date,
      start.toDays = firstOfWeek startsOnSunday + 7 * d.weekNumber startsOnSunday := by
  have hmem := d.placeInWeek_mem startsOnSunday
  obtain ⟨start, hstart⟩ := Date.exists_near hfirst hlast (-d.placeInWeek startsOnSunday)
    (by omega) (by omega)
  rw [Date.later?_eq_some_iff] at hstart
  exact ⟨start, hstart.trans (weekStart_eq_place startsOnSunday d).symm⟩

theorem week_start?_of_eq (h : start.toDays = firstOfWeek false + 7 * d.weekNumber false) :
    DateUnit.week.start? d = some start :=
  Date.ofDays?_eq_some_iff.2 h

theorem denotes_isoWeek {dialect : Dialect} (hdialect : dialect ≠ .tsql)
    (hfirst : 1 ≤ d.year) (hlast : d.year ≤ 9999)
    (hstart : start.toDays = firstOfWeek false + 7 * d.weekNumber false) :
    (isoWeek dialect).2.Denotes d start := by
  cases dialect with
  | tsql => exact absurd rfl hdialect
  | duckdb | postgres | snowflake => exact ⟨start, week_start?_of_eq hstart, rfl⟩
  | mysql =>
    refine ⟨start, Date.later?_eq_some_iff.2 ?_, rfl⟩
    rw [hstart, weekStart_eq_place]
    rfl
  | sqlite =>
    -- on to the Sunday that ends the week, and from there back by its other six days
    obtain ⟨sunday, hsunday⟩ := Date.exists_near hfirst hlast
      ((0 - d.placeInWeek true) % 7) (by omega) (by omega)
    have hback : sunday.later? (-6) = some start := by
      rw [Date.later?_eq_some_iff] at hsunday ⊢
      rw [hstart, weekStart_eq_place, hsunday]
      unfold Date.placeInWeek firstOfWeek
      simp only [if_true, Bool.false_eq_true, if_false]
      omega
    refine ⟨_, ?_, rfl⟩
    change ((d.later? ((0 - d.placeInWeek true) % 7)).bind fun e =>
      (e.later? (-6)).bind some).map Timestamp.dateText = _
    rw [hsunday, Option.bind_some, hback]
    rfl

/-- A week that starts on a Sunday starts a day before the Monday of the date a day later. -/
theorem week_start?_next {next : Date} (hfirst : 1 ≤ d.year) (hlast : d.year ≤ 9999)
    (hnext : d.later? 1 = some next)
    (hstart : start.toDays = firstOfWeek true + 7 * d.weekNumber true) :
    ∃ monday, DateUnit.week.start? next = some monday ∧ monday.later? (-1) = some start := by
  rw [Date.later?_eq_some_iff] at hnext
  rw [weekStart_eq_place] at hstart
  have hmem := d.placeInWeek_mem true
  obtain ⟨monday, hmonday⟩ := Date.exists_near hfirst hlast (1 - d.placeInWeek true) (by omega)
    (by omega)
  rw [Date.later?_eq_some_iff] at hmonday
  refine ⟨monday, week_start?_of_eq ?_, Date.later?_eq_some_iff.2 (by omega)⟩
  have hplace : next.placeInWeek false = d.placeInWeek true := by
    unfold Date.placeInWeek firstOfWeek
    simp only [hnext, if_true, Bool.false_eq_true, if_false]
    omega
  rw [weekStart_eq_place, hplace]
  omega

theorem denotes_week {dialect : Dialect} (hdialect : dialect ≠ .tsql)
    (hfirst : 1 ≤ d.year) (hlast : d.year ≤ 9999)
    (hstart : start.toDays = firstOfWeek true + 7 * d.weekNumber true) :
    (week dialect).2.Denotes d start := by
  obtain ⟨next, hnext⟩ := Date.exists_near hfirst hlast 1 (by decide) (by decide)
  cases dialect with
  | tsql => exact absurd rfl hdialect
  | duckdb | postgres | snowflake =>
    obtain ⟨monday, hmonday, hback⟩ := week_start?_next hfirst hlast hnext hstart
    refine ⟨start, ?_, rfl⟩
    change ((d.later? 1).bind DateUnit.week.start?).bind (·.later? (-1)) = _
    rw [hnext, Option.bind_some, hmonday, Option.bind_some]
    exact hback
  | mysql =>
    refine ⟨start, Date.later?_eq_some_iff.2 ?_, rfl⟩
    rw [hstart, weekStart_eq_place]
    change _ = d.toDays + -(d.placeInWeek true + 1 - 1)
    omega
  | sqlite =>
    -- on to the Sunday that the next week starts on, and from there back by a week
    have hplace : (0 - next.placeInWeek true) % 7 = 6 - d.placeInWeek true := by
      rw [Date.later?_eq_some_iff] at hnext
      unfold Date.placeInWeek
      omega
    have hmem := d.placeInWeek_mem true
    obtain ⟨sunday, hsunday⟩ := Date.exists_near hfirst hlast (7 - d.placeInWeek true) (by omega)
      (by omega)
    have hon : next.later? ((0 - next.placeInWeek true) % 7) = some sunday := by
      rw [Date.later?_eq_some_iff] at hnext hsunday ⊢
      omega
    have hback : sunday.later? (-7) = some start := by
      rw [Date.later?_eq_some_iff] at hsunday ⊢
      rw [hstart, weekStart_eq_place, hsunday]
      omega
    refine ⟨_, ?_, rfl⟩
    change ((d.later? 1).bind fun e => (e.later? ((0 - e.placeInWeek true) % 7)).bind fun e =>
      (e.later? (-7)).bind some).map Timestamp.dateText = _
    rw [hnext, Option.bind_some, hon, Option.bind_some, hback]
    rfl

/-- The quarter of a year that a date is in begins with its first month. -/
theorem denotes_quarter (dialect : Dialect) (hfirst : 1 ≤ d.year) (hlast : d.year ≤ 9999)
    {h₁ : 1 ≤ (d.month - 1) / 3 * 3 + 1} {h₂ : (d.month - 1) / 3 * 3 + 1 ≤ 12} :
    (quarter dialect).2.Denotes d (d.firstOf ((d.month - 1) / 3 * 3 + 1) h₁ h₂) := by
  have hmonth := d.isDate.2.1
  have hquarter := Grain.quarterOf_mem hmonth.1 hmonth.2
  cases dialect with
  | duckdb | postgres | snowflake =>
    refine ⟨d.firstOf _ h₁ h₂, Date.of?_eq_some_iff.2 ⟨rfl, ?_, rfl⟩, rfl⟩
    change (d.month - 1) / 3 * 3 + 1 = 3 * quarterOf d.month - 2
    omega
  | tsql =>
    refine ⟨d.firstOf _ h₁ h₂, Date.of?_eq_some_iff.2 ⟨rfl, ?_, rfl⟩, rfl⟩
    change (d.month - 1) / 3 * 3 + 1 = (((quarterOf d.month : Int) - 1) * 3 + 1).toNat
    omega
  | mysql =>
    have hjanuary : Date.of? d.year 1 1 = some (d.firstOf 1 (by decide) (by decide)) :=
      Date.of?_eq_some_iff.2 ⟨rfl, rfl, rfl⟩
    have hsame : (d.firstOf 1 (by decide) (by decide)).later? 0 =
        some (d.firstOf 1 (by decide) (by decide)) :=
      Date.later?_eq_some_iff.2 (Int.add_zero _).symm
    have hmonths : 3 * ((quarterOf d.month : Int) - 1) = ((d.month - 1) / 3 * 3 : Nat) := by omega
    refine ⟨d.firstOf _ h₁ h₂, ?_, rfl⟩
    change ((Date.of? d.year 1 1).bind (·.later? 0)).bind
      (·.monthsLater? (3 * ((quarterOf d.month : Int) - 1))) = _
    rw [hjanuary, Option.bind_some, hsame, Option.bind_some, hmonths]
    exact d.monthsLater?_january (by omega)
  | sqlite =>
    have hprinted : ((((d.month : Int) - 1).tdiv 3) * 3 + 1).toNat = (d.month - 1) / 3 * 3 + 1 := by
      rw [Int.tdiv_eq_ediv_of_nonneg (by omega)]
      omega
    refine ⟨_, rfl, ?_⟩
    change Timestamp.padded 4
        (digitsValue (Timestamp.padded 4 d.year.toNat).toList : Int).toNat ++ "-" ++
      Timestamp.padded 2
        (((digitsValue (Timestamp.padded 2 d.month).toList : Int) - 1).tdiv 3 * 3 + 1).toNat ++
      "-01" = Timestamp.dateText (d.firstOf ((d.month - 1) / 3 * 3 + 1) h₁ h₂)
    have hfirstDay : "-01" = "-" ++ Timestamp.padded 2 1 := by decide
    rw [Timestamp.digitsValue_padded, Timestamp.digitsValue_padded, hprinted, Int.toNat_natCast,
      Timestamp.dateText, Timestamp.monthText, Date.firstOf,
      Timestamp.yearText_of_mem (by omega) hlast, hfirstDay]
    simp only [String.append_assoc]

/-- The weeks and quarters of the databases are those of the program: on a date, the SQL of a
truncation comes to the day the unit starts that the date is in. -/
theorem truncation?_denotes {dialect : Dialect} (hdialect : dialect ≠ .tsql) {g : Grain}
    (hg : g ∈ [Grain.isoWeek, .week, .quarter]) {d : Date} (hfirst : 1 ≤ d.year)
    (hlast : d.year ≤ 9999) (x : String) :
    ∃ e start, truncation? dialect g = some e ∧ truncate? dialect g x = some (e.2.sql x) ∧
      g.truncate? (.midnight d) = some (.midnight start) ∧ e.2.Denotes d start := by
  simp only [List.mem_cons, List.not_mem_nil, or_false] at hg
  rcases hg with rfl | rfl | rfl
  · obtain ⟨start, hstart⟩ := exists_weekStart hfirst hlast false
    exact ⟨_, start, rfl, sql_truncation? rfl x,
      Grain.weekStart?_eq_some_iff.2 ⟨start, rfl, hstart⟩,
      denotes_isoWeek hdialect hfirst hlast hstart⟩
  · obtain ⟨start, hstart⟩ := exists_weekStart hfirst hlast true
    exact ⟨_, start, rfl, sql_truncation? rfl x,
      Grain.weekStart?_eq_some_iff.2 ⟨start, rfl, hstart⟩,
      denotes_week hdialect hfirst hlast hstart⟩
  · exact ⟨_, _, rfl, sql_truncation? rfl x, rfl, denotes_quarter dialect hfirst hlast⟩

/-- A Monday, and the last day of the year before, on which its week began. -/
def newYear : Date := ⟨2024, 1, 1, by decide⟩

/-- The last day of the year before. -/
def yearEnd : Date := ⟨2023, 12, 31, by decide⟩

/-- A week of two years. -/
theorem truncation?_denotes_newYear :
    truncate? .sqlite .week "t" = some ((week .sqlite).2.sql "t") ∧
      Grain.week.truncate? (.midnight newYear) = some (.midnight yearEnd) ∧
      (week .sqlite).2.Denotes newYear yearEnd := by
  obtain ⟨e, start, he, hsql, hstart, hdenotes⟩ :=
    truncation?_denotes (show Dialect.sqlite ≠ .tsql by decide)
      (show Grain.week ∈ [Grain.isoWeek, .week, .quarter] by decide)
      (show 1 ≤ newYear.year by decide) (show newYear.year ≤ 9999 by decide) "t"
  have hyearEnd : Grain.week.truncate? (.midnight newYear) = some (.midnight yearEnd) := by
    decide +kernel
  cases he
  cases hstart.symm.trans hyearEnd
  exact ⟨hsql, hyearEnd, hdenotes⟩

end DateExpr

end Sql

end Rollup
