/-
Truncating a time to a grain in SQL. Each dialect has its own functions for it, so a truncation is
a small term over the truncated value; rendering puts the SQL of the value at its leaves.
-/
import Rollup.Calendar.Grain
import Rollup.Sql.Dialect

namespace Rollup.Sql

/-- A term whose value is the start of a bucket, in the functions of the several dialects. -/
inductive Truncation where
  /-- The value that is truncated. -/
  | value
  /-- `DATE_TRUNC`: the start of the unit, weeks starting on a Monday. -/
  | dateTrunc (unit : String) (t : Truncation)
  /-- A day later, by interval arithmetic. -/
  | plusDay (t : Truncation)
  /-- A day earlier, by interval arithmetic. -/
  | minusDay (t : Truncation)
  /-- So many days later, by `DATEADD`. -/
  | dateAdd (days : Int) (t : Truncation)
  /-- The date alone, by `DATE`. -/
  | date
  /-- The date alone, by a cast. -/
  | castDate
  /-- The text of the value in a format, by `DATE_FORMAT`. -/
  | dateFormat (format : String)
  /-- The text of the value in a format, by `strftime`. -/
  | strftime (format : String)
  /-- The date less the days since Monday. -/
  | backToMonday
  /-- The date less the days since Sunday. -/
  | backToSunday
  /-- The first day of the year, moved on by whole quarters. -/
  | quarterFromYear
  /-- The date moved by modifiers one after the other, by `date`. -/
  | moved (modifiers : List String)
  /-- The minutes or hours since the day zero, added to it. -/
  | unitsFromZero (unit : String)
  /-- The date less the remainder by seven of the days since a fixed date. -/
  | backByRemainder (since : String)
  /-- The first day of the month, by its parts. -/
  | monthFromParts
  /-- The first day of the quarter, by its parts. -/
  | quarterFromParts
  /-- The first day of the year, by its parts. -/
  | yearFromParts
  /-- The first day of the quarter, printed from its parts. -/
  | quarterPrinted
  deriving Repr

namespace Truncation

/-- The SQL of the term, `x` being the SQL of the value. -/
def render (x : String) : Truncation → String
  | value => x
  | dateTrunc unit t => "DATE_TRUNC('" ++ unit ++ "', " ++ t.render x ++ ")"
  | plusDay t => t.render x ++ " + INTERVAL '1 day'"
  | minusDay t => t.render x ++ " - INTERVAL '1 day'"
  | dateAdd days t => "DATEADD(day, " ++ toString days ++ ", " ++ t.render x ++ ")"
  | date => "DATE(" ++ x ++ ")"
  | castDate => "CAST(" ++ x ++ " AS DATE)"
  | dateFormat format => "DATE_FORMAT(" ++ x ++ ", '" ++ format ++ "')"
  | strftime format => "strftime('" ++ format ++ "', " ++ x ++ ")"
  | backToMonday => "DATE_SUB(DATE(" ++ x ++ "), INTERVAL WEEKDAY(" ++ x ++ ") DAY)"
  | backToSunday => "DATE_SUB(DATE(" ++ x ++ "), INTERVAL DAYOFWEEK(" ++ x ++ ") - 1 DAY)"
  | quarterFromYear =>
    "MAKEDATE(YEAR(" ++ x ++ "), 1) + INTERVAL QUARTER(" ++ x ++ ") - 1 QUARTER"
  | moved modifiers =>
    "date(" ++ x ++ (modifiers.foldl (fun s m => s ++ ", '" ++ m ++ "'") "") ++ ")"
  | unitsFromZero unit => "DATEADD(" ++ unit ++ ", DATEDIFF(" ++ unit ++ ", 0, " ++ x ++ "), 0)"
  | backByRemainder since =>
    "DATEADD(DAY, -(DATEDIFF(DAY, '" ++ since ++ "', " ++ x ++ ") % 7), CAST(" ++ x ++
      " AS DATE))"
  | monthFromParts => "DATEFROMPARTS(YEAR(" ++ x ++ "), MONTH(" ++ x ++ "), 1)"
  | quarterFromParts =>
    "DATEFROMPARTS(YEAR(" ++ x ++ "), (DATEPART(QUARTER, " ++ x ++ ") - 1) * 3 + 1, 1)"
  | yearFromParts => "DATEFROMPARTS(YEAR(" ++ x ++ "), 1, 1)"
  | quarterPrinted =>
    "printf('%04d-%02d-01', CAST(strftime('%Y', " ++ x ++
      ") AS INTEGER), ((CAST(strftime('%m', " ++ x ++ ") AS INTEGER) - 1) / 3) * 3 + 1)"

/-- Where `DATE_TRUNC` knows every grain but the week that starts on a Sunday, which `shifted`
builds from the other one. -/
def byDateTrunc (shifted : Truncation) : Grain → Truncation
  | .isoWeek => dateTrunc "week" value
  | .week => shifted
  | g => dateTrunc g.name value

/-- A pattern fills in what is finer; weeks are counted back to, and quarters from the year's
start. -/
def mysql : Grain → Truncation
  | .second => dateFormat "%Y-%m-%d %H:%i:%s"
  | .minute => dateFormat "%Y-%m-%d %H:%i:00"
  | .hour => dateFormat "%Y-%m-%d %H:00:00"
  | .day => date
  | .isoWeek => backToMonday
  | .week => backToSunday
  | .month => dateFormat "%Y-%m-01"
  | .quarter => quarterFromYear
  | .year => dateFormat "%Y-01-01"

/-- Seconds are not offered. Day differences are taken from a Monday and a Sunday. -/
def tsql? : Grain → Option Truncation
  | .second => none
  | .minute => some (unitsFromZero "MINUTE")
  | .hour => some (unitsFromZero "HOUR")
  | .day => some castDate
  | .isoWeek => some (backByRemainder "19000101")
  | .week => some (backByRemainder "18991231")
  | .month => some monthFromParts
  | .quarter => some quarterFromParts
  | .year => some yearFromParts

/-- A pattern fills in what is finer; weeks are found by the modifiers of `date`. -/
def sqlite : Grain → Truncation
  | .second => strftime "%Y-%m-%d %H:%M:%S"
  | .minute => strftime "%Y-%m-%d %H:%M:00"
  | .hour => strftime "%Y-%m-%d %H:00:00"
  | .day => moved []
  | .isoWeek => moved ["weekday 0", "-6 days"]
  | .week => moved ["+1 day", "weekday 0", "-7 days"]
  | .month => strftime "%Y-%m-01"
  | .quarter => quarterPrinted
  | .year => strftime "%Y-01-01"

/-- The truncation to a grain, where the dialect has one. -/
def of? : Dialect → Grain → Option Truncation
  | .duckdb, g | .postgres, g =>
    some (byDateTrunc (minusDay (dateTrunc "week" (plusDay value))) g)
  | .snowflake, g => some (byDateTrunc (dateAdd (-1) (dateTrunc "week" (dateAdd 1 value))) g)
  | .mysql, g => some (mysql g)
  | .tsql, g => tsql? g
  | .sqlite, g => some (sqlite g)

end Truncation

/-- The SQL that truncates the value of `x` to a grain. -/
def truncate? (d : Dialect) (g : Grain) (x : String) : Option String :=
  (Truncation.of? d g).map (·.render x)

end Rollup.Sql
