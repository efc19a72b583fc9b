/-
Time grains: the lengths of the buckets a time dimension is grouped in, from the finest to the
coarsest.
-/
import Rollup.Text.Casing

namespace Rollup

/-- The length of a time bucket. An `isoWeek` starts on a Monday, a `week` on a Sunday. -/
inductive Grain where
  | second
  | minute
  | hour
  | day
  | isoWeek
  | week
  | month
  | quarter
  | year
  deriving DecidableEq, Repr

/-- A name that is no grain. -/
structure UnknownGrain where
  name : String
  deriving DecidableEq, Repr

/-- What is told of the name. -/
def UnknownGrain.message (e : UnknownGrain) : String :=
  "unknown time grain '" ++ e.name ++ "'"

namespace Grain

/-- The grains from the finest to the coarsest. -/
def all : List Grain :=
  [second, minute, hour, day, isoWeek, week, month, quarter, year]

/-- The name of a grain in models and requests. -/
def name : Grain → String
  | second => "second"
  | minute => "minute"
  | hour => "hour"
  | day => "day"
  | isoWeek => "iso_week"
  | week => "week"
  | month => "month"
  | quarter => "quarter"
  | year => "year"

/-- The position in `all`: a finer grain has a smaller one. -/
def rank : Grain → Nat
  | second => 0
  | minute => 1
  | hour => 2
  | day => 3
  | isoWeek => 4
  | week => 5
  | month => 6
  | quarter => 7
  | year => 8

/-- The grain of exactly that name. -/
def ofName? (s : String) : Option Grain :=
  all.find? (·.name == s)

/-- The grain of a name in any case. The ISO week may also be written in one word. -/
def parse (s : String) : Except UnknownGrain Grain :=
  let lowered := Text.lower s
  if lowered == "isoweek" then .ok isoWeek
  else match ofName? lowered with
    | some g => .ok g
    | none => .error ⟨lowered⟩

/-- The finest of some grains. -/
def finest? : List Grain → Option Grain
  | [] => none
  | g :: rest => match finest? rest with
    | none => some g
    | some h => some (if h.rank < g.rank then h else g)

end Grain

end Rollup
