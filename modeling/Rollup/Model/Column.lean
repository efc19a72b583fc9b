/-
Columns of analytic tables: metrics, dimensions and time dimensions, each defined by a formula.
-/
import Rollup.Calendar.Grain
import Rollup.Model.Parameter

namespace Rollup

/-- How the values of a metric are brought together. -/
inductive Aggregation where
  | sum
  | min
  | max
  | count
  | countDistinct
  | avg
  deriving DecidableEq, Repr

namespace Aggregation

/-- All aggregations. -/
def all : List Aggregation :=
  [sum, min, max, count, countDistinct, avg]

/-- The name of an aggregation in a model. -/
def name : Aggregation → String
  | sum => "sum"
  | min => "min"
  | max => "max"
  | count => "count"
  | countDistinct => "count_distinct"
  | avg => "avg"

end Aggregation

/-- A grain a time dimension is offered in. -/
structure GrainDef where
  grain : Grain
  /-- Takes the place of the dialect's own truncation. -/
  formula : Option String := none
  deriving DecidableEq, Repr

/-- A dimension that a metric is first aggregated by, before it is aggregated again. -/
structure NestBy where
  column : String
  grain : Option Grain := none
  deriving DecidableEq, Repr

/-- What a column is for. A metric without an aggregation has a formula that aggregates already. -/
inductive ColumnKind where
  | metric (aggregation : Option Aggregation) (nestBy : List NestBy)
  | dimension
  | timeDimension (grains : List GrainDef)
  deriving DecidableEq, Repr

/-- How a column takes part in a query. -/
inductive Role where
  | metric
  | dimension
  | timeDimension
  deriving DecidableEq, Repr

namespace Role

/-- All roles. -/
def all : List Role :=
  [metric, dimension, timeDimension]

/-- The name of a role in queries and compiled columns. -/
def name : Role → String
  | metric => "metric"
  | dimension => "dimension"
  | timeDimension => "time_dimension"

/-- Whether rows can be grouped by columns of the role. -/
def isDimension (r : Role) : Bool :=
  r != metric

end Role

/-- A column of an analytic table. -/
structure Column where
  name : String
  formula : String
  valueType : ValueType := .text
  /-- The values it is an enumeration of. -/
  values : Option (List String) := none
  parameters : List Parameter := []
  kind : ColumnKind
  deriving DecidableEq, Repr

namespace Column

/-- The role of a column, which its kind decides. -/
def role (c : Column) : Role :=
  match c.kind with
  | .metric _ _ => .metric
  | .dimension => .dimension
  | .timeDimension _ => .timeDimension

/-- Whether the column is a metric. -/
def isMetric (c : Column) : Bool :=
  c.role == .metric

/-- Whether the column is a time dimension. -/
def isTime (c : Column) : Bool :=
  c.role == .timeDimension

/-- How a metric is aggregated, unless its formula does that. -/
def aggregation (c : Column) : Option Aggregation :=
  match c.kind with
  | .metric aggregation _ => aggregation
  | _ => none

/-- What a metric is nested by; other columns are by nothing. -/
def nestBy (c : Column) : List NestBy :=
  match c.kind with
  | .metric _ nestBy => nestBy
  | _ => []

/-- The grains a time dimension declares; other columns declare none. -/
def grains (c : Column) : List GrainDef :=
  match c.kind with
  | .timeDimension grains => grains
  | _ => []

/-- The definition of a grain the column is offered in. -/
def grain? (c : Column) (g : Grain) : Option GrainDef :=
  c.grains.find? (·.grain == g)

/-- The finest grain, taken when none is asked for. -/
def defaultGrain? (c : Column) : Option Grain :=
  Grain.finest? (c.grains.map (·.grain))

/-- The argument that the column declares under a name. -/
def parameter? (c : Column) (name : String) : Option Parameter :=
  c.parameters.find? (·.name == name)

/-- The column with the formula an empty one stands for: the database column of its own name. -/
def filled (c : Column) (isEmpty : String → Bool) : Column :=
  if isEmpty c.formula then { c with formula := "\x7b\x7b$" ++ c.name ++ "\x7d\x7d" } else c

end Column

end Rollup
