/-
Queries: requests that fit their model. Every column exists, every output column has a name of its
own, and time dimensions have a grain.
-/
import Rollup.Json.Writer
import Rollup.Model.Column
import Rollup.Query.Request

namespace Rollup

/-- An output column. -/
structure Projection where
  path : Path
  role : Role
  name : String
  deriving DecidableEq

/-- A request checked against its model. -/
structure Query where
  table : String
  arguments : Arguments
  projections : List Projection
  whereFilter : Option Filter
  havingFilter : Option Filter
  sorting : List SortKey
  pagination : Option Pagination
  bypassCache : Bool
  deriving DecidableEq

namespace Query

/-- Whether a metric is asked for, so that rows are grouped. -/
def isAggregated (q : Query) : Bool :=
  q.projections.any (·.role == .metric)

/-- The projections that rows can be grouped by. -/
def dimensions (q : Query) : List Projection :=
  q.projections.filter (·.role.isDimension)

/-- The projections that are metrics. -/
def metrics (q : Query) : List Projection :=
  q.projections.filter (·.role == .metric)

/-- The projected dimension that a condition on a path can be grouped with: the same column, and
the same grain if the path gives one. -/
def groupingProjection? (q : Query) (p : Path) : Option Projection :=
  q.dimensions.find? fun d =>
    d.path.sameColumn p && (p.grain.isNone || p.grain == d.path.grain)

/-- The projected metric of the same column. -/
def metricProjection? (q : Query) (p : Path) : Option Projection :=
  q.metrics.find? fun d => d.path.sameColumn p

/-- A projection as a record. -/
def projectionDatum (p : Projection) : Datum :=
  .record [("path", p.path.toDatum), ("role", .text p.role.name), ("alias", .text p.name)]

/-- The query as a record. Whether the cache is bypassed is no part of it. -/
def toDatum (q : Query) : Datum :=
  .record [
    ("table", .text q.table),
    ("table_arguments", q.arguments.toDatum),
    ("projections", .list (q.projections.map projectionDatum)),
    ("where_filter", (q.whereFilter.map Filter.toDatum).getD .null),
    ("having_filter", (q.havingFilter.map Filter.toDatum).getD .null),
    ("sorting", .list (q.sorting.map SortKey.toDatum)),
    ("pagination", (q.pagination.map Pagination.toDatum).getD .null)]

/-- The query as JSON text. -/
def json (q : Query) : String :=
  Json.write q.toDatum

end Query

end Rollup
