/-
Planning statements: everything a query reads, expanded and named. A metric that aggregates in its
formula and again on top needs two passes, and then every metric of the query is aggregated in an
inner statement first.
-/
import Rollup.Compile.Joins
import Rollup.Compile.Output
import Rollup.Filter.Placement

namespace Rollup

/-- An expression that rows are grouped by. -/
structure Grouping where
  sql : String
  label : String
  deriving DecidableEq, Repr

/-- A metric the statement reads. -/
structure Metric where
  path : Path
  sql : String
  aggregation : Option Aggregation
  label : String
  deriving DecidableEq

namespace Metric

/-- Whether the formula aggregates and an aggregation comes on top. -/
def twoPass (s : Metric) : Bool :=
  s.aggregation.isSome && Sql.embedsAggregate s.sql

/-- Whether partial results can be aggregated again. -/
def reaggregates (s : Metric) : Bool :=
  match s.aggregation with
  | none | some .countDistinct => false
  | some _ => true

end Metric

/-- What stands behind an output column. -/
inductive Content where
  | dimension (g : Grouping)
  | metric (s : Metric)
  deriving DecidableEq

/-- An output column and what stands behind it. -/
structure Output where
  column : OutputColumn
  content : Content
  deriving DecidableEq

/-- Everything a query reads. -/
structure Plan where
  dialect : Dialect
  query : Query
  root : Table
  rootAlias : String
  filters : Placement
  /-- One to each projection. -/
  outputs : List Output
  /-- Metrics that only conditions on groups read. -/
  hidden : List Metric
  /-- What the inner statement groups by besides the dimensions. -/
  nestBy : List Grouping
  /-- What the columns of the conditions on rows expand to. -/
  rowColumns : List (Path × String)
  joins : List PlannedJoin
  deriving DecidableEq

namespace Plan

/-- The outputs that rows are grouped by. -/
def groupings (outputs : List Output) : List Grouping :=
  outputs.filterMap fun o => match o.content with
    | .dimension g => some g
    | .metric _ => none

/-- The outputs that are metrics. -/
def projectedMetrics (outputs : List Output) : List Metric :=
  outputs.filterMap fun o => match o.content with
    | .metric s => some s
    | .dimension _ => none

/-- What a plan groups its rows by. -/
def dimensions (p : Plan) : List Grouping :=
  groupings p.outputs

/-- The projected metrics, then the hidden ones. -/
def metrics (p : Plan) : List Metric :=
  projectedMetrics p.outputs ++ p.hidden

/-- The output columns of a plan. -/
def columns (p : Plan) : List OutputColumn :=
  p.outputs.map (·.column)

/-- Whether some metric needs two passes. -/
def nested (p : Plan) : Bool :=
  p.metrics.any Metric.twoPass

/-- The alias of the inner statement. -/
def innerAlias (p : Plan) : String :=
  Sql.fitName p.dialect (p.rootAlias ++ "_inner")

section

variable {m : Model} (mode : Mode) (scope : Scope m)

/-- Expands a projection; `taken` are the labels given before. -/
def outputOf (taken : List String) (p : Projection) : Expanding (Output × List JoinPath) := do
  let (_, c) ← locate scope.root p.path
  let f ← resolvePath mode scope p.path p.path.grain
  let label := Sql.fitName mode.dialect p.name
  if taken.contains label then Expanding.fail (.duplicateAlias label)
  let column : OutputColumn := {
    name := p.name, label, role := p.role, grain := p.path.grain, valueType := c.valueType
    values := c.values }
  let content : Content := if p.role == .metric
    then .metric ⟨p.path, f.sql, c.aggregation, label⟩
    else .dimension ⟨f.sql, label⟩
  return (⟨column, content⟩, f.joins)

/-- Expands the projections. -/
def outputsOf (taken : List String) : List Projection → Expanding (List Output × List JoinPath)
  | [] => return ([], [])
  | p :: rest => do
    let (o, joins) ← outputOf mode scope taken p
    let (os, more) ← outputsOf (o.column.label :: taken) rest
    return (o :: os, JoinPath.union joins more)

/-- Expands the metrics that predicates on groups read and no slot holds yet. -/
def hiddenOf (known : List Metric) : List Predicate → Expanding (List Metric × List JoinPath)
  | [] => return ([], [])
  | p :: rest => do
    let (_, c) ← locate scope.root p.column
    if !c.isMetric || known.any (·.path.sameColumn p.column) then hiddenOf known rest
    else do
      let f ← resolvePath mode scope p.column none
      let label := Sql.fitName mode.dialect ("having_" ++ toString known.length)
      let s : Metric := ⟨p.column, f.sql, c.aggregation, label⟩
      let (ss, more) ← hiddenOf (known ++ [s]) rest
      return (s :: ss, JoinPath.union f.joins more)

/-- Expands the columns that predicates on rows read. -/
def rowColumnsOf (known : List (Path × String)) :
    List Predicate → Expanding (List (Path × String) × List JoinPath)
  | [] => return (known, [])
  | p :: rest => do
    if (known.lookup p.column).isSome then rowColumnsOf known rest
    else do
      let f ← resolvePath mode scope p.column p.column.grain
      let (found, more) ← rowColumnsOf (known ++ [(p.column, f.sql)]) rest
      return (found, JoinPath.union f.joins more)

/-- The paths of the columns a metric is nested by, each with its grain. -/
def nestPaths (s : Metric) : Except CompileError (List Path) := do
  let (_, c) ← locate scope.root s.path
  c.nestBy.mapM fun n => do
    let p : Path := { joins := s.path.joins, column := n.column }
    let (_, d) ← locate scope.root p
    return { p with grain := n.grain.orElse fun _ => d.defaultGrain? }

/-- The alias of a column that only the inner statement groups by. -/
def nestAlias (p : Path) : String :=
  Sql.fitName mode.dialect ("nest_" ++ p.baseAlias ++ match p.grain with
    | some g => "_" ++ g.name
    | none => "")

/-- Expands the columns that metrics are nested by, except those projected and those with an alias
that is taken. -/
def nestByOf (q : Query) (known : List Grouping) :
    List Path → Expanding (List Grouping × List JoinPath)
  | [] => return ([], [])
  | p :: rest => do
    let label := nestAlias mode p
    if q.dimensions.any (fun d => d.path.sameColumn p && d.path.grain == p.grain) ||
        known.any (·.label == label) then
      nestByOf q known rest
    else do
      let f ← resolvePath mode scope p p.grain
      let g : Grouping := ⟨f.sql, label⟩
      let (gs, more) ← nestByOf q (known ++ [g]) rest
      return (g :: gs, JoinPath.union f.joins more)

end

/-- In a nested query every metric must need two passes or be one whose partial results can be
aggregated again. -/
def checkNested (d : Dialect) (metrics : List Metric) : Except CompileError Unit :=
  metrics.forM fun s =>
    if !s.twoPass && !s.reaggregates then .error (.unsupported d (.reaggregation s.path)) else .ok ()

/-- The columns that the two-pass metrics among some are nested by. -/
def nestingOf {m : Model} (mode : Mode) (scope : Scope m) (q : Query) (metrics : List Metric) :
    Expanding (List Grouping × List JoinPath) := do
  if metrics.any Metric.twoPass then
    checkNested mode.dialect metrics
    let rec collect (known : List Grouping) :
        List Metric → Expanding (List Grouping × List JoinPath)
      | [] => return ([], [])
      | s :: rest => do
        let paths ← nestPaths scope s
        let (gs, joins) ← nestByOf mode scope q known paths
        let (more, joins') ← collect (known ++ gs) rest
        return (gs ++ more, JoinPath.union joins joins')
    collect [] (metrics.filter Metric.twoPass)
  else return ([], [])

/-- What a query whose conditions are placed reads: a plan without joins, and the join paths it
reads through. -/
def draft {m : Model} (dialect : Dialect) (q : Query) (root : m.Member) (filters : Placement) :
    Expanding (Plan × List JoinPath) := do
  let mode : Mode := ⟨dialect, false⟩
  let scope := Scope.of root q.arguments
  let (outputs, outputJoins) ← outputsOf mode scope [] q.projections
  let (hidden, hiddenJoins) ← hiddenOf mode scope (projectedMetrics outputs)
    (filters.groups.toList.flatMap Filter.predicates)
  let (rowColumns, rowJoins) ← rowColumnsOf mode scope []
    (filters.rows.toList.flatMap Filter.predicates)
  let (nestBy, nestJoins) ← nestingOf mode scope q (projectedMetrics outputs ++ hidden)
  let required := JoinPath.union (JoinPath.union (JoinPath.union outputJoins hiddenJoins) rowJoins)
    nestJoins
  let plan : Plan := {
    dialect, query := q, root := root.1, rootAlias := aliasFor dialect root.1 []
    filters, outputs, hidden, nestBy, rowColumns, joins := [] }
  return (plan, required)

/-- Plans a query. -/
def build (m : Model) (dialect : Dialect) (q : Query) : Except CompileError Plan := do
  let filters ← Placement.of m q
  let root ← m.require q.table
  let (plan, required) ← (draft dialect q root filters).run' []
  let joins ← JoinPlan.of ⟨dialect, false⟩ (Scope.of root q.arguments) required
  return { plan with joins }

end Plan

end Rollup
