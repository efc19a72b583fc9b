/-
Statements from plans: the main statement, which groups and aggregates in one pass or in two, and
the statement that counts its rows.
-/
import Rollup.Compile.Condition
import Rollup.Compile.Plan

namespace Rollup

open Sql

namespace Plan

/-- An expression brought together by an aggregation. -/
def aggregate : Option Aggregation → Expr → Expr
  | none, e => e
  | some .sum, e => e.sum
  | some .min, e => e.min
  | some .max, e => e.max
  | some .count, e => e.count
  | some .countDistinct, e => .countDistinct [e]
  | some .avg, e => e.avg

/-- The table or subquery of a table, under an alias. -/
def sourceOf (t : Table) (label : String) : Source where
  relation := match t.source with
    | .physical schema table => .table schema table
    | .subquery sql => .text sql
  label := some label

/-- The join of SQL for a kind of join. -/
def joinType : JoinKind → JoinType
  | .inner => .inner
  | .left => .left
  | .full => .full
  | .cross => .cross

/-- A planned join under its alias. -/
def joinedOf (j : PlannedJoin) : Joined where
  type := joinType j.kind
  source := sourceOf j.table j.label
  on := j.on.map .raw

/-- An expression under a label. -/
def labelled (e : Expr) (label : String) : Item :=
  ⟨e, some label⟩

section

variable (p : Plan)

/-- A column of the inner statement. -/
def inner (label : String) : Expr :=
  .column (some p.innerAlias) label

/-- The alias of a part of a metric's value in the inner statement. -/
def partialAlias (s : Metric) (part : String) : String :=
  fitName p.dialect (s.label ++ "_" ++ part)

/-- A metric's value in the outermost statement. Of two passes the second aggregates what the first
one found; an average is the quotient of the sums of sums and counts. -/
def metricExpr (s : Metric) : Expr :=
  if !p.nested then aggregate s.aggregation (.raw s.sql)
  else if s.twoPass then aggregate s.aggregation (p.inner s.label)
  else match s.aggregation with
    | some .count => (p.inner s.label).sum
    | some .avg =>
      .binary (.binary (p.inner (p.partialAlias s "sum")).sum .mul (.raw "1.0")) .div
        (p.inner (p.partialAlias s "count")).sum
    | a => aggregate a (p.inner s.label)

/-- A dimension's value in the outermost statement. -/
def dimensionExpr (g : Grouping) : Expr :=
  if p.nested then p.inner g.label else .raw g.sql

/-- An output column's value in the outermost statement. -/
def outputExpr (o : Output) : Expr :=
  match o.content with
  | .dimension g => p.dimensionExpr g
  | .metric s => p.metricExpr s

/-- What a metric contributes to the inner statement. -/
def partials (s : Metric) : List Item :=
  if s.twoPass then [labelled (.raw s.sql) s.label]
  else match s.aggregation with
    | some .avg =>
      [labelled (Expr.raw s.sql).sum (p.partialAlias s "sum"),
        labelled (Expr.raw s.sql).count (p.partialAlias s "count")]
    | a => [labelled (aggregate a (.raw s.sql)) s.label]

/-- What a predicate on rows tests. -/
def rowColumn (t : Predicate) : Except CompileError Expr :=
  match p.rowColumns.lookup t.column with
  | some sql => .ok (.raw sql)
  | none => .error (.unknownColumn p.root.name t.column.display)

/-- The output column with the projection of a name. -/
def outputNamed? (name : String) : Option Output :=
  p.outputs.find? (·.column.name == name)

/-- What a predicate on groups tests: a metric, or a grouped dimension. -/
def groupColumn (t : Predicate) : Except CompileError Expr :=
  match p.metrics.find? (·.path.sameColumn t.column) with
  | some s => .ok (p.metricExpr s)
  | none =>
    match (p.query.groupingProjection? t.column).bind fun d => p.outputNamed? d.name with
    | some o => .ok (p.outputExpr o)
    | none => .error (.ungrouped t)

/-- A condition, when there is one. -/
def condition (column : Predicate → Except CompileError Expr) :
    Option Filter → Binding (Option Expr)
  | none => return none
  | some f => Condition.ofFilter p.dialect column f

/-- The statement that reads the table, its joins and the rows that meet the conditions. -/
def base : Binding Select := do
  return {
    source := some (sourceOf p.root p.rootAlias)
    joins := p.joins.map joinedOf
    condition := ← p.condition p.rowColumn p.filters.rows }

/-- The output of a grouping. -/
def groupingItem (g : Grouping) : Item :=
  labelled (.raw g.sql) g.label

/-- The select list of the outermost statement. -/
def outputItems : List Item :=
  p.outputs.map fun o => labelled (p.outputExpr o) o.column.label

/-- The inner statement of two passes. -/
def innerSelect (base : Select) : Select :=
  let groups := p.dimensions ++ p.nestBy
  { base with
    items := groups.map groupingItem ++ p.metrics.flatMap p.partials
    groupBy := groups.map fun g => .raw g.sql }

/-- The statement before conditions on groups, order and page. -/
def grouped (base : Select) : Select :=
  if p.nested then
    { items := p.outputItems
      source := some ⟨.query (p.innerSelect base), some p.innerAlias⟩
      groupBy := p.dimensions.map fun g => p.inner g.label }
  else if p.query.isAggregated then
    { base with items := p.outputItems, groupBy := p.dimensions.map fun g => .raw g.sql }
  else { base with items := p.outputItems, distinct := true }

/-- The rows of the result, in no order. -/
def rows : Binding Select := do
  let base ← p.base
  let having ← p.condition p.groupColumn p.filters.groups
  return { p.grouped base with having }

/-- An output column to order by: its label where the dialect knows it there, else its value. -/
def orderOf (k : SortKey) : Except CompileError Order :=
  match p.outputNamed? k.key with
  | some o =>
    let e := if p.dialect.ordersByAlias then .column none o.column.label else p.outputExpr o
    .ok ⟨e, k.direction⟩
  | none =>
    if k.key == "id" && p.query.isAggregated then .error (.invalidSort k.key)
    else .error (.unprojectedSort k.key)

/-- The page that is asked for, if any. -/
def page? : Option Page :=
  p.query.pagination.bind fun g =>
    if g.limit.isSome || g.offset.isSome then some ⟨g.limit, g.offset⟩ else none

/-- The main statement: the rows of the result in order, cut to the page. -/
def main : Binding Select := do
  let rows ← p.rows
  let orderBy ← p.query.sorting.mapM fun k => (p.orderOf k : Except CompileError Order)
  return { rows with orderBy, page := p.page? }

/-- Whether the rows can be counted as the distinct values of the dimensions. -/
def countsDirectly : Bool :=
  !p.nested && p.filters.groups.isNone &&
    (p.dimensions.length == 1 || p.dialect.tupleCount != .subquery)

/-- The number of distinct values of the dimensions. -/
def distinctCount : Expr :=
  let es := p.dimensions.map fun g => Expr.raw g.sql
  if es.length != 1 && p.dialect.tupleCount == .tuple then .countDistinct [.tuple es]
  else .countDistinct es

/-- The statement that counts the rows of the result. -/
def countSelect : Binding Select := do
  if p.countsDirectly then
    return { ← p.base with items := [labelled p.distinctCount "total"] }
  else
    return {
      items := [labelled .countRows "total"]
      source := some ⟨.query (← p.rows), some "pagination_subquery"⟩ }

/-- Whether the rows are to be counted: only if that is wanted and there are groups to count. -/
def wantsCount : Bool :=
  p.query.pagination.any (·.wantTotal) && !p.dimensions.isEmpty

end

/-- A statement as text, with the values bound on the way. -/
def statement (d : Dialect) (s : Binding Select) : Except CompileError Statement := do
  let (select, params) ← s.run []
  return ⟨select.render d, params⟩

/-- The statements of a plan. -/
def compile (p : Plan) : Except CompileError Compiled := do
  let main ← statement p.dialect p.main
  let count ← if p.wantsCount then (statement p.dialect p.countSelect).map some else pure none
  return {
    main, count, nested := p.nested, dialect := p.dialect, dataSource := p.root.dataSource
    columns := p.columns }

end Plan

/-- Compiles a query for a dialect. -/
def compile (m : Model) (d : Dialect) (q : Query) : Except CompileError Compiled := do
  (← Plan.build m d q).compile

/-- The text of the statements of a query, the main one first. -/
def Compiled.texts (c : Compiled) : List String :=
  c.main.sql :: c.count.toList.map (·.sql)

end Rollup
