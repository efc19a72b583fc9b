/-
Placing conditions. The conditions of a query hold on rows before they are grouped (`WHERE`) or on
the groups (`HAVING`). Both filters are brought into negation normal form and cut at their `and`s,
and every part is placed on its own: with the rows when all its predicates are about rows, with the
groups when one is about a group.
-/
import Rollup.Expansion.Memo
import Rollup.Query.Build
import Rollup.Sql.AggregateCall

namespace Rollup

/-- Where a condition holds. -/
inductive Clause where
  | rows
  | groups
  deriving DecidableEq, Repr

/-- The conditions of a query after they are placed. -/
structure Placement where
  rows : Option Filter := none
  groups : Option Filter := none
  deriving DecidableEq

namespace Placement

/-- Checks that an operator fits the column and the operands of its predicate. -/
def checkOperator (p : Predicate) (c : Column) : Except CompileError Unit := do
  if p.op.needsCollection && c.valueType != .collection then
    throw (.operator p (.needsCollection c.name c.valueType))
  match p.op.arity with
  | .exactly n =>
    if p.values.length != n then throw (.operator p (.operandCount n p.values.length))
  | .list => pure ()
  if p.values.contains .null then throw (.operator p .nullOperand)
  if p.op.needsText && !p.values.all Operand.isText then throw (.operator p .needsText)

section

variable {m : Model} (q : Query) (root : m.Member)

/-- A metric tested row by row must not aggregate. -/
def checkRawMetric (p : Predicate) : Except CompileError Unit := do
  let f ← expandColumn ⟨.duckdb, false⟩ (Scope.of root q.arguments) p.column.joins p.column.column
    p.column.arguments none
  if Sql.embedsAggregate f.sql then throw (.operator p .alreadyAggregated)

/-- Where a predicate of an aggregated query holds. A metric is tested on groups if it is projected
or meant so; a dimension of the table itself must be grouped by. -/
def place (origin : Clause) (p : Predicate) : Except CompileError Clause := do
  let (_, c) ← locate root p.column
  if c.isMetric then
    if origin == .groups || (q.metricProjection? p.column).isSome then return .groups
    checkRawMetric q root p
    return .rows
  if p.column.joins.isEmpty && (q.groupingProjection? p.column).isNone then throw (.ungrouped p)
  return .rows

/-- Checks a predicate about rows that shares a part with one about groups: after grouping only
grouped dimensions are left. -/
def checkPromotable (p : Predicate) : Except CompileError Unit := do
  let (_, c) ← locate root p.column
  if c.isMetric then throw (.operator p .mixedWithAggregates)
  if (q.groupingProjection? p.column).isNone then throw (.ungrouped p)

/-- Where a part holds as a whole. -/
def placePart (origin : Clause) (part : Filter) : Except CompileError Clause := do
  let placed ← part.predicates.mapM fun p => (place q root origin p).map fun c => (p, c)
  if placed.all (·.2 == .rows) then return .rows
  placed.forM fun (p, c) => if c == .rows then checkPromotable q root p else .ok ()
  return .groups

/-- The parts of a filter with the places where they hold. -/
def placeParts (origin : Clause) (f : Filter) : Except CompileError (List (Clause × Filter)) :=
  f.conjuncts.mapM fun part => (placePart q root origin part).map fun c => (c, part)

end

/-- The parts that hold in one place, put together. -/
def gather (c : Clause) (parts : List (Clause × Filter)) : Option Filter :=
  Filter.all? ((parts.filter (·.1 == c)).map (·.2))

/-- Places the conditions of a query. Without metrics nothing is grouped, and everything is a
condition on rows. -/
def of (m : Model) (q : Query) : Except CompileError Placement := do
  let root ← m.require q.table
  let rows := q.whereFilter.map Filter.pushNot
  let groups := q.havingFilter.map Filter.pushNot
  (rows.toList ++ groups.toList).forM fun f => f.predicates.forM fun p => do
    let (_, c) ← locate root p.column
    checkOperator p c
  if q.isAggregated then
    let fromRows ← rows.toList.mapM (placeParts q root .rows)
    let fromGroups ← groups.toList.mapM (placeParts q root .groups)
    let parts := (fromRows ++ fromGroups).flatten
    return ⟨gather .rows parts, gather .groups parts⟩
  else
    let merged := Filter.all? (rows.toList ++ groups.toList)
    merged.toList.forM fun f => f.predicates.forM fun p => do
      let (_, c) ← locate root p.column
      if c.isMetric then checkRawMetric q root p
    return ⟨merged, none⟩

end Placement

end Rollup
