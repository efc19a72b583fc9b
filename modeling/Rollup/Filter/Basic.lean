/-
Filters: predicates over column paths under and, or and not; the predicates they consist of, and
their negation normal form.
-/
import Rollup.Path
import Rollup.Filter.Operator
import Rollup.Filter.Operand

namespace Rollup

/-- One test of a column. -/
structure Predicate where
  column : Path
  op : Operator
  values : List Operand := []
  deriving DecidableEq

/-- A condition on rows. -/
inductive Filter where
  | and (a b : Filter)
  | or (a b : Filter)
  | not (f : Filter)
  | test (p : Predicate)
  deriving DecidableEq

namespace Predicate

/-- The path, the operator and the operands. -/
def display (p : Predicate) : String :=
  p.column.display ++ " " ++ p.op.name ++
    (if p.values.isEmpty then "" else " " ++ Text.join ", " (p.values.map Operand.display))

/-- A predicate as a record, with its operands if it has any. -/
def toDatum (p : Predicate) : Datum :=
  .record (
    [("column", p.column.toDatum), ("op", .text p.op.name)] ++
    (if p.values.isEmpty then [] else [("values", .list (p.values.map Operand.toDatum))]))

/-- Reads a predicate. -/
def ofDatum? (d : Datum) : Option Predicate := do
  let fs ← Datum.fields? ["column", "op", "values"] d
  some {
    column := ← fs.required? "column" Path.ofDatum?
    op := ← fs.required? "op" (Datum.named? Operator.all Operator.name)
    values := ← fs.default? "values" [] (Datum.list? Operand.ofDatum?)
  }

end Predicate

namespace Filter

/-- The predicates from left to right. -/
def predicates : Filter → List Predicate
  | and a b => a.predicates ++ b.predicates
  | or a b => a.predicates ++ b.predicates
  | not f => f.predicates
  | test p => [p]

mutual

/-- The same condition with every `not` directly over a predicate. -/
def pushNot : Filter → Filter
  | and a b => .and a.pushNot b.pushNot
  | or a b => .or a.pushNot b.pushNot
  | not f => f.negated
  | test p => .test p

/-- The opposite condition, with every `not` directly over a predicate. -/
def negated : Filter → Filter
  | and a b => .or a.negated b.negated
  | or a b => .and a.negated b.negated
  | not f => f.pushNot
  | test p => .not (.test p)

end

/-- All of some conditions. -/
def all? : List Filter → Option Filter
  | [] => none
  | f :: rest => some (rest.foldl .and f)

/-- The conditions that a chain of `and` joins, from left to right. -/
def conjuncts : Filter → List Filter
  | and a b => a.conjuncts ++ b.conjuncts
  | f => [f]

/-- The conditions that a chain of `or` joins, from left to right. -/
def disjuncts : Filter → List Filter
  | or a b => a.disjuncts ++ b.disjuncts
  | f => [f]

/-- The condition for people, with parentheses around every `and` and `or`. -/
def display : Filter → String
  | and a b => "(" ++ a.display ++ " AND " ++ b.display ++ ")"
  | or a b => "(" ++ a.display ++ " OR " ++ b.display ++ ")"
  | not f => "NOT " ++ f.display
  | test p => p.display

/-- A filter as a record of one member, named for its connective. -/
def toDatum : Filter → Datum
  | and a b => .record [("and", .list [a.toDatum, b.toDatum])]
  | or a b => .record [("or", .list [a.toDatum, b.toDatum])]
  | not f => .record [("not", f.toDatum)]
  | test p => .record [("predicate", p.toDatum)]

/-- A filter from a record with a single member that says what it is. -/
def ofDatum? : Datum → Option Filter
  | .record [(kind, .list [a, b])] =>
    if kind == "and" then do some (.and (← ofDatum? a) (← ofDatum? b))
    else if kind == "or" then do some (.or (← ofDatum? a) (← ofDatum? b))
    else if kind == "predicate" then (Predicate.ofDatum? (.list [a, b])).map .test
    else none
  | .record [(kind, d)] =>
    if kind == "not" then (ofDatum? d).map .not
    else if kind == "predicate" then (Predicate.ofDatum? d).map .test
    else none
  | _ => none

end Filter

end Rollup
