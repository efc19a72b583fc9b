/-
What compiling yields: statements with the values of their parameters, and the columns of the rows
they return.
-/
import Rollup.Filter.Operand
import Rollup.Model.Column
import Rollup.Sql.Dialect

namespace Rollup

/-- A statement and the values of its parameters, in the order of their placeholders. -/
structure Statement where
  sql : String
  params : List Operand
  deriving DecidableEq, Repr

/-- A column of the returned rows. -/
structure OutputColumn where
  /-- The name it has in results. -/
  name : String
  /-- The label the database gives it, which fits the dialect. -/
  label : String
  role : Role
  grain : Option Grain := none
  valueType : ValueType
  values : Option (List String) := none
  deriving DecidableEq, Repr

/-- A query ready to be run. -/
structure Compiled where
  main : Statement
  /-- Counts the rows before a page is cut out. -/
  count : Option Statement
  /-- Whether metrics are aggregated twice. -/
  nested : Bool
  dialect : Dialect
  dataSource : String
  columns : List OutputColumn
  deriving DecidableEq, Repr

namespace Statement

/-- A statement with its parameters. -/
def toDatum (s : Statement) : Datum :=
  .record [("sql", .text s.sql), ("params", .list (s.params.map Operand.toDatum))]

end Statement

namespace OutputColumn

/-- Reads an output column. -/
def ofDatum? (d : Datum) : Option OutputColumn := do
  let fs ← Datum.fields? ["alias", "sql_alias", "role", "grain", "value_type", "values"] d
  some {
    name := ← fs.required? "alias" Datum.text?
    label := ← fs.required? "sql_alias" Datum.text?
    role := ← fs.required? "role" (Datum.named? Role.all Role.name)
    grain := ← fs.optional? "grain" (Datum.named? Grain.all Grain.name)
    valueType := ← fs.required? "value_type" ValueType.ofDatum?
    values := ← fs.optional? "values" (Datum.list? Datum.text?)
  }

/-- An output column as a record, with the grain and the values it has. -/
def toDatum (c : OutputColumn) : Datum :=
  .record (
    [("alias", .text c.name), ("sql_alias", .text c.label), ("role", .text c.role.name)] ++
    (match c.grain with
      | some g => [("grain", .text g.name)]
      | none => []) ++
    [("value_type", .text c.valueType.name)] ++
    (match c.values with
      | some vs => [("values", .list (vs.map .text))]
      | none => []))

end OutputColumn

namespace Compiled

/-- A compiled query; a count that was not asked for is null. -/
def toDatum (c : Compiled) : Datum :=
  .record [("main", c.main.toDatum), ("count", (c.count.map Statement.toDatum).getD .null),
    ("nested", .bool c.nested), ("dialect", .text c.dialect.name),
    ("data_source", .text c.dataSource), ("columns", .list (c.columns.map OutputColumn.toDatum))]

end Compiled

end Rollup
