/-
Models as structured data: tables with their columns, joins and arguments, under the names a model
file uses.
-/
import Rollup.Model.Table

namespace Rollup

/-- Reads the declaration of a grain. -/
def GrainDef.ofDatum? (d : Datum) : Option GrainDef := do
  let fs ← Datum.fields? ["grain", "formula"] d
  some {
    grain := ← fs.required? "grain" (Datum.named? Grain.all Grain.name)
    formula := ← fs.optional? "formula" Datum.text?
  }

/-- Reads what a metric is nested by. -/
def NestBy.ofDatum? (d : Datum) : Option NestBy := do
  let fs ← Datum.fields? ["column", "grain"] d
  some {
    column := ← fs.required? "column" Datum.text?
    grain := ← fs.optional? "grain" (Datum.named? Grain.all Grain.name)
  }

/-- The kind of a column by its name, or by its place among the kinds. -/
def Role.ofDatum? : Datum → Option Role
  | .text s => Role.all.find? (·.name == s)
  | .int n => if 0 ≤ n then Role.all[n.toNat]? else none
  | _ => none

/-- The kind of a column stands among its other fields. -/
def ColumnKind.ofFields? (fs : Datum.Fields) : Option ColumnKind := do
  match ← fs.required? "kind" Role.ofDatum? with
  | .metric =>
    some (.metric
      (← fs.optional? "aggregation" (Datum.named? Aggregation.all Aggregation.name))
      (← fs.default? "nest_by" [] (Datum.list? NestBy.ofDatum?)))
  | .dimension => some .dimension
  | .timeDimension => some (.timeDimension (← fs.required? "grains" (Datum.list? GrainDef.ofDatum?)))

/-- Reads a column; what its kind needs stands beside the other members. -/
def Column.ofDatum? (d : Datum) : Option Column := do
  let fs ← Datum.recordFields? ["name", "formula", "value_type", "values", "arguments", "kind"] d
  some {
    name := ← fs.required? "name" Datum.text?
    formula := ← fs.default? "formula" "" Datum.text?
    valueType := ← fs.default? "value_type" .text ValueType.ofDatum?
    values := ← fs.optional? "values" (Datum.list? Datum.text?)
    parameters := ← fs.default? "arguments" [] (Datum.list? Parameter.ofDatum?)
    kind := ← ColumnKind.ofFields? fs
  }

/-- A physical table where one is named, else a subquery. -/
def RowSource.ofDatum? (d : Datum) : Option RowSource :=
  physical? <|> subquery?
where
  physical? : Option RowSource := do
    let fs ← Datum.recordFields? ["schema", "table"] d
    some (.physical (← fs.optional? "schema" Datum.text?) (← fs.required? "table" Datum.text?))
  subquery? : Option RowSource := do
    let fs ← Datum.recordFields? ["sql"] d
    some (.subquery (← fs.required? "sql" Datum.text?))

/-- Reads a join, which is a left one if it does not say. -/
def Join.ofDatum? (d : Datum) : Option Join := do
  let fs ← Datum.fields? ["name", "table", "kind", "on"] d
  some {
    name := ← fs.required? "name" Datum.text?
    table := ← fs.required? "table" Datum.text?
    kind := ← fs.default? "kind" .left (Datum.named? JoinKind.all JoinKind.name)
    condition := ← fs.default? "on" "" Datum.text?
  }

/-- Reads a table. Only its name and its source must be there. -/
def Table.ofDatum? (d : Datum) : Option Table := do
  let fs ← Datum.fields? ["name", "source", "data_source", "arguments", "columns", "joins"] d
  some {
    name := ← fs.required? "name" Datum.text?
    source := ← fs.required? "source" RowSource.ofDatum?
    dataSource := ← fs.default? "data_source" "default" Datum.text?
    parameters := ← fs.default? "arguments" [] (Datum.list? Parameter.ofDatum?)
    columns := ← fs.default? "columns" [] (Datum.list? Column.ofDatum?)
    joins := ← fs.default? "joins" [] (Datum.list? Join.ofDatum?)
  }

/-- The tables of a model given as a list. -/
def Model.tablesOfDatum? : Datum → Option (List Table) :=
  Datum.list? Table.ofDatum?

/-- The tables of a model file. -/
def Model.tablesOfFile? (d : Datum) : Option (List Table) := do
  let fs ← Datum.fields? ["tables"] d
  fs.default? "tables" [] (Datum.list? Table.ofDatum?)

/-! ## Writing -/

/-- A member that is left out when there is nothing to write. -/
def Datum.optionalMember (name : String) : Option Datum → List (String × Datum)
  | some d => [(name, d)]
  | none => []

/-- A list of texts. -/
def Datum.ofTexts (ss : List String) : Datum :=
  .list (ss.map .text)

/-- The declaration of an argument, without what it leaves open. -/
def Parameter.toDatum (p : Parameter) : Datum :=
  .record (
    [("name", .text p.name), ("value_type", .text p.valueType.name)] ++
    Datum.optionalMember "allowed_values" (p.allowed.map Datum.ofTexts) ++
    Datum.optionalMember "default" (p.default.map .text))

/-- The declaration of a grain, with its formula if it has one. -/
def GrainDef.toDatum (g : GrainDef) : Datum :=
  .record (
    ("grain", .text g.grain.name) :: Datum.optionalMember "formula" (g.formula.map .text))

/-- What a metric is nested by, with the grain if there is one. -/
def NestBy.toDatum (n : NestBy) : Datum :=
  .record (
    ("column", .text n.column) ::
      Datum.optionalMember "grain" (n.grain.map fun g => .text g.name))

/-- The members that tell a kind. -/
def ColumnKind.members : ColumnKind → List (String × Datum)
  | .metric aggregation nestBy =>
    [("kind", .text "metric"),
      ("aggregation", (aggregation.map fun a => Datum.text a.name).getD .null),
      ("nest_by", .list (nestBy.map NestBy.toDatum))]
  | .dimension => [("kind", .text "dimension")]
  | .timeDimension grains =>
    [("kind", .text "time_dimension"), ("grains", .list (grains.map GrainDef.toDatum))]

/-- A column, the members of its kind beside its own. -/
def Column.toDatum (c : Column) : Datum :=
  .record (
    [("name", .text c.name), ("formula", .text c.formula),
      ("value_type", .text c.valueType.name)] ++
    Datum.optionalMember "values" (c.values.map Datum.ofTexts) ++
    [("arguments", .list (c.parameters.map Parameter.toDatum))] ++ c.kind.members)

/-- A source: its table, or its text. -/
def RowSource.toDatum : RowSource → Datum
  | .physical schema table =>
    .record (Datum.optionalMember "schema" (schema.map .text) ++ [("table", .text table)])
  | .subquery sql => .record [("sql", .text sql)]

/-- A join with all its members. -/
def Join.toDatum (j : Join) : Datum :=
  .record [("name", .text j.name), ("table", .text j.table), ("kind", .text j.kind.name),
    ("on", .text j.condition)]

/-- A table with all its members. -/
def Table.toDatum (t : Table) : Datum :=
  .record [("name", .text t.name), ("source", t.source.toDatum),
    ("data_source", .text t.dataSource),
    ("arguments", .list (t.parameters.map Parameter.toDatum)),
    ("columns", .list (t.columns.map Column.toDatum)), ("joins", .list (t.joins.map Join.toDatum))]

end Rollup
