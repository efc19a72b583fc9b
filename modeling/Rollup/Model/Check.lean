/-
Building models. Empty formulas are filled in, names are checked to be unique, joins and nestings
to lead somewhere, and every formula is expanded once, with nothing but defaults, so that broken
templates and circles are found before any query.
-/
import Rollup.Expansion.Memo

namespace Rollup.Model

/-- The first element that stands earlier in the list already. -/
def firstRepeated? (seen : List String) : List String → Option String
  | [] => none
  | n :: rest => if seen.contains n then some n else firstRepeated? (n :: seen) rest

/-- A column that a metric is nested by must be a dimension of the same table, and a grain one of
its own. -/
def checkNestBy (t : Table) (n : NestBy) : Except NestFault Unit :=
  match t.column? n.column with
  | none => .error .unknownColumn
  | some c =>
    if c.isMetric then .error .metric
    else match n.grain with
      | none => .ok ()
      | some g =>
        if !c.isTime then .error .grainWithoutTime
        else if (c.grain? g).isNone then .error (.undeclaredGrain g)
        else .ok ()

/-- Checks one column; `earlier` are the names of the columns before it. -/
def checkColumn (t : Table) (earlier : List String) (c : Column) : Except ModelFault Unit := do
  if earlier.contains c.name then throw (.table t.name (.duplicateColumn c.name))
  match firstRepeated? [] (c.parameters.map (·.name)) with
  | some a => throw (.table t.name (.duplicateArgument c.name a))
  | none => pure ()
  match c.kind with
  | .timeDimension [] => throw (.table t.name (.noGrains c.name))
  | .metric _ nestBy => nestBy.forM fun n =>
    (checkNestBy t n).mapError (.nestBy t.name c.name n.column)
  | _ => pure ()

/-- Checks one join; `earlier` are the names of the joins before it. -/
def checkJoin (m : Model) (t : Table) (earlier : List String) (j : Join) :
    Except ModelFault Unit := do
  if earlier.contains j.name then throw (.table t.name (.duplicateJoin j.name))
  if (t.column? j.name).isSome then throw (.table t.name (.joinNamedAsColumn j.name))
  if (m.table? j.table).isNone then throw (.table t.name (.unknownTarget j.name j.table))

/-- Applies a check to each element together with the names of those before it. -/
def checkEach {α : Type} (name : α → String) (check : List String → α → Except ModelFault Unit)
    (earlier : List String) : List α → Except ModelFault Unit
  | [] => .ok ()
  | a :: rest => do
    check earlier a
    checkEach name check (name a :: earlier) rest

/-- Checks the columns of a table, then its joins. -/
def checkTable (m : Model) (t : Table) : Except ModelFault Unit := do
  checkEach (·.name) (checkColumn t) [] t.columns
  checkEach (·.name) (m.checkJoin t) [] t.joins

/-- The mode in which a model is tried out. -/
def trial : Mode := ⟨.duckdb, true⟩

/-- Expands everything a table defines: its columns, those grains that have formulas, and the
conditions of its joins. -/
def expandTable {m : Model} (t : m.Member) : Expanding Unit := do
  let scope := Scope.of t .empty
  t.1.columns.forM fun c => do
    let _ ← resolveColumn trial scope [] c.name .empty none
    (c.grains.filter (·.formula.isSome)).forM fun d => do
      let _ ← resolveColumn trial scope [] c.name .empty (some d.grain)
  (t.1.joins.filter (·.kind != .cross)).forM fun j => do
    let _ ← resolveTemplate trial scope [] j.condition ("join:" ++ j.name)

/-- Checks a model whose formulas are filled in. -/
def check (m : Model) : Except CompileError Unit := do
  match firstRepeated? [] (m.tables.map (·.name)) with
  | some n => throw (.invalidModel (.duplicateTable n))
  | none => pure ()
  (m.tables.forM m.checkTable).mapError .invalidModel
  discard <| (m.tables.attach.forM expandTable).run []

/-- The model made of some tables, when nothing is wrong with it. -/
def build (tables : List Table) (maxDepth : Nat := 64) : Except CompileError Model := do
  let m : Model := { tables := tables.map (·.filled), maxDepth }
  m.check
  return m

end Rollup.Model
