/-
Analytic tables, the joins between them, and models made of them.
-/
import Rollup.Model.Arguments
import Rollup.Model.Column
import Rollup.Text.Blank

namespace Rollup

/-- Where the rows of a table come from. -/
inductive RowSource where
  | physical (schema : Option String) (table : String)
  | subquery (sql : String)
  deriving DecidableEq, Repr

/-- Which rows without a partner a join keeps. -/
inductive JoinKind where
  | inner
  | left
  | full
  | cross
  deriving DecidableEq, Repr

namespace JoinKind

/-- All kinds of joins. -/
def all : List JoinKind :=
  [inner, left, full, cross]

/-- The name of a kind in a model. -/
def name : JoinKind → String
  | inner => "inner"
  | left => "left"
  | full => "full"
  | cross => "cross"

end JoinKind

/-- A way from one table to another. -/
structure Join where
  name : String
  /-- The table it leads to. -/
  table : String
  kind : JoinKind := .left
  /-- The condition, a template read in the table the join starts from. A cross join has none. -/
  condition : String := ""
  deriving DecidableEq, Repr

/-- A named source of rows with columns and joins. -/
structure Table where
  name : String
  source : RowSource
  /-- The connection its statements are sent to. -/
  dataSource : String := "default"
  parameters : List Parameter := []
  columns : List Column := []
  joins : List Join := []
  deriving DecidableEq, Repr

namespace Table

/-- The first column of a name. -/
def column? (t : Table) (name : String) : Option Column :=
  t.columns.find? (·.name == name)

/-- The first join of a name. -/
def join? (t : Table) (name : String) : Option Join :=
  t.joins.find? (·.name == name)

/-- The position of a join in the order of declaration. -/
def joinIndex? (t : Table) (name : String) : Option Nat :=
  t.joins.findIdx? (·.name == name)

/-- The argument that the table declares under a name. -/
def parameter? (t : Table) (name : String) : Option Parameter :=
  t.parameters.find? (·.name == name)

/-- The default values of the declared arguments. -/
def defaults (t : Table) : Arguments :=
  Arguments.ofList (t.parameters.filterMap fun p => p.default.map fun v => (p.name, v))

/-- The table with every empty formula filled in. -/
def filled (t : Table) : Table :=
  { t with columns := t.columns.map (·.filled fun f => (Text.trim f).isEmpty) }

end Table

/-- Tables that refer to each other by name, and how deep formulas may refer to one another. -/
structure Model where
  tables : List Table
  maxDepth : Nat := 64
  deriving DecidableEq, Repr

namespace Model

/-- The table of a name. -/
def table? (m : Model) (name : String) : Option Table :=
  m.tables.find? (·.name == name)

theorem mem_of_table? {m : Model} {name : String} {t : Table} (h : m.table? name = some t) :
    t ∈ m.tables :=
  List.mem_of_find?_eq_some h

end Model

end Rollup
