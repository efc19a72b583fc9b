/-
From what a database returns to rows of typed cells. Each output column finds its cells by its
label; a row with a cell that does not fit its column is an error of its own, and reading goes on
behind it.
-/
import Rollup.Compile.Output
import Rollup.Keyed
import Rollup.Result.Cell
import Rollup.Text.Utf8

namespace Rollup

/-- Why a statement could not be run. -/
inductive ExecutionError where
  | unknownDataSource (name : String)
  | emptyCount
  | poisoned (name : String)
  deriving DecidableEq, Repr

/-- What is told of a statement that could not be executed. -/
def ExecutionError.message : ExecutionError → String
  | unknownDataSource name => "unknown data source: " ++ name
  | emptyCount => "count query returned no rows"
  | poisoned name => "connection for data source '" ++ name ++ "' is poisoned"

/-- Why a cell does not fit its column. -/
inductive CellFault where
  | ordinal (n : Int64)
  | undeclared (cell : RawCell)
  | noGrain
  | notTimestamp (cell : RawCell)
  /-- The program ends at such a cell. -/
  | beforeCalendar (cell : RawCell)
  | notBoolean (s : String)
  | notNumeric (s : String)
  deriving DecidableEq, Repr

/-- What is told of the value, behind the name of its column. -/
def CellFault.message : CellFault → String
  | ordinal n => "ordinal " ++ toString n.toInt ++ " out of range"
  | undeclared cell => cell.describe ++ " is not a declared value"
  | noGrain => "time dimension without a grain"
  | notTimestamp cell => cell.describe ++ " is not a timestamp"
  | beforeCalendar cell => cell.describe ++ " is in a week that begins before the first date"
  | notBoolean s => "'" ++ s ++ "' is not a boolean"
  | notNumeric s => "'" ++ s ++ "' is not numeric"

/-- Why rows, or a row, could not be had. -/
inductive HydrationError where
  | exhausted
  | invalidValue (name : String) (fault : CellFault)
  | missingColumn (label : String)
  | execution (e : ExecutionError)
  deriving DecidableEq, Repr

/-- What is told of a result that cannot be turned into rows. -/
def HydrationError.message : HydrationError → String
  | exhausted => "result cursor already exhausted"
  | invalidValue name fault => "invalid value for '" ++ name ++ "': " ++ fault.message
  | missingColumn label => "result set has no column '" ++ label ++ "'"
  | execution e => e.message

/-! ## Cells -/

namespace Hydration

/-- A cell of a column with declared values: one of them, or its position among them. -/
def ofDeclared (values : List String) : RawCell → Except CellFault Cell
  | .int n =>
    match if 0 ≤ n.toInt then values[n.toInt.toNat]? else none with
    | some v => .ok (.member v)
    | none => .error (.ordinal n)
  | .text s => if values.contains s then .ok (.member s) else .error (.undeclared (.text s))
  | cell => .error (.undeclared cell)

/-- A cell of a time dimension: a timestamp in text, or the seconds since 1970. -/
def ofTime (grain : Option Grain) (cell : RawCell) : Except CellFault Cell :=
  match grain with
  | none => .error .noGrain
  | some g =>
    let bucket := match cell with
      | .text s => Bucket.read g s
      | .int n => Bucket.ofEpoch g n.toInt
      | _ => .error .notTimestamp
    match bucket with
    | .ok b => .ok (.time b)
    | .error .notTimestamp => .error (.notTimestamp cell)
    | .error .beforeCalendar => .error (.beforeCalendar cell)

/-- A truth value in text. -/
def ofBooleanText (s : String) : Except CellFault Cell :=
  let lowered := String.ofList (s.toList.map Char.toLower)
  if ["true", "t", "1"].contains lowered then .ok (.boolean true)
  else if ["false", "f", "0"].contains lowered then .ok (.boolean false)
  else .error (.notBoolean s)

/-- A cell of any other column. -/
def ofPlain (type : ValueType) : RawCell → Except CellFault Cell
  | .null => .ok .null
  | .int n => .ok (match type with
    | .decimal => .decimal (Double.ofInt n.toInt)
    | .boolean => .boolean (n != 0)
    | _ => .integer n)
  | .real x => .ok (match type with
    | .integer | .id => if x.isWhole then .integer x.toInt64 else .decimal x
    | _ => .decimal x)
  | .text s => match type with
    | .boolean => ofBooleanText s
    | .integer | .id | .decimal => .error (.notNumeric s)
    | _ => .ok (.text s)
  | .blob bytes => .ok (.text (Text.decode bytes))

end Hydration

namespace OutputColumn

/-- The typed value of a cell of the column. -/
def hydrate (c : OutputColumn) (cell : RawCell) : Except CellFault Cell :=
  if cell == .null then .ok .null
  else match c.values with
    | some values => Hydration.ofDeclared values cell
    | none =>
      if c.role == .timeDimension then Hydration.ofTime c.grain cell
      else Hydration.ofPlain c.valueType cell

end OutputColumn

/-! ## Rows -/

/-- A row of a result: its number, and its cells by the names of the output columns. -/
structure Row where
  id : UInt64
  cells : List (String × Cell)
  deriving DecidableEq, Repr

/-- What a database returns: labels, and what reading row after row yields. -/
structure Cursor where
  labels : List String
  reads : List (Except ExecutionError (List RawCell))

namespace Hydration

/-- The position of every column's label. -/
def positions (labels : List String) (columns : List OutputColumn) :
    Except HydrationError (List (OutputColumn × Nat)) :=
  columns.mapM fun c => match labels.findIdx? (· == c.label) with
    | some i => .ok (c, i)
    | none => .error (.missingColumn c.label)

/-- The cells of one row. Columns of the same name share one cell, the last one's; a cell that is
not there counts as null. -/
def cellsOf (row : List RawCell) :
    (cells : List (String × Cell)) → List (OutputColumn × Nat) →
      Except HydrationError (List (String × Cell))
  | cells, [] => .ok cells
  | cells, (c, i) :: rest =>
    match c.hydrate (row.getD i .null) with
    | .ok cell => cellsOf row (Keyed.put c.name cell cells) rest
    | .error fault => .error (.invalidValue c.name fault)

/-- The rows that are read, good ones numbered from `id` on. A read that fails is the last. -/
def rowsFrom (columns : List (OutputColumn × Nat)) (id : UInt64) :
    List (Except ExecutionError (List RawCell)) → List (Except HydrationError Row)
  | [] => []
  | .error e :: _ => [.error (.execution e)]
  | .ok row :: rest =>
    match cellsOf row [] columns with
    | .ok cells => .ok ⟨id, cells⟩ :: rowsFrom columns (id + 1) rest
    | .error e => .error e :: rowsFrom columns id rest

end Hydration

/-- Turns a cursor into rows, once. -/
structure Hydrator where
  columns : List OutputColumn
  cursor : Option Cursor

namespace Hydrator

/-- The rows, each of them good or bad. -/
def rows (h : Hydrator) :
    Except HydrationError (List (Except HydrationError Row)) × Hydrator :=
  match h.cursor with
  | none => (.error .exhausted, h)
  | some c =>
    ((Hydration.positions c.labels h.columns).map fun columns =>
      Hydration.rowsFrom columns 0 c.reads, { h with cursor := none })

/-- The rows, when all of them are good. -/
def collect (h : Hydrator) : Except HydrationError (List Row) × Hydrator :=
  let (found, h) := h.rows
  (found.bind fun rows => rows.mapM id, h)

end Hydrator

end Rollup
