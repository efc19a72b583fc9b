/-
Results as structured data, the form in which they are kept. A cell has its kind and its value; a
decimal that is not finite is written as null, and so cannot be read back.
-/
import Rollup.Datum.Decode
import Rollup.Json.Reader
import Rollup.Json.Writer
import Rollup.Result.Hydration

namespace Rollup

/-- The rows of a query, and how many there are without a page, when that was wanted. -/
structure QueryResult where
  rows : List Row
  total : Option UInt64 := none
  deriving DecidableEq, Repr

/-! ## Writing -/

namespace Cell

/-- The name that tells the kinds of stored cells apart. -/
def kindName : Cell → String
  | null => "null"
  | integer _ => "integer"
  | decimal _ => "decimal"
  | text _ => "text"
  | boolean _ => "boolean"
  | time _ => "time"
  | member _ => "enum"

/-- What is stored of a cell besides its kind; null has nothing more. -/
def content? : Cell → Option Datum
  | null => none
  | integer n => some (.int n.toInt)
  | decimal x => some (.real x)
  | text s | member s => some (.text s)
  | boolean b => some (.bool b)
  | time b => some (.record [("grain", .text b.grain.name), ("value", .text b.start.text)])

/-- A cell as it is stored: its kind, and its content if it has any. -/
def toDatum (c : Cell) : Datum :=
  .record (("type", .text c.kindName) :: match c.content? with
    | some d => [("value", d)]
    | none => [])

end Cell

/-- A row as it is stored: its number, and its cells by name. -/
def Row.toDatum (r : Row) : Datum :=
  .record [("id", .int r.id.toNat), ("values", .record (r.cells.map fun (k, c) => (k, c.toDatum)))]

namespace QueryResult

/-- A result as it is stored; a total that was not asked for is left out. -/
def toDatum (r : QueryResult) : Datum :=
  .record (("rows", .list (r.rows.map Row.toDatum)) :: match r.total with
    | some n => [("page_total", .int n.toNat)]
    | none => [])

/-- The result as JSON text. -/
def json (r : QueryResult) : String :=
  Json.write r.toDatum

end QueryResult

/-! ## Reading -/

namespace Datum

/-- A finite number; a whole one is rounded if it has to be. -/
def number? : Reader Double
  | .int n => some (Double.ofInt n)
  | .real x => if x.isFinite then some x else none
  | _ => none

/-- Reads null. -/
def nothing? : Reader Unit
  | .null => some ()
  | _ => none

end Datum

/-- Reads a stored bucket, whose start is taken as it stands. -/
def Bucket.ofDatum? (d : Datum) : Option Bucket := do
  let fs ← Datum.fields? ["grain", "value"] d
  some {
    grain := ← fs.required? "grain" (Datum.named? Grain.all Grain.name)
    start := ← fs.required? "value" fun d => d.text?.bind Timestamp.ofText?
  }

namespace Cell

/-- The cell of a kind with a value. Null alone needs none. -/
def ofContent? (kind : String) (content : Option Datum) : Option Cell :=
  match kind, content with
  | "null", none => some null
  | "null", some d => (Datum.nothing? d).map fun _ => null
  | "integer", some d => (Datum.int64? d).map integer
  | "decimal", some d => (Datum.number? d).map decimal
  | "text", some d => (Datum.text? d).map text
  | "boolean", some d => (Datum.bool? d).map boolean
  | "time", some d => (Bucket.ofDatum? d).map time
  | "enum", some d => (Datum.text? d).map member
  | _, _ => none

/-- Reads a stored cell, also one given as a list of its kind and its content. -/
def ofDatum? : Datum → Option Cell
  | .list [.text kind, d] => ofContent? kind (some d)
  | .record ms => do
    let fs ← Datum.recordFields? ["type", "value"] (.record ms)
    ofContent? (← fs.required? "type" Datum.text?) (fs.lookup "value")
  | _ => none

end Cell

/-- The cells of a row; of two under one name the last counts. -/
def Row.cellsOfDatum? : Datum → Option (List (String × Cell))
  | .record ms => ms.foldlM (fun cells (k, d) => (Cell.ofDatum? d).map fun c => Keyed.put k c cells) []
  | _ => none

/-- Reads a stored row. -/
def Row.ofDatum? (d : Datum) : Option Row := do
  let fs ← Datum.fields? ["id", "values"] d
  some {
    id := ← fs.required? "id" Datum.word?
    cells := ← fs.required? "values" Row.cellsOfDatum?
  }

namespace QueryResult

/-- Reads a stored result. -/
def ofDatum? (d : Datum) : Option QueryResult := do
  let fs ← Datum.fields? ["rows", "page_total"] d
  some {
    rows := ← fs.required? "rows" (Datum.list? Row.ofDatum?)
    total := ← fs.optional? "page_total" Datum.word?
  }

/-- Reads a result from JSON text. -/
def ofJson? (text : String) : Option QueryResult :=
  (Json.read? text).bind ofDatum?

end QueryResult

end Rollup
