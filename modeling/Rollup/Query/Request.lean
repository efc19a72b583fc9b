/-
Requests: what is asked of a table, before anything is checked. They are read from JSON and can be
put together step by step.
-/
import Rollup.Filter.Basic
import Rollup.Json.Reader
import Rollup.Sql.Select

namespace Rollup

/-- A wanted column, perhaps under a name of its own. -/
structure Selection where
  column : Path
  name : Option String := none
  deriving DecidableEq

/-- A key to order rows by: the name of an output column. -/
structure SortKey where
  key : String
  direction : Sql.Direction := .asc
  deriving DecidableEq, Repr

/-- Which rows are wanted, and whether all of them are to be counted. -/
structure Pagination where
  offset : Option UInt64 := none
  limit : Option UInt64 := none
  wantTotal : Bool := false
  deriving DecidableEq, Repr

/-- A request that nobody has checked. -/
structure Request where
  table : String
  arguments : Arguments := .empty
  select : List Selection := []
  filter : Option Filter := none
  having : Option Filter := none
  orderBy : List SortKey := []
  pagination : Option Pagination := none
  bypassCache : Bool := false
  deriving DecidableEq

/-! ## Step by step -/

namespace Request

/-- Asks for one more column. -/
def project (r : Request) (s : Selection) : Request :=
  { r with select := r.select ++ [s] }

/-- Narrows a condition that may not be there yet. -/
def narrow (old : Option Filter) (f : Filter) : Option Filter :=
  match old with
  | some g => some (.and g f)
  | none => some f

/-- Keeps only rows that meet a condition as well. -/
def restrict (r : Request) (f : Filter) : Request :=
  { r with filter := narrow r.filter f }

/-- Keeps only groups that meet a condition as well. -/
def restrictGroups (r : Request) (f : Filter) : Request :=
  { r with having := narrow r.having f }

/-- Adds a sort key behind those there are. -/
def order (r : Request) (s : SortKey) : Request :=
  { r with orderBy := r.orderBy ++ [s] }

/-- Changes the pagination, an empty one when there is none. -/
def paginate (r : Request) (change : Pagination → Pagination) : Request :=
  { r with pagination := some (change (r.pagination.getD {})) }

/-- Asks for so many rows at most. -/
def limit (r : Request) (n : UInt64) : Request :=
  r.paginate fun p => { p with limit := some n }

/-- Passes over so many rows. -/
def offset (r : Request) (n : UInt64) : Request :=
  r.paginate fun p => { p with offset := some n }

/-- Asks for the number of all rows as well. -/
def withTotal (r : Request) : Request :=
  r.paginate fun p => { p with wantTotal := true }

/-- Gives a value for an argument of the table. -/
def argument (r : Request) (name value : String) : Request :=
  { r with arguments := r.arguments.insert name value }

end Request

/-! ## Reading and writing -/

namespace Selection

/-- A path in short form, or a record of a path and a name. -/
def ofDatum? : Datum → Option Selection
  | .text s => (Path.parse s).toOption.map fun p => { column := p }
  | d => do
    if !d.isFinite then none
    let fs ← Datum.recordFields? ["column", "alias"] d
    some {
      column := ← fs.required? "column" Path.ofDatum?
      name := ← fs.optional? "alias" Datum.text?
    }

/-- A selected column as a record, with its alias if it was given one. -/
def toDatum (s : Selection) : Datum :=
  .record (("column", s.column.toDatum) :: match s.name with
    | some a => [("alias", .text a)]
    | none => [])

end Selection

/-- The name of a direction in a request. -/
def directionName : Sql.Direction → String
  | .asc => "asc"
  | .desc => "desc"

namespace SortKey

/-- Reads a sort key, which is ascending if it does not say. -/
def ofDatum? (d : Datum) : Option SortKey := do
  let fs ← Datum.fields? ["key", "direction"] d
  some {
    key := ← fs.required? "key" Datum.text?
    direction := ← fs.default? "direction" .asc (Datum.named? [.asc, .desc] directionName)
  }

/-- A sort key as a record. -/
def toDatum (s : SortKey) : Datum :=
  .record [("key", .text s.key), ("direction", .text (directionName s.direction))]

end SortKey

namespace Pagination

/-- Reads a page; what is left out is not asked for. -/
def ofDatum? (d : Datum) : Option Pagination := do
  let fs ← Datum.fields? ["offset", "limit", "want_total"] d
  some {
    offset := ← fs.optional? "offset" Datum.word?
    limit := ← fs.optional? "limit" Datum.word?
    wantTotal := ← fs.default? "want_total" false Datum.bool?
  }

/-- A count that is left out when it is not given. -/
def countMember (name : String) : Option UInt64 → List (String × Datum)
  | some n => [(name, .int n.toNat)]
  | none => []

/-- A page as a record, with the counts it has. -/
def toDatum (p : Pagination) : Datum :=
  .record (countMember "offset" p.offset ++ countMember "limit" p.limit ++
    [("want_total", .bool p.wantTotal)])

end Pagination

namespace Request

/-- Reads a request. Only the table must be there. -/
def ofDatum? (d : Datum) : Option Request := do
  let fs ← Datum.fields? ["table", "table_arguments", "select", "filter", "having", "order_by",
    "pagination", "bypass_cache"] d
  some {
    table := ← fs.required? "table" Datum.text?
    arguments := ← fs.default? "table_arguments" .empty Arguments.ofDatum?
    select := ← fs.default? "select" [] (Datum.list? Selection.ofDatum?)
    filter := ← fs.optional? "filter" Filter.ofDatum?
    having := ← fs.optional? "having" Filter.ofDatum?
    orderBy := ← fs.default? "order_by" [] (Datum.list? SortKey.ofDatum?)
    pagination := ← fs.optional? "pagination" Pagination.ofDatum?
    bypassCache := ← fs.default? "bypass_cache" false Datum.bool?
  }

/-- Reads a request from JSON text. -/
def ofJson? (text : String) : Option Request :=
  (Json.read? text).bind ofDatum?

/-- A filter that is left out when there is none. -/
def filterMember (name : String) : Option Filter → List (String × Datum)
  | some f => [(name, f.toDatum)]
  | none => []

/-- A request as a record, with the filters and the page it has. -/
def toDatum (r : Request) : Datum :=
  .record (
    [("table", .text r.table), ("table_arguments", r.arguments.toDatum),
      ("select", .list (r.select.map Selection.toDatum))] ++
    filterMember "filter" r.filter ++ filterMember "having" r.having ++
    [("order_by", .list (r.orderBy.map SortKey.toDatum))] ++
    (match r.pagination with
      | some p => [("pagination", p.toDatum)]
      | none => []) ++
    [("bypass_cache", .bool r.bypassCache)])

end Request

end Rollup
