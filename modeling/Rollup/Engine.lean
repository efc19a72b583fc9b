/-
Running queries: compile for the dialect of the table's data source, look the result up, else have
the statements executed, turn what they return into rows, and keep the result. A cache only saves
work: whatever goes wrong in it counts as not found, or as not kept.
-/
import Rollup.Cache.Basic
import Rollup.Cache.Key
import Rollup.Compile.Assembly

namespace Rollup

/-- What executes statements. -/
structure Executor where
  query : (source : String) → Statement → Except ExecutionError Cursor
  count : (source : String) → Statement → Except ExecutionError UInt64

/-- Knows no data source. -/
def Executor.none : Executor where
  query source _ := .error (.unknownDataSource source)
  count source _ := .error (.unknownDataSource source)

/-- A statement sent to a data source. -/
inductive Call where
  | query (source : String) (s : Statement)
  | count (source : String) (s : Statement)
  deriving DecidableEq, Repr

/-- Why a query has no result. -/
inductive EngineError where
  | compile (e : CompileError)
  | execution (e : ExecutionError)
  | hydration (e : HydrationError)
  deriving DecidableEq

/-- The message of the cause, with no words around it. -/
def EngineError.message : EngineError → String
  | compile e => e.message
  | execution e => e.message
  | hydration e => e.message

/-- What a run ends in, and the calls it made. -/
structure Outcome where
  result : Except EngineError QueryResult
  calls : List Call

/-- A model, what executes its statements, and the dialects of the data sources. -/
structure Engine where
  model : Model
  executor : Executor
  /-- The dialect of data sources without their own. -/
  defaultDialect : Dialect := .duckdb
  dialects : List (String × Dialect) := []

namespace Engine

/-- Declares the dialect of a data source. -/
def withDataSource (e : Engine) (name : String) (d : Dialect) : Engine :=
  { e with dialects := Keyed.put name d e.dialects }

/-- The dialect of a data source, the default one where none is declared. -/
def dialectFor (e : Engine) (source : String) : Dialect :=
  (e.dialects.lookup source).getD e.defaultDialect

/-- Compiles a query for the dialect of its table's data source. -/
def compile (e : Engine) (q : Query) : Except CompileError Compiled := do
  let t ← e.model.require q.table
  Rollup.compile e.model (e.dialectFor t.1.dataSource) q

/-- The rows of a cursor with the total. -/
def hydrated (c : Compiled) (cursor : Cursor) (total : Option UInt64) :
    Except EngineError QueryResult :=
  match (Hydrator.mk c.columns (some cursor)).collect.1 with
  | .ok rows => .ok ⟨rows, total⟩
  | .error e => .error (.hydration e)

/-- Executes the statements of a query. The two calls are made side by side; this is one schedule of
them, that of calls which are ready at once: the main one is asked first, the rows are counted only
if it succeeds, and of two failures the one of the main call is taken. -/
def run (e : Engine) (c : Compiled) : Outcome :=
  let main := Call.query c.dataSource c.main
  match e.executor.query c.dataSource c.main, c.count with
  | .error err, _ => ⟨.error (.execution err), [main]⟩
  | .ok cursor, none => ⟨hydrated c cursor none, [main]⟩
  | .ok cursor, some count =>
    ⟨match e.executor.count c.dataSource count with
      | .error err => .error (.execution err)
      | .ok total => hydrated c cursor (some total),
      [main, .count c.dataSource count]⟩

section

variable {σ ε : Type} (e : Engine) (cache : Option (Cache σ ε))

/-- The kept result of a key, if there is one and it can be had. -/
def lookUp (k : Cache σ ε) (key : String) (s : σ) : Option QueryResult × σ :=
  match k.get key s with
  | (.ok found, s) => (found, s)
  | (.error _, s) => (none, s)

/-- Runs a compiled query and keeps its result. -/
def runAndKeep (k : Cache σ ε) (key : String) (c : Compiled) (s : σ) : Outcome × σ :=
  let out := e.run c
  match out.result with
  | .ok r => (out, (k.put key r s).2)
  | .error _ => (out, s)

/-- The result of a query. -/
def execute (q : Query) (s : σ) : Outcome × σ :=
  match e.compile q with
  | .error err => (⟨.error (.compile err), []⟩, s)
  | .ok c =>
    match if q.bypassCache then none else cache with
    | none => (e.run c, s)
    | some k =>
      let key := q.cacheKey c.dialect
      match lookUp k key s with
      | (some r, s) => (⟨.ok r, []⟩, s)
      | (none, s) => e.runAndKeep k key c s

end

end Engine

end Rollup
