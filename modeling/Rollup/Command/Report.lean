/-
Doing what the command line asks for. Files and variables come from the surroundings, whatever
those are; all that is printed is in the report.
-/
import Rollup.Command.Help
import Rollup.Json.Writer
import Rollup.Model.File
import Rollup.Query.Build
import Rollup.Settings.Engine

namespace Rollup.Command

/-- Where files and variables are found. -/
structure Surroundings (m : Type → Type) where
  read : (path : String) → m (Except FileFault String)
  lookUp : (name : String) → m (Option String)

/-- What a command ends in: the exit status, and the texts on standard output and standard error. -/
structure Report where
  status : UInt32
  out : String
  err : String
  deriving DecidableEq, Repr

/-- Why a file cannot be used. -/
inductive LoadError where
  | file (path : String) (fault : FileFault)
  | model (path : String) (e : CompileError)
  | query (path : String)
  deriving DecidableEq

/-- What is told of a file that was of no use, with its path. -/
def LoadError.message : LoadError → String
  | file path fault => "Error reading file '" ++ path ++ "': " ++ fault.message
  | model path e => "Invalid model '" ++ path ++ "': " ++ e.message
  | query path => "Invalid query '" ++ path ++ "': the text is not a request"

/-- Why a command fails. -/
inductive Failure where
  | load (errors : List LoadError)
  | compile (e : CompileError)
  | settings (e : SettingsError)
  | engine (e : SettingsError)
  | query (e : CompileError)
  | execution (e : EngineError)
  deriving DecidableEq

/-- The lines that tell a failure; several files may fail at a time. -/
def Failure.lines : Failure → List String
  | load errors => errors.map LoadError.message
  | compile e => ["Compilation error: " ++ e.message]
  | settings e => ["Configuration error: " ++ e.message]
  | engine e => ["Engine error: " ++ e.message]
  | query e => ["Query error: " ++ e.message]
  | execution e => ["Execution error: " ++ e.message]

/-! ## What is printed -/

/-- The first line and those that follow when there is a statement that counts. -/
def countLines (heading : List String) (c : Compiled) : List String :=
  match c.count with
  | some s => "" :: heading ++ [s.sql ++ ";"]
  | none => []

/-- The values of the parameters, numbered from one. -/
def parameterLines (n : Nat) : List Operand → List String
  | [] => []
  | v :: rest => ("-- $" ++ toString n ++ " = " ++ v.displaySql) :: parameterLines (n + 1) rest

/-- A compiled query as it is printed. -/
def Layout.lines (c : Compiled) : Layout → List String
  | sql => (c.main.sql ++ ";") :: countLines [] c
  | verbose =>
    ["-- Quarry Compiled SQL", "-- Dialect: " ++ c.dialect.name,
      "-- Data source: " ++ c.dataSource,
      "-- Shape: " ++ if c.nested then "nested" else "single pass"] ++
    parameterLines 1 c.main.params ++ ["", c.main.sql ++ ";"] ++ countLines ["-- Count"] c
  | json => [Json.writePretty c.toDatum]

/-- The kind of a column in words. -/
def kindText : ColumnKind → String
  | .metric .. => "metric"
  | .dimension => "dimension"
  | .timeDimension _ => "time dimension"

/-- A table with its columns and joins. -/
def tableLines (t : Table) : List String :=
  ["", t.name ++ " (data source: " ++ t.dataSource ++ ")"] ++
    t.columns.map (fun c => "  - " ++ c.name ++ " (" ++ kindText c.kind ++ ")") ++
    t.joins.map (fun j => "  -> " ++ j.name ++ " (" ++ j.table ++ ")")

/-! ## What is done -/

section

variable {m : Type → Type} [Monad m] (s : Surroundings m)

/-- The content of a file. -/
def load {α : Type} (path : String) (content : String → Except LoadError α) :
    m (Except LoadError α) :=
  return (← s.read path).mapError (.file path) >>= content

/-- Reads a model from the file of a path. -/
def loadModel (path : String) (maxDepth : Nat) : m (Except LoadError Model) :=
  load s path fun text => (Model.ofToml text maxDepth).mapError (.model path)

/-- Reads a request from the file of a path. -/
def loadRequest (path : String) : m (Except LoadError Request) :=
  load s path fun text => (Request.ofJson? text).elim (.error (.query path)) .ok

/-- Two contents, or all that is wrong with them. -/
def both {α β : Type} : Except LoadError α → Except LoadError β → Except Failure (α × β)
  | .ok a, .ok b => .ok (a, b)
  | .error e, .ok _ => .error (.load [e])
  | .ok _, .error e => .error (.load [e])
  | .error e, .error e' => .error (.load [e, e'])

/-- The settings of a file, which has to be there. -/
def loadSettings (path : String) : m (Except Failure Settings) := do
  match ← s.read path with
  | .ok text => return (Settings.ofToml text).mapError .settings
  | .error .notFound | .error .notDirectory => return .error (.settings (.fileNotFound path))
  | .error fault => return .error (.settings (.file fault))

/-- The variables with these names. -/
def environment (names : List String) : m Environment := do
  let found ← names.mapM fun name => return (← s.lookUp name).map (name, ·)
  return found.flatMap (·.toList)

/-- The model and the request of two files. -/
def loadBoth (model request : String) (maxDepth : Nat) : m (Except Failure (Model × Request)) :=
  return both (← loadModel s model maxDepth) (← loadRequest s request)

/-- Compiles a request and shows its statements in a layout. -/
def explain (model request : String) (d : Dialect) (l : Layout) :
    m (Except Failure (List String)) := do
  match ← loadBoth s model request 64 with
  | .error e => return .error e
  | .ok (model, request) =>
    let compiled := Query.build model request >>= compile model d
    return (compiled.mapError Failure.compile).map fun c => l.lines c

/-- Runs a query on the engine that settings ask for. -/
def runQuery (settings : Settings) (env : Environment) (model : Model) (request : Rollup.Request) :
    Except Failure (List String) := do
  let e ← (settings.engine env model .none).mapError .engine
  let q ← (Query.build model request).mapError .query
  let (out, ()) := e.execute (none : Option (Cache Unit UnreadableEntry)) q ()
  let result ← out.result.mapError .execution
  return [Json.writePretty result.toDatum]

/-- Runs a request with the settings of a file. -/
def run (config model request : String) : m (Except Failure (List String)) := do
  match ← loadSettings s config with
  | .error e => return .error e
  | .ok settings =>
    match ← loadBoth s model request settings.compiler.maxDepth with
    | .error e => return .error e
    | .ok (model, request) =>
      return runQuery settings (← environment s settings.variableNames) model request

/-- Whether a file holds a model, and how many tables that has. -/
def validate (path : String) : m (Except Failure (List String)) :=
  return ((← loadModel s path 64).mapError fun e => Failure.load [e]).map fun model =>
    ["OK: " ++ path ++ " is valid (" ++ toString model.tables.length ++ " tables)"]

/-- The tables of a model with their columns. -/
def list (path : String) : m (Except Failure (List String)) :=
  return ((← loadModel s path 64).mapError fun e => Failure.load [e]).map fun model =>
    ("File: " ++ path) :: model.tables.flatMap tableLines

/-- Does a job; what it prints, or why it fails. -/
def perform : Job → m (Except Failure (List String))
  | .explain model query d l => explain s model query d l
  | .run config model query => run s config model query
  | .validate model => validate s model
  | .list model => list s model

end

/-- Lines of text. -/
def textOfLines (lines : List String) : String :=
  String.join (lines.map (· ++ "\n"))

/-- The report of a job. -/
def Report.ofResult : Except Failure (List String) → Report
  | .ok lines => ⟨0, textOfLines lines, ""⟩
  | .error e => ⟨1, "", textOfLines e.lines⟩

/-- The report when there is nothing to do. -/
def Report.ofStop : Stop → Report
  | .help page => ⟨0, textOfLines page.lines, ""⟩
  | .version => ⟨0, textOfLines [version], ""⟩
  | .usage .noCommand => ⟨2, "", textOfLines Page.overview.lines⟩
  | .usage e => ⟨2, "", textOfLines ["error: " ++ e.message, "", "For more information, try '--help'."]⟩

/-- The report on what the arguments ask for. -/
def respond {m : Type → Type} [Monad m] (s : Surroundings m) (arguments : List String) :
    m Report :=
  match read arguments with
  | .error stop => return .ofStop stop
  | .ok job => return .ofResult (← perform s job)

end Rollup.Command
