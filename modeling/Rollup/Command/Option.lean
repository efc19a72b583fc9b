/-
The commands that can be given, and the options each of them takes.
-/
import Rollup.Sql.Dialect

namespace Rollup.Command

/-- A value that an option may be given. -/
structure Choice where
  name : String
  about : Option String := none
  deriving DecidableEq, Repr

/-- An option, which takes one value. It has to be given where nothing stands for it. -/
structure OptionForm where
  short : Char
  long : String
  about : String
  absent : Option String := none
  /-- The values it may be given; when there are none, every text but the empty one. -/
  choices : List Choice := []
  deriving DecidableEq, Repr

/-- How a compiled query is printed. -/
inductive Layout where
  | sql
  | verbose
  | json
  deriving DecidableEq, Repr

namespace Layout

/-- All layouts. -/
def all : List Layout :=
  [sql, verbose, json]

/-- The name of a layout on the command line. -/
def name : Layout → String
  | sql => "sql"
  | verbose => "verbose"
  | json => "json"

/-- What the help says of a layout. -/
def about : Layout → String
  | sql => "Output SQL only"
  | verbose => "Output SQL with parameters and shape comments"
  | json => "Output the compiled query as JSON"

end Layout

/-- What is to be done. -/
inductive Verb where
  | explain
  | run
  | validate
  | list
  deriving DecidableEq, Repr

namespace OptionForm

/-- Where the model is. -/
def model : OptionForm where
  short := 'm'
  long := "model"
  about := "Path to the metadata model (TOML)"

/-- Where the request is. -/
def query : OptionForm where
  short := 'q'
  long := "query"
  about := "Path to the query request (JSON)"

/-- Which dialect to write. -/
def dialect : OptionForm where
  short := 'd'
  long := "dialect"
  about := "SQL dialect to generate"
  absent := some Dialect.duckdb.name
  choices := [Dialect.duckdb, .postgres, .mysql, .tsql, .snowflake, .sqlite].map (⟨·.name, none⟩)

/-- Which layout to print in. -/
def output : OptionForm where
  short := 'o'
  long := "output"
  about := "Output format"
  absent := some Layout.sql.name
  choices := Layout.all.map fun l => ⟨l.name, some l.about⟩

/-- Where the settings are. -/
def config : OptionForm where
  short := 'c'
  long := "config"
  about := "Path to the settings file"
  absent := some "quarry.toml"

/-- Whether a value may be given to the option. -/
def allows (o : OptionForm) (value : String) : Bool :=
  if o.choices.isEmpty then !value.isEmpty else o.choices.any (·.name == value)

/-- The option with its value, as help texts write it. -/
def written (o : OptionForm) : String :=
  "--" ++ o.long ++ " <" ++ o.long.toUpper ++ ">"

end OptionForm

namespace Verb

/-- All commands. -/
def all : List Verb :=
  [explain, run, validate, list]

/-- The name of a command on the command line. -/
def name : Verb → String
  | explain => "explain"
  | run => "run"
  | validate => "validate"
  | list => "list"

/-- What the help says of a command. -/
def about : Verb → String
  | explain => "Print the SQL a query compiles to"
  | run => "Execute a query and print its rows as JSON"
  | validate => "Validate a metadata model without compiling anything"
  | list => "List the tables and columns of a metadata model"

/-- The options of a command, in the order its help lists them. -/
def options : Verb → List OptionForm
  | explain => [.model, .query, .dialect, .output]
  | run => [.config, .model, .query]
  | validate => [.model]
  | list => [.model]

end Verb

end Rollup.Command
