/-
Settings: how formulas are expanded and statements written, where the data sources are, and whether
results are kept. Every setting has a value to stand for it when a file leaves it out. The paths of
files may name variables of the environment.
-/
import Rollup.Datum.Decode
import Rollup.Environment
import Rollup.Folder
import Rollup.Sql.Dialect
import Rollup.Toml.Reader

namespace Rollup

/-- Settings that cannot be kept to. -/
inductive SettingFault where
  | noDepth
  | noCachePath
  deriving DecidableEq, Repr

/-- What is told of the setting, by its key. -/
def SettingFault.message : SettingFault → String
  | noDepth => "compiler.max_resolution_depth must be at least 1"
  | noCachePath => "cache.path is required for the sqlite backend"

/-- What can be wrong with settings. -/
inductive SettingsError where
  | fileNotFound (path : String)
  | file (fault : FileFault)
  | unreadable
  | missingVariable (e : MissingVariable)
  | unknownSource (name : String)
  | invalid (fault : SettingFault)
  deriving DecidableEq, Repr

/-- What a user is told of the error. -/
def SettingsError.message : SettingsError → String
  | fileNotFound path => "Config file not found: " ++ path
  | file fault => "Failed to read config file: " ++ fault.message
  | unreadable => "Failed to parse config file: the text does not hold settings"
  | missingVariable e => "Missing environment variable: " ++ e.name
  | unknownSource name => "Data source not found: " ++ name
  | invalid fault => "Invalid configuration: " ++ fault.message

/-- How formulas are expanded, and statements written for sources that name no dialect. -/
structure CompilerSettings where
  defaultDialect : Dialect := .duckdb
  maxDepth : Nat := 64
  deriving DecidableEq, Repr

/-- A source of data: the dialect it understands, and its file if it is one. -/
structure DataSource where
  dialect : Option Dialect := none
  path : Option String := none
  deriving DecidableEq, Repr

/-- Where results are kept. -/
inductive CacheBackend where
  | memory
  | sqlite
  deriving DecidableEq, Repr

/-- All places for results. -/
def CacheBackend.all : List CacheBackend :=
  [memory, sqlite]

/-- The name of the place in a settings file. -/
def CacheBackend.name : CacheBackend → String
  | memory => "memory"
  | sqlite => "sqlite"

/-- Whether and where results are kept. -/
structure CacheSettings where
  enabled : Bool := false
  backend : CacheBackend := .memory
  path : Option String := none
  deriving DecidableEq, Repr

/-- All settings; the data sources stand in the order of their names. -/
structure Settings where
  compiler : CompilerSettings := {}
  dataSources : List (String × DataSource) := []
  cache : CacheSettings := {}
  deriving DecidableEq, Repr

/-! ## Reading -/

/-- Reads the section `compiler`; what is left out has its default. -/
def CompilerSettings.ofDatum? (d : Datum) : Option CompilerSettings := do
  let fs ← Datum.fields? ["default_dialect", "max_resolution_depth"] d
  some {
    defaultDialect := ← fs.default? "default_dialect" .duckdb (Datum.named? Dialect.all Dialect.name)
    maxDepth := ← fs.default? "max_resolution_depth" 64 fun d => d.word?.map UInt64.toNat
  }

/-- Reads one entry of the section `data_sources`. -/
def DataSource.ofDatum? (d : Datum) : Option DataSource := do
  let fs ← Datum.fields? ["dialect", "path"] d
  some {
    dialect := ← fs.optional? "dialect" (Datum.named? Dialect.all Dialect.name)
    path := ← fs.optional? "path" Datum.text?
  }

/-- Reads the section `cache`; what is left out has its default. -/
def CacheSettings.ofDatum? (d : Datum) : Option CacheSettings := do
  let fs ← Datum.fields? ["enabled", "backend", "path"] d
  some {
    enabled := ← fs.default? "enabled" false Datum.bool?
    backend := ← fs.default? "backend" .memory (Datum.named? CacheBackend.all CacheBackend.name)
    path := ← fs.optional? "path" Datum.text?
  }

namespace Settings

/-- The data sources of a record, in the order of their names. -/
def sources? : Datum → Option (List (String × DataSource))
  | .record ms => do
    let found ← ms.mapM fun (name, d) => (DataSource.ofDatum? d).map (name, ·)
    some (found.mergeSort fun a b => a.1 ≤ b.1)
  | _ => none

/-- Reads settings from their sections, each of which may be left out. -/
def ofDatum? (d : Datum) : Option Settings := do
  let fs ← Datum.fields? ["compiler", "data_sources", "cache"] d
  some {
    compiler := ← fs.default? "compiler" {} CompilerSettings.ofDatum?
    dataSources := ← fs.default? "data_sources" [] sources?
    cache := ← fs.default? "cache" {} CacheSettings.ofDatum?
  }

/-- The settings a TOML text holds. A formula may always be expanded once. -/
def ofToml (text : String) : Except SettingsError Settings :=
  match (Toml.read? text).bind ofDatum? with
  | none => .error .unreadable
  | some s => if s.compiler.maxDepth = 0 then .error (.invalid .noDepth) else .ok s

/-! ## Writing -/

/-- A text, or null. -/
def textDatum (s : Option String) : Datum :=
  (s.map Datum.text).getD .null

/-- The settings with every section and every key. -/
def toDatum (s : Settings) : Datum :=
  .record [
    ("compiler", .record [
      ("default_dialect", .text s.compiler.defaultDialect.name),
      ("max_resolution_depth", .int s.compiler.maxDepth)]),
    ("data_sources", .record (s.dataSources.map fun (name, source) => (name, .record [
      ("dialect", textDatum (source.dialect.map Dialect.name)),
      ("path", textDatum source.path)]))),
    ("cache", .record [
      ("enabled", .bool s.cache.enabled),
      ("backend", .text s.cache.backend.name),
      ("path", textDatum s.cache.path)])]

/-! ## Looking up -/

/-- The data source of a name. -/
def source (s : Settings) (name : String) : Except SettingsError DataSource :=
  match s.dataSources.lookup name with
  | some source => .ok source
  | none => .error (.unknownSource name)

/-- The dialect of a data source, the default one for a source that names none. -/
def dialectFor (s : Settings) (name : String) : Dialect :=
  ((s.dataSources.lookup name).bind (·.dialect)).getD s.compiler.defaultDialect

/-- The variables of the environment that the settings name. -/
def variableNames (s : Settings) : List String :=
  ((s.dataSources.map (·.2.path)) ++ [s.cache.path]).flatMap (fun path => (path.map Environment.names).getD [])

/-- A path with the values of its variables put in. -/
def expandPath (env : Environment) (path : String) : Except SettingsError String :=
  (env.expand path).mapError .missingVariable

end Settings

/-- The file of a data source, if it is one. -/
def DataSource.file (env : Environment) (source : DataSource) :
    Except SettingsError (Option String) :=
  source.path.mapM (Settings.expandPath env)

/-- The file that results are kept in. -/
def CacheSettings.file (env : Environment) (c : CacheSettings) : Except SettingsError String :=
  match c.path with
  | some path => Settings.expandPath env path
  | none => .error (.invalid .noCachePath)

end Rollup
