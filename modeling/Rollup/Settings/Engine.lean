/-
Engines as settings ask for them: each data source with its dialect, and the files that have to be
opened before statements can be executed.
-/
import Rollup.Engine
import Rollup.Settings

namespace Rollup.Settings

/-- The data sources that are database files, each with its file. -/
def databases (s : Settings) (env : Environment) :
    Except SettingsError (List (String × String)) := do
  let files ← (s.dataSources.filter fun e => s.dialectFor e.1 == .sqlite).mapM fun (name, source) =>
    return (← source.file env).map (name, ·)
  return files.flatMap (·.toList)

/-- The file that results are kept in, when they are kept in one. -/
def cacheFile (s : Settings) (env : Environment) : Except SettingsError (Option String) :=
  if s.cache.enabled && s.cache.backend == .sqlite then some <$> s.cache.file env
  else .ok none

/-- The engine for a model; every file that the settings name must be known. -/
def engine (s : Settings) (env : Environment) (m : Model) (x : Executor) :
    Except SettingsError Engine := do
  discard (s.databases env)
  discard (s.cacheFile env)
  return {
    model := m
    executor := x
    defaultDialect := s.compiler.defaultDialect
    dialects := s.dataSources.map fun (name, _) => (name, s.dialectFor name)
  }

end Rollup.Settings
