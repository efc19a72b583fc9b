/-
Models in TOML files, each table under a `[[tables]]` header.
-/
import Rollup.Model.Check
import Rollup.Model.Document
import Rollup.Toml.Reader

namespace Rollup.Model

/-- The model a TOML text holds. -/
def ofToml (text : String) (maxDepth : Nat := 64) : Except CompileError Model :=
  match (Toml.read? text).bind tablesOfFile? with
  | some tables => build tables maxDepth
  | none => .error (.invalidModel .unreadable)

end Rollup.Model
