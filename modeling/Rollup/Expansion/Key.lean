/-
The text that tells apart two expansions of one column: its argument values and its grain.
-/
import Rollup.Path

namespace Rollup

/-- The values in the order of their names, and the grain. -/
def Arguments.signature (a : Arguments) (grain : Option Grain) : String :=
  let values := Text.join "," (a.entries.map fun (n, v) => n ++ "=" ++ v)
  match grain with
  | none => values
  | some g => (if values.isEmpty then "" else values ++ ",") ++ "@grain=" ++ g.name

end Rollup
