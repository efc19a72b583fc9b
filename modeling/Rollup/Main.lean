/-
The program: the command line with the files and variables of the process.
-/
import Rollup.Command.Report

namespace Rollup.Command

/-- Why a file could not be read, by the error the system gave. -/
def faultOf : IO.Error → FileFault
  | .noFileOrDirectory .. => .notFound
  | .inappropriateType _ 21 _ => .isDirectory
  | .inappropriateType .. => .notDirectory
  | e => .other (toString e)

/-- The files and variables of the process. -/
def process : Surroundings IO where
  read path := do
    try
      match String.fromUTF8? (← IO.FS.readBinFile path) with
      | some text => return .ok text
      | none => return .error .notText
    catch e => return .error (faultOf e)
  lookUp name := IO.getEnv name

end Rollup.Command

/-- Answers the arguments: prints the report and returns its status. -/
def main (arguments : List String) : IO UInt32 := do
  let report ← Rollup.Command.respond Rollup.Command.process arguments
  IO.print report.out
  IO.eprint report.err
  return report.status
