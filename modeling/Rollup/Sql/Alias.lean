/-
Names that fit a dialect. A name with too many bytes keeps a readable start and ends in a digest of
the whole name.
-/
import Rollup.Digest.Sha256
import Rollup.Sql.Dialect

namespace Rollup.Sql

/-- The longest start of the text with at most `room` bytes. -/
def takeBytes (room : Nat) : List Char → List Char
  | [] => []
  | c :: rest => if c.utf8Size ≤ room then c :: takeBytes (room - c.utf8Size) rest else []

/-- Shortens a name to the dialect's limit; the digest and its underscore take nine bytes. -/
def fitName (d : Dialect) (name : String) : String :=
  match d.nameLimit? with
  | none => name
  | some limit =>
    if name.utf8ByteSize ≤ limit then name
    else String.ofList (takeBytes (limit - 9) name.toList) ++ "_" ++ Digest.short name

end Rollup.Sql
