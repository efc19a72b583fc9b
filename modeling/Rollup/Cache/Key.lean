/-
The key a result is kept under: a digest of everything the statements are made from, the query and
the dialect.
-/
import Rollup.Digest.Sha256
import Rollup.Query.Basic
import Rollup.Sql.Dialect

namespace Rollup.Query

/-- What a cache key is the digest of. -/
def identity (q : Query) (d : Dialect) : Datum :=
  .list [q.toDatum, .text d.name]

/-- The key of the result of a query in a dialect. -/
def cacheKey (q : Query) (d : Dialect) : String :=
  Digest.sha256 (Json.write (q.identity d))

end Rollup.Query
