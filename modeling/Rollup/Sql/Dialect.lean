/-
The SQL dialects statements are written in, and how each writes names, literals and placeholders.
-/
import Rollup.Text.Casing
import Rollup.Text.Quoted

namespace Rollup

/-- A SQL dialect. -/
inductive Dialect where
  | duckdb
  | tsql
  | mysql
  | postgres
  | snowflake
  | sqlite
  deriving DecidableEq, Repr

/-- A name that is no dialect. -/
structure UnknownDialect where
  name : String
  deriving DecidableEq, Repr

/-- What is told of the name. -/
def UnknownDialect.message (e : UnknownDialect) : String :=
  "unknown dialect '" ++ e.name ++ "'"

/-- How distinct tuples of several expressions are counted. -/
inductive TupleCount where
  /-- The tuple in parentheses is the argument. -/
  | tuple
  /-- Each expression is an argument. -/
  | arguments
  /-- Only by counting the rows of a grouped subquery. -/
  | subquery
  deriving DecidableEq, Repr

namespace Dialect

/-- All dialects. -/
def all : List Dialect :=
  [duckdb, tsql, mysql, postgres, snowflake, sqlite]

/-- The name of a dialect in settings and in messages. -/
def name : Dialect → String
  | duckdb => "duckdb"
  | tsql => "tsql"
  | mysql => "mysql"
  | postgres => "postgres"
  | snowflake => "snowflake"
  | sqlite => "sqlite"

/-- The names a dialect is known by. -/
def names : Dialect → List String
  | tsql => ["tsql", "mssql", "sqlserver"]
  | postgres => ["postgres", "postgresql"]
  | d => [d.name]

/-- The dialect of a name in any case. -/
def parse (s : String) : Except UnknownDialect Dialect :=
  let lowered := Text.lower s
  match all.find? (·.names.contains lowered) with
  | some d => .ok d
  | none => .error ⟨lowered⟩

/-- The characters around a quoted name. -/
def nameDelimiters : Dialect → Char × Char
  | mysql => ('\x60', '\x60')
  | tsql => ('[', ']')
  | _ => ('"', '"')

/-- A table, column or alias name in quotes. -/
def quoteName (d : Dialect) (s : String) : String :=
  Text.enclose d.nameDelimiters.1 d.nameDelimiters.2 s

/-- A string literal. T-SQL marks one that is not ASCII as national text. -/
def quoteText (d : Dialect) (s : String) : String :=
  let literal := Text.enclose '\'' '\'' s
  if d == tsql && s.toList.any (0x80 ≤ ·.toNat) then "N" ++ literal else literal

/-- Whether truth values have literals of their own. -/
def hasBooleans : Dialect → Bool
  | duckdb | postgres | snowflake => true
  | tsql | mysql | sqlite => false

/-- A truth value. -/
def boolLiteral (d : Dialect) (b : Bool) : String :=
  if d.hasBooleans then (if b then "true" else "false") else (if b then "1" else "0")

/-- The placeholder of the parameter at a position counted from one. -/
def placeholder : Dialect → Nat → String
  | postgres, n => "$" ++ toString n
  | tsql, n => "@p" ++ toString n
  | _, _ => "?"

/-- Whether a table alias follows the word `AS`. -/
def asBeforeTableAlias (_ : Dialect) : Bool :=
  true

/-- Whether rows may be ordered by an alias of the select list. -/
def ordersByAlias : Dialect → Bool
  | tsql | snowflake => false
  | _ => true

/-- The most bytes a name may have. -/
def nameLimit? : Dialect → Option Nat
  | tsql => some 128
  | mysql => some 64
  | postgres => some 63
  | snowflake => some 255
  | duckdb | sqlite => none

/-- How a dialect counts the different values of several expressions at once. -/
def tupleCount : Dialect → TupleCount
  | postgres => .tuple
  | mysql | snowflake => .arguments
  | duckdb | tsql | sqlite => .subquery

/-- Whether a page can only be cut out of ordered rows. -/
def pageNeedsOrder (d : Dialect) : Bool :=
  d == tsql

end Dialect

end Rollup
