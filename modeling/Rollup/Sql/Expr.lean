/-
SQL expressions. They are written in the order they are built, without looking at precedence:
where grouping matters, parentheses are part of the expression.
-/
import Rollup.Sql.Token

namespace Rollup.Sql

/-- Operators between two operands. -/
inductive BinaryOp where
  | eq | ne | lt | gt | le | ge | and | or | plus | minus | mul | div
  deriving DecidableEq, Repr

/-- The token an operator is written as. -/
def BinaryOp.token : BinaryOp → Token
  | eq => .sym .eq
  | ne => .sym .ne
  | lt => .sym .lt
  | gt => .sym .gt
  | le => .sym .le
  | ge => .sym .ge
  | and => .word .and
  | or => .word .or
  | plus => .sym .plus
  | minus => .sym .minus
  | mul => .sym .mul
  | div => .sym .div

/-- A SQL expression. -/
inductive Expr where
  /-- A column, perhaps of a named table. -/
  | column (table : Option String) (name : String)
  | param (position : Nat)
  | binary (left : Expr) (op : BinaryOp) (right : Expr)
  | not (e : Expr)
  | call (function : String) (distinct : Bool) (args : List Expr)
  | inList (e : Expr) (negated : Bool) (values : List Expr)
  | between (e : Expr) (negated : Bool) (low high : Expr)
  | isNull (e : Expr) (negated : Bool)
  | like (e : Expr) (negated : Bool) (pattern : Expr) (escape : Char)
  | tuple (items : List Expr)
  | star
  | paren (e : Expr)
  /-- SQL text from the model or a dialect. Operands of a request never come here. -/
  | raw (sql : String)
  deriving Repr

namespace Expr

/-- The word `NOT` in front of an operator. -/
def negation (negated : Bool) : List Token :=
  if negated then [.space, .word .not] else []

mutual

/-- The tokens of an expression. A test against an empty list is a constant, since an empty list
cannot be written. -/
def tokens : Expr → List Token
  | column none name => [.name name]
  | column (some table) name => [.name table, .sym .dot, .name name]
  | param position => [.param position]
  | binary left op right => left.tokens ++ [.space, op.token, .space] ++ right.tokens
  | not e => [.word .not, .space] ++ e.tokens
  | call function distinct args =>
    [.function function, .sym .lparen] ++ (if distinct then [.word .distinct, .space] else []) ++
      commaSeparated (tokensOfAll args) ++ [.sym .rparen]
  | inList _ negated [] => [.raw (if negated then "1 = 1" else "1 = 0")]
  | inList e negated (v :: values) =>
    e.tokens ++ negation negated ++ [.space, .word .in_, .space, .sym .lparen] ++
      commaSeparated (v.tokens :: tokensOfAll values) ++ [.sym .rparen]
  | between e negated low high =>
    e.tokens ++ negation negated ++ [.space, .word .between, .space] ++ low.tokens ++
      [.space, .word .and, .space] ++ high.tokens
  | isNull e negated => e.tokens ++ [.space, .word (if negated then .isNotNull else .isNull)]
  | like e negated pattern escape =>
    e.tokens ++ negation negated ++ [.space, .word .like, .space] ++ pattern.tokens ++
      [.space, .word .escape, .space, .string (String.singleton escape)]
  | tuple items => [.sym .lparen] ++ commaSeparated (tokensOfAll items) ++ [.sym .rparen]
  | star => [.sym .star]
  | paren e => [.sym .lparen] ++ e.tokens ++ [.sym .rparen]
  | raw sql => [.raw sql]

/-- The tokens of each of some expressions. -/
def tokensOfAll : List Expr → List (List Token)
  | [] => []
  | e :: rest => e.tokens :: tokensOfAll rest

end

/-- The text of an expression. -/
def render (d : Dialect) (e : Expr) : String :=
  Sql.render d e.tokens

/-- Whether the expression is an `OR` that needs parentheses under an `AND`. -/
def isDisjunction : Expr → Bool
  | binary _ .or _ => true
  | _ => false

/-- All of some expressions; those that are an `OR` stand in parentheses. -/
def all? : List Expr → Option Expr
  | [] => none
  | e :: rest =>
    let guarded (e : Expr) := if e.isDisjunction then paren e else e
    some (rest.foldl (fun acc e => binary acc .and (guarded e)) (guarded e))

/-- Any of some expressions. -/
def any? : List Expr → Option Expr
  | [] => none
  | e :: rest => some (rest.foldl (fun acc e => binary acc .or e) e)

/-! ## Functions -/

/-- A call with one argument. -/
def function (name : String) (e : Expr) : Expr := call name false [e]

/-- The sum of the values that are not null. -/
def sum (e : Expr) : Expr := function "SUM" e

/-- The average of the values that are not null. -/
def avg (e : Expr) : Expr := function "AVG" e

/-- The least value. -/
def min (e : Expr) : Expr := function "MIN" e

/-- The greatest value. -/
def max (e : Expr) : Expr := function "MAX" e

/-- The number of values that are not null. -/
def count (e : Expr) : Expr := function "COUNT" e

/-- The number of rows. -/
def countRows : Expr := function "COUNT" star

/-- The number of different values, or of different tuples of them. -/
def countDistinct (es : List Expr) : Expr := call "COUNT" true es

/-- A text in lower case. -/
def lower (e : Expr) : Expr := function "LOWER" e

/-! ## Collections -/

/-- Whether a collection holds a value, where the dialect has collections. -/
def holds? (d : Dialect) (collection value : Expr) : Option Expr :=
  match d with
  | .duckdb => some (call "LIST_CONTAINS" false [collection, value])
  | .postgres => some (binary value .eq (function "ANY" collection))
  | _ => none

/-- Whether a collection is null or has no members, where the dialect has collections. -/
def hasNone? (d : Dialect) (collection : Expr) : Option Expr :=
  let sizeIsZero (size : String) :=
    binary (call "COALESCE" false [function size collection, raw "0"]) .eq (raw "0")
  match d with
  | .duckdb => some (sizeIsZero "LEN")
  | .postgres => some (sizeIsZero "CARDINALITY")
  | _ => none

end Expr

end Rollup.Sql
