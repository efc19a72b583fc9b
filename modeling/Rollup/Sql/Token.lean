/-
The tokens of SQL text. A statement is a list of tokens until the very end; which quotes, literals
and placeholders they are written with is the dialect's choice.
-/
import Rollup.Sql.Dialect

namespace Rollup.Sql

/-- The words statements are made of. A few are written as several words. -/
inductive Keyword where
  | select | distinct | from_ | where_ | and | or | not | as_ | on | join | inner | left | full
  | outer | cross | groupBy | having | orderBy | asc | desc | limit | offset | fetch | next | rows
  | only | in_ | between | like | escape | isNull | isNotNull | null
  deriving DecidableEq, Repr

/-- A keyword as it is written. -/
def Keyword.text : Keyword → String
  | select => "SELECT"
  | distinct => "DISTINCT"
  | from_ => "FROM"
  | where_ => "WHERE"
  | and => "AND"
  | or => "OR"
  | not => "NOT"
  | as_ => "AS"
  | on => "ON"
  | join => "JOIN"
  | inner => "INNER"
  | left => "LEFT"
  | full => "FULL"
  | outer => "OUTER"
  | cross => "CROSS"
  | groupBy => "GROUP BY"
  | having => "HAVING"
  | orderBy => "ORDER BY"
  | asc => "ASC"
  | desc => "DESC"
  | limit => "LIMIT"
  | offset => "OFFSET"
  | fetch => "FETCH"
  | next => "NEXT"
  | rows => "ROWS"
  | only => "ONLY"
  | in_ => "IN"
  | between => "BETWEEN"
  | like => "LIKE"
  | escape => "ESCAPE"
  | isNull => "IS NULL"
  | isNotNull => "IS NOT NULL"
  | null => "NULL"

/-- Punctuation and operators. -/
inductive Symbol where
  | comma | dot | star | lparen | rparen | eq | ne | lt | gt | le | ge | plus | minus | mul | div
  deriving DecidableEq, Repr

/-- A sign as it is written, without blanks around it. -/
def Symbol.text : Symbol → String
  | comma => ","
  | dot => "."
  | star => "*"
  | lparen => "("
  | rparen => ")"
  | eq => "="
  | ne => "<>"
  | lt => "<"
  | gt => ">"
  | le => "<="
  | ge => ">="
  | plus => "+"
  | minus => "-"
  | mul => "*"
  | div => "/"

/-- One token of a statement. -/
inductive Token where
  | word (w : Keyword)
  | sym (s : Symbol)
  | space
  | newline
  | indent (levels : Nat)
  /-- A name of a table, a column or an alias. -/
  | name (s : String)
  /-- A table name that may be qualified by its schema. -/
  | table (schema : Option String) (s : String)
  | int (n : Int64)
  | string (s : String)
  /-- A parameter, by its position counted from one. -/
  | param (position : Nat)
  /-- A function name, written in upper case. -/
  | function (s : String)
  /-- SQL text from the model or a dialect, written as it stands. -/
  | raw (s : String)
  deriving DecidableEq, Repr

/-- The text of a token. -/
def Token.render (d : Dialect) : Token → String
  | word w => w.text
  | sym s => s.text
  | space => " "
  | newline => "\n"
  | indent levels => String.ofList (List.replicate (2 * levels) ' ')
  | name s => d.quoteName s
  | table (some schema) s => d.quoteName schema ++ "." ++ d.quoteName s
  | table none s => d.quoteName s
  | int n => toString n.toInt
  | string s => d.quoteText s
  | param position => d.placeholder position
  | function s => Text.upper s
  | raw s => s

/-- The text of some tokens in a row. -/
def render (d : Dialect) (ts : List Token) : String :=
  String.join (ts.map (Token.render d))

/-- Token lists in a row with a comma and a blank between neighbours. -/
def commaSeparated : List (List Token) → List Token
  | [] => []
  | [ts] => ts
  | ts :: rest => ts ++ [.sym .comma, .space] ++ commaSeparated rest

end Rollup.Sql
