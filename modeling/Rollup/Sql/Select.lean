/-
SELECT statements: what they read, group, filter, order and cut, and the tokens they are written
with. Subqueries stand in parentheses on lines of their own.
-/
import Rollup.Sql.Expr

namespace Rollup.Sql

/-- An expression of the select list with its label. -/
structure Item where
  expr : Expr
  label : Option String := none
  deriving Repr

/-- Which rows without a partner a join keeps. -/
inductive JoinType where
  | inner
  | left
  | full
  | cross
  deriving DecidableEq, Repr

/-- Which way rows are sorted. -/
inductive Direction where
  | asc
  | desc
  deriving DecidableEq, Repr

/-- An expression to order rows by. -/
structure Order where
  expr : Expr
  direction : Direction := .asc
  deriving Repr

/-- Which rows of the ordered result are kept: at most `limit` after the first `offset`. -/
structure Page where
  limit : Option UInt64
  offset : Option UInt64
  deriving DecidableEq, Repr

mutual

/-- Where rows come from. -/
inductive Relation where
  | table (schema : Option String) (name : String)
  /-- A subquery given as text by the model. -/
  | text (sql : String)
  | query (select : Select)

/-- A relation and the name it goes by. -/
structure Source where
  relation : Relation
  label : Option String := none

/-- A source that is joined, and on what condition. -/
structure Joined where
  type : JoinType
  source : Source
  on : Option Expr := none

/-- A SELECT statement. -/
structure Select where
  items : List Item := []
  distinct : Bool := false
  source : Option Source := none
  joins : List Joined := []
  condition : Option Expr := none
  groupBy : List Expr := []
  having : Option Expr := none
  orderBy : List Order := []
  page : Option Page := none

end

/-- An output, with its label if it has one. -/
def Item.tokens (i : Item) : List Token :=
  i.expr.tokens ++ match i.label with
    | some a => [.space, .word .as_, .space, .name a]
    | none => []

/-- A sort key; its direction is always written. -/
def Order.tokens (o : Order) : List Token :=
  o.expr.tokens ++ [.space, .word (match o.direction with
    | .asc => .asc
    | .desc => .desc)]

/-- The words before `JOIN`. -/
def JoinType.tokens : JoinType → List Token
  | inner => [.word .inner]
  | left => [.word .left]
  | full => [.word .full, .space, .word .outer]
  | cross => [.word .cross]

/-- A row count. It is written as a signed word. -/
def countToken (n : UInt64) : Token :=
  .int n.toInt64

/-- The clause that cuts out a page, in the words most dialects share. -/
def Page.limitOffset (p : Page) : List Token :=
  (match p.limit with
    | some n => [.word .limit, .space, countToken n]
    | none => []) ++
  (if p.limit.isSome && p.offset.isSome then [.space] else []) ++
  (match p.offset with
    | some n => [.word .offset, .space, countToken n]
    | none => [])

/-- The clause that cuts out a page. MySQL has no offset without a limit, so the largest limit
stands in; T-SQL always states the offset. -/
def Page.tokens (d : Dialect) (p : Page) : List Token :=
  match d, p.limit, p.offset with
  | .tsql, limit, offset =>
    [.word .offset, .space, countToken (offset.getD 0), .space, .word .rows] ++
      match limit with
      | some n =>
        [.space, .word .fetch, .space, .word .next, .space, countToken n, .space, .word .rows,
          .space, .word .only]
      | none => []
  | .mysql, none, some n =>
    [.word .limit, .space, .raw "18446744073709551615", .space, .word .offset, .space,
      countToken n]
  | _, _, _ => p.limitOffset

/-- The select list, each item on a line of its own. -/
def selectList : List Item → List Token
  | [] => []
  | i :: rest =>
    [.newline, .indent 1] ++ i.tokens ++
      rest.flatMap fun i => [.sym .comma, .newline, .indent 1] ++ i.tokens

/-- A clause on a line of its own, when it has anything to say. -/
def clause (w : Keyword) : List (List Token) → List Token
  | [] => []
  | parts => [.newline, .word w, .space] ++ commaSeparated parts

/-- The ordering. Where a page needs one and none is asked for, the order is left open. -/
def orderTokens (d : Dialect) (orders : List Order) (paged : Bool) : List Token :=
  match orders with
  | [] =>
    if d.pageNeedsOrder && paged then
      [.newline, .word .orderBy, .space, .sym .lparen, .word .select, .space, .word .null,
        .sym .rparen]
    else []
  | orders => clause .orderBy (orders.map Order.tokens)

mutual

/-- A table by its name; a text or a query in parentheses. -/
def Relation.tokens (d : Dialect) : Relation → List Token
  | .table schema name => [.table schema name]
  | .text sql => [.sym .lparen, .raw sql, .sym .rparen]
  | .query select => [.sym .lparen, .newline] ++ select.tokens d ++ [.newline, .sym .rparen]

/-- A source with its alias, if it has one. -/
def Source.tokens (d : Dialect) : Source → List Token
  | ⟨relation, label⟩ =>
    relation.tokens d ++ match label with
      | some a =>
        [.space] ++ (if d.asBeforeTableAlias then [.word .as_, .space] else []) ++ [.name a]
      | none => []

/-- A join with its condition, if it has one. -/
def Joined.tokens (d : Dialect) : Joined → List Token
  | ⟨type, source, on⟩ =>
    type.tokens ++ [.space, .word .join, .space] ++ source.tokens d ++ match on with
      | some e => [.space, .word .on, .space] ++ e.tokens
      | none => []

/-- Each join on a line of its own. -/
def joinTokens (d : Dialect) : List Joined → List Token
  | [] => []
  | j :: rest => [.newline] ++ j.tokens d ++ joinTokens d rest

/-- The clause that names the source, on a line of its own. -/
def sourceTokens (d : Dialect) : Option Source → List Token
  | none => []
  | some s => [.newline, .word .from_, .space] ++ s.tokens d

/-- The tokens of a statement. -/
def Select.tokens (d : Dialect) : Select → List Token
  | ⟨items, distinct, source, joins, condition, groupBy, having, orderBy, page⟩ =>
    [.word .select] ++ (if distinct then [.space, .word .distinct] else []) ++ selectList items ++
      sourceTokens d source ++ joinTokens d joins ++
      clause .where_ (condition.toList.map Expr.tokens) ++
      clause .groupBy (groupBy.map Expr.tokens) ++
      clause .having (having.toList.map Expr.tokens) ++
      orderTokens d orderBy page.isSome ++
      match page with
      | some p => [.newline] ++ p.tokens d
      | none => []

end

/-- The text of a statement. -/
def Select.render (d : Dialect) (s : Select) : String :=
  Sql.render d (s.tokens d)

end Rollup.Sql
