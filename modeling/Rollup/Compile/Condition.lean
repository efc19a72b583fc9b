/-
Conditions as SQL. Every operand becomes a parameter: the expression holds its position and the
value is kept aside, so no value of a request is ever part of the text.
-/
import Rollup.CompileError
import Rollup.Sql.Expr

namespace Rollup

/-- A computation that binds values to the parameters of a statement, the first one first. -/
abbrev Binding := StateT (List Operand) (Except CompileError)

namespace Condition

/-- The next parameter, bound to a value. -/
def bind (v : Operand) : Binding Sql.Expr := do
  modify (· ++ [v])
  return .param (← get).length

/-- What marks the next character of a pattern as itself. -/
def escapeChar : Char := '!'

/-- The text with a mark before every character that has a meaning in patterns. -/
def escapePattern (s : List Char) : List Char :=
  s.flatMap fun c => if c == '%' || c == '_' || c == escapeChar then [escapeChar, c] else [c]

/-- The pattern of texts that have the given one at a place. -/
def pattern (anchor : Anchor) (s : String) : String :=
  let body := escapePattern s.toList
  String.ofList (match anchor with
    | .start => body ++ ['%']
    | .stop => '%' :: body
    | .anywhere => '%' :: body ++ ['%'])

/-- A text in the form it is compared in. -/
def cased : LetterCase → String → String
  | .sensitive, s => s
  | .insensitive, s => Text.lower s

/-- A column in the form it is compared in. -/
def casedColumn : LetterCase → Sql.Expr → Sql.Expr
  | .sensitive, e => e
  | .insensitive, e => e.lower

/-- The operator of SQL for a comparison. -/
def comparison : Comparison → Sql.BinaryOp
  | .eq => .eq
  | .ne => .ne
  | .lt => .lt
  | .le => .le
  | .gt => .gt
  | .ge => .ge

/-- An operand as it is looked up in a list. -/
def member : LetterCase → Operand → Operand
  | .sensitive, v => v
  | .insensitive, v => .text (Text.lower v.plainText)

/-- The opposite of an expression, or itself. -/
def negatedIf (negated : Bool) (e : Sql.Expr) : Sql.Expr :=
  if negated then .not (.paren e) else e

/-- What the dialect has for an operator, or the error that it has nothing. -/
def offered (d : Dialect) (op : Operator) : Option Sql.Expr → Binding Sql.Expr
  | some e => return e
  | none => throw (.unsupported d (.filter op))

/-- The test of a column that a predicate makes. -/
def ofPredicate (d : Dialect) (column : Sql.Expr) (p : Predicate) : Binding Sql.Expr := do
  let operand (i : Nat) : Operand := p.values.getD i .null
  match p.op with
  | .compare c => return .binary column (comparison c) (← bind (operand 0))
  | .oneOf negated case =>
    return .inList (casedColumn case column) negated (← p.values.mapM fun v => bind (member case v))
  | .between negated => do
    let low ← bind (operand 0)
    let high ← bind (operand 1)
    return .between column negated low high
  | .find anchor case => do
    let text := match p.values.head? with
      | some v => v.plainText
      | none => ""
    let pattern ← bind (.text (pattern anchor (cased case text)))
    return .like (casedColumn case column) false pattern escapeChar
  | .isNull negated => return .isNull column negated
  | .isEmpty negated =>
    return negatedIf negated (← offered d p.op (Sql.Expr.hasNone? d column))
  | .hasMember negated => do
    let value ← bind (operand 0)
    return negatedIf negated (← offered d p.op (Sql.Expr.holds? d column value))

/-- The operands of a chain of `and`s, or of `or`s, that a filter is written as. -/
def operands (d : Dialect) (column : Predicate → Except CompileError Sql.Expr) (ands : Bool) :
    Filter → Binding (List Sql.Expr)
  | .and a b => do
    let left ← operands d column true a
    let right ← operands d column true b
    return if ands then left ++ right else (Sql.Expr.all? (left ++ right)).toList
  | .or a b => do
    let left ← operands d column false a
    let right ← operands d column false b
    return if ands then (Sql.Expr.any? (left ++ right)).toList else left ++ right
  | .not f => do
    let inner ← operands d column false f
    return (Sql.Expr.any? inner).toList.map fun e => .not (.paren e)
  | .test p => do
    let e ← column p
    return [← ofPredicate d e p]

/-- A filter as an expression; `column` gives the value a predicate tests. -/
def ofFilter (d : Dialect) (column : Predicate → Except CompileError Sql.Expr) (f : Filter) :
    Binding (Option Sql.Expr) :=
  return Sql.Expr.any? (← operands d column false f)

end Condition

end Rollup
