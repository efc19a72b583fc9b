/-
The operators of filter predicates: what they compare, how many operands they take, and which
columns and operands they fit.
-/

namespace Rollup

/-- Comparison with one operand. -/
inductive Comparison where
  | eq | ne | lt | le | gt | ge
  deriving DecidableEq, Repr

/-- Whether letter case counts. -/
inductive LetterCase where
  | sensitive
  | insensitive
  deriving DecidableEq, Repr

/-- Where in a text the operand is looked for. -/
inductive Anchor where
  | start
  | stop
  | anywhere
  deriving DecidableEq, Repr

/-- The operator of a predicate. The operators with a `negated` flag come in two senses. -/
inductive Operator where
  | compare (c : Comparison)
  | oneOf (negated : Bool) (case : LetterCase)
  | between (negated : Bool)
  | find (at_ : Anchor) (case : LetterCase)
  | isNull (negated : Bool)
  | isEmpty (negated : Bool)
  | hasMember (negated : Bool)
  deriving DecidableEq, Repr

/-- How many operands an operator takes. -/
inductive Arity where
  | exactly (n : Nat)
  /-- Any number, including none. -/
  | list
  deriving DecidableEq, Repr

namespace Operator

/-- Every operator. -/
def all : List Operator :=
  [compare .eq, compare .ne, oneOf false .sensitive, oneOf true .sensitive,
    oneOf false .insensitive, oneOf true .insensitive, compare .lt, compare .le, compare .gt,
    compare .ge, between false, between true, find .start .sensitive, find .stop .sensitive,
    find .anywhere .sensitive, find .start .insensitive, find .stop .insensitive,
    find .anywhere .insensitive, isNull false, isNull true, isEmpty false, isEmpty true,
    hasMember false, hasMember true]

/-- The name of an operator in requests. -/
def name : Operator → String
  | compare .eq => "eq"
  | compare .ne => "ne"
  | compare .lt => "lt"
  | compare .le => "le"
  | compare .gt => "gt"
  | compare .ge => "ge"
  | oneOf false .sensitive => "in"
  | oneOf true .sensitive => "not_in"
  | oneOf false .insensitive => "in_insensitive"
  | oneOf true .insensitive => "not_in_insensitive"
  | between false => "between"
  | between true => "not_between"
  | find .start .sensitive => "prefix"
  | find .stop .sensitive => "postfix"
  | find .anywhere .sensitive => "infix"
  | find .start .insensitive => "prefix_insensitive"
  | find .stop .insensitive => "postfix_insensitive"
  | find .anywhere .insensitive => "infix_insensitive"
  | isNull false => "is_null"
  | isNull true => "not_null"
  | isEmpty false => "is_empty"
  | isEmpty true => "not_empty"
  | hasMember false => "has_member"
  | hasMember true => "has_no_member"

/-- How many operands an operator takes. -/
def arity : Operator → Arity
  | compare _ | find _ _ | hasMember _ => .exactly 1
  | between _ => .exactly 2
  | isNull _ | isEmpty _ => .exactly 0
  | oneOf _ _ => .list

/-- Whether the operator is about collections only. -/
def needsCollection : Operator → Bool
  | isEmpty _ | hasMember _ => true
  | _ => false

/-- Whether the operands must be texts. -/
def needsText : Operator → Bool
  | oneOf _ .insensitive | find _ _ => true
  | _ => false

end Operator

end Rollup
