/-
Finding aggregate calls in SQL text: one of five function names in any case, standing at the start
of a word, then blanks, then an opening parenthesis. Quotes are not looked at.
-/
import Rollup.Text.Blank
import Rollup.Text.Word

namespace Rollup.Sql

/-- A character without regard to case. The long s is an s. -/
def foldCase (c : Char) : Char :=
  if c.toNat == 0x17F then 's' else c.toLower

/-- What follows a name written in any case. -/
def afterName? : (name text : List Char) → Option (List Char)
  | [], text => some text
  | _ :: _, [] => none
  | n :: name, c :: text => if foldCase c == n then afterName? name text else none

/-- The functions that are looked for, in lower case. -/
def aggregateNames : List String :=
  ["sum", "min", "max", "count", "avg"]

/-- Whether the text begins with an aggregate call. -/
def startsAggregateCall (text : List Char) : Bool :=
  aggregateNames.any fun name =>
    (afterName? name.toList text).any fun rest =>
      (rest.dropWhile Text.isBlank).head? == some '('

/-- Whether an aggregate call starts somewhere in the text; `inWord` tells whether the character
before it belongs to a word. -/
def hasAggregateCall (inWord : Bool) : List Char → Bool
  | [] => false
  | c :: rest =>
    (!inWord && startsAggregateCall (c :: rest)) || hasAggregateCall (Text.isWordChar c) rest

/-- Whether SQL text contains an aggregate call. -/
def embedsAggregate (sql : String) : Bool :=
  hasAggregateCall false sql.toList

end Rollup.Sql
