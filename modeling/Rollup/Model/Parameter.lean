/-
Declared arguments of columns and tables, and the check a value passes before it may become part of
a formula.
-/
import Rollup.Datum.Decode
import Rollup.Number.Literal
import Rollup.Text.Split
import Rollup.Text.Word

namespace Rollup

/-- The kind of value a column or an argument has. -/
inductive ValueType where
  | text
  | integer
  | decimal
  | boolean
  | time
  | id
  | collection
  deriving DecidableEq, Repr

namespace ValueType

/-- All types of values. -/
def all : List ValueType :=
  [text, integer, decimal, boolean, time, id, collection]

/-- The name of a type in a model. -/
def name : ValueType → String
  | text => "text"
  | integer => "integer"
  | decimal => "decimal"
  | boolean => "boolean"
  | time => "time"
  | id => "id"
  | collection => "collection"

/-- Reads the name of a type. -/
def ofDatum? : Datum → Option ValueType :=
  Datum.named? all name

end ValueType

/-- A declared argument. -/
structure Parameter where
  name : String
  valueType : ValueType := .text
  /-- When given, the only values it takes. -/
  allowed : Option (List String) := none
  default : Option String := none
  deriving DecidableEq, Repr

/-- What is wrong with a value given for an argument. -/
inductive ValueFault where
  | notAllowed (value : String) (allowed : List String)
  | notInteger (value : String)
  | notDecimal (value : String)
  | notBoolean (value : String)
  | unsafeText (value : String)
  deriving DecidableEq, Repr

/-- What is told of a value that an argument does not take. -/
def ValueFault.message : ValueFault → String
  | notAllowed value allowed =>
    "'" ++ value ++ "' is not one of [" ++ Text.join ", " allowed ++ "]"
  | notInteger value => "'" ++ value ++ "' is not an integer"
  | notDecimal value => "'" ++ value ++ "' is not a decimal"
  | notBoolean value => "'" ++ value ++ "' is not a boolean"
  | unsafeText value =>
    "'" ++ value ++ "' may only contain letters, digits, spaces and _ - . : characters"

/-- The characters a free text may consist of. None of them ends a literal or an expression. -/
def isSafeChar (c : Char) : Bool :=
  Text.isAlphanumeric c || c == '_' || c == '-' || c == '.' || c == ':' || c == ' '

namespace Parameter

/-- Checks a value: listed values are compared as they are, other values must have the form of
their type. -/
def check (p : Parameter) (value : String) : Except ValueFault Unit :=
  match p.allowed with
  | some allowed =>
    if allowed.contains value then .ok () else .error (.notAllowed value allowed)
  | none => match p.valueType with
    | .integer | .id =>
      if (readInt64? value.toList).isSome then .ok () else .error (.notInteger value)
    | .decimal =>
      if (readDouble? value.toList).any Double.isFinite then .ok () else .error (.notDecimal value)
    | .boolean =>
      if value == "true" || value == "false" then .ok () else .error (.notBoolean value)
    | .text | .time | .collection =>
      if value.toList.all isSafeChar then .ok () else .error (.unsafeText value)

/-- Reads the declaration of an argument, whose values are texts if it does not say. -/
def ofDatum? (d : Datum) : Option Parameter := do
  let fs ← Datum.fields? ["name", "value_type", "allowed_values", "default"] d
  some {
    name := ← fs.required? "name" Datum.text?
    valueType := ← fs.default? "value_type" .text ValueType.ofDatum?
    allowed := ← fs.optional? "allowed_values" (Datum.list? Datum.text?)
    default := ← fs.optional? "default" Datum.text?
  }

end Parameter

end Rollup
