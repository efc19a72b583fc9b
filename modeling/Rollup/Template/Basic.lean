/-
Formula templates: SQL text with placeholders between double braces. A placeholder stands for a
column reached from the table the formula belongs to, for an argument value, or, inside the formula
of a grain, for the column itself.
-/
import Rollup.Model.Arguments

namespace Rollup

/-- The column a reference ends at. -/
inductive Target where
  /-- A column of the model, which is expanded in turn. -/
  | logical (name : String)
  /-- A column of the database. -/
  | physical (name : String)
  deriving DecidableEq, Repr

/-- One piece of a template. -/
inductive Segment where
  | literal (text : String)
  | reference (joins : List String) (target : Target)
  /-- A column with some of its arguments fixed. -/
  | pinned (joins : List String) (column : String) (values : Arguments)
  | columnArgument (name : String)
  | tableArgument (name : String)
  /-- What the column expands to before a grain is applied. -/
  | columnBase
  deriving DecidableEq

/-- A template: its segments in a row. -/
abbrev Template := List Segment

/-- Why a text is no template. -/
inductive TemplateError where
  | unbalanced (text : String)
  | notIdentifier (text : String)
  | unknownContext (body : String)
  | unknownAttribute (name : String)
  | noColumn
  | malformedColumn (text : String)
  deriving DecidableEq, Repr

/-- What is told of a text that is no template. -/
def TemplateError.message : TemplateError → String
  | unbalanced text => "unbalanced placeholder braces in '" ++ text ++ "'"
  | notIdentifier text => "'" ++ text ++ "' is not a valid identifier"
  | unknownContext body => "unknown context reference '\x7b\x7b" ++ body ++ "\x7d\x7d'"
  | unknownAttribute name => "unknown sql helper attribute '" ++ name ++ "'"
  | noColumn => "sql helper requires a column attribute"
  | malformedColumn text => "malformed helper column '" ++ text ++ "'"

end Rollup
