/-
What can be wrong with a model, with a request made of it, or with a dialect asked to express it.
Each error holds its cause; the wording is in `message` alone.
-/
import Rollup.Filter.Basic
import Rollup.Model.Table
import Rollup.Sql.Dialect
import Rollup.Template.Basic

namespace Rollup

/-- Why a reference in a formula leads nowhere. -/
inductive ReferenceFault where
  | unknownJoin (name : String)
  | unknownTarget (join table : String)
  | unknownColumn (name : String)
  | template (e : TemplateError)
  | noArgumentValue (place : String)
  | outsideGrain (place : String)
  deriving DecidableEq, Repr

/-- What is told of the fault; the error around it names the reference and its table. -/
def ReferenceFault.message : ReferenceFault → String
  | unknownJoin name => "unknown join '" ++ name ++ "'"
  | unknownTarget join table => "join '" ++ join ++ "' targets unknown table '" ++ table ++ "'"
  | unknownColumn name => "unknown column '" ++ name ++ "'"
  | template e => "unparseable template: " ++ e.message
  | noArgumentValue place => "argument has no value and no default (in " ++ place ++ ")"
  | outsideGrain place => "only valid inside a grain formula (in " ++ place ++ ")"

/-- What is wrong with a table of its own. -/
inductive TableFault where
  | duplicateColumn (column : String)
  | duplicateArgument (column argument : String)
  | noGrains (column : String)
  | duplicateJoin (join : String)
  | joinNamedAsColumn (join : String)
  | unknownTarget (join table : String)
  deriving DecidableEq, Repr

/-- What is told of the fault; the table is named by the message of the model. -/
def TableFault.message : TableFault → String
  | duplicateColumn column => "duplicate column '" ++ column ++ "'"
  | duplicateArgument column argument =>
    "column '" ++ column ++ "' declares argument '" ++ argument ++ "' twice"
  | noGrains column => "time dimension '" ++ column ++ "' declares no grains"
  | duplicateJoin join => "duplicate join '" ++ join ++ "'"
  | joinNamedAsColumn join => "join '" ++ join ++ "' has the same name as a column"
  | unknownTarget join table => "join '" ++ join ++ "' targets unknown table '" ++ table ++ "'"

/-- What is wrong with a column that a metric is to be nested by. -/
inductive NestFault where
  | unknownColumn
  | metric
  | undeclaredGrain (g : Grain)
  | grainWithoutTime
  deriving DecidableEq, Repr

/-- What is told of the fault, behind the metric and the column. -/
def NestFault.message : NestFault → String
  | unknownColumn => "unknown column"
  | metric => "must be a dimension"
  | undeclaredGrain g => "grain '" ++ g.name ++ "' is not declared"
  | grainWithoutTime => "grain given for a non-time dimension"

/-- What is wrong with a model as a whole. -/
inductive ModelFault where
  | unreadable
  | duplicateTable (name : String)
  | unknownTable (name : String)
  | table (name : String) (fault : TableFault)
  | nestBy (table metric column : String) (fault : NestFault)
  deriving DecidableEq, Repr

/-- What is told of the fault, with the table or the metric it is in. -/
def ModelFault.message : ModelFault → String
  | unreadable => "the text is not a model"
  | duplicateTable name => "duplicate table '" ++ name ++ "'"
  | unknownTable name => "unknown table '" ++ name ++ "'"
  | table name fault => "table '" ++ name ++ "': " ++ fault.message
  | nestBy owner metric column fault =>
    "metric '" ++ owner ++ "." ++ metric ++ "' nest_by '" ++ column ++ "': " ++ fault.message

/-- Why an argument, or a grain, cannot be given. -/
inductive ArgumentFault where
  | undeclaredByTable
  | undeclaredByColumn
  | value (fault : ValueFault)
  | unknownGrain (e : UnknownGrain)
  | undeclaredGrain (g : Grain)
  | grainWithoutTime
  deriving DecidableEq, Repr

/-- What is told of the fault, behind the argument and its owner. -/
def ArgumentFault.message : ArgumentFault → String
  | undeclaredByTable => "not declared by the table"
  | undeclaredByColumn => "not declared by the column"
  | value fault => fault.message
  | unknownGrain e => e.message
  | undeclaredGrain g => "grain '" ++ g.name ++ "' is not declared"
  | grainWithoutTime => "only time dimensions take a grain"

/-- Why an operator does not fit its column or its operands. -/
inductive OperatorFault where
  | needsCollection (column : String) (type : ValueType)
  | operandCount (expected got : Nat)
  | nullOperand
  | needsText
  | mixedWithAggregates
  | alreadyAggregated
  deriving DecidableEq, Repr

/-- What is told of the fault, behind the operator and the column. -/
def OperatorFault.message : OperatorFault → String
  | needsCollection column type =>
    "requires a collection column, '" ++ column ++ "' is " ++ type.name
  | operandCount expected got =>
    "expects " ++ toString expected ++ " operand(s), got " ++ toString got
  | nullOperand => "null operand; use is_null or not_null"
  | needsText => "operands must be text"
  | mixedWithAggregates =>
    "an unprojected metric cannot be combined with aggregated predicates in OR"
  | alreadyAggregated => "the metric's formula is already aggregated; project it to filter on it"

/-- Why the selected columns make no query. -/
inductive ProjectionFault where
  | nothingSelected
  | onlyIds
  deriving DecidableEq, Repr

/-- What is told of the fault, behind the table. -/
def ProjectionFault.message : ProjectionFault → String
  | nothingSelected => "no columns selected"
  | onlyIds => "a table cannot be queried only by its id columns"

/-- What a dialect has no SQL for. -/
inductive Feature where
  | grain (g : Grain) (column : String)
  | filter (op : Operator)
  | reaggregation (path : Path)
  deriving DecidableEq

/-- What is told of the feature, before the dialect that lacks it. -/
def Feature.message : Feature → String
  | grain g column => g.name ++ " grain on '" ++ column ++ "'"
  | filter op => op.name ++ " filter"
  | reaggregation path => "re-aggregating '" ++ path.display ++ "' in a nested query"

/-- Why a model is refused or a query does not compile. -/
inductive CompileError where
  | unresolvable (table reference : String) (fault : ReferenceFault)
  /-- Columns that refer to one another in a circle, as they were met. -/
  | cycle (chain : List String)
  /-- Columns that refer to one another more deeply than the model allows. -/
  | tooDeep (chain : List String) (limit : Nat)
  /-- Joins whose conditions read through one another, in the order of their names. -/
  | joinCycle (paths : List String)
  /-- Joins whose conditions read through ever longer paths. No run ends in this error: it stands for
  the planning that goes on for ever. -/
  | endlessJoins
  | invalidModel (fault : ModelFault)
  | unknownColumn (table column : String)
  | invalidArgument (column argument : String) (fault : ArgumentFault)
  | duplicateAlias (name : String)
  | ungrouped (p : Predicate)
  | operator (p : Predicate) (fault : OperatorFault)
  | unprojectedSort (key : String)
  | invalidSort (key : String)
  | invalidProjection (table : String) (fault : ProjectionFault)
  | unsupported (dialect : Dialect) (feature : Feature)
  deriving DecidableEq

/-- The kinds of errors that callers tell apart. -/
inductive ErrorKind where
  | unresolvable
  | cyclic
  | endless
  | invalidModel
  | unknownColumn
  | invalidArgument
  | duplicateAlias
  | ungrouped
  | operator
  | unprojectedSort
  | invalidSort
  | invalidProjection
  | unsupported
  deriving DecidableEq, Repr

namespace CompileError

/-- The kind of an error. Circles of columns, circles of joins and too deep references are of one
kind. -/
def kind : CompileError → ErrorKind
  | unresolvable _ _ _ => .unresolvable
  | cycle _ | tooDeep _ _ | joinCycle _ => .cyclic
  | endlessJoins => .endless
  | invalidModel _ => .invalidModel
  | unknownColumn _ _ => .unknownColumn
  | invalidArgument _ _ _ => .invalidArgument
  | duplicateAlias _ => .duplicateAlias
  | ungrouped _ => .ungrouped
  | operator _ _ => .operator
  | unprojectedSort _ => .unprojectedSort
  | invalidSort _ => .invalidSort
  | invalidProjection _ _ => .invalidProjection
  | unsupported _ _ => .unsupported

/-- A chain of references as it is told. -/
def chainText (chain : List String) : String :=
  "cyclic reference: " ++ Text.join " -> " chain

/-- What a user is told of the error. -/
def message : CompileError → String
  | unresolvable table reference fault =>
    "unresolvable reference '" ++ reference ++ "' in table '" ++ table ++ "': " ++ fault.message
  | cycle chain => chainText chain
  | tooDeep chain limit =>
    chainText (chain ++ ["depth limit " ++ toString limit ++ " exceeded"])
  | joinCycle paths => chainText paths
  | endlessJoins => "the conditions of the joins read through ever longer paths"
  | invalidModel fault => "invalid model: " ++ fault.message
  | unknownColumn table column => "unknown column '" ++ column ++ "' on table '" ++ table ++ "'"
  | invalidArgument column argument fault =>
    "invalid argument '" ++ argument ++ "' for '" ++ column ++ "': " ++ fault.message
  | duplicateAlias name => "duplicate alias '" ++ name ++ "'"
  | ungrouped p =>
    "filter on '" ++ p.column.display ++ "' requires it to be grouped: " ++ p.display
  | operator p fault =>
    "operator " ++ p.op.name ++ " cannot be applied to '" ++ p.column.display ++ "': " ++
      fault.message
  | unprojectedSort key => "cannot sort on '" ++ key ++ "': it is not projected"
  | invalidSort key => "invalid sort on '" ++ key ++ "'"
  | invalidProjection table fault =>
    "invalid projection on '" ++ table ++ "': " ++ fault.message
  | unsupported dialect feature =>
    feature.message ++ " is not supported by the " ++ dialect.name ++ " dialect"

/-- Whether the request is at fault, and not the model or the dialect. -/
def isRequestError (e : CompileError) : Bool :=
  match e.kind with
  | .unknownColumn | .invalidArgument | .duplicateAlias | .ungrouped | .operator
  | .unprojectedSort | .invalidSort | .invalidProjection => true
  | _ => false

end CompileError

end Rollup
