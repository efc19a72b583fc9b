import Rollup.Text.Blank
import Rollup.Text.Split
import Rollup.Text.Quoted
import Rollup.Text.Word
import Rollup.Text.Casing
import Rollup.Text.Property.Hidden
import Rollup.Digest.Sha256
import Rollup.Number.Notation
import Rollup.Number.Literal
import Rollup.Datum.Decode
import Rollup.Json.Reader
import Rollup.Json.Writer
import Rollup.Sql.Truncation
import Rollup.Sql.Select
import Rollup.Filter.Basic
import Rollup.Model.Parameter
import Rollup.Sql.AggregateCall
import Rollup.Sql.Alias
import Rollup.Expansion.Key
import Rollup.Template.Reader
import Rollup.CompileError
import Rollup.Expansion.Machine
import Rollup.Filter.Placement
import Rollup.Model.File
import Rollup.Calendar.Bucket
import Rollup.Engine
import Rollup.Main
import Rollup.Proofs.Filter.Placement
import Rollup.Proofs.Sql.Statement
import Rollup.Proofs.Compile.Binding
import Rollup.Proofs.Compile.Placeholders
import Rollup.Proofs.Compile.Closing
import Rollup.Proofs.Compile.Planning
import Rollup.Proofs.Agree
import Rollup.Proofs.Filter.Related
import Rollup.Proofs.Filter.Alike
import Rollup.Proofs.Compile.Noninterference
import Rollup.Proofs.Expansion.Stack
import Rollup.Proofs.Compile.Total
import Rollup.Proofs.Compile.SinglePass
import Rollup.Proofs.Compile.Order
import Rollup.Proofs.Model.Circles
import Rollup.Proofs.Cache.Key
import Rollup.Proofs.Model.Dangling
import Rollup.Proofs.Cache.Transparent
import Rollup.Proofs.Compile.Closed
import Rollup.Proofs.Compile.Rendering
import Rollup.Proofs.Compile.Dialects
import Rollup.Proofs.Result.Alignment
import Rollup.Proofs.Model.Repeats
import Rollup.Proofs.Expansion.Recall
import Rollup.Proofs.Expansion.Splices
import Rollup.Proofs.Filter.Groupable
import Rollup.Proofs.Compile.RawMetrics
import Rollup.Proofs.Expansion.Aggregating
import Rollup.Proofs.Compile.GroupedQueries
import Rollup.Proofs.Sql.Lexing
import Rollup.Proofs.Sql.Places
import Rollup.Proofs.Sql.Shown
import Rollup.Proofs.Expansion.Operands
import Rollup.Proofs.Compile.Operands
import Rollup.Proofs.Filter.Defaults
import Rollup.Proofs.Compile.GrandTotals
import Rollup.Proofs.Compile.InnerLabels
import Rollup.Proofs.Filter.Settled
import Rollup.Proofs.Expansion.Bounded
import Rollup.Proofs.Compile.Grouping
import Rollup.Proofs.Compile.TestedColumns
import Rollup.Proofs.Model.Harmless
import Rollup.Proofs.Template.Written
import Rollup.Proofs.Template.Kept
import Rollup.Proofs.Compile.Patterns
import Rollup.Proofs.Compile.QuotedCalls
import Rollup.Proofs.Sql.Quoting
import Rollup.Proofs.Compile.FittedAliases
import Rollup.Proofs.Compile.PatternSets
import Rollup.Proofs.Calendar.FirstWeek
import Rollup.Proofs.Sql.DateFunctions
import Rollup.Proofs.Sql.WeekRemainder
import Rollup.Proofs.Calendar.Shown
import Rollup.Proofs.Result.Numbering
import Rollup.Proofs.Result.Exact
import Rollup.Proofs.Sql.Paging
import Rollup.Proofs.Number.Digits
import Rollup.Proofs.Number.Shortest
import Rollup.Proofs.Json.Numbers
import Rollup.Proofs.Json.KeptNumbers
import Rollup.Proofs.Json.ReadBack
import Rollup.Proofs.Query.RequestText
import Rollup.Proofs.Calendar.Stored
import Rollup.Proofs.Result.Stored
import Rollup.Proofs.Cache.Stored
import Rollup.Proofs.Query.Naming
import Rollup.Proofs.Query.ShortForm
