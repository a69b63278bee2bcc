import SelectMerge.Block.Basic
import SelectMerge.Block.Combiner
import SelectMerge.Block.Merge
import SelectMerge.Column.Cast
import SelectMerge.Column.Cell
import SelectMerge.Column.CellJson
import SelectMerge.Column.ColumnType
import SelectMerge.Column.Compare
import SelectMerge.Column.Scalar
import SelectMerge.Column.SharedRow
import SelectMerge.Error
import SelectMerge.Expr.Alias
import SelectMerge.Expr.Basic
import SelectMerge.Expr.Call
import SelectMerge.Expr.Change
import SelectMerge.Expr.ColumnOption
import SelectMerge.Expr.DataType
import SelectMerge.Expr.Form
import SelectMerge.Expr.Grammar
import SelectMerge.Expr.Item
import SelectMerge.Expr.Keyword
import SelectMerge.Expr.Lexer
import SelectMerge.Expr.Operand
import SelectMerge.Expr.Operator
import SelectMerge.Expr.Parser
import SelectMerge.Expr.Pipeline
import SelectMerge.Expr.Pivot
import SelectMerge.Expr.Query
import SelectMerge.Expr.RowPattern
import SelectMerge.Expr.Rules
import SelectMerge.Expr.Selection
import SelectMerge.Expr.Surface
import SelectMerge.Expr.Table
import SelectMerge.Expr.TableCall
import SelectMerge.Expr.TableSample
import SelectMerge.Expr.TimeSpan
import SelectMerge.Expr.Token
import SelectMerge.Json.Basic
import SelectMerge.Json.Number
import SelectMerge.Json.Print
import SelectMerge.Json.Tree
import SelectMerge.Json.Typed
import SelectMerge.Number.Binary
import SelectMerge.Number.Shortest
import SelectMerge.Query.Basic
import SelectMerge.Query.Order
import SelectMerge.Rank.Heap
import SelectMerge.Rank.RowOrder
import SelectMerge.Rank.TopK
import SelectMerge.Run.Meter
import SelectMerge.Run.Pool
import SelectMerge.Run.Progress
import SelectMerge.Run.Reducer
import SelectMerge.Run.ResultTable
import SelectMerge.Run.Settings
import SelectMerge.Sample.RowCheck
import SelectMerge.Sample.Rows
import SelectMerge.Schema.Basic
import SelectMerge.Schema.Builder
import SelectMerge.Schema.Project
import SelectMerge.Schema.SchemaJson
import SelectMerge.Text.Blank
import SelectMerge.Text.Letters
import SelectMerge.Text.Numerals
import SelectMerge.Text.Quoted
import SelectMerge.Text.Unprintable
import SelectMerge.Wire.Bytes
import SelectMerge.Wire.Payload
import SelectMerge.Wire.ScalarCodec
import SelectMerge.Wire.SchemaCodec
import SelectMerge.Proofs.Outcome
import SelectMerge.Proofs.Rank.Preorder
import SelectMerge.Proofs.Rank.StableSort
import SelectMerge.Proofs.Rank.HeapShape
import SelectMerge.Proofs.Rank.HeapOrder
import SelectMerge.Proofs.Rank.HeapContents
import SelectMerge.Proofs.Rank.Selection
import SelectMerge.Proofs.Rank.Shelf
import SelectMerge.Proofs.Block.Merge
import SelectMerge.Proofs.Block.OrderedMerge
import SelectMerge.Proofs.Query.Output
import SelectMerge.Proofs.Run.Collection
import SelectMerge.Proofs.Run.Reduction
import SelectMerge.Proofs.Rank.Stock
import SelectMerge.Proofs.Schema.Casting
import SelectMerge.Proofs.Schema.CellByCell
import SelectMerge.Proofs.Block.Stock
import SelectMerge.Proofs.Block.Folding
import SelectMerge.Proofs.Block.Failure
import SelectMerge.Proofs.Block.Accounting
import SelectMerge.Proofs.Block.Settling
import SelectMerge.Proofs.Block.Upgrades
import SelectMerge.Proofs.Rank.Ties
import SelectMerge.Proofs.Run.Arrival
import SelectMerge.Proofs.Run.Permutation
import SelectMerge.Proofs.Schema.LeastCover
import SelectMerge.Proofs.Schema.Grouping
import SelectMerge.Proofs.Wire.Reading
import SelectMerge.Proofs.Wire.Values
import SelectMerge.Proofs.Wire.Columns
import SelectMerge.Proofs.Wire.RoundTrip
import SelectMerge.Proofs.Wire.Addressed
import SelectMerge.Proofs.Wire.Safety
import SelectMerge.Proofs.Wire.Spelling
import SelectMerge.Proofs.Wire.Delimiting
import SelectMerge.Proofs.Run.Ledger
import SelectMerge.Proofs.Run.Trimming
import SelectMerge.Proofs.Run.Regrouping
import SelectMerge.Proofs.Run.Turns
import SelectMerge.Proofs.Run.Counters
import SelectMerge.Proofs.Run.Deadline
import SelectMerge.Proofs.Run.Delivery
import SelectMerge.Proofs.Schema.Origin
import SelectMerge.Proofs.Query.Resolution
import SelectMerge.Proofs.Run.Ways
import SelectMerge.Proofs.Expr.Canonical
import SelectMerge.Proofs.Run.Target
import SelectMerge.Proofs.Query.EvaluationOrder
import SelectMerge.Proofs.Query.PlainColumns
import SelectMerge.Proofs.Schema.Stages
import SelectMerge.Proofs.Json.Extent
import SelectMerge.Proofs.Wire.Footprint
import SelectMerge.Proofs.Rank.Levelling
import SelectMerge.Proofs.Run.ShownOrder
import SelectMerge.Proofs.Expr.Lexing
import SelectMerge.Proofs.Expr.Reading
import SelectMerge.Proofs.Expr.Calls
import SelectMerge.Proofs.Expr.ReadingBack
import SelectMerge.Proofs.Expr.Modifiers
import SelectMerge.Proofs.Run.Timing
import SelectMerge.Proofs.Run.Members
