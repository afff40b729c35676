import TableGate.Config
import TableGate.Connection
import TableGate.Cursor
import TableGate.Encoding.Base64
import TableGate.Encoding.Detect
import TableGate.Encoding.Utf8
import TableGate.Engine
import TableGate.Error
import TableGate.Filter.Basic
import TableGate.Filter.Group
import TableGate.Http.Body
import TableGate.Http.Failure
import TableGate.Http.Handler
import TableGate.Http.Message
import TableGate.Http.Origin
import TableGate.Http.Reply
import TableGate.Http.Route
import TableGate.Http.Service
import TableGate.Identifier
import TableGate.Introspection
import TableGate.Json.Reader
import TableGate.Json.Writer
import TableGate.Log
import TableGate.Number.Binary64
import TableGate.Number.Decimal
import TableGate.Number.Ratio
import TableGate.Operator
import TableGate.Path
import TableGate.Prefer
import TableGate.Proofs.Cursor
import TableGate.Proofs.Encoding
import TableGate.Proofs.Exchange
import TableGate.Proofs.Expression.Basic
import TableGate.Proofs.Expression.Meaning
import TableGate.Proofs.Expression.Reading
import TableGate.Proofs.Filter.Conjuncts
import TableGate.Proofs.Filter.Meaning
import TableGate.Proofs.Filter.Renumbering
import TableGate.Proofs.Http.Refusal
import TableGate.Proofs.Http.Writes
import TableGate.Proofs.Identifier
import TableGate.Proofs.Integer
import TableGate.Proofs.Json.Documents
import TableGate.Proofs.Json.Scalars
import TableGate.Proofs.Nesting
import TableGate.Proofs.Numbering
import TableGate.Proofs.Query.Agreement
import TableGate.Proofs.Query.Pages
import TableGate.Proofs.Query.Parts
import TableGate.Proofs.Query.Walk
import TableGate.Proofs.Refusal
import TableGate.Proofs.Result
import TableGate.Proofs.Sql.Alike
import TableGate.Proofs.Sql.Characters
import TableGate.Proofs.Sql.Clause
import TableGate.Proofs.Sql.Clauses
import TableGate.Proofs.Sql.Command
import TableGate.Proofs.Sql.Composed
import TableGate.Proofs.Sql.Guarded
import TableGate.Proofs.Sql.Placeholders
import TableGate.Proofs.Sql.Query
import TableGate.Proofs.Sql.Refusal
import TableGate.Proofs.Sql.Shape
import TableGate.Proofs.Sql.Source
import TableGate.Proofs.Sql.Spacing
import TableGate.Proofs.Sql.Tokens
import TableGate.Proofs.Task
import TableGate.Proofs.Text
import TableGate.Proofs.Transaction
import TableGate.Query.Clause
import TableGate.Query.Document
import TableGate.Query.IntegerText
import TableGate.Query.Items
import TableGate.Query.NextPage
import TableGate.Query.Params
import TableGate.Query.Select
import TableGate.Row
import TableGate.Service
import TableGate.Sql.Read
import TableGate.Sql.Statement
import TableGate.Sql.Where
import TableGate.Sql.Write
import TableGate.Table
import TableGate.Task
import TableGate.Text.Blank
import TableGate.Text.Case
import TableGate.Text.CaseTable
import TableGate.Text.Digit
import TableGate.Text.Integer
import TableGate.Text.PrintableTable
import TableGate.Text.Quoted
import TableGate.Text.Split
import TableGate.Text.WordTable
import TableGate.Value.Basic
import TableGate.Value.Calendar
import TableGate.Value.Display
import TableGate.Value.Fields
import TableGate.Value.Uuid
import TableGate.Proofs.Sql.Uniform
import TableGate.Proofs.Columns
import TableGate.Proofs.Query.Items
import TableGate.Proofs.Query.Requested
import TableGate.Proofs.Query.Tokens
import TableGate.Proofs.Sql.Paths
import TableGate.Proofs.Sql.Selection
import TableGate.Proofs.Sql.Keyset
import TableGate.Proofs.Number.Binary64
import TableGate.Proofs.Json.Doubles
import TableGate.Proofs.Query.Links
import TableGate.Proofs.Query.NextPage
import TableGate.Proofs.Sql.PageOrder
import TableGate.Proofs.Http.Service
import TableGate.Proofs.Http.PageBounds
import TableGate.Proofs.Sql.Target
import TableGate.Proofs.Http.Addressed
import TableGate.Proofs.Http.Discretion
import TableGate.Proofs.Filter.Leaves
import TableGate.Proofs.Filter.Spelling
import TableGate.Proofs.Sql.Totals
import TableGate.Proofs.Ends
import TableGate.Proofs.Http.Cells
import TableGate.Proofs.Http.Returns
import TableGate.Proofs.Json.Rewriting
import TableGate.Proofs.Sql.Opening
import TableGate.Proofs.Http.WriteRoutes
import TableGate.Proofs.Http.ServerErrors
import TableGate.Proofs.Filter.Lists
import TableGate.Proofs.Filter.Wrapped
import TableGate.Proofs.Sql.Wording
import TableGate.Proofs.Sql.Batch
import TableGate.Proofs.Sql.Conflict
import TableGate.Proofs.Sql.Accepted
import TableGate.Proofs.Query.Defects
import TableGate.Proofs.Query.Spellings
import TableGate.Proofs.Query.Interleaving
import TableGate.Proofs.Json.Grammar
import TableGate.Proofs.Json.Lexemes
import TableGate.Proofs.Json.Reading
import TableGate.Proofs.Json.Leaves
import TableGate.Proofs.Number.Overflow
import TableGate.Proofs.Encoding.PlainText
import TableGate.Proofs.Buffers
import TableGate.Proofs.Http.Buffers
import TableGate.Proofs.Sql.Stored
import TableGate.Proofs.Plan
import TableGate.Proofs.Decoding
import TableGate.Proofs.Path
import TableGate.Proofs.Encoding.Utf8
import TableGate.Proofs.Query.Escapes
import TableGate.Proofs.Query.RawItems
import TableGate.Proofs.Query.SelectLists
import TableGate.Proofs.Prefer
import TableGate.Proofs.Catalog
import TableGate.Proofs.Sql.Star
import TableGate.Proofs.Query.Blocks
import TableGate.Proofs.Query.SharedCounter
import TableGate.Proofs.Shown
import TableGate.Proofs.Sql.Shown
import TableGate.Proofs.Http.Shown
import TableGate.Proofs.Sql.Building
import TableGate.Proofs.Json.Unpaired
