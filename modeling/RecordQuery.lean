import RecordQuery.Attachment
import RecordQuery.Direction
import RecordQuery.Error
import RecordQuery.Error.Outline
import RecordQuery.Error.Shared
import RecordQuery.Event
import RecordQuery.Field
import RecordQuery.Formula.Compile
import RecordQuery.Formula.Expr
import RecordQuery.Formula.Function
import RecordQuery.Formula.Helper
import RecordQuery.Json
import RecordQuery.Json.NumberReader
import RecordQuery.Json.Reader
import RecordQuery.Json.Text
import RecordQuery.Json.ValueReader
import RecordQuery.NameMap
import RecordQuery.Number.Binary
import RecordQuery.Number.Decimal
import RecordQuery.Number.Layout
import RecordQuery.Projection
import RecordQuery.Proofs.Containers
import RecordQuery.Proofs.Error.Chain
import RecordQuery.Proofs.Error.Heap
import RecordQuery.Proofs.Except
import RecordQuery.Proofs.Formula.Composed
import RecordQuery.Proofs.Formula.Context
import RecordQuery.Proofs.Formula.Equality
import RecordQuery.Proofs.Formula.FloatLiteral
import RecordQuery.Proofs.Formula.Preorder
import RecordQuery.Proofs.Formula.SingleLiteral
import RecordQuery.Proofs.Formula.UniqueReading
import RecordQuery.Proofs.Json.Equality
import RecordQuery.Proofs.NameMap
import RecordQuery.Proofs.Number.Nearest
import RecordQuery.Proofs.Number.Notation
import RecordQuery.Proofs.Number.Numeral
import RecordQuery.Proofs.Number.ReadBack
import RecordQuery.Proofs.Number.Rounding
import RecordQuery.Proofs.Number.Shortest
import RecordQuery.Proofs.Number.Value
import RecordQuery.Proofs.Number.Widen
import RecordQuery.Proofs.Projection.Equality
import RecordQuery.Proofs.Query.FieldList
import RecordQuery.Proofs.Query.Projected
import RecordQuery.Proofs.Query.Settings
import RecordQuery.Proofs.Row.Accessors
import RecordQuery.Proofs.Row.Attachments
import RecordQuery.Proofs.Row.Decode
import RecordQuery.Proofs.Row.Reading
import RecordQuery.Proofs.Row.WholeRow
import RecordQuery.Proofs.Session.Action
import RecordQuery.Proofs.Session.Chains
import RecordQuery.Proofs.Session.Change
import RecordQuery.Proofs.Session.Composed
import RecordQuery.Proofs.Session.Contexts
import RecordQuery.Proofs.Session.Descent
import RecordQuery.Proofs.Session.EqualQueries
import RecordQuery.Proofs.Session.Explains
import RecordQuery.Proofs.Session.Ledger
import RecordQuery.Proofs.Session.Lineage
import RecordQuery.Proofs.Session.Log
import RecordQuery.Proofs.Session.Misfits
import RecordQuery.Proofs.Session.Origin
import RecordQuery.Proofs.Session.Perform
import RecordQuery.Proofs.Session.Requests
import RecordQuery.Proofs.Session.Trail
import RecordQuery.Proofs.Shape.Content
import RecordQuery.Proofs.Shape.Parts
import RecordQuery.Proofs.Shape.Refusal
import RecordQuery.Proofs.Shape.RoundTrip
import RecordQuery.Proofs.Table.Project
import RecordQuery.Query
import RecordQuery.Record
import RecordQuery.Request
import RecordQuery.Row
import RecordQuery.Service
import RecordQuery.Session.Operation
import RecordQuery.Session.Recipe
import RecordQuery.Session.State
import RecordQuery.Session.Step
import RecordQuery.Shape
import RecordQuery.Shape.Decode
import RecordQuery.Shape.Reader
import RecordQuery.Shape.Shaped
import RecordQuery.Table
import RecordQuery.Text.Blank
import RecordQuery.Text.Quoted
import RecordQuery.Text.Unprintable

/-!
# Typed Queries over a Remote Record Store

Fields, tables and projections; expressions and the formulas they compile to; queries,
requests and rows; shapes of JSON structures; errors; and sessions, in which all of these are
made and run step by step.
-/
