import StructuredQuery.Main
import StructuredQuery.Proofs.Building
import StructuredQuery.Proofs.Classification
import StructuredQuery.Proofs.Classification.Positions
import StructuredQuery.Proofs.Command.Arguments
import StructuredQuery.Proofs.Command.Flags
import StructuredQuery.Proofs.Command.Runs
import StructuredQuery.Proofs.Config.Label
import StructuredQuery.Proofs.Config.Modes
import StructuredQuery.Proofs.Double.Decimal
import StructuredQuery.Proofs.Double.Finite
import StructuredQuery.Proofs.Json.Canonical
import StructuredQuery.Proofs.Json.Depth
import StructuredQuery.Proofs.Json.Document
import StructuredQuery.Proofs.Json.Embedding
import StructuredQuery.Proofs.Json.Keys
import StructuredQuery.Proofs.Json.Order
import StructuredQuery.Proofs.Json.Strings
import StructuredQuery.Proofs.Options
import StructuredQuery.Proofs.Plan.Dedicated
import StructuredQuery.Proofs.Plan.Depth
import StructuredQuery.Proofs.Plan.Failure
import StructuredQuery.Proofs.Plan.Grammar
import StructuredQuery.Proofs.Plan.Inside
import StructuredQuery.Proofs.Plan.Nested
import StructuredQuery.Proofs.Plan.Nesting
import StructuredQuery.Proofs.Plan.Nodes
import StructuredQuery.Proofs.Plan.Order
import StructuredQuery.Proofs.Plan.Outer
import StructuredQuery.Proofs.Plan.Regular
import StructuredQuery.Proofs.Query.Built
import StructuredQuery.Proofs.Query.Grammar
import StructuredQuery.Proofs.Query.Identity
import StructuredQuery.Proofs.Query.Nodes
import StructuredQuery.Proofs.Query.NormalForm
import StructuredQuery.Proofs.Query.Order
import StructuredQuery.Proofs.Query.Reader
import StructuredQuery.Proofs.Query.RoundTrip
import StructuredQuery.Proofs.Query.Same
import StructuredQuery.Proofs.RangeOperator
import StructuredQuery.Proofs.Reading.Order
import StructuredQuery.Proofs.Reading.Success
import StructuredQuery.Proofs.Record.Lookup
import StructuredQuery.Proofs.Record.Order
import StructuredQuery.Proofs.Record.Success
import StructuredQuery.Proofs.Shape
import StructuredQuery.Proofs.Shape.Untyped
import StructuredQuery.Proofs.Strictness
import StructuredQuery.Proofs.Text.UpperCase
import StructuredQuery.Query.Same
