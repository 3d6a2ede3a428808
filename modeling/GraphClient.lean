import GraphClient.Action
import GraphClient.Answer
import GraphClient.Base64
import GraphClient.Calendar
import GraphClient.Config.Basic
import GraphClient.Config.Location
import GraphClient.Config.Reader
import GraphClient.Creation.Basic
import GraphClient.Creation.Draft
import GraphClient.Creation.Wire
import GraphClient.Database
import GraphClient.Decimal.Layout
import GraphClient.Decimal.Reading
import GraphClient.Decimal.Shortest
import GraphClient.Decimal.Written
import GraphClient.Engine.Basic
import GraphClient.Engine.Exploration
import GraphClient.Engine.Scripted
import GraphClient.Engine.Wire
import GraphClient.Failure
import GraphClient.Json.Basic
import GraphClient.Json.Lexeme
import GraphClient.Json.Outline
import GraphClient.Json.Passage
import GraphClient.Json.Printer
import GraphClient.Json.Reader
import GraphClient.Literal.Basic
import GraphClient.Literal.Kind
import GraphClient.Literal.Wire
import GraphClient.Mutation.Basic
import GraphClient.Mutation.Batch
import GraphClient.Mutation.Loading
import GraphClient.Mutation.Wire
import GraphClient.Predicate.Basic
import GraphClient.Predicate.Condition
import GraphClient.Predicate.Operand
import GraphClient.Predicate.Wire
import GraphClient.Proofs.Base64
import GraphClient.Proofs.Calendar
import GraphClient.Proofs.Config.Opening
import GraphClient.Proofs.Creation.Calls
import GraphClient.Proofs.Creation.Execution
import GraphClient.Proofs.Creation.Names
import GraphClient.Proofs.Creation.References
import GraphClient.Proofs.Creation.RoundTrip
import GraphClient.Proofs.Database.Calls
import GraphClient.Proofs.Database.Guarding
import GraphClient.Proofs.Database.Reads
import GraphClient.Proofs.Engine.Observed
import GraphClient.Proofs.Engine.RoundTrip
import GraphClient.Proofs.Failure
import GraphClient.Proofs.Json.Faithful
import GraphClient.Proofs.Json.Floats
import GraphClient.Proofs.Literal.Encoding
import GraphClient.Proofs.Literal.Instants
import GraphClient.Proofs.Literal.RoundTrip
import GraphClient.Proofs.Mirroring
import GraphClient.Proofs.Mutation.Calls
import GraphClient.Proofs.Mutation.Delivery
import GraphClient.Proofs.Mutation.Loading
import GraphClient.Proofs.Mutation.Pieces
import GraphClient.Proofs.Mutation.RoundTrip
import GraphClient.Proofs.Mutation.Sending
import GraphClient.Proofs.Mutation.Stepwise
import GraphClient.Proofs.Mutation.Submission
import GraphClient.Proofs.Mutation.Transaction
import GraphClient.Proofs.Mutation.Validation
import GraphClient.Proofs.Outcome
import GraphClient.Proofs.Predicate.Conditions
import GraphClient.Proofs.Predicate.Lists
import GraphClient.Proofs.Predicate.Meaning
import GraphClient.Proofs.Predicate.NormalForm
import GraphClient.Proofs.Predicate.Operands
import GraphClient.Proofs.Predicate.Reading
import GraphClient.Proofs.Predicate.RoundTrip
import GraphClient.Proofs.Predicate.Tree
import GraphClient.Proofs.Query.Accumulation
import GraphClient.Proofs.Query.Atomicity
import GraphClient.Proofs.Query.Calls
import GraphClient.Proofs.Query.Canonical
import GraphClient.Proofs.Query.Clauses
import GraphClient.Proofs.Query.Conformance
import GraphClient.Proofs.Query.Declarations
import GraphClient.Proofs.Query.Edits
import GraphClient.Proofs.Query.Formulas
import GraphClient.Proofs.Query.History
import GraphClient.Proofs.Query.Naming
import GraphClient.Proofs.Query.Operands
import GraphClient.Proofs.Query.PropertyChecks
import GraphClient.Proofs.Query.RoundTrip
import GraphClient.Proofs.Query.Selection
import GraphClient.Proofs.Query.Trail
import GraphClient.Proofs.Query.Variables
import GraphClient.Proofs.Query.WellFormed
import GraphClient.Proofs.Schema.Admission
import GraphClient.Proofs.Schema.Agreement
import GraphClient.Proofs.Schema.Checks
import GraphClient.Proofs.Schema.RoundTrip
import GraphClient.Proofs.Session.Basic
import GraphClient.Proofs.Session.Closing
import GraphClient.Proofs.Session.Losses
import GraphClient.Proofs.Session.Moves
import GraphClient.Proofs.Session.Runs
import GraphClient.Proofs.Stream.Course
import GraphClient.Proofs.Stream.LifeCycle
import GraphClient.Proofs.Text.Order
import GraphClient.Proofs.Text.Trimming
import GraphClient.Proofs.Transitions
import GraphClient.Proofs.Wire.Lossless
import GraphClient.Proofs.Wire.Readings
import GraphClient.Proofs.Wire.Steady
import GraphClient.Query.Basic
import GraphClient.Query.Builder
import GraphClient.Query.Clause
import GraphClient.Query.Stream
import GraphClient.Query.Wire
import GraphClient.Record
import GraphClient.Schema.Basic
import GraphClient.Schema.Wire
import GraphClient.Text.Blank
import GraphClient.Text.Integer
import GraphClient.Text.Scan
import GraphClient.Toml.Basic
import GraphClient.Toml.Reader
import GraphClient.Toml.Scalar
import GraphClient.Wire.Fault
import GraphClient.Wire.Format
import GraphClient.Wire.Reading
