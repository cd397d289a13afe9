import QueryFederation.CommandLine.Invocation
import QueryFederation.CommandLine.Options
import QueryFederation.CommandLine.Program
import QueryFederation.CommandLine.Report
import QueryFederation.CommandLine.Variables
import QueryFederation.Config.Basic
import QueryFederation.Config.Document
import QueryFederation.Config.Loading
import QueryFederation.Fault.Basic
import QueryFederation.Federation.Backend
import QueryFederation.Federation.Collection
import QueryFederation.Federation.Course
import QueryFederation.Federation.Deadline
import QueryFederation.Federation.Moment
import QueryFederation.Federation.Operation
import QueryFederation.Federation.Request
import QueryFederation.Federation.Scope
import QueryFederation.Files.Access
import QueryFederation.Files.Fault
import QueryFederation.Files.Path
import QueryFederation.Files.Tree
import QueryFederation.Json.Basic
import QueryFederation.Json.Number
import QueryFederation.Json.Parser
import QueryFederation.Json.Printer
import QueryFederation.Json.Record
import QueryFederation.Main
import QueryFederation.Merge.Labels
import QueryFederation.Merge.Results
import QueryFederation.Merge.Samples
import QueryFederation.Number.Binary64
import QueryFederation.Number.Decimal
import QueryFederation.Number.Fixed
import QueryFederation.Number.Rounding
import QueryFederation.Number.Shortest
import QueryFederation.Proofs.Calls.Answers
import QueryFederation.Proofs.Calls.Matrices
import QueryFederation.Proofs.Calls.Mismatch
import QueryFederation.Proofs.Calls.Observations
import QueryFederation.Proofs.Calls.Precedence
import QueryFederation.Proofs.Calls.Regrouping
import QueryFederation.Proofs.Calls.Reloading
import QueryFederation.Proofs.Calls.Selection
import QueryFederation.Proofs.Calls.Silence
import QueryFederation.Proofs.Calls.Snapshots
import QueryFederation.Proofs.Calls.Uninterrupted
import QueryFederation.Proofs.Calls.UpFront
import QueryFederation.Proofs.Calls.Withdrawal
import QueryFederation.Proofs.Config.Documents
import QueryFederation.Proofs.Config.Loading
import QueryFederation.Proofs.Config.Validation
import QueryFederation.Proofs.Federation.Cancelled
import QueryFederation.Proofs.Federation.Collection
import QueryFederation.Proofs.Federation.Deadlines
import QueryFederation.Proofs.Federation.Drained
import QueryFederation.Proofs.Federation.Forms
import QueryFederation.Proofs.Federation.Grouping
import QueryFederation.Proofs.Federation.Mailboxes
import QueryFederation.Proofs.Federation.Moments
import QueryFederation.Proofs.Federation.Respondent
import QueryFederation.Proofs.Federation.Rows
import QueryFederation.Proofs.Federation.Sessions
import QueryFederation.Proofs.Federation.Uncancelled
import QueryFederation.Proofs.Federation.Verdict
import QueryFederation.Proofs.Files.Paths
import QueryFederation.Proofs.Json.Layouts
import QueryFederation.Proofs.Json.Numbers
import QueryFederation.Proofs.Json.Records
import QueryFederation.Proofs.Json.Spelling
import QueryFederation.Proofs.Json.Strings
import QueryFederation.Proofs.Merge.Bracketing
import QueryFederation.Proofs.Merge.Drift
import QueryFederation.Proofs.Merge.Greedy
import QueryFederation.Proofs.Merge.Occurrences
import QueryFederation.Proofs.Merge.Pairs
import QueryFederation.Proofs.Merge.Precedence
import QueryFederation.Proofs.Merge.Redelivery
import QueryFederation.Proofs.Merge.Reordering
import QueryFederation.Proofs.Merge.Running
import QueryFederation.Proofs.Merge.Shapes
import QueryFederation.Proofs.Merge.Sources
import QueryFederation.Proofs.Merge.Spacing
import QueryFederation.Proofs.Merge.Streams
import QueryFederation.Proofs.Merge.Thinning
import QueryFederation.Proofs.Merge.Unions
import QueryFederation.Proofs.Number.Doubles
import QueryFederation.Proofs.Number.Nearest
import QueryFederation.Proofs.Number.Numerals
import QueryFederation.Proofs.Schedule.Basic
import QueryFederation.Proofs.Schedule.Coherence
import QueryFederation.Proofs.Schedule.Endings
import QueryFederation.Proofs.Schedule.Progress
import QueryFederation.Proofs.Schedule.Reports
import QueryFederation.Proofs.Schedule.Standing
import QueryFederation.Proofs.Schedule.Steps
import QueryFederation.Proofs.Schedule.Turns
import QueryFederation.Proofs.Series.LabelSets
import QueryFederation.Proofs.Series.NameMaps
import QueryFederation.Proofs.Series.Ranges
import QueryFederation.Proofs.Series.Stored
import QueryFederation.Proofs.Statistics.Calls
import QueryFederation.Proofs.Statistics.Running
import QueryFederation.Proofs.Text.ByteOrder
import QueryFederation.Proofs.Time.Calendar
import QueryFederation.Proofs.Time.Order
import QueryFederation.Proofs.Time.Seconds
import QueryFederation.Proofs.Time.Timestamps
import QueryFederation.Proofs.Time.Typed
import QueryFederation.Proofs.Toml.Lines
import QueryFederation.Proofs.Toml.Strings
import QueryFederation.Proofs.Toml.Tables
import QueryFederation.Series.Document
import QueryFederation.Series.Fixture
import QueryFederation.Series.Label
import QueryFederation.Series.NameMap
import QueryFederation.Series.Result
import QueryFederation.Statistics.Calls
import QueryFederation.Statistics.Measurement
import QueryFederation.Statistics.Observed
import QueryFederation.Statistics.Running
import QueryFederation.Statistics.Summary
import QueryFederation.Text.Blank
import QueryFederation.Text.Digits
import QueryFederation.Text.Quoted
import QueryFederation.Text.Unprintable
import QueryFederation.Time.Calendar
import QueryFederation.Time.Duration
import QueryFederation.Time.Instant
import QueryFederation.Time.Reading
import QueryFederation.Time.Timestamp
import QueryFederation.Toml.Basic
import QueryFederation.Toml.Parser
import QueryFederation.Toml.Printer
import QueryFederation.Toml.Quoted
import QueryFederation.Toml.Scalar
import QueryFederation.Toml.Table
