import RunLedger.Cli.Arguments
import RunLedger.Cli.Help
import RunLedger.Cli.Invocation
import RunLedger.Cli.Run
import RunLedger.Config.Basic
import RunLedger.Config.Document
import RunLedger.Config.Environment
import RunLedger.Decimal.Nearest
import RunLedger.Decimal.Shortest
import RunLedger.Engine.Backoff
import RunLedger.Engine.Basic
import RunLedger.Engine.Error
import RunLedger.Engine.Graphql.Answer
import RunLedger.Engine.Graphql.Client
import RunLedger.Engine.Graphql.Query
import RunLedger.Event.Basic
import RunLedger.Event.Effect
import RunLedger.Http.Address
import RunLedger.Http.Router
import RunLedger.Json.Basic
import RunLedger.Json.Printer
import RunLedger.Json.Reader
import RunLedger.Json.Record
import RunLedger.Main
import RunLedger.Output.Resolve
import RunLedger.Output.Template
import RunLedger.Output.Variables
import RunLedger.Proofs.Config.Redaction
import RunLedger.Proofs.Engine.Attempts
import RunLedger.Proofs.Engine.Waits
import RunLedger.Proofs.Event.Shape
import RunLedger.Proofs.Event.Transition
import RunLedger.Proofs.Graphql.Answers
import RunLedger.Proofs.Graphql.Conversation
import RunLedger.Proofs.Graphql.Ending
import RunLedger.Proofs.Graphql.EventPages
import RunLedger.Proofs.Graphql.Pass
import RunLedger.Proofs.Graphql.Range
import RunLedger.Proofs.Graphql.Server
import RunLedger.Proofs.Graphql.Unlisted
import RunLedger.Proofs.Graphql.Wire
import RunLedger.Proofs.Interleaving.Calls
import RunLedger.Proofs.Interleaving.Program
import RunLedger.Proofs.Interleaving.Serial
import RunLedger.Proofs.Interleaving.Session
import RunLedger.Proofs.Json.Ordered
import RunLedger.Proofs.Json.RoundTrip
import RunLedger.Proofs.Output.Clock
import RunLedger.Proofs.Output.Emptiness
import RunLedger.Proofs.Output.Fallback
import RunLedger.Proofs.Output.Filling
import RunLedger.Proofs.Output.Precedence
import RunLedger.Proofs.Output.Steps
import RunLedger.Proofs.Reconciling.Accounting
import RunLedger.Proofs.Reconciling.Alone
import RunLedger.Proofs.Reconciling.Chronicle
import RunLedger.Proofs.Reconciling.Collection
import RunLedger.Proofs.Reconciling.CursorSafety
import RunLedger.Proofs.Reconciling.Disagreement
import RunLedger.Proofs.Reconciling.Handling
import RunLedger.Proofs.Reconciling.Isolation
import RunLedger.Proofs.Reconciling.Noninterference
import RunLedger.Proofs.Reconciling.Overlap
import RunLedger.Proofs.Reconciling.Replay
import RunLedger.Proofs.Reconciling.Retry
import RunLedger.Proofs.Reconciling.Search
import RunLedger.Proofs.Reconciling.Storing
import RunLedger.Proofs.Reconciling.Trigger
import RunLedger.Proofs.Reconciling.Workload
import RunLedger.Proofs.Reconciling.World
import RunLedger.Proofs.Run.StatusText
import RunLedger.Proofs.Run.StepConvergence
import RunLedger.Proofs.Run.StepField
import RunLedger.Proofs.Run.StepLifetime
import RunLedger.Proofs.Run.StepMerge
import RunLedger.Proofs.Run.StepRedelivery
import RunLedger.Proofs.Run.StepReplay
import RunLedger.Proofs.Store.Anchoring
import RunLedger.Proofs.Store.Coherence
import RunLedger.Proofs.Store.Commit
import RunLedger.Proofs.Store.Frame
import RunLedger.Proofs.Store.Keyed
import RunLedger.Proofs.Store.Lasting
import RunLedger.Proofs.Store.Representation
import RunLedger.Proofs.Store.Table
import RunLedger.Proofs.Sync.Cursor
import RunLedger.Proofs.Sync.History
import RunLedger.Proofs.Sync.Listing
import RunLedger.Proofs.Sync.Noise
import RunLedger.Proofs.Sync.Paging
import RunLedger.Proofs.Sync.Persistence
import RunLedger.Proofs.Sync.Resync
import RunLedger.Proofs.Sync.Slack
import RunLedger.Proofs.Sync.Watermark
import RunLedger.Proofs.Text.ByteOrder
import RunLedger.Proofs.Time.Order
import RunLedger.Proofs.Time.Span
import RunLedger.Rehearsal.Action
import RunLedger.Rehearsal.EngineScript
import RunLedger.Rehearsal.World
import RunLedger.Run.Codec
import RunLedger.Run.Merge
import RunLedger.Run.Record
import RunLedger.Run.Status
import RunLedger.Store.Backend
import RunLedger.Store.Basic
import RunLedger.Store.Conformance.Fault
import RunLedger.Store.Conformance.FaultyStore
import RunLedger.Store.Conformance.RowTrials
import RunLedger.Store.Conformance.RunTrials
import RunLedger.Store.Conformance.SnapshotTrials
import RunLedger.Store.Conformance.Suite
import RunLedger.Store.Conformance.Trial
import RunLedger.Store.Error
import RunLedger.Store.Keyed
import RunLedger.Store.Operation
import RunLedger.Sync.Candidates
import RunLedger.Sync.Cursor
import RunLedger.Sync.Persist
import RunLedger.Sync.Plan
import RunLedger.Sync.Reconciler
import RunLedger.Sync.Report
import RunLedger.Sync.Schedule
import RunLedger.Text.Blank
import RunLedger.Text.Digits
import RunLedger.Text.Split
import RunLedger.Time.Calendar
import RunLedger.Time.EpochSeconds
import RunLedger.Time.Instant
import RunLedger.Time.Stamp
import RunLedger.Toml.Basic
import RunLedger.Toml.Lexeme
import RunLedger.Toml.Reader
import RunLedger.Toml.Scalar
import RunLedger.Proofs.Time.Calendar
import RunLedger.Proofs.Time.Stamp
import RunLedger.Proofs.Run.Codec
