import CallTrace.Analysis
import CallTrace.Bytes
import CallTrace.Cli
import CallTrace.Config
import CallTrace.Config.Data
import CallTrace.Config.FieldPattern
import CallTrace.Config.LogFilter
import CallTrace.Config.Store
import CallTrace.Correlation
import CallTrace.Data
import CallTrace.Dataflow
import CallTrace.Error
import CallTrace.Extractor
import CallTrace.FileSystem
import CallTrace.FileSystem.Files
import CallTrace.Graph
import CallTrace.Instant
import CallTrace.Json.Parser
import CallTrace.Json.Printer
import CallTrace.Log.Decoder
import CallTrace.Log.Encoder
import CallTrace.Log.Error
import CallTrace.Log.Layout
import CallTrace.Log.Replay
import CallTrace.Log.Sink
import CallTrace.Log.Source
import CallTrace.Main
import CallTrace.Model
import CallTrace.Model.Architecture
import CallTrace.Model.Execution
import CallTrace.Model.Key
import CallTrace.Model.Provenance
import CallTrace.Model.Signature
import CallTrace.Model.Types
import CallTrace.Monitoring.Controller
import CallTrace.Monitoring.Probe
import CallTrace.Monitoring.Process
import CallTrace.Monitoring.Writer
import CallTrace.Numeral
import CallTrace.Numeral.Shortest
import CallTrace.Path
import CallTrace.Pipeline
import CallTrace.Pipeline.Callback
import CallTrace.Pipeline.Delivery
import CallTrace.Pipeline.Error
import CallTrace.Pipeline.Event
import CallTrace.Pipeline.Lifecycle
import CallTrace.Pipeline.Port
import CallTrace.Pipeline.Topology
import CallTrace.Proofs.Analysis.Delivery
import CallTrace.Proofs.Analysis.Integrity
import CallTrace.Proofs.Analysis.Models
import CallTrace.Proofs.Analysis.Readers
import CallTrace.Proofs.Analysis.Run
import CallTrace.Proofs.Analysis.Window
import CallTrace.Proofs.Bytes
import CallTrace.Proofs.Correlation
import CallTrace.Proofs.Index
import CallTrace.Proofs.Log.Attribution
import CallTrace.Proofs.Log.Decoding
import CallTrace.Proofs.Log.Encoding
import CallTrace.Proofs.Log.Frame
import CallTrace.Proofs.Log.Layout
import CallTrace.Proofs.Log.Outline
import CallTrace.Proofs.Log.Reading
import CallTrace.Proofs.Log.RoundTrip
import CallTrace.Proofs.Log.Source
import CallTrace.Proofs.Log.Storing
import CallTrace.Proofs.Model.Aggregation
import CallTrace.Proofs.Model.Execution
import CallTrace.Proofs.Model.Integrity
import CallTrace.Proofs.Model.Types
import CallTrace.Proofs.Monitoring.Audit
import CallTrace.Proofs.Monitoring.Discipline
import CallTrace.Proofs.Monitoring.Distributed
import CallTrace.Proofs.Monitoring.Exhaustion
import CallTrace.Proofs.Monitoring.FailFast
import CallTrace.Proofs.Monitoring.Intervals
import CallTrace.Proofs.Monitoring.Program
import CallTrace.Proofs.Monitoring.Recording
import CallTrace.Proofs.Monitoring.Reports
import CallTrace.Proofs.Monitoring.Unwinding
import CallTrace.Proofs.Pipeline.Commands
import CallTrace.Proofs.Pipeline.Construction
import CallTrace.Proofs.Pipeline.Delivery
import CallTrace.Proofs.Pipeline.Ghost
import CallTrace.Proofs.Pipeline.Isolation
import CallTrace.Proofs.Pipeline.Journal
import CallTrace.Proofs.Pipeline.Lifecycle
import CallTrace.Proofs.Pipeline.Order
import CallTrace.Proofs.Pipeline.Replacement
import CallTrace.Proofs.Pipeline.Termination
import CallTrace.Proofs.Pipeline.Topology
import CallTrace.Proofs.Pipeline.Typing
import CallTrace.Proofs.Saturating
import CallTrace.Proofs.Stages.Completeness
import CallTrace.Proofs.Stages.Conservation
import CallTrace.Proofs.Stages.Contribution
import CallTrace.Proofs.Stages.Expectations
import CallTrace.Proofs.Stages.Expiry
import CallTrace.Proofs.Stages.Finishing
import CallTrace.Proofs.Stages.Link
import CallTrace.Proofs.Stages.LocalTrace
import CallTrace.Proofs.Stages.PendingTrace
import CallTrace.Proofs.Stages.Provenance
import CallTrace.Proofs.Stages.Settling
import CallTrace.Proofs.Stages.TraceReconstruction
import CallTrace.Proofs.Steps
import CallTrace.Proofs.StringTable
import CallTrace.Proofs.Trace.CallTree
import CallTrace.Proofs.Trace.Calls
import CallTrace.Proofs.Trace.Faults
import CallTrace.Proofs.Trace.Forest
import CallTrace.Proofs.Trace.Grouping
import CallTrace.Proofs.Trace.Nesting
import CallTrace.Readers
import CallTrace.Record
import CallTrace.Record.Data
import CallTrace.Saturating
import CallTrace.Script.Eval
import CallTrace.Script.Fault
import CallTrace.Script.Lexer
import CallTrace.Script.Parser
import CallTrace.Script.Position
import CallTrace.Script.Syntax
import CallTrace.Script.Token
import CallTrace.Snapshot
import CallTrace.Snapshot.Data
import CallTrace.Stages
import CallTrace.Stages.Assemblers
import CallTrace.Stages.Sinks
import CallTrace.Stages.TimestampFilter
import CallTrace.Stages.TraceReconstruction
import CallTrace.StringTable
import CallTrace.Text.Alphanumeric
import CallTrace.Text.Blank
import CallTrace.Text.Cased
import CallTrace.Text.Hidden
import CallTrace.Text.LetterCase
import CallTrace.Text.Quoted
import CallTrace.Text.Ranges
import CallTrace.Toml.Parser
import CallTrace.Toml.Printer
import CallTrace.Toml.Scalar
import CallTrace.Toml.Table
import CallTrace.Toml.Text
import CallTrace.Trace
import CallTrace.Trial.Stages
import CallTrace.Trial.Writers
import CallTrace.World
import CallTrace.Proofs.Log.Interning
import CallTrace.Proofs.Log.Chunks
import CallTrace.Proofs.Log.Scratch
import CallTrace.Proofs.Pipeline.Counters
import CallTrace.Proofs.Graph
import CallTrace.Proofs.Model.Architecture
import CallTrace.Proofs.Stages.Architecture
import CallTrace.Proofs.Stages.EdgeIds
import CallTrace.Proofs.Graph.Walk
import CallTrace.Proofs.StringTable.Bindings
import CallTrace.Proofs.Model.Signature
import CallTrace.Proofs.Log.FixedLayouts
import CallTrace.Proofs.Numeral
import CallTrace.Proofs.Json
import CallTrace.Proofs.Instant
import CallTrace.Proofs.Data
import CallTrace.Proofs.Snapshot
