import ProfilePipeline.Attribute.Bounded
import ProfilePipeline.Attribute.Set
import ProfilePipeline.Attribute.Value
import ProfilePipeline.Batch.Machine
import ProfilePipeline.Batch.Metric
import ProfilePipeline.Batch.Sequential
import ProfilePipeline.Batch.Session
import ProfilePipeline.Batch.Settings
import ProfilePipeline.Batch.Threads
import ProfilePipeline.Clock
import ProfilePipeline.Completion.Aggregate
import ProfilePipeline.Completion.Program
import ProfilePipeline.Completion.Store
import ProfilePipeline.Completion.Threads
import ProfilePipeline.Decimal.Shortest
import ProfilePipeline.Document.Basic
import ProfilePipeline.Document.Message
import ProfilePipeline.Document.Pipeline
import ProfilePipeline.Document.Record
import ProfilePipeline.Double
import ProfilePipeline.Export.Event
import ProfilePipeline.Export.Exporter
import ProfilePipeline.Export.Lines
import ProfilePipeline.Export.Memory
import ProfilePipeline.Export.Script
import ProfilePipeline.Export.State
import ProfilePipeline.Limits
import ProfilePipeline.Otlp.Content
import ProfilePipeline.Otlp.Exporter
import ProfilePipeline.Otlp.Group
import ProfilePipeline.Otlp.Message
import ProfilePipeline.Otlp.Request
import ProfilePipeline.Otlp.Schema
import ProfilePipeline.Payload.Basic
import ProfilePipeline.Payload.Indices
import ProfilePipeline.Payload.Kinds
import ProfilePipeline.Pending
import ProfilePipeline.Processing.Batched
import ProfilePipeline.Processing.Cascade
import ProfilePipeline.Processing.Processor
import ProfilePipeline.Processing.Simple
import ProfilePipeline.Processing.State
import ProfilePipeline.Proofs.Attribute.Assembly
import ProfilePipeline.Proofs.Attribute.Bounded
import ProfilePipeline.Proofs.Attribute.Composition
import ProfilePipeline.Proofs.Attribute.Equality
import ProfilePipeline.Proofs.Attribute.Merging
import ProfilePipeline.Proofs.Attribute.Numbers
import ProfilePipeline.Proofs.Attribute.Orders
import ProfilePipeline.Proofs.Attribute.Totals
import ProfilePipeline.Proofs.Attribute.Truncation
import ProfilePipeline.Proofs.Batch.Accounts
import ProfilePipeline.Proofs.Batch.Calls
import ProfilePipeline.Proofs.Batch.Conduct
import ProfilePipeline.Proofs.Batch.Drain
import ProfilePipeline.Proofs.Batch.Dues
import ProfilePipeline.Proofs.Batch.Flow
import ProfilePipeline.Proofs.Batch.Flush
import ProfilePipeline.Proofs.Batch.Hearsay
import ProfilePipeline.Proofs.Batch.Orphans
import ProfilePipeline.Proofs.Batch.Pending
import ProfilePipeline.Proofs.Batch.Requests
import ProfilePipeline.Proofs.Batch.Shutdown
import ProfilePipeline.Proofs.Batch.Steps
import ProfilePipeline.Proofs.Batch.Tokens
import ProfilePipeline.Proofs.Batch.Wakeups
import ProfilePipeline.Proofs.Batch.Winner
import ProfilePipeline.Proofs.Completion.Aggregates
import ProfilePipeline.Proofs.Completion.Callbacks
import ProfilePipeline.Proofs.Completion.Counting
import ProfilePipeline.Proofs.Completion.Gathering
import ProfilePipeline.Proofs.Completion.Store
import ProfilePipeline.Proofs.Completion.Threads
import ProfilePipeline.Proofs.Completion.Turns
import ProfilePipeline.Proofs.Export.Calls
import ProfilePipeline.Proofs.Export.Folding
import ProfilePipeline.Proofs.Export.Sending
import ProfilePipeline.Proofs.Otlp.Canonical
import ProfilePipeline.Proofs.Otlp.Framing
import ProfilePipeline.Proofs.Otlp.Grouping
import ProfilePipeline.Proofs.Otlp.Origins
import ProfilePipeline.Proofs.Otlp.Reencoding
import ProfilePipeline.Proofs.Otlp.RoundTrip
import ProfilePipeline.Proofs.Payload.Faults
import ProfilePipeline.Proofs.Payload.References
import ProfilePipeline.Proofs.Processing.Exported
import ProfilePipeline.Proofs.Processing.FanOut
import ProfilePipeline.Proofs.Processing.History
import ProfilePipeline.Proofs.Processing.Operations
import ProfilePipeline.Proofs.Processing.Parting
import ProfilePipeline.Proofs.Processing.Schedule
import ProfilePipeline.Proofs.Processing.Service
import ProfilePipeline.Proofs.Processing.Serving
import ProfilePipeline.Proofs.Processing.Tally
import ProfilePipeline.Proofs.Processing.Trail
import ProfilePipeline.Proofs.Processing.Watch
import ProfilePipeline.Proofs.Provider.Bookkeeping
import ProfilePipeline.Proofs.Provider.Delivery
import ProfilePipeline.Proofs.Provider.Identity
import ProfilePipeline.Proofs.Provider.Promise
import ProfilePipeline.Proofs.Provider.Usage
import ProfilePipeline.Proofs.Wire.Accepted
import ProfilePipeline.Proofs.Wire.Consumption
import ProfilePipeline.Proofs.Wire.Content
import ProfilePipeline.Proofs.Wire.Cut
import ProfilePipeline.Proofs.Wire.Decoder
import ProfilePipeline.Proofs.Wire.Digits
import ProfilePipeline.Proofs.Wire.Growth
import ProfilePipeline.Proofs.Wire.Lengths
import ProfilePipeline.Proofs.Wire.Line
import ProfilePipeline.Proofs.Wire.Merging
import ProfilePipeline.Proofs.Wire.Passes
import ProfilePipeline.Proofs.Wire.Raw
import ProfilePipeline.Proofs.Wire.Refusal
import ProfilePipeline.Proofs.Wire.Spelled
import ProfilePipeline.Proofs.Wire.Tidy
import ProfilePipeline.Proofs.Wire.Typed
import ProfilePipeline.Proofs.Wire.Varint
import ProfilePipeline.Provider
import ProfilePipeline.Record
import ProfilePipeline.Resource
import ProfilePipeline.Scenario.Session
import ProfilePipeline.Scenario.Site
import ProfilePipeline.Scope
import ProfilePipeline.Span
import ProfilePipeline.Wire.Content
import ProfilePipeline.Wire.Decoder
import ProfilePipeline.Wire.Raw
import ProfilePipeline.Wire.Sink
import ProfilePipeline.Wire.Typed
import ProfilePipeline.Wire.Value
import ProfilePipeline.Wire.Varint
