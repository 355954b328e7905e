import ResponseGateway.Adapters.Chat
import ResponseGateway.Adapters.ChatDecoding
import ResponseGateway.Adapters.ChatStream
import ResponseGateway.Adapters.ChatStreamChunks
import ResponseGateway.Adapters.ChatStreamRuns
import ResponseGateway.Adapters.ChatStreamSteps
import ResponseGateway.Adapters.Chunks
import ResponseGateway.Adapters.Events
import ResponseGateway.Adapters.InteractionSchema
import ResponseGateway.Adapters.Json
import ResponseGateway.Adapters.Managed
import ResponseGateway.Adapters.Renumbering
import ResponseGateway.Adapters.Responses
import ResponseGateway.Adapters.ResponsesDecoding
import ResponseGateway.Adapters.ResponsesStream
import ResponseGateway.Adapters.ResponsesStreamRelease
import ResponseGateway.Adapters.ResponsesStreamRuns
import ResponseGateway.Adapters.ResponsesStreamSteps
import ResponseGateway.Adapters.Sse
import ResponseGateway.Adapters.SseReference
import ResponseGateway.Adapters.Toolset
import ResponseGateway.Adapters.UniqueKeys
import ResponseGateway.Api.Admission
import ResponseGateway.Api.Contract
import ResponseGateway.Api.Deliveries
import ResponseGateway.Api.Dispatch
import ResponseGateway.Api.Handlers
import ResponseGateway.Api.Runs
import ResponseGateway.Api.Server
import ResponseGateway.Api.Sessions
import ResponseGateway.Codecs.Execution
import ResponseGateway.Codecs.GatedStream
import ResponseGateway.Codecs.Progress
import ResponseGateway.Codecs.ProgressFinal
import ResponseGateway.Codecs.PublishedStream
import ResponseGateway.Codecs.TerminalEvents
import ResponseGateway.Codecs.Verification
import ResponseGateway.Continuation.Capacity
import ResponseGateway.Continuation.Clients
import ResponseGateway.Continuation.Envelope
import ResponseGateway.Continuation.EnvelopeSound
import ResponseGateway.Continuation.Ledger
import ResponseGateway.Continuation.Lineage
import ResponseGateway.Continuation.LinearHistory
import ResponseGateway.Continuation.Replay
import ResponseGateway.Continuation.ReplayReading
import ResponseGateway.Continuation.Runtime
import ResponseGateway.Continuation.Store
import ResponseGateway.Continuation.StoreInvariant
import ResponseGateway.Continuation.StoreSteps
import ResponseGateway.Editing.CodeMode
import ResponseGateway.Editing.ContextEdit
import ResponseGateway.Editing.Operations
import ResponseGateway.Editing.OperationsRoundTrip
import ResponseGateway.Editing.PathConflicts
import ResponseGateway.Editing.Policy
import ResponseGateway.Editing.PolicyRoundTrip
import ResponseGateway.Extensions.Agreement
import ResponseGateway.Extensions.Documents
import ResponseGateway.Extensions.Locks
import ResponseGateway.Extensions.Manager
import ResponseGateway.Extensions.Package
import ResponseGateway.Extensions.Packages
import ResponseGateway.Extensions.Roles
import ResponseGateway.Extensions.Texts
import ResponseGateway.Ir.Basic
import ResponseGateway.Ir.Bridge
import ResponseGateway.Ir.BridgeCalls
import ResponseGateway.Ir.BridgeEvidence
import ResponseGateway.Ir.BridgeIdentities
import ResponseGateway.Ir.BridgeRegistry
import ResponseGateway.Ir.BridgeResults
import ResponseGateway.Ir.Continuity
import ResponseGateway.Ir.Digest
import ResponseGateway.Ir.Event
import ResponseGateway.Ir.EventReduction
import ResponseGateway.Ir.EventRuns
import ResponseGateway.Ir.Grammar
import ResponseGateway.Ir.GrammarLanguage
import ResponseGateway.Ir.GrammarRecognition
import ResponseGateway.Ir.Identity
import ResponseGateway.Ir.NativeState
import ResponseGateway.Ir.Request
import ResponseGateway.Ir.Responses
import ResponseGateway.Ir.ResponsesFields
import ResponseGateway.Ir.ResponsesItems
import ResponseGateway.Ir.ResponsesRoundTrip
import ResponseGateway.Ir.ResponsesStatus
import ResponseGateway.Ir.ResponsesTools
import ResponseGateway.Library.Chain
import ResponseGateway.Library.Checked
import ResponseGateway.Library.Codec
import ResponseGateway.Library.FieldSplit
import ResponseGateway.Library.Files
import ResponseGateway.Library.FreshName
import ResponseGateway.Library.Gaps
import ResponseGateway.Library.Json
import ResponseGateway.Library.JsonBytes
import ResponseGateway.Library.JsonExponent
import ResponseGateway.Library.JsonNumber
import ResponseGateway.Library.JsonText
import ResponseGateway.Library.JsonValue
import ResponseGateway.Library.Lines
import ResponseGateway.Library.Matching
import ResponseGateway.Library.Method
import ResponseGateway.Library.OrderedMap
import ResponseGateway.Library.Paging
import ResponseGateway.Library.Pattern
import ResponseGateway.Library.Resumable
import ResponseGateway.Library.StableSort
import ResponseGateway.Library.Statements
import ResponseGateway.Library.Table
import ResponseGateway.Library.Triple
import ResponseGateway.Management.AdapterRuns
import ResponseGateway.Management.Contract
import ResponseGateway.Management.Encoding
import ResponseGateway.Management.Journal
import ResponseGateway.Management.JournalCalls
import ResponseGateway.Management.JournalRuns
import ResponseGateway.Management.JournalSteps
import ResponseGateway.Management.Records
import ResponseGateway.Management.Runtime
import ResponseGateway.Management.RuntimeRuns
import ResponseGateway.Management.RuntimeSteps
import ResponseGateway.Management.Service
import ResponseGateway.Management.ServiceRuns
import ResponseGateway.Management.ServiceSteps
import ResponseGateway.Providers.Cumulative
import ResponseGateway.Providers.Execution
import ResponseGateway.Providers.Runs
import ResponseGateway.Providers.Usage
import ResponseGateway.Providers.UsageExact
import ResponseGateway.Providers.UsageSteps
import ResponseGateway.Proxy.Conversation
import ResponseGateway.Proxy.Echo
import ResponseGateway.Proxy.EchoRuns
import ResponseGateway.Proxy.HistorySound
import ResponseGateway.Proxy.HistorySteps
import ResponseGateway.Proxy.Managed
import ResponseGateway.Proxy.Publication
import ResponseGateway.Recorder.Delivery
import ResponseGateway.Recorder.Export
import ResponseGateway.Recorder.Feed
import ResponseGateway.Recorder.Ledger
import ResponseGateway.Recorder.Query
import ResponseGateway.Recorder.Remote
import ResponseGateway.Recorder.Retention
import ResponseGateway.Recorder.Store
import ResponseGateway.Recorder.StoreSteps
import ResponseGateway.Requests.Contract
import ResponseGateway.Requests.History
import ResponseGateway.Requests.Isolation
import ResponseGateway.Requests.Ledger
import ResponseGateway.Requests.Reading
import ResponseGateway.Requests.Serving
import ResponseGateway.Team.Access
import ResponseGateway.Team.Atomicity
import ResponseGateway.Team.Authority
import ResponseGateway.Team.Changes
import ResponseGateway.Team.Roster
import ResponseGateway.Team.Runs
import ResponseGateway.Team.Slot
import ResponseGateway.Team.Store
import ResponseGateway.Team.StoreRuns
import ResponseGateway.Team.Transactions
import ResponseGateway.Usage.Accounting
import ResponseGateway.Usage.Arithmetic
import ResponseGateway.Usage.Attempt
import ResponseGateway.Usage.AttemptRuns
import ResponseGateway.Usage.Contract
import ResponseGateway.Usage.Display
import ResponseGateway.Usage.Falling
import ResponseGateway.Usage.Normalization
import ResponseGateway.Usage.Recorded
import ResponseGateway.Usage.StoredBytes
