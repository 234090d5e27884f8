import NuSelf.Agent.Capture
import NuSelf.Agent.Response
import NuSelf.Application.Data
import NuSelf.Chat.Compression
import NuSelf.Chat.Continuations
import NuSelf.Chat.History
import NuSelf.Chat.Turns
import NuSelf.Conversation.Deadlock
import NuSelf.Conversation.LostUpdates
import NuSelf.Daemon.Activity
import NuSelf.Daemon.Chat
import NuSelf.Daemon.Identity
import NuSelf.Daemon.Instance
import NuSelf.Daemon.ReasonExport
import NuSelf.Daemon.Recovery
import NuSelf.Daemon.RoundTrip
import NuSelf.Daemon.Shutdown
import NuSelf.Daemon.Transport
import NuSelf.Delivery.Concurrent
import NuSelf.Feature.Codec
import NuSelf.Feature.Execution
import NuSelf.Inbox.Attention
import NuSelf.Inbox.Link
import NuSelf.Inbox.Service
import NuSelf.Lib.TextLines
import NuSelf.Log.Append
import NuSelf.Log.Lossless
import NuSelf.Log.Reconcile
import NuSelf.Memory.Acceptance
import NuSelf.Memory.Contention
import NuSelf.Memory.Curation
import NuSelf.Memory.EntryRoundTrip
import NuSelf.Memory.PlanRemoval
import NuSelf.Memory.PlanRoundTrip
import NuSelf.Memory.Reports
import NuSelf.Memory.Review
import NuSelf.Memory.SearchFilters
import NuSelf.Memory.Shared
import NuSelf.Memory.Update
import NuSelf.Migrations.LegacyUpgrade
import NuSelf.Migrations.Projection
import NuSelf.Migrations.Runner
import NuSelf.Migrations.V5V6
import NuSelf.Persona.Availability
import NuSelf.Persona.Discussion
import NuSelf.Reason.Attempts
import NuSelf.Reason.Documents
import NuSelf.Reason.Headings
import NuSelf.Reason.Progress
import NuSelf.Reason.Replanning
import NuSelf.Reason.Resume
import NuSelf.Reasoning.Pass
import NuSelf.Reasoning.Status
import NuSelf.Reasoning.Tracked
import NuSelf.Reasoning.TrackedItems
import NuSelf.Reflection.Conserves
import NuSelf.Reflection.Corrupt
import NuSelf.Reflection.Review
import NuSelf.Repl.Conversations
import NuSelf.Repl.Failed
import NuSelf.Runtime.Cancellation
import NuSelf.Runtime.Diagnostics
import NuSelf.Runtime.Handles
import NuSelf.Runtime.Messages
import NuSelf.Runtime.Metadata
import NuSelf.Runtime.Publisher
import NuSelf.Source.Chunks
import NuSelf.Source.Repository
import NuSelf.Storage.Atomic
import NuSelf.Storage.LegacyWorkspaces
import NuSelf.Storage.Namespaces
import NuSelf.Storage.PackSchema
import NuSelf.Storage.Publication
import NuSelf.Storage.SqliteCollection
import NuSelf.Storage.Standalone
import NuSelf.Storage.Transaction
