import ErrorCore.Foundation.Text
import ErrorCore.Foundation.Json
import ErrorCore.Foundation.Json.RoundTrip
import ErrorCore.Foundation.Transition
import ErrorCore.Foundation.RingBuffer
import ErrorCore.Foundation.RingLog
import ErrorCore.Foundation.Bytes
import ErrorCore.Foundation.Except
import ErrorCore.Types
import ErrorCore.Context.EventClock
import ErrorCore.Context.TraceContext
import ErrorCore.Context.TraceContext.RoundTrip
import ErrorCore.Context.TraceContext.Propagation
import ErrorCore.Context.Lamport
import ErrorCore.Context.Lamport.Order
import ErrorCore.Buffer.IOEventBuffer
import ErrorCore.Buffer.IOEventBuffer.Window
import ErrorCore.Buffer.IOEventBuffer.Order
import ErrorCore.Buffer.IOEventBuffer.Bytes
import ErrorCore.Buffer.IOEventBuffer.EvictionLog
import ErrorCore.Buffer.IOEventBuffer.Budget
import ErrorCore.Foundation.Json.Path
import ErrorCore.Pii.ContentType
import ErrorCore.Pii.SensitiveKey
import ErrorCore.Pii.Scrubber
import ErrorCore.Pii.Scrubber.Redaction
import ErrorCore.Recording.BodyCapture
import ErrorCore.Recording.ByteAccounting
import ErrorCore.Foundation.ObjectPool
import ErrorCore.Recording.HttpServer
import ErrorCore.Recording.HttpServer.Ownership
import ErrorCore.Recording.HttpServer.Finalizers
import ErrorCore.Transport.DeadLetterStore
import ErrorCore.Transport.DeadLetterStore.Drainers
import ErrorCore.Transport.DeadLetterStore.Lines
import ErrorCore.Transport.DeadLetterStore.NoLoss
import ErrorCore.Transport.FileLock
import ErrorCore.Transport.FileLock.Exclusion
import ErrorCore.Transport.Worker
import ErrorCore.Transport.Worker.Order
import ErrorCore.Security.Encryption
import ErrorCore.Security.Encryption.Attempts
import ErrorCore.Ingest
import ErrorCore.Ingest.Soundness
import ErrorCore.Security.Encryption.Binding
import ErrorCore.Security.Encryption.Authenticity
import ErrorCore.Security.Encryption.RoundTrip
import ErrorCore.FieldScrubber
import ErrorCore.FieldScrubber.RoundTrip
import ErrorCore.Config
import ErrorCore.Transport.DeadLetterStore.Signatures
import ErrorCore.Foundation.PromiseChain
import ErrorCore.Capture.CaptureMode
import ErrorCore.Capture.CaptureModeController
import ErrorCore.Capture.CaptureModeController.Moves
import ErrorCore.Capture.CaptureModeController.Invariant
import ErrorCore.Capture.CaptureModeController.Atomicity
import ErrorCore.Capture.CaptureModeController.Generations
import ErrorCore.Capture.CaptureModeController.ManualChoice
import ErrorCore.Capture.CaptureModeController.PhaseAgreement
import ErrorCore.Capture.CaptureModeController.SwitchRate
import ErrorCore.Foundation.InsertionMap
import ErrorCore.Spool.PayloadSpool
import ErrorCore.Spool.PayloadSpool.Budgets
import ErrorCore.Spool.PayloadSpool.Reclamation
import ErrorCore.Foundation.Lines
import ErrorCore.Transport.LocalEventStore
import ErrorCore.Transport.LocalEventStore.Removal
import ErrorCore.Transport.WebhookTransport
import ErrorCore.Transport.WebhookTransport.QueueDiscipline
import ErrorCore.Transport.WebhookTransport.Durability
import ErrorCore.Transport.DeadLetterStore.Appends
import ErrorCore.Transport.DeadLetterStore.Agreement
import ErrorCore.Transport.DeadLetterStore.ClearSent
import ErrorCore.Transport.DeadLetterStore.TornAppends
import ErrorCore.Transport.DeadLetterStore.ReSign
import ErrorCore.Transport.DeadLetterStore.PendingCount
import ErrorCore.Foundation.Directory
import ErrorCore.Transport.FileTransport
import ErrorCore.Transport.FileTransport.Rotation
import ErrorCore.Foundation.CyclicIds
import ErrorCore.Capture.PackageAssemblyDispatcher
import ErrorCore.Capture.PackageAssemblyDispatcher.Integrity
import ErrorCore.Recording.PatchManager
import ErrorCore.Recording.PatchManager.Entries
import ErrorCore.Recording.PatchManager.Ownership
import ErrorCore.Capture.ErrorCapturer
import ErrorCore.Capture.ErrorCapturer.Conservation
import ErrorCore.Capture.LocalsRingBuffer
import ErrorCore.Capture.InspectorManager
import ErrorCore.Capture.InspectorManager.Correlation
import ErrorCore.Capture.InspectorManager.LocalsGuard
import ErrorCore.Capture.InspectorManager.LocalsGuard.Trips
import ErrorCore.Capture.SourceMapResolver
import ErrorCore.Capture.SourceMapResolver.LocalNames
import ErrorCore.Capture.SourceMapResolver.Cache
import ErrorCore.Capture.SourceMapResolver.Cache.Invariant
import ErrorCore.Recording.FetchWrapper
import ErrorCore.Recording.FetchWrapper.Binding
import ErrorCore.Foundation.Indexed
import ErrorCore.Foundation.UseCount
import ErrorCore.Recording.Patches.Pg
import ErrorCore.Recording.Patches.Pg.ExactlyOnce
import ErrorCore.Recording.BodyCapture.ChunkViews
import ErrorCore.Recording.BodyCapture.Faithful
import ErrorCore.Recording.Patches.IoRedis
import ErrorCore.Recording.Patches.IoRedis.ExactlyOnce
import ErrorCore.Transport.HttpTransport
import ErrorCore.Transport.HttpTransport.SessionOwnership
import ErrorCore.Serialization.CloneAndLimit
import ErrorCore.Serialization.CloneAndLimit.JsonSafe
import ErrorCore.Foundation.CappedLog
import ErrorCore.State.StateTracker
import ErrorCore.State.StateTracker.Transparency
import ErrorCore.Foundation.HostCalls
import ErrorCore.Middleware.Common
import ErrorCore.Middleware.Lambda
import ErrorCore.Middleware.RequestHandlers
import ErrorCore.Middleware.Delivery
import ErrorCore.Recording.Patches.HostCall
import ErrorCore.Recording.Patches.DriverMethods
import ErrorCore.Recording.Patches.Preparation
import ErrorCore.Recording.Patches.Transparency
import ErrorCore.Foundation.SlidingWindow
import ErrorCore.Security.RateLimiter
import ErrorCore.Security.RateLimiter.Windows
import ErrorCore.Foundation.RecentKeys
import ErrorCore.Capture.ErrorCapturer.Deduplication
import ErrorCore.Capture.ErrorCapturer.Deduplication.Window
import ErrorCore.Foundation.Utf8Decoding
import ErrorCore.Foundation.Json.NullCharacter
import ErrorCore.Ui.NdjsonReader
import ErrorCore.Ui.NdjsonReader.Agreement
import ErrorCore.Capture.PackageBuilder
import ErrorCore.Capture.PackageBuilder.Shedding
import ErrorCore.Capture.PackageBuilder.HardCap
import ErrorCore.Serialization.CloneAndLimit.Shape
import ErrorCore.Serialization.CloneAndLimit.Lengths
import ErrorCore.Foundation.PercentEncoding
import ErrorCore.Foundation.Regex
import ErrorCore.Foundation.Regex.Shape
import ErrorCore.Foundation.Regex.Replace
import ErrorCore.Foundation.Regex.Quiet
import ErrorCore.Pii.Patterns
import ErrorCore.Foundation.MultiMap
import ErrorCore.Pii.Scrubber.Url
import ErrorCore.Pii.Scrubber.StringPatterns
import ErrorCore.Pii.Scrubber.Url.Query
import ErrorCore.Foundation.Retention
import ErrorCore.Transport.Backups
import ErrorCore.Transport.LocalEventStore.Backups
import ErrorCore.Transport.DeadLetterStore.Backups
import ErrorCore.Transport.FileTransport.Backups
import ErrorCore.Transport.Backups.Retention
import ErrorCore.Ingest.Webhook.RoundTrip
import ErrorCore.Context.RequestTracker
import ErrorCore.Context.RequestTracker.Accounting
import ErrorCore.Sdk
import ErrorCore.Sdk.Singleton
import ErrorCore.Capture.PackageAssemblyController
import ErrorCore.Foundation.Emitter
import ErrorCore.Recording.ChannelSubscriber
import ErrorCore.Middleware.Watchdog
import ErrorCore.Middleware.Watchdog.Reports
import ErrorCore.Sdk.ProcessListeners
import ErrorCore.Foundation.OrderStatistic
import ErrorCore.Health.HealthMetrics
