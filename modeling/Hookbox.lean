import Hookbox.Lib.Table
import Hookbox.Lib.Lts
import Hookbox.Lib.Except
import Hookbox.Lib.Recent
import Hookbox.Lib.Backoff
import Hookbox.Lib.Rounding
import Hookbox.Lib.Separator
import Hookbox.Lib.SkipLocked
import Hookbox.Lib.Cooperative
import Hookbox.Lib.Text
import Hookbox.Lib.Paging
import Hookbox.Lib.Since
import Hookbox.Storage.Machine
import Hookbox.Transitions
import Hookbox.History
import Hookbox.Storage.Safety
import Hookbox.Encoding
import Hookbox.Providers
import Hookbox.Worker
import Hookbox.Pipeline
import Hookbox.System
import Hookbox.Lease
import Hookbox.Attempts
import Hookbox.Accounting
import Hookbox.Intake
import Hookbox.Truthful
import Hookbox.Acceptance
import Hookbox.Provenance
import Hookbox.Legacy
import Hookbox.Frame
import Hookbox.Isolation
import Hookbox.FastPath
import Hookbox.Config
import Hookbox.Startup
import Hookbox.Ingest
import Hookbox.Storable
import Hookbox.Schedule
import Hookbox.SingleWorker
import Hookbox.Replay
import Hookbox.DeadLetters
import Hookbox.Listing
import Hookbox.Requeue
import Hookbox.RecentCache
import Hookbox.Backoff
import Hookbox.Binary64
import Hookbox.RetrySafety
import Hookbox.Projection
import Hookbox.Signatures
import Hookbox.Claiming
import Hookbox.ClaimFailure
import Hookbox.Shutdown
import Hookbox.Health
import Hookbox.EmitterFactory
import Hookbox.RetryState
import Hookbox.ParseDuration
import Hookbox.DlqPages
import Hookbox.RetryWorker
import Hookbox.Lib.Ledger
import Hookbox.Rounds
import Hookbox.Backlog
import Hookbox.Fairness
import Hookbox.Serve
import Hookbox.ServeRuns
import Hookbox.Stopping
import Hookbox.Readiness
import Hookbox.Lib.Base64
import Hookbox.Serde
import Hookbox.Http
import Hookbox.ReadBack
import Hookbox.Messages
import Hookbox.Lib.Simulation
import Hookbox.Lib.Outbox
import Hookbox.Calls
import Hookbox.AtLeastOnce
import Hookbox.Promise
import Hookbox.Lib.Census
import Hookbox.Metrics
import Hookbox.EmitMetrics
import Hookbox.Cli
import Hookbox.Redelivery
