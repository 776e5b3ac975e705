import PowerBlockade.Lib.Run
import PowerBlockade.Lib.Gregorian
import PowerBlockade.Lib.IsoText
import PowerBlockade.Time
import PowerBlockade.Lib.Policy
import PowerBlockade.Python
import PowerBlockade.Settings
import PowerBlockade.Blocking.Schedule
import PowerBlockade.Blocking.Writers
import PowerBlockade.Lib.Fields
import PowerBlockade.Zones.Normalize
import PowerBlockade.Blocking.World
import PowerBlockade.Lib.Lists
import PowerBlockade.Blocking.Override
import PowerBlockade.Blocking.Compilers
import PowerBlockade.Blocking.Interleaving
import PowerBlockade.Blocking.Publication
import PowerBlockade.Blocking.Resume
import PowerBlockade.Lib.Json
import PowerBlockade.Primary.Tables
import PowerBlockade.Primary.Ingest
import PowerBlockade.Primary.NodeSync
import PowerBlockade.Nodes.Steps
import PowerBlockade.Nodes.Lifecycle
import PowerBlockade.Lib.OrderedMap
import PowerBlockade.Processor.Event
import PowerBlockade.Processor.Buffer
import PowerBlockade.Delivery.Received
import PowerBlockade.Delivery.ExactlyOnce
import PowerBlockade.Lib.Sha256
import PowerBlockade.Lib.SipHash
import PowerBlockade.Lib.SessionLocks
import PowerBlockade.Jobs.AdvisoryLock
import PowerBlockade.Processor.Dnstap
import PowerBlockade.Zones.LoadFile
import PowerBlockade.Delivery.Wire
import PowerBlockade.Lib.Grouping
import PowerBlockade.Lib.KeyedTable
import PowerBlockade.Lib.TrueDivision
import PowerBlockade.Rollups.Compute
import PowerBlockade.Rollups.Dashboard
import PowerBlockade.Rollups.Sound
import PowerBlockade.Rollups.Refinement
import PowerBlockade.Rollups.Concurrent
import PowerBlockade.Rollups.Freshness
import PowerBlockade.Lib.Average
import PowerBlockade.Rollups.Latency
import PowerBlockade.Lib.JsonText
import PowerBlockade.Sync.Bundle
import PowerBlockade.Sync.Agent
import PowerBlockade.Sync.Convergence
import PowerBlockade.Sync.Reload
import PowerBlockade.Sync.Versions
import PowerBlockade.Sync.Loop
import PowerBlockade.Reloader.Watch
import PowerBlockade.Reloader.Coverage
import PowerBlockade.Lib.SerialTable
import PowerBlockade.Lib.ChangeLog
import PowerBlockade.Lib.CommitOrder
import PowerBlockade.Lib.Utf8
import PowerBlockade.Lib.QueryString
import PowerBlockade.Config.Tables
import PowerBlockade.Config.Routes
import PowerBlockade.Config.Steps
import PowerBlockade.Config.Audit
import PowerBlockade.Config.Rollback
import PowerBlockade.Config.Restore
import PowerBlockade.Config.Overrides
import PowerBlockade.Processor.Spool
import PowerBlockade.Processor.Capacity
import PowerBlockade.Processor.Pipeline
import PowerBlockade.Commands.Delivery
import PowerBlockade.Streaming.Stream
import PowerBlockade.Streaming.ExactlyOnce
import PowerBlockade.Web.Csrf
import PowerBlockade.Web.Routes
import PowerBlockade.Processor.Prober
import PowerBlockade.Lib.ExpiringCache
import PowerBlockade.Lib.Raising
import PowerBlockade.Lib.Spacing
import PowerBlockade.Precache.Pairs
import PowerBlockade.Precache.Freshness
import PowerBlockade.Precache.Renewal
import PowerBlockade.Precache.Burst
import PowerBlockade.Precache.Pacing
import PowerBlockade.Precache.BootStatus
import PowerBlockade.Precache.Selection
import PowerBlockade.Delivery.Progress
import PowerBlockade.Sync.MetricsBuffer
import PowerBlockade.Nodes.LocalKey
import PowerBlockade.Lib.Separated
import PowerBlockade.Lib.DailyWindow
import PowerBlockade.Lib.FileSystem
import PowerBlockade.Blocking.Windows
import PowerBlockade.Blocking.ScheduleFailures
import PowerBlockade.Blocking.UpdateIsolation
import PowerBlockade.Blocking.SwitchFailures
import PowerBlockade.Files.AtomicWrite
import PowerBlockade.Files.SafeWrite
import PowerBlockade.Files.BindMounts
import PowerBlockade.Sync.ForceSync
import PowerBlockade.Sync.MetricsQueue
import PowerBlockade.Rollups.Retention
import PowerBlockade.Processor.Acknowledgement
import PowerBlockade.Precache.Waits
import PowerBlockade.Precache.Accounting
import PowerBlockade.Rollups.History
import PowerBlockade.Lib.CaseTable
import PowerBlockade.Zones.Names
import PowerBlockade.Zones.Dressing
import PowerBlockade.Zones.Canonical
import PowerBlockade.Zones.Meaning
import PowerBlockade.Zones.Hosts
import PowerBlockade.Zones.Agreement
import PowerBlockade.Sync.VersionGate
import PowerBlockade.Nodes.Aging
import PowerBlockade.Rollups.NodeDeletion
import PowerBlockade.Rollups.Idempotence
import PowerBlockade.Primary.LastSeen
import PowerBlockade.Lib.Decimal
import PowerBlockade.Processor.Address
import PowerBlockade.Processor.EventId
import PowerBlockade.Lib.Exposition
import PowerBlockade.Metrics.Scrape
import PowerBlockade.Lib.ExpositionWriting
import PowerBlockade.Metrics.Output
import PowerBlockade.Metrics.Faithful
import PowerBlockade.Files.Unchanged
import PowerBlockade.Lib.IpAddress
import PowerBlockade.Processor.ProberAddresses
import PowerBlockade.Web.Body
import PowerBlockade.Processor.ByteSize
import PowerBlockade.Processor.Latency
import PowerBlockade.Lib.IpNetwork
import PowerBlockade.Lib.FirstOccurrence
import PowerBlockade.Lib.Dedent
import PowerBlockade.Clients.Tables
import PowerBlockade.Clients.Groups
import PowerBlockade.Clients.Ptr
import PowerBlockade.Recursor.MigrateSettings
import PowerBlockade.Nodes.Package
import PowerBlockade.Verdict.Reading
import PowerBlockade.Verdict.Chain
import PowerBlockade.Verdict.Settling
import PowerBlockade.Verdict.Resolver
import PowerBlockade.Upgrade.Rollback
import PowerBlockade.Lib.ByteMask
import PowerBlockade.Processor.Internal
import PowerBlockade.Lib.Like
import PowerBlockade.Lib.Paging
import PowerBlockade.Analytics.Logs
import PowerBlockade.Delivery.Fleet
import PowerBlockade.Delivery.Counted
import PowerBlockade.Setup.Entrypoints
import PowerBlockade.Lib.Assignments
import PowerBlockade.Setup.InitEnv
import PowerBlockade.Accounts.Users
import PowerBlockade.Accounts.Login
import PowerBlockade.Probing.Passes
