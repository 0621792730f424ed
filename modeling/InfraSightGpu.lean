import InfraSightGpu.Lib.Runs
import InfraSightGpu.Lib.Quiescence
import InfraSightGpu.Lib.Maps
import InfraSightGpu.Lib.Segments
import InfraSightGpu.Events
import InfraSightGpu.Fingerprint
import InfraSightGpu.Aggregator
import InfraSightGpu.WindowHistory
import InfraSightGpu.WindowTotals
import InfraSightGpu.WindowTimes
import InfraSightGpu.WindowTicks
import InfraSightGpu.TransferSplit
import InfraSightGpu.WindowSpans
import InfraSightGpu.WindowMeans
import InfraSightGpu.DerivedMetrics
import InfraSightGpu.TimeSeries
import InfraSightGpu.TokenHistory
import InfraSightGpu.TokenComms
import InfraSightGpu.Lib.Wire
import InfraSightGpu.BatchSize
import InfraSightGpu.CollectorViews
import InfraSightGpu.Lib.Layout
import InfraSightGpu.BatchText
import InfraSightGpu.Records
import InfraSightGpu.Lib.Words
import InfraSightGpu.WatchdogMap
import InfraSightGpu.Watchdog
import InfraSightGpu.PollHistory
import InfraSightGpu.AlertSoundness
import InfraSightGpu.PollOrder
import InfraSightGpu.Warmup
import InfraSightGpu.ThreadExits
import InfraSightGpu.HookedCalls
import InfraSightGpu.CounterRace
import InfraSightGpu.Handlers
import InfraSightGpu.LaunchDimensions
import InfraSightGpu.DeviceIoctls
import InfraSightGpu.SyncTimings
import InfraSightGpu.NestedSyncs
import InfraSightGpu.CallsInProgress
import InfraSightGpu.Attachment
import InfraSightGpu.CallReports
import InfraSightGpu.Tracer
import InfraSightGpu.TracerOrder
import InfraSightGpu.CallAccounting
import InfraSightGpu.Pipeline
import InfraSightGpu.ReaderLoop
import InfraSightGpu.Isolation
import InfraSightGpu.Shutdown
import InfraSightGpu.Draining
import InfraSightGpu.System
import InfraSightGpu.Delivery
import InfraSightGpu.Completion
import InfraSightGpu.CallDelivery
import InfraSightGpu.ReaderStop
import InfraSightGpu.Config
import InfraSightGpu.Lifecycle
import InfraSightGpu.WatchdogLoop
import InfraSightGpu.WatchdogVerdicts
