import ZidaBot.Library.SortedSeq
import ZidaBot.Library.SortedMap
import ZidaBot.Library.Runs
import ZidaBot.Library.BoundedMap
import ZidaBot.Library.RepeatedBatch
import ZidaBot.Library.Spans
import ZidaBot.Library.Decimals
import ZidaBot.Library.LastValue
import ZidaBot.Library.Outbox
import ZidaBot.Library.SingleFlight
import ZidaBot.Library.RingBuffer
import ZidaBot.Library.Files
import ZidaBot.Common.OrderBook
import ZidaBot.Common.OrderBookController
import ZidaBot.Common.OrderBookUtils
import ZidaBot.Common.CheckSumUtils
import ZidaBot.Common.Json
import ZidaBot.Common.NumberTexts
import ZidaBot.Common.WsClient
import ZidaBot.Common.AsioTimer
import ZidaBot.Common.RotatedLog
import ZidaBot.Brain.JsonParsers
import ZidaBot.Brain.UnifiedBook
import ZidaBot.Brain.ArbDetector
import ZidaBot.Brain.ScanBuffers
import ZidaBot.Brain.SignalServer
import ZidaBot.Brain.LatencyHistogram
import ZidaBot.Brain.BacktestEngine
import ZidaBot.Brain.BrainCmdLine
import ZidaBot.Feed.Venue
import ZidaBot.Feed.VenueAdapter
import ZidaBot.Feed.Adapters
import ZidaBot.Feed.RestClient
import ZidaBot.Feed.WsPublishSink
import ZidaBot.Feed.FilePersistSink
import ZidaBot.Feed.GenericFeedHandler
import ZidaBot.Feed.FeedRuntime
import ZidaBot.Feed.BrainLink
import ZidaBot.Exec.ExecEngine
import ZidaBot.Exec.ExecCmdLine
import ZidaBot.Exec.CrossSignals
import ZidaBot.Exec.DeadlineOrderTracker
import ZidaBot.Scripts.UnifiedArbStream
import ZidaBot.Proofs.OrderBook
import ZidaBot.Proofs.OrderBookController
import ZidaBot.Proofs.SnapshotLoad
import ZidaBot.Proofs.BookEntries
import ZidaBot.Proofs.TopOfBook
import ZidaBot.Proofs.TruncatedBook
import ZidaBot.Proofs.Quantisation
import ZidaBot.Proofs.DecimalGrammar
import ZidaBot.Proofs.SequenceIds
import ZidaBot.Proofs.Adapters
import ZidaBot.Proofs.PreviousIds
import ZidaBot.Proofs.Prefilter
import ZidaBot.Proofs.LevelTexts
import ZidaBot.Proofs.CrossSignals
import ZidaBot.Proofs.CrossedBook
import ZidaBot.Proofs.Overlap
import ZidaBot.Proofs.SequenceContinuity
import ZidaBot.Proofs.Checksums
import ZidaBot.Proofs.Wire
import ZidaBot.Proofs.RoundTrip
import ZidaBot.Proofs.Outbox
import ZidaBot.Proofs.PublisherLiveness
import ZidaBot.Proofs.LogRotation
import ZidaBot.Proofs.UnifiedBook
import ZidaBot.Proofs.VenueFees
import ZidaBot.Proofs.VenueIsolation
import ZidaBot.Proofs.FeedHealth
import ZidaBot.Proofs.ArbDetector
import ZidaBot.Proofs.Scan
import ZidaBot.Proofs.ScanBuffers
import ZidaBot.Proofs.ScanGuards
import ZidaBot.Proofs.Staleness
import ZidaBot.Proofs.RateLimit
import ZidaBot.Proofs.RateLimitedSnapshot
import ZidaBot.Proofs.DetectCrosses
import ZidaBot.Proofs.Backtest
import ZidaBot.Proofs.DoubleTexts
import ZidaBot.Proofs.ExecEngine
import ZidaBot.Proofs.ExecGuards
import ZidaBot.Proofs.LiveOrders
import ZidaBot.Proofs.OrderTracker
import ZidaBot.Proofs.RestClient
import ZidaBot.Proofs.FeedMoves
import ZidaBot.Proofs.FeedChanges
import ZidaBot.Proofs.FeedLiveness
import ZidaBot.Proofs.FeedSession
import ZidaBot.Proofs.FeedBuffering
import ZidaBot.Proofs.FeedStop
import ZidaBot.Proofs.Replica
import ZidaBot.Proofs.BookState
import ZidaBot.Proofs.Checkpoint
import ZidaBot.Proofs.FeedReplica
import ZidaBot.Proofs.FeedStatus
import ZidaBot.Proofs.FeedTrust
import ZidaBot.Proofs.BrainSync
import ZidaBot.Proofs.BrainLink
import ZidaBot.Proofs.SignalServer
import ZidaBot.Proofs.SignalSessions
import ZidaBot.Proofs.LatencyHistogram
import ZidaBot.Common.LogWriterThread
import ZidaBot.Proofs.LogWriterThread
import ZidaBot.Brain.BrainProcess
import ZidaBot.Proofs.BrainProcess
import ZidaBot.Proofs.ScanThread
import ZidaBot.Exec.ExecProcess
import ZidaBot.Proofs.ExecProcess
import ZidaBot.Proofs.SignalOrder
import ZidaBot.Proofs.EmittedPrices
import ZidaBot.Proofs.SignalChain
import ZidaBot.Proofs.Fleet
import ZidaBot.Brain.ZidabotReplay
import ZidaBot.Feed.Recorder
import ZidaBot.Library.Emission
import ZidaBot.Proofs.FeedSinks
import ZidaBot.Proofs.RecordedReplay
