import TitanEngine.Library.Loop
import TitanEngine.Library.Machine
import TitanEngine.Library.Ranked
import TitanEngine.Library.Grouping
import TitanEngine.Core.Types
import TitanEngine.Core.MemoryPool
import TitanEngine.Book.Matcher
import TitanEngine.Book.ReferenceMatcher
import TitanEngine.Book.OptimizedMatcher
import TitanEngine.Spec.Book
import TitanEngine.Spec.Refinement
import TitanEngine.Book.ReferenceRefinement
import TitanEngine.Core.PoolInvariant
import TitanEngine.Book.OptimizedRefinement
import TitanEngine.Book.Parity
import TitanEngine.Book.Backend
import TitanEngine.Exchange.OrderManager
import TitanEngine.Spec.Ledger
import TitanEngine.Exchange.Bookkeeping
import TitanEngine.Exchange.Matching
import TitanEngine.Exchange.Amending
import TitanEngine.Exchange.ManagerRuns
import TitanEngine.Exchange.GreedyFill
import TitanEngine.Exchange.SelfTrades
import TitanEngine.Feed.Decoder
import TitanEngine.Library.Framing
import TitanEngine.Feed.Parser
import TitanEngine.Library.Fifo
import TitanEngine.Pipeline.SpscQueue
import TitanEngine.Exchange.InstrumentRegistry
import TitanEngine.Spec.Market
import TitanEngine.Pipeline.StagedProcessor
import TitanEngine.Feed.BookBuilder
import TitanEngine.Replay.ItchAdapter
import TitanEngine.Feed.SocketFeed
import TitanEngine.Spec.Moves
import TitanEngine.Feed.LiveOrders
import TitanEngine.Replay.Following
import TitanEngine.Replay.Session
import TitanEngine.Replay.Budget
import TitanEngine.Replay.FeedParity
import TitanEngine.Spec.Quotes
import TitanEngine.Replay.LateMessages
import TitanEngine.Feed.RoundTrip
import TitanEngine.Exchange.RegistryRuns
import TitanEngine.Exchange.LedgerSteps
import TitanEngine.Exchange.Lifecycle
import TitanEngine.Exchange.Subtractions
import TitanEngine.Exchange.QuantityLedger
import TitanEngine.Replay.TradeVolume
import TitanEngine.Replay.SyntheticIds
import TitanEngine.Spec.Twins
import TitanEngine.Replay.LocateIsolation
import TitanEngine.Replay.Backtest
import TitanEngine.MarketData.EventPublisher
import TitanEngine.MarketData.OrderViews
import TitanEngine.MarketData.PublisherViews
import TitanEngine.MarketData.LoggedOrders
import TitanEngine.MarketData.RegistryLog
import TitanEngine.MarketData.ExecutionReports
import TitanEngine.Feed.Codec
import TitanEngine.Book.Invariants
import TitanEngine.Book.PriceTime
import TitanEngine.Exchange.Replacing
import TitanEngine.Replay.QueuePriority
import TitanEngine.Replay.IgnoredMessages
import TitanEngine.Feed.Aggregation
import TitanEngine.Exchange.LevelTotals
import TitanEngine.MarketData.AveragePrices
import TitanEngine.Exchange.MatcherProtocol
import TitanEngine.Core.PoolRuns
import TitanEngine.Book.OptimizedInvariants
import TitanEngine.Feed.ByteAccounts
import TitanEngine.Exchange.InvariantChecks
import TitanEngine.Library.Fairness
import TitanEngine.Pipeline.Liveness
import TitanEngine.Exchange.Snapshots
import TitanEngine.Replay.ParityReports
import TitanEngine.Feed.Wire
import TitanEngine.Replay.WireReplay
import TitanEngine.Replay.Backends
import TitanEngine.Exchange.TimePriority
import TitanEngine.Replay.SocketReplay
import TitanEngine.MarketData.Rejections
import TitanEngine.Core.PoolGrowth
import TitanEngine.Book.MatcherMemory
import TitanEngine.MarketData.Subscribers
import TitanEngine.Replay.FeedHistories
import TitanEngine.MarketData.Ladders
import TitanEngine.Pipeline.Observers
import TitanEngine.Library.Journal
import TitanEngine.MarketData.LogPieces
import TitanEngine.Exchange.PublicCalls
import TitanEngine.Bench.Scenario
import TitanEngine.Bench.ScenarioReplay
