import ChainQuantStudio.Library.Run
import ChainQuantStudio.State.OrderBook
import ChainQuantStudio.State.OrderBookInvalidation
import ChainQuantStudio.State.OrderBookHistory
import ChainQuantStudio.Library.SortedPrefix
import ChainQuantStudio.Library.Consecutive
import ChainQuantStudio.State.OrderBookView
import ChainQuantStudio.State.OrderBookCoverage
import ChainQuantStudio.Exchanges.Depth
import ChainQuantStudio.Exchanges.BinanceSubscriptions
import ChainQuantStudio.Exchanges.SubscriptionRuns
import ChainQuantStudio.State.DepthStream
import ChainQuantStudio.State.DepthSupervisor
import ChainQuantStudio.Backtesting.Dsl
import ChainQuantStudio.Backtesting.DslCausality
import ChainQuantStudio.Backtesting.DslSoundness
import ChainQuantStudio.Backtesting.GenericEngine
import ChainQuantStudio.Backtesting.DatasetLoading
import ChainQuantStudio.Backtesting.MoveLabels
import ChainQuantStudio.Backtesting.OpenMoves
import ChainQuantStudio.Backtesting.Holdout
import ChainQuantStudio.Backtesting.HoldoutExposure
import ChainQuantStudio.Backtesting.LabelHorizon
import ChainQuantStudio.Library.PythonText
import ChainQuantStudio.Library.Keyed
import ChainQuantStudio.Studio.ReviewReport
import ChainQuantStudio.Studio.WorkOrder
import ChainQuantStudio.Studio.Manifest
import ChainQuantStudio.Studio.Runner
import ChainQuantStudio.Studio.Execution
import ChainQuantStudio.Studio.Prompt
import ChainQuantStudio.Studio.Recovery
import ChainQuantStudio.Studio.Approval
import ChainQuantStudio.Studio.Gateway
import ChainQuantStudio.Studio.OrderMoves
import ChainQuantStudio.Studio.Rewriting
import ChainQuantStudio.Studio.WorkerSteps
import ChainQuantStudio.Studio.Segments
import ChainQuantStudio.Studio.StartupSteps
import ChainQuantStudio.Studio.GatewaySteps
import ChainQuantStudio.Studio.UserGates
import ChainQuantStudio.Studio.ImplementationEvidence
import ChainQuantStudio.Library.BoundedDeque
import ChainQuantStudio.State.MarketHistories
import ChainQuantStudio.State.HistoryGaps
import ChainQuantStudio.State.BridgedBooks
import ChainQuantStudio.State.Candles
import ChainQuantStudio.State.CandleSlots
import ChainQuantStudio.State.CandleDelivery
import ChainQuantStudio.State.ClosedWindows
import ChainQuantStudio.State.BarAges
import ChainQuantStudio.State.CandidateBaselines
import ChainQuantStudio.Library.UntilRefused
import ChainQuantStudio.State.CandidatePool
import ChainQuantStudio.State.CandidateReconcile
import ChainQuantStudio.Library.Json
import ChainQuantStudio.Studio.StartSignal
import ChainQuantStudio.Studio.WorkerLoop
import ChainQuantStudio.Studio.ReviewReports
import ChainQuantStudio.Studio.LoopSurvival
import ChainQuantStudio.Studio.BacktestFailures
import ChainQuantStudio.Studio.FailingSteps
import ChainQuantStudio.Studio.BacktestRetries
import ChainQuantStudio.Studio.FailureBudget
import ChainQuantStudio.Studio.DeadLetters
import ChainQuantStudio.Studio.BudgetRuns
import ChainQuantStudio.Studio.IndependentReview
import ChainQuantStudio.Studio.ReviewBlockers
import ChainQuantStudio.Studio.BlockerRuns
import ChainQuantStudio.Studio.ArtifactBinding
import ChainQuantStudio.Studio.Scheduling
import ChainQuantStudio.Studio.Uninterrupted
import ChainQuantStudio.Studio.Cancellation
import ChainQuantStudio.Library.ReplacedFile
import ChainQuantStudio.Library.Dict
import ChainQuantStudio.Studio.DurableStores
import ChainQuantStudio.Studio.MarketDataService
import ChainQuantStudio.Studio.StrategyData
import ChainQuantStudio.Studio.DatasetCompleteness
import ChainQuantStudio.Workflow.QuantStudio
import ChainQuantStudio.Workflow.StudioSteps
import ChainQuantStudio.Workflow.LiveGate
import ChainQuantStudio.Workflow.ApprovalFlags
import ChainQuantStudio.Studio.SoleOrder
import ChainQuantStudio.Workflow.GatewayAgreement
import ChainQuantStudio.Workflow.AgreementRuns
import ChainQuantStudio.State.UnifiedMarket
import ChainQuantStudio.State.MarketFrames
import ChainQuantStudio.State.MarketInvariant
import ChainQuantStudio.State.TickerMerge
import ChainQuantStudio.Signals.Policy
import ChainQuantStudio.Signals.Deduplication
import ChainQuantStudio.Signals.Engine
import ChainQuantStudio.Signals.NonInterference
import ChainQuantStudio.Signals.Replay
import ChainQuantStudio.Signals.ReplayAgreement
import ChainQuantStudio.Library.Tallies
import ChainQuantStudio.Signals.LiveSupervisor
import ChainQuantStudio.Signals.LiveProjections
import ChainQuantStudio.Backtesting.CooldownAgreement
import ChainQuantStudio.Specs.FreeText
import ChainQuantStudio.Notifications.Enrichment
import ChainQuantStudio.Features.VolumeExpansion
import ChainQuantStudio.Universe.Pool
import ChainQuantStudio.Exchanges.RateLimiter
import ChainQuantStudio.Exchanges.MergedStreams
import ChainQuantStudio.Exchanges.MergeRuns
import ChainQuantStudio.Universe.Scanner
import ChainQuantStudio.Universe.MalformedRows
import ChainQuantStudio.Universe.Ranking
import ChainQuantStudio.Library.DateTimes
import ChainQuantStudio.Studio.CircuitBreaker
import ChainQuantStudio.Studio.LiveRegistry
import ChainQuantStudio.Library.EvenlySpaced
import ChainQuantStudio.State.RecoveryBackfill
import ChainQuantStudio.Library.LineStarts
import ChainQuantStudio.Studio.ReviewPass
import ChainQuantStudio.Library.RunningMax
import ChainQuantStudio.Backtesting.Drawdown
import ChainQuantStudio.Library.Months
import ChainQuantStudio.Backtesting.MonthlyTrades
import ChainQuantStudio.Library.WilsonScore
import ChainQuantStudio.Library.RealArith
import ChainQuantStudio.Backtesting.SignalMetrics
import ChainQuantStudio.Library.Loops
import ChainQuantStudio.Library.Tiling
import ChainQuantStudio.Exchanges.ArchivePartition
import ChainQuantStudio.Library.PumpedQueues
import ChainQuantStudio.State.StreamBootstrap
import ChainQuantStudio.State.BinanceBridge
import ChainQuantStudio.State.BootstrapContinuity
import ChainQuantStudio.Library.Backoff
import ChainQuantStudio.State.ConsumeForever
import ChainQuantStudio.State.IsolatedLanes
import ChainQuantStudio.State.GapRecovery
import ChainQuantStudio.Universe.CandidateRuntime
import ChainQuantStudio.Exchanges.Retry
import ChainQuantStudio.Exchanges.LimitedRequests
import ChainQuantStudio.Studio.RuntimeProcess
import ChainQuantStudio.Exchanges.WebSocketStream
import ChainQuantStudio.Exchanges.HttpTransport
import ChainQuantStudio.Library.Patterns
import ChainQuantStudio.Studio.ManagerDecisions
import ChainQuantStudio.Studio.ManagerMessages
import ChainQuantStudio.Studio.ManagerBounds
