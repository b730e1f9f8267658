import TradingPlatform.Dict
import TradingPlatform.Run
import TradingPlatform.Core.Types
import TradingPlatform.Core.StateMachine
import TradingPlatform.Execution.OmsReplay
import TradingPlatform.Execution.OmsRecovery
import TradingPlatform.Execution.KillSwitch
import TradingPlatform.Execution.ReconcilePass
import TradingPlatform.Execution.SleeveEquity
import TradingPlatform.Execution.Bench
import TradingPlatform.App
import TradingPlatform.Execution.AlpacaBroker
import TradingPlatform.Execution.RecoverTwice
import TradingPlatform.Execution.RobinhoodBroker
import TradingPlatform.Execution.Cancellation
import TradingPlatform.Execution.Retry
import TradingPlatform.Execution.Attribution
import TradingPlatform.Execution.LotConservation
import TradingPlatform.Execution.LotRestart
import TradingPlatform.AppBooking
import TradingPlatform.Execution.FillReplay
import TradingPlatform.Execution.FillAccounting
import TradingPlatform.Execution.ClosedOrders
import TradingPlatform.Execution.BreakDetection
import TradingPlatform.Execution.PaperDesk
import TradingPlatform.TrackerLock
import TradingPlatform.OptionsExposure
import TradingPlatform.Ops.EquitySnapshotter
import TradingPlatform.Execution.InFlight
import TradingPlatform.Execution.FillPaths
import TradingPlatform.Agents.DailyCap
import TradingPlatform.AppObserve
import TradingPlatform.AppView
import TradingPlatform.AppLimits
import TradingPlatform.Execution.TrackerRestart
import TradingPlatform.Execution.Adoption
import TradingPlatform.Execution.Spelling
import TradingPlatform.Execution.Subscribers
import TradingPlatform.Execution.Admission
import TradingPlatform.AppLeverage
import TradingPlatform.Execution.Replanning
import TradingPlatform.Execution.RiskAversion
import TradingPlatform.Execution.CatchUpCost
import TradingPlatform.Ops.CashFlowAttribution
import TradingPlatform.Agents.HaikuSynthesizer
import TradingPlatform.Agents.OutcomeRecorder
import TradingPlatform.Execution.LotQueue
import TradingPlatform.Execution.LotHistory
import TradingPlatform.Execution.RecoveryRule
import TradingPlatform.Ops.FifoMatching
import TradingPlatform.Execution.PolledQuantity
import TradingPlatform.Execution.RobinhoodSubmit
import TradingPlatform.Execution.FailedLookups
import TradingPlatform.Execution.BreakAlerts
import TradingPlatform.AppReserve
import TradingPlatform.Execution.SpendDates
import TradingPlatform.Execution.RollingPeak
import TradingPlatform.Core.Clock
import TradingPlatform.Execution.RecoveryDays
import TradingPlatform.Execution.ColdRebuild
import TradingPlatform.Execution.OrderCodec
import TradingPlatform.Execution.BudgetFile
import TradingPlatform.Text.UuidText
import TradingPlatform.Agents.ParseIntents
import TradingPlatform.Backtest.Engine
import TradingPlatform.Backtest.NoLookahead
import TradingPlatform.Backtest.Gaps
import TradingPlatform.Backtest.WalkForward
import TradingPlatform.Backtest.Strategies
import TradingPlatform.Text.Occurrences
import TradingPlatform.Agents.ExternalContent
import TradingPlatform.Adjacent
import TradingPlatform.Ops.PerformanceStatistics
import TradingPlatform.Ops.DailyReturns
import TradingPlatform.Ops.CurrentPositions
import TradingPlatform.AppDives
import TradingPlatform.Newest
import TradingPlatform.Execution.RecentRejections
import TradingPlatform.Config.RuntimeStore
import TradingPlatform.Extended
import TradingPlatform.AppReallocation
import TradingPlatform.AppReallocationRuns
import TradingPlatform.SlidingWindow
import TradingPlatform.Data.RateLimiter
import TradingPlatform.Ops.Alerts
import TradingPlatform.Core.MarketHours
import TradingPlatform.Data.YFinance
import TradingPlatform.Data.NewsStore
import TradingPlatform.Data.NewsQuotas
import TradingPlatform.Data.DocPack
import TradingPlatform.Data.Store
import TradingPlatform.Upsert
import TradingPlatform.Agents.CalibrationRecorder
import TradingPlatform.TradeBook
import TradingPlatform.Execution.BrokerAccount
import TradingPlatform.Execution.PaperAccount
import TradingPlatform.LeastRecent
import TradingPlatform.Text.TextOrder
import TradingPlatform.AppRotation
import TradingPlatform.Scripts.ReconcileOms
import TradingPlatform.Agents.NewsScorer
import TradingPlatform.Throttle
import TradingPlatform.AppLogging
import TradingPlatform.Ops.Telegram
import TradingPlatform.Thinning
import TradingPlatform.Text.Timestamps
import TradingPlatform.Ops.SnapshotRetention
import TradingPlatform.Execution.ApprovalQueue
import TradingPlatform.AtomicFile
import TradingPlatform.Agents.ManagerBridge
import TradingPlatform.Execution.RobinhoodDryRun
import TradingPlatform.Agents.Watchlist
