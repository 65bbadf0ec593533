import InsiderTrader.RiskGating
import InsiderTrader.ChildDriving
import InsiderTrader.EventDelivery
import InsiderTrader.WriterRaces
import InsiderTrader.SnapshotAgreement
import InsiderTrader.PlanRecovery
import InsiderTrader.ReadModelMirror
import InsiderTrader.Observation
import InsiderTrader.RefusedCalls
import InsiderTrader.FilledQuantity
import InsiderTrader.CancelRace
import InsiderTrader.FillAccounting
import InsiderTrader.EquityPeak
import InsiderTrader.TrustedMark
import InsiderTrader.ReductionPlan
import InsiderTrader.JournalReopen
import InsiderTrader.PaperReports
import InsiderTrader.PaperPositions
import InsiderTrader.PolicyRecovery
import InsiderTrader.FxRates
import InsiderTrader.ChildQuantities
import InsiderTrader.ChildClaims
import InsiderTrader.JournalDamage
import InsiderTrader.ReadableResponses
import InsiderTrader.SnapshotRoundTrip
import InsiderTrader.PositionLimit
import InsiderTrader.InFlight
import InsiderTrader.LiveGate
import InsiderTrader.Backfill
import InsiderTrader.Retries
import InsiderTrader.ChildAgreement
import InsiderTrader.IpcRoundTrip
import InsiderTrader.PointInTime
import InsiderTrader.PlanEvents
import InsiderTrader.AlertRecovery
import InsiderTrader.PlanApproval
import InsiderTrader.PlanReplay
import InsiderTrader.CommandRouting
import InsiderTrader.ControlRequests
import InsiderTrader.ReplayLedger
import InsiderTrader.ContextGraph
import InsiderTrader.ModelRegistry
import InsiderTrader.ProjectionFile
import InsiderTrader.AtMostOnce
import InsiderTrader.CallbackDelivery
import InsiderTrader.ConflictReport
import InsiderTrader.EventBus
import InsiderTrader.HaltCancels
import InsiderTrader.NewsPolling
import InsiderTrader.PreviewSubmission
import InsiderTrader.ChildCallbacks
import InsiderTrader.ChildSchedules
import InsiderTrader.Backtest
import InsiderTrader.DepthTop
import InsiderTrader.EventBars
import InsiderTrader.ClientPortal
import InsiderTrader.ContextPackets
import InsiderTrader.CorporateActionHistory
import InsiderTrader.LedgerTotals
import InsiderTrader.MarketStaleness
import InsiderTrader.MetricHost
import InsiderTrader.ProposalIdentity
import InsiderTrader.ProviderRouting
import InsiderTrader.StrategyBudgets
import InsiderTrader.Supervision
import InsiderTrader.TargetOptimizer
import InsiderTrader.SweepOutcome
import InsiderTrader.Attribution
import InsiderTrader.YahooQuotes
import InsiderTrader.FileFeed
import InsiderTrader.ResearchFolds
import InsiderTrader.JournalBursts
import InsiderTrader.EvaluationOrder
import InsiderTrader.GraphSearch
import InsiderTrader.NewsPaging
import InsiderTrader.NewsIndexes
import InsiderTrader.NewsRetries
import InsiderTrader.ProviderRoundTrip
import InsiderTrader.EmaRestarts
import InsiderTrader.Library.JsonBytes
import InsiderTrader.Library.JsonNumerals
import InsiderTrader.Library.JsonUnique
import InsiderTrader.NewsJsonComplete
import InsiderTrader.NewsJsonExact
import InsiderTrader.Library.FixedWindow
import InsiderTrader.JournalLifetimes
import InsiderTrader.MetricRuns
