import TradingLab.Backtest.CostOrder
import TradingLab.Backtest.Snapshot
import TradingLab.Backtest.Clock
import TradingLab.Accounting.Book
import TradingLab.Risk.KillSwitchRun
import TradingLab.Risk.ObservationRun
import TradingLab.Risk.ManagedAdapterRun
import TradingLab.Data.DownloadLaw
import TradingLab.Data.NoGap
import TradingLab.Data.Health
import TradingLab.Data.Storage
import TradingLab.Json.RoundTrip
import TradingLab.Json.Number
import TradingLab.Json.Members
import TradingLab.Factory.BundleLaw
import TradingLab.Notifications.Deliveries
import TradingLab.Production.StressOrder
import TradingLab.Decimal.Numeral
import TradingLab.Coordinator.Ownership
import TradingLab.Coordinator.LeaseBound
import TradingLab.Execution.StoreRun
import TradingLab.Execution.Journal
import TradingLab.Backtest.Reconcile
import TradingLab.Strategy.AdapterRun
import TradingLab.Strategy.Registry
import TradingLab.Validation.FixedEntry
import TradingLab.Validation.ForwardStore
import TradingLab.Validation.RiskTracker
import TradingLab.Validation.PaperRunner
import TradingLab.Validation.RiskTrackerRun
import TradingLab.Validation.ForwardMarket
import TradingLab.Production.NoLookAhead
import TradingLab.Production.LedgerComplete
import TradingLab.Crisis.Agreement
import TradingLab.Crisis.PointInTime
import TradingLab.StrategyLab.AblationRefinement
import TradingLab.StrategyLab.CellLaw
import TradingLab.StrategyLab.OverlayLaw
import TradingLab.StrategyLab.SessionLaw
import TradingLab.Generation2.PointInTime
import TradingLab.Factory.RelayIngest
import TradingLab.Factory.BundleAtomic
import TradingLab.Factory.Heartbeat
import TradingLab.Notifications.GuardLaw
import TradingLab.Search.SurvivorRankLaw
import TradingLab.Search.ExactAccounting
import TradingLab.Generation2.VolCalls
import TradingLab.StrategyLab.TechniqueLaw
import TradingLab.Crisis.ShockLaw
import TradingLab.Factory.ScreeningLaw
import TradingLab.Analytics.SegmentLaw
import TradingLab.Production.Rolling
import TradingLab.Backtest.IntrabarLaw
import TradingLab.Risk.SizingLaw
import TradingLab.StrategyLab.FrozenLaw
import TradingLab.Backtest.MetricsLaw
import TradingLab.Factory.Clusters
import TradingLab.Factory.NeighborGraph
import TradingLab.Factory.Closeout
