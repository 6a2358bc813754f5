import Bongus.Capital.Clients
import Bongus.Capital.Utilization
import Bongus.Depth.ExecutableBook
import Bongus.Engine.BackfilledTrades
import Bongus.Engine.ConfigOrder
import Bongus.Engine.ExecutionJournal
import Bongus.Engine.Liquidation
import Bongus.Engine.MarketQuantity
import Bongus.Engine.RateLimitView
import Bongus.Feed.Coverage
import Bongus.Feed.RateLimit
import Bongus.Filters.OrderFilters
import Bongus.Funding.RateBounds
import Bongus.Funding.SettlementLifecycle
import Bongus.Funding.Settlements
import Bongus.Hedge.Deliveries
import Bongus.Ipc.OrderIdentity
import Bongus.Ipc.RiskCeilings
import Bongus.Lifecycle.CrashConvergence
import Bongus.Lifecycle.Tombstones
import Bongus.Outbox.CanonicalBytes
import Bongus.Outbox.OutboxLaw
import Bongus.Outbox.ReplayOrder
import Bongus.Portfolio.Allocator
import Bongus.Research.WalkForward
import Bongus.Storage.SplitStore
import Bongus.Supervisor.History
import Bongus.Trader.KillEpisode
