import QuantDinger.Analysis.ActivityShares
import QuantDinger.Analysis.Attribution
import QuantDinger.Analysis.LiveOrders
import QuantDinger.Analysis.TickParity
import QuantDinger.Analysis.Restart
import QuantDinger.Analysis.LimitThenMarket
import QuantDinger.Analysis.CloseBound
import QuantDinger.Analysis.FilledIntent
import QuantDinger.Analysis.LatePrice
import QuantDinger.Analysis.PostedOnce
import QuantDinger.Analysis.ClosePosting
import QuantDinger.Analysis.PartialFills
import QuantDinger.Analysis.GridInventory
import QuantDinger.Analysis.GridEntries
import QuantDinger.Analysis.GridExits
import QuantDinger.Analysis.GridChunks
import QuantDinger.Analysis.ClientOrderIds
import QuantDinger.Analysis.SubmittedOnce
import QuantDinger.Analysis.FeeTiming
import QuantDinger.Analysis.VirtualLedger
import QuantDinger.Analysis.LeaseFencing
import QuantDinger.Analysis.FinishedCommands
import QuantDinger.Analysis.CreditBalance
import QuantDinger.Analysis.MembershipOrders
import QuantDinger.Analysis.PaymentOrders
import QuantDinger.Analysis.RewardAccounts
import QuantDinger.Analysis.ReplayedLedger
import QuantDinger.Analysis.LimitBars
import QuantDinger.Analysis.ThinVolume
import QuantDinger.Analysis.ReducedProtection
import QuantDinger.Analysis.GridFencing
import QuantDinger.Analysis.MissedBars
import QuantDinger.Analysis.BarGaps
import QuantDinger.Analysis.WakeUps
import QuantDinger.Analysis.SymbolSpelling
import QuantDinger.Analysis.CurveSamples
import QuantDinger.Analysis.CompactedLog
import QuantDinger.Analysis.BrokerPolls
import QuantDinger.Analysis.ExternalCloses
import QuantDinger.Analysis.MonthlyCredits
import QuantDinger.Analysis.WatchedTransfers
import QuantDinger.Analysis.GridCycles
import QuantDinger.Analysis.NormalizedAmounts
import QuantDinger.Analysis.BarBoundaries
import QuantDinger.Analysis.PositionTotals
import QuantDinger.Analysis.SampledCandidates
import QuantDinger.Analysis.SearchRanges
import QuantDinger.Analysis.EarlyReturns
import QuantDinger.Analysis.CompleteBuckets
import QuantDinger.Analysis.CodeEdits
import QuantDinger.Analysis.RebalanceRuns
import QuantDinger.Analysis.BilledJobs
import QuantDinger.Analysis.HeldOut
import QuantDinger.Analysis.NoLookAhead
import QuantDinger.Analysis.AgentRequests
