import LotusRfq.Funding.CreateOnce
import LotusRfq.Execution.PolymarketSettlement
import LotusRfq.Combo.NettingAttempts
import LotusRfq.Execution.LogRedaction
import LotusRfq.MarketData.ShardScan
import LotusRfq.Crossing.RebuiltBook
import LotusRfq.Sor.VenueQuote
import LotusRfq.Control.Results
import LotusRfq.Combo.QuoteCost
import LotusRfq.Rfq.ExecutionExits
import LotusRfq.Funding.WithdrawalEvidence
import LotusRfq.Routing.Allocations
import LotusRfq.Routing.SellSizes
import LotusRfq.Funding.DirectTransfer
import LotusRfq.Funding.Splits
import LotusRfq.Bundles.LimitPrices
import LotusRfq.Combo.ClearingZeroSum
import LotusRfq.Combo.OverlapScores
import LotusRfq.Bundles.SignedSubmit
import LotusRfq.Execution.LegSizes
import LotusRfq.Execution.AveragePrice
import LotusRfq.Resolution.VenueGrouping
import LotusRfq.Resolution.PairSymmetry
import LotusRfq.Resolution.RiskOrder
import LotusRfq.Canonical.GraphPersistence
import LotusRfq.Execution.RelayAuth
import LotusRfq.Crossing.PreviewCross
import LotusRfq.Crossing.InternalFill
import LotusRfq.Combo.CompatibilityVerdicts
import LotusRfq.Sor.PlanResult
import LotusRfq.Sor.LegPreservation
import LotusRfq.Replay.ClearingPhase2B
import LotusRfq.Replay.SorPlan
import LotusRfq.Control.Mismatched
import LotusRfq.Control.RecordIsolation
import LotusRfq.Control.SubmissionHandler
import LotusRfq.MarketData.OrderbookConsumer
import LotusRfq.Combo.RegistryRuns
import LotusRfq.Guardrails.ModeOverrides
import LotusRfq.Canonical.Equivalence
import LotusRfq.Rfq.ExecutionOnce
import LotusRfq.Rfq.ExposureCap
import LotusRfq.Combo.LegErosion
import LotusRfq.Funding.Forgotten
import LotusRfq.Funding.Forsaken
import LotusRfq.Orders.SubmitOnce
import LotusRfq.Orders.Absorption
import LotusRfq.Bundles.VenueOrders
import LotusRfq.Bundles.Positions
import LotusRfq.Positions.CostBasis
import LotusRfq.Control.SubmitOnce
import LotusRfq.Sor.PlanIdempotency
import LotusRfq.Combo.FilledOnce
import LotusRfq.Combo.AcceptOutcome
import LotusRfq.Locks.Ownership
import LotusRfq.Guardrails.SafetyActions
import LotusRfq.Combo.LegAllocation
import LotusRfq.Ws.Gateway
