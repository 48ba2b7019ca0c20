import Mathlib.Data.List.Basic
import Mathlib.Algebra.Order.Ring.Rat

/-!
# LotusRfq — funding and withdrawal intents

A funding intent moves a user's money to venues, a withdrawal intent moves it back. Each has one
route leg or more for every target or source; the state of the intent is read off the states of
its legs.

* **`aggregateFundingStatus_ne_cancelled`**, **`aggregateWithdrawalStatus_ne_cancelled`** — no
  state of the legs makes an intent a cancelled one.
-/

namespace LotusRfq.Funding

inductive FundingVenue where
  | POLYMARKET
  | LIMITLESS
  | OPINION
  | MYRIAD
  | PREDICT_FUN
  deriving DecidableEq

def FundingVenue.text : FundingVenue → String
  | .POLYMARKET => "POLYMARKET"
  | .LIMITLESS => "LIMITLESS"
  | .OPINION => "OPINION"
  | .MYRIAD => "MYRIAD"
  | .PREDICT_FUN => "PREDICT_FUN"

/-! ## Funding -/

inductive FundingAggregateState where
  | INTENT_CREATED
  | ROUTES_QUOTED
  | USER_SIGNATURE_REQUIRED
  | USER_SIGNED
  | ROUTES_SUBMITTED
  | BRIDGING
  | PARTIALLY_READY_TO_TRADE
  | READY_TO_TRADE
  | PARTIALLY_FAILED
  | FAILED
  | CANCELLED
  | REFUNDED_OR_RETRY_REQUIRED
  deriving DecidableEq

inductive FundingLegState where
  | LEG_CREATED
  | LEG_QUOTED
  | LEG_SIGNATURE_REQUIRED
  | LEG_SUBMITTED
  | LEG_BRIDGE_PENDING
  | LEG_DESTINATION_RECEIVED
  | LEG_VENUE_CREDIT_PENDING
  | LEG_READY_TO_TRADE
  | LEG_FAILED
  | LEG_CANCELLED
  | LEG_RETRY_REQUIRED
  deriving DecidableEq

inductive FundingRouteProvider where
  | LIFI
  | DIRECT_TRANSFER
  deriving DecidableEq

/-- The values of `bridge_status`. -/
inductive BridgeStatus where
  | NOT_SUBMITTED
  | PENDING
  | INDEXING_PENDING
  | DONE
  | FAILED
  | UNKNOWN
  | NOT_APPLICABLE
  deriving DecidableEq

/-- The values of `destination_status`, `venue_credit_status` and `venue_release_status`. -/
inductive ConfirmationStatus where
  | NOT_SUBMITTED
  | NOT_CONFIRMED
  | PENDING
  | CONFIRMED
  | UNKNOWN
  deriving DecidableEq

/-- `NormalizedLifiStatus`. -/
inductive LifiStatus where
  | PENDING
  | DONE_COMPLETED
  | DONE_PARTIAL
  | DONE_REFUNDED
  | FAILED
  | NOT_FOUND
  | UNKNOWN
  deriving DecidableEq

def LifiStatus.text : LifiStatus → String
  | .PENDING => "PENDING"
  | .DONE_COMPLETED => "DONE_COMPLETED"
  | .DONE_PARTIAL => "DONE_PARTIAL"
  | .DONE_REFUNDED => "DONE_REFUNDED"
  | .FAILED => "FAILED"
  | .NOT_FOUND => "NOT_FOUND"
  | .UNKNOWN => "UNKNOWN"

structure FundingIntent where
  fundingIntentId : String
  userId : String
  status : FundingAggregateState

structure FundingTarget where
  fundingTargetId : String
  fundingIntentId : String
  targetVenue : FundingVenue
  targetToken : String
  targetAmount : ℚ
  status : FundingLegState

/-- A row of `funding_route_legs`. The estimate is `none` where its text is empty; the quote is
good until `expiresAt`. -/
structure FundingRouteLeg where
  routeLegId : String
  fundingIntentId : String
  fundingTargetId : String
  targetVenue : FundingVenue
  destinationAmountEstimate : Option ℚ
  routeProvider : FundingRouteProvider
  expiresAt : ℕ
  txHashes : List String
  bridgeStatus : BridgeStatus
  destinationStatus : ConfirmationStatus
  venueCreditStatus : ConfirmationStatus
  status : FundingLegState
  errorReason : Option String
  deriving DecidableEq

structure FundingReconciliationRecord where
  fundingIntentId : String
  routeLegId : String
  targetVenue : FundingVenue
  destinationTxHash : Option String
  destinationReceived : Bool
  venueCreditConfirmed : Bool
  readyToTrade : Bool
  notes : String

def aggregateFundingStatus (legStates : List FundingLegState) : FundingAggregateState :=
  if legStates = [] then .INTENT_CREATED
  else if legStates.all fun state => state = .LEG_READY_TO_TRADE then .READY_TO_TRADE
  else if legStates.any fun state => state = .LEG_READY_TO_TRADE then .PARTIALLY_READY_TO_TRADE
  else if legStates.all fun state => state = .LEG_FAILED ∨ state = .LEG_CANCELLED then .FAILED
  else if legStates.any fun state => state = .LEG_FAILED ∨ state = .LEG_RETRY_REQUIRED then
    .PARTIALLY_FAILED
  else if legStates.any fun state => state = .LEG_SUBMITTED ∨ state = .LEG_BRIDGE_PENDING then
    .BRIDGING
  else if legStates.any fun state => state = .LEG_VENUE_CREDIT_PENDING then .ROUTES_SUBMITTED
  else if legStates.any fun state => state = .LEG_QUOTED ∨ state = .LEG_SIGNATURE_REQUIRED then
    .USER_SIGNATURE_REQUIRED
  else .INTENT_CREATED

theorem aggregateFundingStatus_ne_cancelled (legStates : List FundingLegState) :
    aggregateFundingStatus legStates ≠ .CANCELLED := by
  unfold aggregateFundingStatus
  repeat' split
  all_goals decide

/-! ## Withdrawals -/

inductive WithdrawalAggregateState where
  | WITHDRAWAL_CREATED
  | WITHDRAWAL_QUOTED
  | USER_SIGNATURE_REQUIRED
  | USER_SIGNED
  | WITHDRAWAL_SUBMITTED
  | PARTIALLY_WITHDRAWING
  | WITHDRAWING
  | PARTIALLY_COMPLETED
  | COMPLETED
  | PARTIALLY_FAILED
  | FAILED
  | CANCELLED
  | RETRY_REQUIRED
  deriving DecidableEq

inductive WithdrawalLegState where
  | WITHDRAWAL_LEG_CREATED
  | WITHDRAWAL_LEG_QUOTED
  | WITHDRAWAL_LEG_SIGNATURE_REQUIRED
  | WITHDRAWAL_LEG_SUBMITTED
  | VENUE_RELEASE_PENDING
  | DESTINATION_PENDING
  | DESTINATION_RECEIVED
  | WITHDRAWAL_LEG_COMPLETED
  | WITHDRAWAL_LEG_FAILED
  | WITHDRAWAL_LEG_RETRY_REQUIRED
  deriving DecidableEq

structure WithdrawalIntent where
  withdrawalIntentId : String
  userId : String
  destinationChain : String
  destinationWalletAddress : String
  status : WithdrawalAggregateState

structure WithdrawalSource where
  withdrawalSourceId : String
  withdrawalIntentId : String
  sourceVenue : FundingVenue
  sourceToken : String
  sourceAmount : ℚ
  status : WithdrawalLegState

/-- `provider_status` of a withdrawal leg: the keys of the JSON object that the service reads back,
and those a reconciliation puts in their place. A key that is not there is `none`. -/
structure WithdrawalProviderStatus where
  provider : Option String
  mode : Option String
  sourceChain : Option String
  destinationChain : Option String
  destinationTokenSymbol : Option String
  sourceWalletAddress : Option String
  bridgeAddress : Option String
  bridgeBackPlanned : Bool
  finalDestinationChain : Option String
  finalDestinationWalletAddress : Option String
  source : Option String
  status : Option String
  reason : Option String
  bridgeBackWithdrawalRouteLegId : Option String

/-- `{}`. -/
def WithdrawalProviderStatus.empty : WithdrawalProviderStatus :=
  ⟨none, none, none, none, none, none, none, false, none, none, none, none, none, none⟩

/-- A row of `funding_withdrawal_route_legs`; the quote carries a transaction to sign or none. -/
structure WithdrawalRouteLeg where
  withdrawalRouteLegId : String
  withdrawalIntentId : String
  withdrawalSourceId : String
  sourceVenue : FundingVenue
  sourceToken : String
  destinationAmountEstimate : ℚ
  expiresAt : ℕ
  transactionRequest : Bool
  txHashes : List String
  providerStatus : WithdrawalProviderStatus
  venueReleaseStatus : ConfirmationStatus
  destinationStatus : ConfirmationStatus
  status : WithdrawalLegState
  errorReason : Option String

structure WithdrawalReconciliationRecord where
  withdrawalIntentId : String
  withdrawalRouteLegId : String
  sourceVenue : FundingVenue
  withdrawalTxHash : Option String
  venueReleased : Bool
  destinationReceived : Bool
  completed : Bool
  notes : String

def aggregateWithdrawalStatus (legStates : List WithdrawalLegState) : WithdrawalAggregateState :=
  if legStates = [] then .WITHDRAWAL_CREATED
  else if legStates.all fun state => state = .WITHDRAWAL_LEG_COMPLETED then .COMPLETED
  else if legStates.any fun state => state = .WITHDRAWAL_LEG_COMPLETED then .PARTIALLY_COMPLETED
  else if legStates.all fun state => state = .WITHDRAWAL_LEG_FAILED then .FAILED
  else if legStates.any fun state =>
      state = .WITHDRAWAL_LEG_FAILED ∨ state = .WITHDRAWAL_LEG_RETRY_REQUIRED then
    .PARTIALLY_FAILED
  else if legStates.any fun state =>
      state = .WITHDRAWAL_LEG_SUBMITTED ∨ state = .VENUE_RELEASE_PENDING ∨
        state = .DESTINATION_PENDING then
    .WITHDRAWING
  else if legStates.any fun state =>
      state = .WITHDRAWAL_LEG_QUOTED ∨ state = .WITHDRAWAL_LEG_SIGNATURE_REQUIRED then
    .USER_SIGNATURE_REQUIRED
  else .WITHDRAWAL_CREATED

theorem aggregateWithdrawalStatus_ne_cancelled (legStates : List WithdrawalLegState) :
    aggregateWithdrawalStatus legStates ≠ .CANCELLED := by
  unfold aggregateWithdrawalStatus
  repeat' split
  all_goals decide

/-! ## Errors -/

inductive FundingFailureCode where
  | FUNDING_INTENT_NOT_FOUND
  | FUNDING_INTENT_FORBIDDEN
  | ROUTE_QUOTE_STALE
  | FUNDING_ROUTE_REPLAY_BLOCKED
  | ROUTE_SUBMISSION_FAILED
  | WITHDRAWAL_INTENT_NOT_FOUND
  | WITHDRAWAL_INTENT_FORBIDDEN
  | WITHDRAWAL_ROUTE_STALE
  | WITHDRAWAL_ROUTE_REPLAY_BLOCKED
  | WITHDRAWAL_SUBMISSION_FAILED
  | WITHDRAWAL_CAPABILITY_DISABLED
  | WITHDRAWAL_SOURCE_BALANCE_INSUFFICIENT
  | WITHDRAWAL_COMPLETION_PERSISTENCE_BLOCKED

/-- What the service throws: an error of its own, what a provider threw, or what the database
refused. -/
inductive FundingError where
  | funding (code : FundingFailureCode) (message : String) (statusCode : ℕ)
  | provider (message : String)
  | database (message : String)

/-- `error.message`. -/
def FundingError.message : FundingError → String
  | .funding _ message _ => message
  | .provider message => message
  | .database message => message

end LotusRfq.Funding
