import LotusRfq.Funding.Repository
import LotusRfq.Lib.Attempt

/-!
# LotusRfq — `FundingService`, funding side

Quoting replaces the legs of an intent, submitting records a transaction hash on one of them,
refreshing asks LI.FI about the hashes, and verifying asks a venue for its usable balance. A leg is
ready to trade once its venue confirmed the balance.

The state next to the tables is what LI.FI reported and what the venues answered so far: no
function reads it, it is what the results about runs are stated with.
-/

namespace LotusRfq.Funding

open Attempts FundingTables

/-! ## Venue readiness -/

inductive VenueFundingReadinessStatus where
  | DESTINATION_RECEIVED
  | VENUE_CREDIT_PENDING
  | READY_TO_TRADE
  | FAILED
  | UNKNOWN
  deriving DecidableEq

structure VenueFundingReadinessResult where
  status : VenueFundingReadinessStatus
  destinationReceived : Bool
  venueCreditConfirmed : Bool
  readyToTrade : Bool
  usableBalance : Option ℚ
  reason : String

/-- The fields of `balance.raw` that `polymarketPendingReason` reads, as `safeDecimal` reads them. -/
structure PolymarketBalances where
  bridgedUsdcBalance : Option ℚ
  onchainPusdBalance : Option ℚ
  collateralBalance : Option ℚ
  collateralAllowance : Option ℚ

/-- The answer to `fetchUsableUsdcBalance`; the balance is `none` where `safeDecimal` rejects its
text. -/
inductive BalanceRead where
  | balance (usableBalance : Option ℚ) (raw : Option PolymarketBalances)
  | restricted (code : String)
  | unavailable

/-- What of `OperatorFundingReadinessConfig` the check reads. -/
structure ReadinessConfig where
  venue : FundingVenue
  enabled : Bool
  configured : Bool
  balanceTolerance : ℚ
  tolerance_nonneg : 0 ≤ balanceTolerance

def polymarketPendingReason (raw : Option PolymarketBalances) : Option String :=
  raw.bind fun balances =>
    let positive (value : Option ℚ) : Bool := value.any fun amount => 0 < amount
    let zeroOrNone (value : Option ℚ) : Bool := value.all fun amount => amount = 0
    if positive balances.bridgedUsdcBalance && zeroOrNone balances.collateralBalance then
      some "POLYMARKET_USDCE_ACTIVATION_REQUIRED"
    else if positive balances.onchainPusdBalance && zeroOrNone balances.collateralAllowance then
      some "POLYMARKET_CLOB_APPROVAL_REQUIRED"
    else none

def destinationReceivedForLeg (leg : FundingRouteLeg) : Bool :=
  leg.destinationStatus = .CONFIRMED || leg.status = .LEG_DESTINATION_RECEIVED ||
    leg.status = .LEG_VENUE_CREDIT_PENDING || leg.status = .LEG_READY_TO_TRADE

def unconfirmed (status : VenueFundingReadinessStatus) (destinationReceived : Bool)
    (usableBalance : Option ℚ) (reason : String) : VenueFundingReadinessResult :=
  { status, destinationReceived, venueCreditConfirmed := false, readyToTrade := false,
    usableBalance, reason }

/-- `Decimal.max(requiredAmount.minus(balanceTolerance), 0)`. -/
def effectiveRequiredAmount (requiredAmount balanceTolerance : ℚ) : ℚ :=
  max (requiredAmount - balanceTolerance) 0

/-- `ConfigurableVenueFundingReadinessChecker.check`. -/
def check (config : ReadinessConfig) (leg : FundingRouteLeg) (read : BalanceRead) :
    VenueFundingReadinessResult :=
  if !destinationReceivedForLeg leg then unconfirmed .UNKNOWN false none "DESTINATION_NOT_CONFIRMED"
  else if !config.enabled then
    unconfirmed .UNKNOWN true none (config.venue.text ++ "_FUNDING_READINESS_DISABLED")
  else if !config.configured then
    unconfirmed .UNKNOWN true none (config.venue.text ++ "_FUNDING_READINESS_NOT_CONFIGURED")
  else match read with
    | .restricted code => unconfirmed .UNKNOWN true none code
    | .unavailable =>
      unconfirmed .UNKNOWN true none (config.venue.text ++ "_READINESS_READ_UNAVAILABLE")
    | .balance usableBalance raw =>
      match usableBalance, leg.destinationAmountEstimate with
      | some usable, some requiredAmount =>
        if effectiveRequiredAmount requiredAmount config.balanceTolerance ≤ usable then
          { status := .READY_TO_TRADE, destinationReceived := true, venueCreditConfirmed := true,
            readyToTrade := true, usableBalance := some usable,
            reason := config.venue.text ++ "_USABLE_BALANCE_CONFIRMED" }
        else
          let below := config.venue.text ++ "_USABLE_BALANCE_BELOW_REQUIRED_AMOUNT"
          unconfirmed .VENUE_CREDIT_PENDING true (some usable)
            (if config.venue = .POLYMARKET then (polymarketPendingReason raw).getD below else below)
      | _, _ =>
        unconfirmed .UNKNOWN true usableBalance (config.venue.text ++ "_BALANCE_RESPONSE_MALFORMED")

/-! ## LI.FI -/

def mapLifiStatusToFundingLeg : LifiStatus → ProviderStatusUpdate
  | .DONE_COMPLETED =>
    { status := .LEG_VENUE_CREDIT_PENDING, bridgeStatus := .DONE, destinationStatus := .CONFIRMED,
      venueCreditStatus := .PENDING, errorReason := none }
  | .PENDING =>
    { status := .LEG_BRIDGE_PENDING, bridgeStatus := .PENDING, destinationStatus := .NOT_CONFIRMED,
      venueCreditStatus := .NOT_CONFIRMED, errorReason := none }
  | .NOT_FOUND =>
    { status := .LEG_BRIDGE_PENDING, bridgeStatus := .INDEXING_PENDING,
      destinationStatus := .NOT_CONFIRMED, venueCreditStatus := .NOT_CONFIRMED, errorReason := none }
  | .DONE_PARTIAL | .DONE_REFUNDED | .FAILED =>
    { status := .LEG_RETRY_REQUIRED, bridgeStatus := .FAILED, destinationStatus := .NOT_CONFIRMED,
      venueCreditStatus := .NOT_CONFIRMED, errorReason := some "ROUTE_PROVIDER_STATUS_UNTRUSTED" }
  | .UNKNOWN =>
    { status := .LEG_RETRY_REQUIRED, bridgeStatus := .UNKNOWN, destinationStatus := .NOT_CONFIRMED,
      venueCreditStatus := .NOT_CONFIRMED, errorReason := some "ROUTE_PROVIDER_STATUS_UNTRUSTED" }

/-! ## The service -/

structure FundingConfig where
  venueReadinessChecksEnabled : Bool
  venueReadinessCheckers : FundingVenue → Option ReadinessConfig

structure ReadinessCheck where
  userId : String
  leg : FundingRouteLeg
  result : VenueFundingReadinessResult
  /-- The tables it was made on. -/
  tables : FundingTables

structure FundingSystem where
  tables : FundingTables
  /-- The hashes LI.FI was asked about and the statuses it reported. -/
  lifiReports : List (String × LifiStatus)
  readinessChecks : List ReadinessCheck

/-- A quote for a target, and the id of the leg made of it. -/
structure QuotedRoute where
  routeLegId : String
  provider : FundingRouteProvider
  destinationAmountEstimate : Option ℚ
  expiresAt : ℕ

/-- What is answered while an operation runs: LI.FI and the balance reads by leg, the quotes by
target. -/
structure FundingAnswers where
  lifiStatus : String → Except FundingError LifiStatus
  fetchUsableUsdcBalance : String → BalanceRead
  quote : FundingTarget → Except FundingError QuotedRoute

/-- Code of the service: what it sent before it throws stays. -/
abbrev FundingCode : Type → Type := Attempt FundingError FundingSystem

def execute (statement : FundingTables → FundingTables) : FundingCode Unit :=
  modify fun s => { s with tables := statement s.tables }

def executeChecked (statement : FundingTables → Except FundingError FundingTables) :
    FundingCode Unit := do
  let s ← get
  let tables ← await (statement s.tables)
  set { s with tables }

def loadIntent (userId fundingIntentId : String) : FundingCode FundingIntentView := do
  let s ← get
  await (s.tables.getIntent userId fundingIntentId)

def buildRouteLeg (target : FundingTarget) (quote : QuotedRoute) : FundingRouteLeg where
  routeLegId := quote.routeLegId
  fundingIntentId := target.fundingIntentId
  fundingTargetId := target.fundingTargetId
  targetVenue := target.targetVenue
  destinationAmountEstimate := quote.destinationAmountEstimate
  routeProvider := quote.provider
  expiresAt := quote.expiresAt
  txHashes := []
  bridgeStatus := .NOT_SUBMITTED
  destinationStatus := .NOT_CONFIRMED
  venueCreditStatus := .NOT_CONFIRMED
  status := .LEG_SIGNATURE_REQUIRED
  errorReason := none

def quoteIntent (answers : FundingAnswers) (userId fundingIntentId : String) : FundingCode Unit := do
  let view ← loadIntent userId fundingIntentId
  let routeLegs ← await (view.targets.mapM fun target =>
    (answers.quote target).map (buildRouteLeg target))
  executeChecked (replaceRouteLegs fundingIntentId routeLegs)
  execute (updateIntentStatus fundingIntentId .USER_SIGNATURE_REQUIRED)

/-- `/^([A-Za-z0-9]{32,}|0x[a-fA-F0-9]{64})$/`; the second alternative is one of the first. -/
def isTxHash (txHash : String) : Bool :=
  32 ≤ txHash.length && txHash.toList.all fun c => c.isAlphanum

inductive FundingWrite where
  | updateRouteLegSubmission (routeLegId txHash : String) (status : FundingLegState)
  | updateRouteLegProviderStatus (routeLegId : String) (input : ProviderStatusUpdate)
  | updateIntentStatus (fundingIntentId : String) (status : FundingAggregateState)

def FundingWrite.apply : FundingWrite → FundingTables → FundingTables
  | .updateRouteLegSubmission routeLegId txHash status =>
    FundingTables.updateRouteLegSubmission routeLegId txHash status
  | .updateRouteLegProviderStatus routeLegId input =>
    FundingTables.updateRouteLegProviderStatus routeLegId input
  | .updateIntentStatus fundingIntentId status =>
    FundingTables.updateIntentStatus fundingIntentId status

/-- `submitRouteLeg` from the view it has read to the statements it sends. -/
def submitRouteLegWrites (now : ℕ) (view : FundingIntentView) (fundingIntentId routeLegId : String)
    (txHash : String) : Except FundingError (List FundingWrite) :=
  match view.findLeg routeLegId with
  | none => .error (.funding .FUNDING_INTENT_NOT_FOUND "Funding route leg was not found." 404)
  | some leg =>
    if leg.expiresAt ≤ now then
      .error (.funding .ROUTE_QUOTE_STALE
        "Funding quote is stale. Request a new quote before submitting." 409)
    else if txHash ∈ leg.txHashes then
      .error (.funding .FUNDING_ROUTE_REPLAY_BLOCKED
        "Funding route transaction hash was already recorded." 409)
    else if !isTxHash txHash then
      .error (.funding .ROUTE_SUBMISSION_FAILED "Funding transaction hash is invalid." 400)
    else
      let submittedStatus : FundingLegState :=
        if leg.routeProvider = .DIRECT_TRANSFER then .LEG_VENUE_CREDIT_PENDING
        else .LEG_BRIDGE_PENDING
      let nextLegStates := view.routeLegs.map fun candidate =>
        if candidate.routeLegId = leg.routeLegId then submittedStatus else candidate.status
      .ok ([.updateRouteLegSubmission leg.routeLegId txHash submittedStatus] ++
        (if leg.routeProvider = .DIRECT_TRANSFER then
          [.updateRouteLegProviderStatus leg.routeLegId {
            status := .LEG_VENUE_CREDIT_PENDING, bridgeStatus := .NOT_APPLICABLE
            destinationStatus := .PENDING, venueCreditStatus := .PENDING, errorReason := none }]
        else []) ++
        [.updateIntentStatus fundingIntentId (aggregateFundingStatus nextLegStates)])

def submitRouteLeg (now : ℕ) (userId fundingIntentId routeLegId txHash : String) :
    FundingCode Unit := do
  let view ← loadIntent userId fundingIntentId
  let writes ← await (submitRouteLegWrites now view fundingIntentId routeLegId txHash)
  execute fun tables => writes.foldl (fun tables statement => statement.apply tables) tables

/-- The result `verifyVenueReadiness` makes up where no checker is configured for the venue. -/
def checkerNotConfigured (leg : FundingRouteLeg) : VenueFundingReadinessResult :=
  unconfirmed (if leg.destinationStatus = .CONFIRMED then .VENUE_CREDIT_PENDING else .UNKNOWN)
    (leg.destinationStatus = .CONFIRMED) none "VENUE_READINESS_CHECKER_NOT_CONFIGURED"

def VenueFundingReadinessResult.isReady (result : VenueFundingReadinessResult) : Bool :=
  result.destinationReceived && result.venueCreditConfirmed && result.readyToTrade

def readinessStatus (result : VenueFundingReadinessResult) : FundingLegState :=
  if result.isReady then .LEG_READY_TO_TRADE
  else if result.status = .FAILED then .LEG_RETRY_REQUIRED
  else .LEG_VENUE_CREDIT_PENDING

def readinessUpdate (leg : FundingRouteLeg) (result : VenueFundingReadinessResult) :
    ProviderStatusUpdate where
  status := readinessStatus result
  bridgeStatus := if result.destinationReceived then .DONE else leg.bridgeStatus
  destinationStatus := if result.destinationReceived then .CONFIRMED else leg.destinationStatus
  venueCreditStatus :=
    if result.venueCreditConfirmed then .CONFIRMED
    else if result.status = .UNKNOWN then .UNKNOWN else .PENDING
  errorReason :=
    if result.status = .UNKNOWN ∨ result.status = .FAILED then some result.reason
    else leg.errorReason

def reconciliationOf (fundingIntentId : String) (leg : FundingRouteLeg)
    (result : VenueFundingReadinessResult) : FundingReconciliationRecord where
  fundingIntentId
  routeLegId := leg.routeLegId
  targetVenue := leg.targetVenue
  destinationTxHash := leg.txHashes.getLast?
  destinationReceived := result.destinationReceived
  venueCreditConfirmed := result.venueCreditConfirmed
  readyToTrade := result.readyToTrade
  notes := result.reason

def applyVenueReadinessResult (userId fundingIntentId : String) (leg : FundingRouteLeg)
    (result : VenueFundingReadinessResult) : FundingCode Unit := do
  let view ← loadIntent userId fundingIntentId
  executeChecked (createReconciliationRecord (reconciliationOf fundingIntentId leg result))
  execute (updateRouteLegProviderStatus leg.routeLegId (readinessUpdate leg result))
  execute (updateIntentStatus fundingIntentId (aggregateFundingStatus (view.routeLegs.map
    fun candidate =>
      if candidate.routeLegId = leg.routeLegId then readinessStatus result else candidate.status)))

/-- The answer of the venue's checker, or the one made up without a checker. -/
def readinessResult (config : FundingConfig) (leg : FundingRouteLeg) (read : BalanceRead) :
    VenueFundingReadinessResult :=
  match config.venueReadinessCheckers leg.targetVenue with
  | none => checkerNotConfigured leg
  | some checker => check checker leg read

def verifyVenueReadiness (config : FundingConfig) (answers : FundingAnswers)
    (userId fundingIntentId routeLegId : String) : FundingCode Unit := do
  let view ← loadIntent userId fundingIntentId
  match view.findLeg routeLegId with
  | none => throw (.funding .FUNDING_INTENT_NOT_FOUND "Funding route leg was not found." 404)
  | some leg =>
    let result := readinessResult config leg (answers.fetchUsableUsdcBalance leg.routeLegId)
    modify fun s => { s with
      readinessChecks := s.readinessChecks ++ [{ userId, leg, result, tables := s.tables }] }
    applyVenueReadinessResult userId fundingIntentId leg result

/-- The state of the leg in the view `verifyVenueReadiness` returns. -/
def verifiedStatus (config : FundingConfig) (answers : FundingAnswers)
    (userId fundingIntentId routeLegId : String) (otherwise : FundingLegState) :
    FundingCode FundingLegState := do
  verifyVenueReadiness config answers userId fundingIntentId routeLegId
  let verified ← loadIntent userId fundingIntentId
  return ((verified.findLeg routeLegId).map (·.status)).getD otherwise

/-- `lifi.status` about the latest hash of a leg. -/
def askLifi (answers : FundingAnswers) (routeLegId txHash : String) : FundingCode LifiStatus := do
  let status ← await (answers.lifiStatus routeLegId)
  modify fun s => { s with lifiReports := s.lifiReports ++ [(txHash, status)] }
  return status

/-- The body of the loop of `refreshIntentStatus`: the state pushed for one leg of the view. -/
def refreshLeg (config : FundingConfig) (answers : FundingAnswers)
    (userId fundingIntentId : String) (leg : FundingRouteLeg) : FundingCode FundingLegState :=
  match leg.txHashes.getLast? with
  | none => return leg.status
  | some latestTxHash =>
    if leg.status = .LEG_FAILED then return leg.status
    else if leg.status = .LEG_READY_TO_TRADE then
      if config.venueReadinessChecksEnabled ∧ leg.targetVenue = .POLYMARKET then
        verifiedStatus config answers userId fundingIntentId leg.routeLegId leg.status
      else return leg.status
    else if leg.routeProvider = .DIRECT_TRANSFER then
      if config.venueReadinessChecksEnabled then
        verifiedStatus config answers userId fundingIntentId leg.routeLegId leg.status
      else return leg.status
    else do
      let provider ← askLifi answers leg.routeLegId latestTxHash
      let mapped := mapLifiStatusToFundingLeg provider
      execute (updateRouteLegProviderStatus leg.routeLegId mapped)
      if (mapped.status = .LEG_DESTINATION_RECEIVED ∨ mapped.status = .LEG_VENUE_CREDIT_PENDING) ∧
          config.venueReadinessChecksEnabled then
        verifiedStatus config answers userId fundingIntentId leg.routeLegId mapped.status
      else return mapped.status

def refreshIntentStatus (config : FundingConfig) (answers : FundingAnswers)
    (userId fundingIntentId : String) : FundingCode Unit := do
  let view ← loadIntent userId fundingIntentId
  let refreshedStates ← view.routeLegs.mapM
    (refreshLeg config answers userId fundingIntentId)
  if refreshedStates ≠ [] then
    execute (updateIntentStatus fundingIntentId (aggregateFundingStatus refreshedStates))

/-! ## Sequences of operations -/

inductive FundingAction where
  | quoteIntent (userId fundingIntentId : String)
  | submitRouteLeg (now : ℕ) (userId fundingIntentId routeLegId txHash : String)
  | refreshIntentStatus (userId fundingIntentId : String)
  | verifyVenueReadiness (userId fundingIntentId routeLegId : String)

def FundingAction.code (config : FundingConfig) (answers : FundingAnswers) :
    FundingAction → FundingCode Unit
  | .quoteIntent userId fundingIntentId => Funding.quoteIntent answers userId fundingIntentId
  | .submitRouteLeg now userId fundingIntentId routeLegId txHash =>
    Funding.submitRouteLeg now userId fundingIntentId routeLegId txHash
  | .refreshIntentStatus userId fundingIntentId =>
    Funding.refreshIntentStatus config answers userId fundingIntentId
  | .verifyVenueReadiness userId fundingIntentId routeLegId =>
    Funding.verifyVenueReadiness config answers userId fundingIntentId routeLegId

def fundingStep (config : FundingConfig) (s : FundingSystem)
    (operation : FundingAction × FundingAnswers) : Option FundingSystem :=
  some (go (operation.1.code config operation.2) s).2

end LotusRfq.Funding
