import LotusRfq.Funding.VenueBalances

/-!
# LotusRfq — `FundingService`, withdrawal side

A withdrawal source is paid out by its venue, or bridged back by LI.FI: from the wallet the venue
already released to, or after a first hop that the venue still has to release. Refreshing asks
LI.FI about the bridge-back legs and the completion checker, where there is one, about all others.

What makes a leg a bridge-back leg, and a first hop one that waits for it, is read off its
provider status.
-/

namespace LotusRfq.Funding

open Attempts WithdrawalTables

/-! ## Bridge-back legs -/

def isLifiBridgeBackWithdrawalLeg (leg : WithdrawalRouteLeg) : Bool :=
  leg.providerStatus.provider = some "LIFI" &&
    (leg.providerStatus.mode = some "LIMITLESS_BRIDGE_BACK" ||
      leg.providerStatus.mode = some "VENUE_EVM_BRIDGE_BACK")

def expectedWithdrawalResultToken (leg : WithdrawalRouteLeg) : String :=
  leg.providerStatus.destinationTokenSymbol.getD leg.sourceToken

/-- `left` may be missing, `right` is there. -/
def equalsIgnoreCase (left : Option String) (right : String) : Bool :=
  left.any fun text => text.toLower = right.toLower

inductive WithdrawalCompletionStatus where
  | UNKNOWN
  | VENUE_RELEASED
  | DESTINATION_RECEIVED
  | COMPLETED
  | FAILED
  deriving DecidableEq

def WithdrawalCompletionStatus.text : WithdrawalCompletionStatus → String
  | .UNKNOWN => "UNKNOWN"
  | .VENUE_RELEASED => "VENUE_RELEASED"
  | .DESTINATION_RECEIVED => "DESTINATION_RECEIVED"
  | .COMPLETED => "COMPLETED"
  | .FAILED => "FAILED"

/-- The amount is `none` where it is missing or no number. -/
structure WithdrawalCompletionEvidenceResult where
  status : WithdrawalCompletionStatus
  venueReleased : Bool
  destinationReceived : Bool
  completed : Bool
  withdrawalTxHash : Option String
  destinationChain : Option String
  destinationWalletAddress : Option String
  token : Option String
  amount : Option ℚ
  reason : String

structure LifiStatusRequest where
  txHash : String
  fromChain : String
  toChain : String

/-- What is read of the answer of LI.FI: the status, what was received and who sent it to whom. -/
structure LifiTransfer where
  status : LifiStatus
  receivedAmount : Option ℚ
  receivedToken : Option String
  observedFromAddress : Option String
  observedToAddress : Option String

def lifiStatusRequest (intent : WithdrawalIntent) (leg : WithdrawalRouteLeg)
    (latestTxHash : String) : LifiStatusRequest where
  txHash := latestTxHash
  fromChain := leg.providerStatus.sourceChain.getD "BASE"
  toChain := leg.providerStatus.destinationChain.getD intent.destinationChain

/-- The wallets LI.FI observed are the ones the leg and the intent name. -/
def ownershipVerified (intent : WithdrawalIntent) (leg : WithdrawalRouteLeg)
    (transfer : LifiTransfer) : Bool :=
  (leg.providerStatus.sourceWalletAddress.any fun wallet =>
    equalsIgnoreCase transfer.observedFromAddress wallet) &&
    equalsIgnoreCase transfer.observedToAddress intent.destinationWalletAddress

/-- `checkLifiBridgeBackStatus` on the answer of LI.FI. -/
def checkLifiBridgeBackStatus (intent : WithdrawalIntent) (leg : WithdrawalRouteLeg)
    (latestTxHash : String) (reply : Except FundingError LifiTransfer) :
    WithdrawalCompletionEvidenceResult :=
  match reply with
  | .error error =>
    { status := .UNKNOWN, venueReleased := true, destinationReceived := false, completed := false
      withdrawalTxHash := some latestTxHash, destinationChain := some intent.destinationChain
      destinationWalletAddress := some intent.destinationWalletAddress
      token := some leg.sourceToken, amount := none
      reason := "LIFI_STATUS_UNAVAILABLE: " ++ error.message }
  | .ok transfer =>
    let token := transfer.receivedToken.getD leg.sourceToken
    let completed := transfer.status = .DONE_COMPLETED
    let destinationReceived := completed ∨ transfer.status = .DONE_PARTIAL
    let failed := transfer.status = .FAILED ∨ transfer.status = .DONE_REFUNDED
    if ¬ failed ∧ destinationReceived ∧ ¬ ownershipVerified intent leg transfer then
      { status := .UNKNOWN, venueReleased := true, destinationReceived := false, completed := false
        withdrawalTxHash := some latestTxHash, destinationChain := some intent.destinationChain
        destinationWalletAddress := transfer.observedToAddress
        token := some token, amount := transfer.receivedAmount
        reason := "LIFI_BRIDGE_OWNERSHIP_UNVERIFIED" }
    else
      { status :=
          if failed then .FAILED
          else if completed then .COMPLETED
          else if destinationReceived then .DESTINATION_RECEIVED else .UNKNOWN
        venueReleased := true, destinationReceived, completed
        withdrawalTxHash := some latestTxHash, destinationChain := some intent.destinationChain
        destinationWalletAddress := transfer.observedToAddress
        token := some token, amount := transfer.receivedAmount
        reason :=
          if failed then "LIFI_" ++ transfer.status.text
          else if completed then "LIFI_BRIDGE_COMPLETED"
          else if destinationReceived then "LIFI_BRIDGE_DESTINATION_RECEIVED"
          else "LIFI_" ++ transfer.status.text }

/-- The amount covers the estimate; a bridge-back that completed only has to have paid something. -/
def amountMatches (leg : WithdrawalRouteLeg) (result : WithdrawalCompletionEvidenceResult) : Bool :=
  result.amount.any fun observed =>
    leg.destinationAmountEstimate ≤ observed ||
      (result.completed && isLifiBridgeBackWithdrawalLeg leg && 0 < observed)

def destinationMatches (intent : WithdrawalIntent) (leg : WithdrawalRouteLeg)
    (result : WithdrawalCompletionEvidenceResult) : Bool :=
  equalsIgnoreCase result.destinationWalletAddress intent.destinationWalletAddress &&
    equalsIgnoreCase result.destinationChain intent.destinationChain &&
    equalsIgnoreCase result.token (expectedWithdrawalResultToken leg) &&
    amountMatches leg result

def mapWithdrawalCompletionResult (intent : WithdrawalIntent) (leg : WithdrawalRouteLeg)
    (result : WithdrawalCompletionEvidenceResult) : WithdrawalLegState :=
  if result.status = .FAILED then .WITHDRAWAL_LEG_FAILED
  else if result.status = .UNKNOWN then .WITHDRAWAL_LEG_RETRY_REQUIRED
  else if !result.venueReleased then .VENUE_RELEASE_PENDING
  else if !result.destinationReceived then .DESTINATION_PENDING
  else if !destinationMatches intent leg result then .WITHDRAWAL_LEG_RETRY_REQUIRED
  else if result.completed then .WITHDRAWAL_LEG_COMPLETED
  else .DESTINATION_RECEIVED

/-! ## The service -/

structure WithdrawalConfig where
  withdrawalCompletionChecker : Bool
  polymarketBridgeWithdrawalAdapter : Bool

structure PlannedLeg where
  withdrawalRouteLegId : String
  destinationAmountEstimate : ℚ
  expiresAt : ℕ
  transactionRequest : Bool
  providerStatus : WithdrawalProviderStatus

structure BridgeQuote where
  withdrawalRouteLegId : String
  destinationAmountEstimate : ℚ
  expiresAt : ℕ
  transactionRequest : Bool
  sourceChain : String
  destinationChain : String

/-- How a source is withdrawn: which of the builders is used is a matter of the configuration and
of the adapters. -/
inductive WithdrawalPlan where
  | venue (planned : PlannedLeg)
  | limitlessBridgeBack (bridgeQuote : BridgeQuote) (sourceWalletAddress : String)
  | venueEvmBridgeBack (firstHop : PlannedLeg) (bridgeQuote : BridgeQuote)
      (sourceWalletAddress destinationTokenSymbol : String)

structure PolymarketBridgeStatus where
  status : String
  bridgeAddress : Option String

/-- What is answered while an operation runs: by source, by leg, and by LI.FI about a leg. -/
structure WithdrawalAnswers where
  supportsWithdrawal : FundingVenue → Bool
  plan : WithdrawalSource → Except FundingError WithdrawalPlan
  lifiStatus : String → LifiStatusRequest → Except FundingError LifiTransfer
  checkCompletion : String → Except FundingError WithdrawalCompletionEvidenceResult
  assertCanPersist :
    WithdrawalRouteLeg → WithdrawalCompletionEvidenceResult → Except FundingError Unit
  fetchWithdrawalStatus : String → Except FundingError PolymarketBridgeStatus

structure WithdrawalSystem where
  /-- The funding side, for the ready balances. -/
  funding : FundingTables
  tables : WithdrawalTables

abbrev WithdrawalCode : Type → Type := Attempt FundingError WithdrawalSystem

def executeWithdrawal (statement : WithdrawalTables → WithdrawalTables) : WithdrawalCode Unit :=
  modify fun s => { s with tables := statement s.tables }

def executeWithdrawalChecked
    (statement : WithdrawalTables → Except FundingError WithdrawalTables) :
    WithdrawalCode Unit := do
  let s ← get
  let tables ← await (statement s.tables)
  set { s with tables }

def loadWithdrawalIntent (userId withdrawalIntentId : String) :
    WithdrawalCode WithdrawalIntentView := do
  let s ← get
  await (s.tables.getWithdrawalIntent userId withdrawalIntentId)

/-! ### Quotes -/

def buildWithdrawalLeg (intent : WithdrawalIntent) (source : WithdrawalSource)
    (planned : PlannedLeg) (venueReleaseStatus : ConfirmationStatus) : WithdrawalRouteLeg where
  withdrawalRouteLegId := planned.withdrawalRouteLegId
  withdrawalIntentId := intent.withdrawalIntentId
  withdrawalSourceId := source.withdrawalSourceId
  sourceVenue := source.sourceVenue
  sourceToken := source.sourceToken
  destinationAmountEstimate := planned.destinationAmountEstimate
  expiresAt := planned.expiresAt
  transactionRequest := planned.transactionRequest
  txHashes := []
  providerStatus := planned.providerStatus
  venueReleaseStatus
  destinationStatus := .NOT_CONFIRMED
  status := .WITHDRAWAL_LEG_SIGNATURE_REQUIRED
  errorReason := none

/-- `buildWithdrawalRouteLeg` and the builders of the venues. -/
def buildWithdrawalRouteLeg (intent : WithdrawalIntent) (source : WithdrawalSource)
    (planned : PlannedLeg) : WithdrawalRouteLeg :=
  buildWithdrawalLeg intent source planned .NOT_SUBMITTED

def BridgeQuote.planned (bridgeQuote : BridgeQuote) (providerStatus : WithdrawalProviderStatus) :
    PlannedLeg where
  withdrawalRouteLegId := bridgeQuote.withdrawalRouteLegId
  destinationAmountEstimate := bridgeQuote.destinationAmountEstimate
  expiresAt := bridgeQuote.expiresAt
  transactionRequest := bridgeQuote.transactionRequest
  providerStatus

def buildLimitlessBridgeBackWithdrawalRouteLeg (intent : WithdrawalIntent)
    (source : WithdrawalSource) (bridgeQuote : BridgeQuote) (sourceWalletAddress : String) :
    WithdrawalRouteLeg :=
  buildWithdrawalLeg intent source (bridgeQuote.planned { WithdrawalProviderStatus.empty with
    provider := some "LIFI"
    mode := some "LIMITLESS_BRIDGE_BACK"
    sourceChain := some bridgeQuote.sourceChain
    destinationChain := some bridgeQuote.destinationChain
    sourceWalletAddress := some sourceWalletAddress }) .CONFIRMED

def buildVenueEvmBridgeBackWithdrawalRouteLeg (intent : WithdrawalIntent)
    (source : WithdrawalSource) (bridgeQuote : BridgeQuote)
    (sourceWalletAddress destinationTokenSymbol : String) : WithdrawalRouteLeg :=
  buildWithdrawalLeg intent source (bridgeQuote.planned { WithdrawalProviderStatus.empty with
    provider := some "LIFI"
    mode := some "VENUE_EVM_BRIDGE_BACK"
    sourceChain := some bridgeQuote.sourceChain
    destinationChain := some bridgeQuote.destinationChain
    destinationTokenSymbol := some destinationTokenSymbol
    sourceWalletAddress := some sourceWalletAddress }) .PENDING

/-- The first hop is told where the money goes in the end. -/
def withVenueBridgeBackMetadata (leg : WithdrawalRouteLeg) (intent : WithdrawalIntent) :
    WithdrawalRouteLeg :=
  { leg with providerStatus := { leg.providerStatus with
      bridgeBackPlanned := true
      finalDestinationChain := some intent.destinationChain
      finalDestinationWalletAddress := some intent.destinationWalletAddress } }

def WithdrawalPlan.routeLegs (intent : WithdrawalIntent) (source : WithdrawalSource) :
    WithdrawalPlan → List WithdrawalRouteLeg
  | .venue planned => [buildWithdrawalRouteLeg intent source planned]
  | .limitlessBridgeBack bridgeQuote sourceWalletAddress =>
    [buildLimitlessBridgeBackWithdrawalRouteLeg intent source bridgeQuote sourceWalletAddress]
  | .venueEvmBridgeBack firstHop bridgeQuote sourceWalletAddress destinationTokenSymbol =>
    [withVenueBridgeBackMetadata (buildWithdrawalRouteLeg intent source firstHop) intent,
      buildVenueEvmBridgeBackWithdrawalRouteLeg intent source bridgeQuote sourceWalletAddress
        destinationTokenSymbol]

def quoteWithdrawalSource (answers : WithdrawalAnswers) (funding : FundingTables)
    (userId : String) (intent : WithdrawalIntent) (source : WithdrawalSource) :
    Except FundingError (List WithdrawalRouteLeg) :=
  if !answers.supportsWithdrawal source.sourceVenue then
    .error (.funding .WITHDRAWAL_CAPABILITY_DISABLED
      (source.sourceVenue.text ++ " withdrawals are not enabled.") 409)
  else if !funding.hasReadyVenueBalance userId source.sourceVenue source.sourceToken
      source.sourceAmount then
    .error (.funding .WITHDRAWAL_SOURCE_BALANCE_INSUFFICIENT
      (source.sourceVenue.text ++ " venue-ready balance is insufficient.") 409)
  else (answers.plan source).map (WithdrawalPlan.routeLegs intent source)

def quoteWithdrawalIntent (answers : WithdrawalAnswers) (userId withdrawalIntentId : String) :
    WithdrawalCode Unit := do
  let view ← loadWithdrawalIntent userId withdrawalIntentId
  let s ← get
  let routeLegSets ← await
    (view.sources.mapM (quoteWithdrawalSource answers s.funding userId view.intent))
  executeWithdrawalChecked (replaceWithdrawalRouteLegs withdrawalIntentId routeLegSets.flatten)
  executeWithdrawal (updateWithdrawalIntentStatus withdrawalIntentId .USER_SIGNATURE_REQUIRED)

/-! ### Submissions -/

def isWithdrawalQuoteExpired (now : ℕ) (leg : WithdrawalRouteLeg) : Bool := leg.expiresAt ≤ now

def allowsStaleWithdrawalSubmission (leg : WithdrawalRouteLeg) : Bool :=
  !leg.transactionRequest && !isLifiBridgeBackWithdrawalLeg leg

inductive WithdrawalWrite where
  | updateWithdrawalRouteLegSubmission (withdrawalRouteLegId txHash : String)
      (status : WithdrawalLegState)
      (venueReleaseStatus destinationStatus : Option ConfirmationStatus)
  | updateWithdrawalIntentStatus (withdrawalIntentId : String) (status : WithdrawalAggregateState)

def WithdrawalWrite.apply : WithdrawalWrite → WithdrawalTables → WithdrawalTables
  | .updateWithdrawalRouteLegSubmission withdrawalRouteLegId txHash status venueReleaseStatus
      destinationStatus =>
    WithdrawalTables.updateWithdrawalRouteLegSubmission withdrawalRouteLegId txHash status
      venueReleaseStatus destinationStatus
  | .updateWithdrawalIntentStatus withdrawalIntentId status =>
    WithdrawalTables.updateWithdrawalIntentStatus withdrawalIntentId status

/-- `submitWithdrawalRouteLeg` from the view it has read to the statements it sends. -/
def submitWithdrawalRouteLegWrites (now : ℕ) (view : WithdrawalIntentView)
    (withdrawalIntentId withdrawalRouteLegId txHash : String) :
    Except FundingError (List WithdrawalWrite) :=
  match view.findLeg withdrawalRouteLegId with
  | none =>
    .error (.funding .WITHDRAWAL_INTENT_NOT_FOUND "Withdrawal route leg was not found." 404)
  | some leg =>
    if isWithdrawalQuoteExpired now leg ∧ ¬ allowsStaleWithdrawalSubmission leg then
      .error (.funding .WITHDRAWAL_ROUTE_STALE
        "Withdrawal quote is stale. Request a new quote before submitting." 409)
    else if txHash ∈ leg.txHashes then
      .error (.funding .WITHDRAWAL_ROUTE_REPLAY_BLOCKED
        "Withdrawal route transaction hash was already recorded." 409)
    else if !isTxHash txHash then
      .error (.funding .WITHDRAWAL_SUBMISSION_FAILED "Withdrawal transaction hash is invalid." 400)
    else
      let isLifiBridgeBack := isLifiBridgeBackWithdrawalLeg leg
      let submittedStatus : WithdrawalLegState :=
        if isLifiBridgeBack then .DESTINATION_PENDING else .VENUE_RELEASE_PENDING
      let nextLegStates := view.routeLegs.map fun candidate =>
        if candidate.withdrawalRouteLegId = leg.withdrawalRouteLegId then submittedStatus
        else candidate.status
      .ok [.updateWithdrawalRouteLegSubmission leg.withdrawalRouteLegId txHash submittedStatus
          (if isLifiBridgeBack then some .CONFIRMED else none)
          (if isLifiBridgeBack then some .PENDING else none),
        .updateWithdrawalIntentStatus withdrawalIntentId (aggregateWithdrawalStatus nextLegStates)]

def submitWithdrawalRouteLeg (now : ℕ)
    (userId withdrawalIntentId withdrawalRouteLegId txHash : String) : WithdrawalCode Unit := do
  let view ← loadWithdrawalIntent userId withdrawalIntentId
  let writes ← await
    (submitWithdrawalRouteLegWrites now view withdrawalIntentId withdrawalRouteLegId txHash)
  executeWithdrawal fun tables => writes.foldl (fun tables statement => statement.apply tables) tables

/-! ### Refreshes -/

def withdrawalReconciliationOf (withdrawalIntentId : String) (leg : WithdrawalRouteLeg)
    (latestTxHash : String) (completed : Bool) (result : WithdrawalCompletionEvidenceResult) :
    WithdrawalReconciliationRecord where
  withdrawalIntentId
  withdrawalRouteLegId := leg.withdrawalRouteLegId
  sourceVenue := leg.sourceVenue
  withdrawalTxHash := some (result.withdrawalTxHash.getD latestTxHash)
  venueReleased := completed || result.venueReleased
  destinationReceived := completed || result.destinationReceived
  completed
  notes := result.reason

/-- What a completion result sets on its leg. The provider status is a new one. -/
def completionUpdate (nextStatus : WithdrawalLegState)
    (result : WithdrawalCompletionEvidenceResult) : ReconciliationUpdate :=
  let completed := nextStatus = .WITHDRAWAL_LEG_COMPLETED
  let pending : ConfirmationStatus := if result.status = .UNKNOWN then .UNKNOWN else .PENDING
  { status := nextStatus
    venueReleaseStatus := if completed ∨ result.venueReleased then .CONFIRMED else pending
    destinationStatus := if completed ∨ result.destinationReceived then .CONFIRMED else pending
    providerStatus := { WithdrawalProviderStatus.empty with
      source := some "withdrawal_completion_reconciliation"
      status := some result.status.text
      reason := some result.reason }
    errorReason :=
      if nextStatus = .WITHDRAWAL_LEG_RETRY_REQUIRED ∨ nextStatus = .WITHDRAWAL_LEG_FAILED then
        some result.reason
      else none }

/-- The first hops that are done once the bridge-back leg is. -/
def sourceLegsSatisfied (view : WithdrawalIntentView) (bridgeBackLeg : WithdrawalRouteLeg) :
    List WithdrawalRouteLeg :=
  view.routeLegs.filter fun candidate =>
    candidate.withdrawalRouteLegId ≠ bridgeBackLeg.withdrawalRouteLegId &&
      candidate.withdrawalSourceId = bridgeBackLeg.withdrawalSourceId &&
      candidate.sourceVenue = bridgeBackLeg.sourceVenue &&
      candidate.status ≠ .WITHDRAWAL_LEG_COMPLETED &&
      candidate.status ≠ .WITHDRAWAL_LEG_FAILED &&
      candidate.providerStatus.bridgeBackPlanned &&
      equalsIgnoreCase candidate.providerStatus.finalDestinationChain
        view.intent.destinationChain &&
      equalsIgnoreCase candidate.providerStatus.finalDestinationWalletAddress
        view.intent.destinationWalletAddress

def completeSourceLeg (withdrawalIntentId : String) (bridgeBackLeg : WithdrawalRouteLeg)
    (bridgeBackTxHash : String) (sourceLeg : WithdrawalRouteLeg) : WithdrawalCode String := do
  let reason := "VENUE_EVM_SOURCE_WALLET_EXIT_CONFIRMED_BY_BRIDGE_BACK"
  executeWithdrawalChecked (createWithdrawalReconciliationRecord {
    withdrawalIntentId
    withdrawalRouteLegId := sourceLeg.withdrawalRouteLegId
    sourceVenue := sourceLeg.sourceVenue
    withdrawalTxHash := some bridgeBackTxHash
    venueReleased := true, destinationReceived := true, completed := true, notes := reason })
  executeWithdrawal (updateWithdrawalRouteLegReconciliation sourceLeg.withdrawalRouteLegId {
    status := .WITHDRAWAL_LEG_COMPLETED
    venueReleaseStatus := .CONFIRMED
    destinationStatus := .CONFIRMED
    providerStatus := { sourceLeg.providerStatus with
      source := some "venue_evm_bridge_back_completion"
      status := some "COMPLETED"
      reason := some reason
      bridgeBackWithdrawalRouteLegId := some bridgeBackLeg.withdrawalRouteLegId }
    errorReason := none })
  return sourceLeg.withdrawalRouteLegId

def completeVenueEvmSourceLegsSatisfiedByBridgeBack (withdrawalIntentId : String)
    (view : WithdrawalIntentView) (bridgeBackLeg : WithdrawalRouteLeg) (bridgeBackTxHash : String) :
    WithdrawalCode (List String) :=
  if bridgeBackLeg.providerStatus.provider ≠ some "LIFI" ∨
      bridgeBackLeg.providerStatus.mode ≠ some "VENUE_EVM_BRIDGE_BACK" then return []
  else (sourceLegsSatisfied view bridgeBackLeg).mapM
    (completeSourceLeg withdrawalIntentId bridgeBackLeg bridgeBackTxHash)

def refreshedStates : List WithdrawalLegState :=
  [.VENUE_RELEASE_PENDING, .DESTINATION_PENDING, .DESTINATION_RECEIVED,
    .WITHDRAWAL_LEG_RETRY_REQUIRED]

/-- LI.FI's answer for a bridge-back leg, the completion checker's for any other. -/
def completionResult (answers : WithdrawalAnswers) (intent : WithdrawalIntent)
    (leg : WithdrawalRouteLeg) (latestTxHash : String) :
    Except FundingError WithdrawalCompletionEvidenceResult :=
  if isLifiBridgeBackWithdrawalLeg leg then
    .ok (checkLifiBridgeBackStatus intent leg latestTxHash
      (answers.lifiStatus leg.withdrawalRouteLegId (lifiStatusRequest intent leg latestTxHash)))
  else answers.checkCompletion leg.withdrawalRouteLegId

def passPersistenceGate (answers : WithdrawalAnswers) (leg : WithdrawalRouteLeg)
    (result : WithdrawalCompletionEvidenceResult) (nextStatus : WithdrawalLegState) :
    Except FundingError Unit :=
  if nextStatus = .WITHDRAWAL_LEG_COMPLETED then answers.assertCanPersist leg result else .ok ()

/-- What is written of a completion result: the state of the leg, and the ids of the first hops
completed with it. -/
def recordCompletion (withdrawalIntentId : String) (view : WithdrawalIntentView)
    (leg : WithdrawalRouteLeg) (latestTxHash : String)
    (result : WithdrawalCompletionEvidenceResult) (nextStatus : WithdrawalLegState) :
    WithdrawalCode (WithdrawalLegState × List String) := do
  let completed := nextStatus = .WITHDRAWAL_LEG_COMPLETED
  executeWithdrawalChecked (createWithdrawalReconciliationRecord
    (withdrawalReconciliationOf withdrawalIntentId leg latestTxHash completed result))
  executeWithdrawal (updateWithdrawalRouteLegReconciliation leg.withdrawalRouteLegId
    (completionUpdate nextStatus result))
  if completed ∧ isLifiBridgeBackWithdrawalLeg leg then
    let completedSourceLegIds ← completeVenueEvmSourceLegsSatisfiedByBridgeBack
      withdrawalIntentId view leg (result.withdrawalTxHash.getD latestTxHash)
    return (nextStatus, completedSourceLegIds)
  else return (nextStatus, [])

/-- The body of the loop of `refreshWithdrawalStatus`: the state pushed for the leg, and the ids of
the first hops completed with it. -/
def refreshWithdrawalLeg (config : WithdrawalConfig) (answers : WithdrawalAnswers)
    (withdrawalIntentId : String) (view : WithdrawalIntentView) (leg : WithdrawalRouteLeg) :
    WithdrawalCode (WithdrawalLegState × List String) :=
  match leg.txHashes.getLast? with
  | none => return (leg.status, [])
  | some latestTxHash =>
    if leg.status ∉ refreshedStates then return (leg.status, [])
    else if ¬ isLifiBridgeBackWithdrawalLeg leg ∧ ¬ config.withdrawalCompletionChecker then
      return (leg.status, [])
    else do
      let result ← await (completionResult answers view.intent leg latestTxHash)
      let nextStatus := mapWithdrawalCompletionResult view.intent leg result
      await (passPersistenceGate answers leg result nextStatus)
      recordCompletion withdrawalIntentId view leg latestTxHash result nextStatus

/-- The body of the loop of `refreshPolymarketBridgeSandboxStatus`. -/
def refreshPolymarketBridgeLeg (answers : WithdrawalAnswers) (leg : WithdrawalRouteLeg) :
    WithdrawalCode Unit :=
  let providerStatus := leg.providerStatus
  if providerStatus.provider ≠ some "POLYMARKET_BRIDGE" ∨
      providerStatus.mode ≠ some "SANDBOX_DRY_RUN" then return ()
  else if providerStatus.bridgeAddress = none ∧ leg.txHashes = [] then return ()
  else
    executeWithdrawal (updateWithdrawalRouteLegReconciliation leg.withdrawalRouteLegId {
      status := leg.status
      venueReleaseStatus := leg.venueReleaseStatus
      destinationStatus := leg.destinationStatus
      providerStatus :=
        match answers.fetchWithdrawalStatus leg.withdrawalRouteLegId with
        | .ok status => { providerStatus with
            status := some status.status
            bridgeAddress := status.bridgeAddress.or providerStatus.bridgeAddress }
        | .error _ => { providerStatus with status := some "UNKNOWN" }
      errorReason := none })

def refreshPolymarketBridgeSandboxStatus (config : WithdrawalConfig) (answers : WithdrawalAnswers)
    (view : WithdrawalIntentView) : WithdrawalCode Unit :=
  if !config.polymarketBridgeWithdrawalAdapter then return ()
  else do
    let _ ← view.routeLegs.mapM (refreshPolymarketBridgeLeg answers)
    return ()

def refreshWithdrawalStatus (config : WithdrawalConfig) (answers : WithdrawalAnswers)
    (userId withdrawalIntentId : String) : WithdrawalCode Unit := do
  let view ← loadWithdrawalIntent userId withdrawalIntentId
  refreshPolymarketBridgeSandboxStatus config answers view
  if ¬ config.withdrawalCompletionChecker ∧
      ¬ view.routeLegs.any isLifiBridgeBackWithdrawalLeg then return ()
  else
    let refreshed ← view.routeLegs.mapM
      (refreshWithdrawalLeg config answers withdrawalIntentId view)
    let autoCompletedLegIds := refreshed.flatMap (·.2)
    if refreshed ≠ [] then
      executeWithdrawal (updateWithdrawalIntentStatus withdrawalIntentId
        (aggregateWithdrawalStatus ((view.routeLegs.zip refreshed).map fun (leg, pushed) =>
          if leg.withdrawalRouteLegId ∈ autoCompletedLegIds then .WITHDRAWAL_LEG_COMPLETED
          else pushed.1)))

/-! ## Sequences of operations -/

inductive WithdrawalAction where
  | quoteWithdrawalIntent (userId withdrawalIntentId : String)
  | submitWithdrawalRouteLeg (now : ℕ)
      (userId withdrawalIntentId withdrawalRouteLegId txHash : String)
  | refreshWithdrawalStatus (userId withdrawalIntentId : String)

def WithdrawalAction.code (config : WithdrawalConfig) (answers : WithdrawalAnswers) :
    WithdrawalAction → WithdrawalCode Unit
  | .quoteWithdrawalIntent userId withdrawalIntentId =>
    Funding.quoteWithdrawalIntent answers userId withdrawalIntentId
  | .submitWithdrawalRouteLeg now userId withdrawalIntentId withdrawalRouteLegId txHash =>
    Funding.submitWithdrawalRouteLeg now userId withdrawalIntentId withdrawalRouteLegId txHash
  | .refreshWithdrawalStatus userId withdrawalIntentId =>
    Funding.refreshWithdrawalStatus config answers userId withdrawalIntentId

end LotusRfq.Funding
