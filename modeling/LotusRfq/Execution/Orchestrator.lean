import LotusRfq.Execution.Fees
import LotusRfq.Lib.Attempt

/-!
# LotusRfq — `ExecutionSystemOrchestrator.execute`

The legs of an execution are handled one after the other: an order is submitted, its fill and its
settlement are looked up. A leg that fails, fills in part or turns out a ghost fill ends the
execution; one whose settlement stays open does not. What is owed for the execution, the entries
of the fee ledger and the deltas of the positions, is written after the last leg.

Every call may throw. What fails while a leg is handled is caught there; a transition the state
machine does not have is thrown like any other error.
-/

namespace LotusRfq.Execution

open Attempts

/-! ## What the venues and the services answer -/

inductive ExecutionAuditEventV0 where
  | EXECUTION_CREATED
  | PREFLIGHT_STARTED
  | PREFLIGHT_PASSED
  | PREFLIGHT_FAILED
  | ROUTE_SELECTED
  | LIQUIDITY_RESERVED
  | ORDER_SUBMITTED
  | PARTIAL_FILL_RECEIVED
  | FILL_RECEIVED
  | SETTLEMENT_CHECK_STARTED
  | SETTLEMENT_VERIFIED
  | GHOST_FILL_SUSPECTED
  | GHOST_FILL_CONFIRMED
  | REROUTE_STARTED
  | REROUTE_COMPLETED
  | FAILED_CLOSED
  | ACCOUNTING_UPDATED
  | USER_RECEIPT_EMITTED

/-- What `execute` may throw. -/
inductive ExecutionError where
  | transition (state next : ExecutionStateV0)
  | service (message : String)

def ExecutionError.message : ExecutionError → String
  | .transition state next =>
    "Invalid execution v0 state transition: " ++ state.text ++ " -> " ++ next.text
  | .service message => message

abbrev Answer (α : Type) : Type := Except ExecutionError α

/-- An audit write is answered with the id of the event. -/
abbrev AuditAnswers : Type := ExecutionAuditEventV0 → Answer String

inductive SubmitStatus where
  | SUBMITTED
  | PARTIAL_FILL
  | FILLED

structure VenueSubmitResult where
  venueOrderId : String
  fillId : Option String
  status : SubmitStatus

inductive FillStatus where
  | OPEN
  | PARTIAL_FILL
  | FILLED
  | CANCELLED
  | FAILED
  deriving DecidableEq

structure VenueFillState where
  status : FillStatus
  offchainFilled : Bool

structure VenueSettlementState where
  status : SettlementStatusV0
  evidence : JsRecord

/-- What is answered while one leg is handled. The settlement is polled until its deadline;
`failedClosed` answers the audit write of the exception handler. -/
structure LegAnswers where
  prepareOrder : Answer Unit
  submitOrder : Answer VenueSubmitResult
  fetchFillState : Answer VenueFillState
  fetchSettlementState : List (Answer VenueSettlementState)
  fallbackLane : Answer (Option String)
  audit : AuditAnswers
  failedClosed : Answer String
  normalizeVenueError : ExecutionError → String

/-- What is answered before the first leg and after the last. -/
structure ServiceAnswers where
  preflight : Answer (Option String)
  upsertPolicy : WriteReply ExecutionError
  createLedgerEntry : ℕ → WriteReply ExecutionError
  applySettlementDelta : ℕ → WriteReply ExecutionError
  audit : AuditAnswers

structure Monetization where
  policy : MonetizationPolicy
  polymarketBuilderCodeConfigured : Option Bool

structure OrchestratorDeps where
  fees : FeeConfigV0
  monetization : Option Monetization
  maxAttempts : Option ℕ
  timeoutMs : ℕ
  /-- A position repository with `applySettlementDelta` is wired. -/
  positions : Bool

/-! ## The state of an execution -/

structure PositionDelta where
  userId : String
  venue : String
  marketId : String
  outcomeId : String
  venueAccountAddress : Option String
  side : ExecutionSide
  size : ℚ
  averagePrice : ℚ
  settlementEvidenceId : Option String
  executionId : String
  executionLegId : ExecutionLegId
  deriving DecidableEq

/-- The variables of `execute`, and what it has written to the repositories. -/
structure ExecutionRun where
  state : ExecutionStateV0
  legs : List ExecutionLegV0
  settlementEvidenceByLegId : List (ExecutionLegId × JsRecord)
  settlementStatus : SettlementStatusV0
  ghostFillStatus : GhostFillStatusV0
  fallbackUsed : Bool
  fallbackReason : Option String
  feeSummary : ExecutionFeeSummary
  auditEventIds : List String
  policies : List MonetizationPolicy
  ledger : List LedgerEntry
  positions : List PositionDelta

abbrev Code (α : Type) : Type := Attempt ExecutionError ExecutionRun α

def transitionTo (next : ExecutionStateV0) : Code Unit := do
  let run ← get
  if canTransitionTo run.state next then
    set { run with state := next }
  else
    throw (.transition run.state next)

def writeAudit (answer : Answer String) : Code Unit := do
  let id ← await answer
  modify fun run => { run with auditEventIds := run.auditEventIds ++ [id] }

def setLeg (index : ℕ) (change : ExecutionLegV0 → ExecutionLegV0) : Code Unit :=
  modify fun run => { run with legs := run.legs.modify index change }

/-! ## The result -/

structure VenueBreakdown where
  venue : String
  filledSize : ℚ
  averagePrice : ℚ
  settlementStatus : SettlementStatusV0

inductive FallbackState where
  | NOT_USED
  | REROUTED
  | FAILED_CLOSED

structure ExecutionResultV0 where
  finalState : ExecutionStateV0
  filledSize : ℚ
  averagePrice : ℚ
  venueBreakdown : List VenueBreakdown
  settlementStatus : SettlementStatusV0
  ghostFillStatus : GhostFillStatusV0
  fallbackUsed : Bool
  fallbackState : FallbackState
  fees : ExecutionFeeSummary
  auditEventIds : List String
  /-- A receipt goes with a completed execution. -/
  receipt : Bool

def ExecutionLegV0.settled (leg : ExecutionLegV0) : Bool :=
  leg.settlementStatus = .SETTLEMENT_VERIFIED

def averagePrice (legs : List ExecutionLegV0) : ℚ :=
  let filled := legs.filter fun leg =>
    leg.status = .SETTLEMENT_VERIFIED ∨ leg.status = .FILLED_PENDING_SETTLEMENT
  if filled = [] then 0 else (filled.map (·.price)).sum / filled.length

def finish (run : ExecutionRun) : ExecutionResultV0 :=
  { finalState := run.state
    filledSize := ((run.legs.filter (·.settled)).map (·.size)).sum
    averagePrice := averagePrice run.legs
    venueBreakdown := run.legs.map fun leg =>
      { venue := leg.venue
        filledSize := if leg.settled then leg.size else 0
        averagePrice := leg.price
        settlementStatus := leg.settlementStatus }
    settlementStatus := run.settlementStatus
    ghostFillStatus := run.ghostFillStatus
    fallbackUsed := run.fallbackUsed
    fallbackState :=
      if run.fallbackUsed then .REROUTED
      else if run.state = .FAILED_CLOSED then .FAILED_CLOSED else .NOT_USED
    fees := run.feeSummary
    auditEventIds := run.auditEventIds
    receipt := run.state = .COMPLETED }

/-! ## Settlement, ghost fills and fallback -/

/-- Poll until the settlement is decided, the attempts are used up or the deadline has passed. -/
def pollSettlement (maxAttempts : Option ℕ) (timeoutMs : ℕ) :
    ℕ → List (Answer VenueSettlementState) → Answer VenueSettlementState
  | attempts, [] => .ok
    { status := .SETTLEMENT_TIMEOUT
      evidence := [("attempts", .number attempts), ("timeoutMs", .number timeoutMs)] }
  | _, .error error :: _ => .error error
  | attempts, .ok settlement :: polls =>
    let attempts := attempts + 1
    if settlement.status = .SETTLEMENT_VERIFIED ∨ settlement.status = .GHOST_FILL_CONFIRMED then
      .ok
        { status := settlement.status
          evidence :=
            ("attempts", (settlement.evidence.lookup "attempts").getD (.number attempts)) ::
              settlement.evidence.filter (·.1 ≠ "attempts") }
    else if maxAttempts.any fun bound => bound ≠ 0 ∧ bound ≤ attempts then
      .ok
        { status := .SETTLEMENT_TIMEOUT
          evidence := [("attempts", .number attempts), ("timeoutMs", .number timeoutMs)] }
    else pollSettlement maxAttempts timeoutMs attempts polls

/-- `SettlementVerificationService.verify`. -/
def verify (deps : OrchestratorDeps) (leg : ExecutionLegV0)
    (polls : List (Answer VenueSettlementState)) : Answer VenueSettlementState :=
  let id := (leg.fillId.or leg.venueOrderId).getD ""
  if id = "" then
    .ok
      { status := .SETTLEMENT_UNKNOWN
        evidence := [("reason", .text "missing_fill_or_order_id" none)] }
  else pollSettlement deps.maxAttempts deps.timeoutMs 0 polls

structure GhostFillClassification where
  status : GhostFillStatusV0
  settlementStatus : SettlementStatusV0
  reason : Option String

/-- `GhostFillProtectionService.classify`. -/
def classify (leg : ExecutionLegV0) (fillState : VenueFillState)
    (settlementStatus : SettlementStatusV0) (protectionEnabled : Bool) : GhostFillClassification :=
  if ¬ protectionEnabled then ⟨.NOT_APPLICABLE, settlementStatus, none⟩
  else if settlementStatus = .SETTLEMENT_VERIFIED then ⟨.CLEAR, settlementStatus, none⟩
  else if leg.venue = "POLYMARKET" ∧ (fillState.offchainFilled ∨ fillState.status = .FILLED) ∧
      settlementStatus = .SETTLEMENT_TIMEOUT then
    ⟨.SUSPECTED, .GHOST_FILL_SUSPECTED, some "polymarket_offchain_fill_without_finality"⟩
  else if settlementStatus = .GHOST_FILL_CONFIRMED then
    ⟨.CONFIRMED, .GHOST_FILL_CONFIRMED, some "venue_finality_confirms_ghost_fill"⟩
  else ⟨.CLEAR, settlementStatus, none⟩

inductive FallbackDecision where
  | REROUTE (fallbackLaneId reason : String)
  | FAIL_CLOSED (reason : String)

/-- `FallbackPolicyService.decide`; the lane gate answers with its reason against the lane. -/
def decideFallback (request : ExecutionRequestV0) (laneGate : Answer (Option String)) (reason : String) :
    Answer FallbackDecision :=
  match request.fallbackLaneId.filter (· ≠ "") with
  | none => .ok (.FAIL_CLOSED "No approved fallback lane was supplied.")
  | some fallbackLaneId => laneGate.map fun
    | some refusal => .FAIL_CLOSED refusal
    | none => .REROUTE fallbackLaneId reason

/-! ## One leg -/

/-- How the loop over the legs goes on. -/
inductive LegEnd where
  | next
  | finish

variable (deps : OrchestratorDeps) (request : ExecutionRequestV0) (answers : LegAnswers)
  (index : ℕ)

def submittedLeg (leg : ExecutionLegV0) (submitted : VenueSubmitResult) : ExecutionLegV0 :=
  { leg with
    status := match submitted.status with
      | .PARTIAL_FILL => .PARTIAL_FILL
      | .FILLED => .FILLED_PENDING_SETTLEMENT
      | .SUBMITTED => .SUBMITTED
    venueOrderId := some submitted.venueOrderId
    fillId := (submitted.fillId.filter (· ≠ "")).or leg.fillId }

def submitLeg (leg : ExecutionLegV0) : Code ExecutionLegV0 := do
  await answers.prepareOrder
  let submitted ← await answers.submitOrder
  setLeg index fun leg => submittedLeg leg submitted
  writeAudit (answers.audit .ORDER_SUBMITTED)
  if (← get).state = .READY_TO_SUBMIT then
    transitionTo .SUBMITTED
  pure (submittedLeg leg submitted)

def partialFill : Code LegEnd := do
  setLeg index fun leg => { leg with status := .PARTIAL_FILL }
  writeAudit (answers.audit .PARTIAL_FILL_RECEIVED)
  if (← get).state = .SUBMITTED then
    transitionTo .PARTIAL_FILL
  pure .finish

def fillReceived : Code Unit := do
  setLeg index fun leg => { leg with status := .FILLED_PENDING_SETTLEMENT }
  writeAudit (answers.audit .FILL_RECEIVED)
  let run ← get
  if run.state = .SUBMITTED ∨ run.state = .PARTIAL_FILL then
    transitionTo .FILLED_PENDING_SETTLEMENT

def checkSettlement (leg : ExecutionLegV0) (fill : VenueFillState) :
    Code GhostFillClassification := do
  writeAudit (answers.audit .SETTLEMENT_CHECK_STARTED)
  let settlement ← await (verify deps leg answers.fetchSettlementState)
  let ghost := classify leg fill settlement.status request.ghostFillProtectionEnabled
  modify fun run => { run with
    settlementEvidenceByLegId :=
      run.settlementEvidenceByLegId ++ [(leg.executionLegId, settlement.evidence)]
    settlementStatus := ghost.settlementStatus
    ghostFillStatus := ghost.status }
  setLeg index fun leg => { leg with settlementStatus := ghost.settlementStatus }
  pure ghost

def ghostFillSuspected (ghost : GhostFillClassification) : Code LegEnd := do
  transitionTo .GHOST_FILL_SUSPECTED
  writeAudit (answers.audit .GHOST_FILL_SUSPECTED)
  let reason := ghost.reason.getD "ghost_fill_suspected"
  match ← await (decideFallback request answers.fallbackLane reason) with
  | .REROUTE _ reason => do
    modify fun run => { run with fallbackUsed := true, fallbackReason := some reason }
    transitionTo .REROUTING
    writeAudit (answers.audit .REROUTE_STARTED)
    transitionTo .REROUTED
    writeAudit (answers.audit .REROUTE_COMPLETED)
    pure .next
  | .FAIL_CLOSED _ => do
    transitionTo .FAILED_CLOSED
    writeAudit (answers.audit .FAILED_CLOSED)
    pure .finish

def ghostFillConfirmed : Code LegEnd := do
  transitionTo .GHOST_FILL_CONFIRMED
  writeAudit (answers.audit .GHOST_FILL_CONFIRMED)
  transitionTo .FAILED_CLOSED
  writeAudit (answers.audit .FAILED_CLOSED)
  pure .finish

/-- What follows once the settlement of the leg is classified. -/
def afterCheck (ghost : GhostFillClassification) : Code LegEnd :=
  match ghost.settlementStatus with
  | .SETTLEMENT_VERIFIED => do
    setLeg index fun leg => { leg with status := .SETTLEMENT_VERIFIED }
    writeAudit (answers.audit .SETTLEMENT_VERIFIED)
    pure .next
  | .GHOST_FILL_SUSPECTED => ghostFillSuspected request answers ghost
  | .GHOST_FILL_CONFIRMED => ghostFillConfirmed answers
  | _ => pure .next

/-- The body of the loop, inside its `try`. -/
def tryLeg (leg : ExecutionLegV0) : Code LegEnd := do
  let leg ← submitLeg answers index leg
  let fill ← await answers.fetchFillState
  if fill.status = .PARTIAL_FILL then
    partialFill answers index
  else
    if fill.status = .FILLED then
      fillReceived answers index
    let ghost ← checkSettlement deps request answers index leg fill
    afterCheck request answers index ghost

/-- The exception handler of the loop. -/
def catchLeg (error : ExecutionError) : Code LegEnd := do
  setLeg index fun leg => { leg with
    status := .FAILED_CLOSED
    errorCode := some (answers.normalizeVenueError error) }
  let run ← get
  if run.state = .READY_TO_SUBMIT ∨ run.state = .SUBMITTED ∨ run.state = .PARTIAL_FILL ∨
      run.state = .FILLED_PENDING_SETTLEMENT then
    transitionTo .FAILED_CLOSED
  writeAudit answers.failedClosed
  pure .finish

def handleLeg (leg : ExecutionLegV0) : Code LegEnd :=
  tryCatch (tryLeg deps request answers index leg) (catchLeg answers index)

def handleLegs : ℕ → List (ExecutionLegV0 × LegAnswers) → Code LegEnd
  | _, [] => pure .next
  | index, (leg, answers) :: legs => do
    match ← handleLeg deps request answers index leg with
    | .next => handleLegs (index + 1) legs
    | .finish => pure .finish

/-! ## The execution -/

/-- Monetization by builder fees on a path through Polymarket needs the builder code. -/
def builderCodeMissing : Bool :=
  match deps.monetization with
  | none => false
  | some monetization =>
    isBuilderFeeCaptureEnabled monetization.policy ∧
      request.venuePath.any (fun venue => venue.toUpper = "POLYMARKET") ∧
      monetization.polymarketBuilderCodeConfigured = some false

/-- The reason against the execution, if there is one before any order is submitted. -/
def preflightRefusal (services : ServiceAnswers) : Code (Option String) :=
  if builderCodeMissing deps request then
    pure (some "Polymarket builder-fee monetization requires POLYMARKET_BUILDER_CODE.")
  else await services.preflight

/-- Everything before the first leg: whether the legs are handled at all. -/
def preflightPhase (services : ServiceAnswers) : Code LegEnd := do
  writeAudit (services.audit .EXECUTION_CREATED)
  transitionTo .PREFLIGHT_CHECKING
  writeAudit (services.audit .PREFLIGHT_STARTED)
  match ← preflightRefusal deps request services with
  | some _ => do
    transitionTo .PREFLIGHT_FAILED
    writeAudit (services.audit .PREFLIGHT_FAILED)
    transitionTo .FAILED_CLOSED
    writeAudit (services.audit .FAILED_CLOSED)
    pure .finish
  | none => do
    transitionTo .READY_TO_SUBMIT
    writeAudit (services.audit .PREFLIGHT_PASSED)
    writeAudit (services.audit .ROUTE_SELECTED)
    writeAudit (services.audit .LIQUIDITY_RESERVED)
    pure .next

/-- The entries of the ledger with the repository's replies, in order. -/
def ledgerWrites (services : ServiceAnswers) (entries : List LedgerEntry) :
    List (LedgerEntry × WriteReply ExecutionError) :=
  entries.zipIdx.map fun (entry, index) => (entry, services.createLedgerEntry index)

def discloseBuilderFees (rows : List BuilderFeeRow) : Code Unit :=
  if 0 < (rows.map (·.amount)).sum then
    modify fun run => { run with feeSummary := { run.feeSummary with
      actualBuilderFeesCollected := (rows.map (·.amount)).sum
      userFeeDisclosureLabel := "Lotus builder fee collected by venue where supported." } }
  else pure ()

/-- The writes of the monetization: the policy, the shadow fee and the builder fees. -/
def monetize (services : ServiceAnswers) : Code Unit :=
  match deps.monetization with
  | none => pure ()
  | some monetization =>
    if monetization.policy.captureMode = .DISABLED then pure ()
    else do
      let run ← get
      write (fun run => { run with policies := run.policies ++ [monetization.policy] })
        services.upsertPolicy
      -- no one sees the fee summary of a run that throws in the loop of the writes
      discloseBuilderFees
        (builderFeeRows monetization.policy run.legs run.settlementEvidenceByLegId)
      writeEach (fun entry run => { run with ledger := run.ledger ++ [entry] })
        (ledgerWrites services (ledgerEntries monetization.policy request run.feeSummary run.legs
          run.settlementEvidenceByLegId))

/-- What `applySettlementDelta` is given for a leg. -/
def positionDelta (leg : ExecutionLegV0) : PositionDelta :=
  { userId := request.userId
    venue := leg.venue
    marketId := request.canonicalTopicKey
    outcomeId := leg.venueOutcomeId
    venueAccountAddress :=
      stringMetadata request.metadata (leg.venue.toLower ++ "VenueAccountAddress")
    side := request.side
    size := leg.size
    averagePrice := leg.price
    settlementEvidenceId := leg.fillId.or leg.venueOrderId
    executionId := request.executionId
    executionLegId := leg.executionLegId }

/-- `applySettlementDelta` refuses a delta that is not positive. -/
def settlementReply (size : ℚ) (reply : WriteReply ExecutionError) : WriteReply ExecutionError :=
  if size ≤ 0 then .refused (.service "Position delta size must be positive.") else reply

/-- The position deltas of the verified legs with the repository's replies, in order. -/
def deltaWrites (services : ServiceAnswers) (legs : List ExecutionLegV0) :
    List (PositionDelta × WriteReply ExecutionError) :=
  (legs.filter (·.settled)).zipIdx.map fun (leg, index) =>
    (positionDelta request leg, settlementReply leg.size (services.applySettlementDelta index))

def applyDeltas (services : ServiceAnswers) : Code Unit := do
  let run ← get
  if deps.positions then
    writeEach (fun delta run => { run with positions := run.positions ++ [delta] })
      (deltaWrites request services run.legs)

def verifySettlement : Code Unit := do
  if (← get).state = .FILLED_PENDING_SETTLEMENT then
    transitionTo .SETTLEMENT_VERIFIED

def emitReceipt (services : ServiceAnswers) : Code ExecutionResultV0 := do
  writeAudit (services.audit .ACCOUNTING_UPDATED)
  transitionTo .COMPLETED
  writeAudit (services.audit .USER_RECEIPT_EMITTED)
  let run ← get
  pure (finish { run with
    settlementStatus := .SETTLEMENT_VERIFIED
    ghostFillStatus := .CLEAR })

def complete (services : ServiceAnswers) : Code ExecutionResultV0 := do
  verifySettlement
  modify fun run => { run with
    feeSummary := realized deps.fees request (averagePrice run.legs) }
  monetize deps request services
  applyDeltas deps request services
  emitReceipt services

/-- What follows when some leg is not settled. -/
def failUnsettled (services : ServiceAnswers) : Code ExecutionResultV0 := do
  if (← get).state ≠ .FAILED_CLOSED then
    transitionTo .FAILED_CLOSED
    writeAudit (services.audit .FAILED_CLOSED)
  return finish (← get)

def afterLegs (services : ServiceAnswers) : Code ExecutionResultV0 := do
  if (← get).legs.all (·.settled) then
    complete deps request services
  else failUnsettled services

def legsPhase (services : ServiceAnswers) (legs : List (ExecutionLegV0 × LegAnswers)) :
    Code ExecutionResultV0 := do
  match ← handleLegs deps request 0 legs with
  | .finish => return finish (← get)
  | .next => afterLegs deps request services

/-- `execute`, on the legs of the request with what is answered while each is handled. -/
def execute (services : ServiceAnswers) (legs : List (ExecutionLegV0 × LegAnswers)) :
    Code ExecutionResultV0 := do
  match ← preflightPhase deps request services with
  | .finish => return finish (← get)
  | .next => legsPhase deps request services legs

/-- The variables of `execute` as it starts. -/
def startRun (legs : List ExecutionLegV0) : ExecutionRun :=
  { state := .CREATED
    legs := legs
    settlementEvidenceByLegId := []
    settlementStatus := .SETTLEMENT_PENDING
    ghostFillStatus := .NOT_APPLICABLE
    fallbackUsed := false
    fallbackReason := none
    feeSummary := preview deps.fees request
    auditEventIds := []
    policies := []
    ledger := []
    positions := [] }

/-- The legs of the request, each with what is answered while it is handled. -/
def answeredLegs (uuid : ℕ → String) (legAnswers : ℕ → LegAnswers) :
    List (ExecutionLegV0 × LegAnswers) :=
  (buildLegs uuid request).zipIdx.map fun (leg, index) => (leg, legAnswers index)

/-- A whole call of `execute`: how it ends and what it leaves. -/
def run (services : ServiceAnswers) (uuid : ℕ → String) (legAnswers : ℕ → LegAnswers) :
    Except ExecutionError ExecutionResultV0 × ExecutionRun :=
  go (execute deps request services (answeredLegs request uuid legAnswers))
    (startRun deps request (buildLegs uuid request))

end LotusRfq.Execution
