import LotusRfq.Control.StateMachine
import LotusRfq.Control.Types
import LotusRfq.Lib.Programs

/-!
# LotusRfq — `ExecutionControlGateway.execute`

A call checks the request, reserves its key, looks for replays, writes what it has decided, and hands
the request to its handler. Each statement is a request to the database of its own, which fails while
there is an outage; the handler is entered and, later, left.
-/

namespace LotusRfq.Control

open Processes

/-! ## Tables -/

inductive SyncStatus where
  | pending
  | blocked
  | sync_pending
  | reconciling
  | synced
  deriving DecidableEq

inductive SettlementStatus where
  | pending
  | settled
  deriving DecidableEq

/-- A row of `execution_idempotency_keys`, but for its key and what is never compared. -/
structure IdempotencyKeyRow where
  executionIntentId : Option ℕ
  routePlanId : Option String
  principalId : String
  walletRef : Option String
  bindingHash : String
  lastStatus : ExecutionIdempotencyStatus
  deriving DecidableEq

structure ReplayProtectionRecord where
  id : ℕ
  idempotencyKey : String
  protectionStatus : ExecutionReplayProtectionStatus

/-- `UNIQUE (venue, provider_execution_key)`. -/
structure RecordKey where
  venue : String
  providerExecutionKey : String
  deriving DecidableEq

structure ExecutionRecord where
  id : ℕ
  executionIntentId : ℕ
  executionState : ExecutionState
  syncStatus : SyncStatus
  settlementStatus : SettlementStatus
  deriving DecidableEq

structure StateTransition where
  executionRecordId : ℕ
  fromState : Option ExecutionState
  toState : ExecutionState
  reason : String

structure ExecutionControlDecision where
  allowed : Bool
  blockReasonCodes : List ExecutionControlReasonCode
  warningCodes : List ExecutionControlReasonCode
  freshnessStatus : ExecutionFreshnessStatus
  policyStatus : ExecutionPolicyStatus
  approvalStatus : ExecutionApprovalStatus
  idempotencyStatus : ExecutionIdempotencyStatus
  replayProtectionStatus : ExecutionReplayProtectionStatus
  nextAction : ExecutionControlNextAction

/-- A row of `execution_approval_states`, but for its intent. -/
structure ApprovalState where
  approvalStatus : ExecutionApprovalStatus
  approvalBindingHash : String
  approvalGrantedAt : Option ℚ
  approvalActorRef : Option String
  approvalContextVersion : Option String
  required : Bool
  deriving DecidableEq

/-- Rows that are written and not read by the gateway. The approval state of an intent is the last
one that was written for it. -/
inductive ControlRow where
  | auditRecord (executionRecordId : ℕ) (eventType : String)
  | transitionAuditRecords (transitions : List StateTransition)
  | approvalState (executionIntentId : ℕ) (state : ApprovalState)
  | decision (executionRecordId : ℕ) (decision : ExecutionControlDecision)
  | submissionLineage (executionRecordId : ℕ) (submissionKind : ExecutionSubmissionKind)
  | recoveryAction (executionRecordId : ℕ) (localSyncFailed duplicateSubmissionRisk : Option Bool)

inductive SubmissionStatus where
  | SUBMITTED
  | COMPLETED
  | PARTIAL
  | FAILED
  | SYNC_PENDING
  | RECONCILING
  deriving DecidableEq

structure ExecutionSubmissionResult where
  status : SubmissionStatus
  duplicateRisk : Option Bool

inductive HandlerOutcome where
  | answered (result : ExecutionSubmissionResult)
  | thrown

/-- The handler has been entered for a key; it may not have been left yet. -/
structure Submission where
  idempotencyKey : String
  outcome : Option HandlerOutcome

structure ControlState where
  outage : Bool
  idempotencyKeys : List (String × IdempotencyKeyRow)
  /-- The latest first. -/
  replayProtection : List ReplayProtectionRecord
  intents : List (String × ℕ)
  records : List (RecordKey × ExecutionRecord)
  transitions : List StateTransition
  rows : List ControlRow
  submissions : List Submission
  nextId : ℕ

/-! ## Requests -/

inductive ControlError where
  | repository
  | invalidTransition (current : Option ExecutionState) (next : ExecutionState)
  | missingHandler (kind : ExecutionSubmissionKind)
  | handler
  deriving DecidableEq

structure CreateExecutionRecordInput where
  key : RecordKey
  executionIntentId : ℕ
  executionState : ExecutionState
  syncStatus : SyncStatus
  settlementStatus : SettlementStatus

inductive ControlRequest where
  | findIdempotencyKey (idempotencyKey : String)
  | upsertIdempotencyKey (idempotencyKey : String) (row : IdempotencyKeyRow)
  | listReplayProtectionByIdempotencyKey (idempotencyKey : String)
  | createReplayProtectionRecord (idempotencyKey : String)
      (protectionStatus : ExecutionReplayProtectionStatus)
  | createIntent (requestKey : String)
  | createRecord (input : CreateExecutionRecordInput)
  | appendStateTransitions (transitions : List StateTransition)
  | insert (row : ControlRow)
  | enterHandler (idempotencyKey : String)
  | leaveHandler (submission : ℕ) (outcome : HandlerOutcome)
  | setOutage (outage : Bool)

@[reducible] def ControlRequest.Answer : ControlRequest → Type
  | .findIdempotencyKey _ => Option IdempotencyKeyRow
  | .listReplayProtectionByIdempotencyKey _ => List ReplayProtectionRecord
  | .createReplayProtectionRecord _ _ => ℕ
  | .createIntent _ => ℕ
  | .createRecord _ => ExecutionRecord
  | .insert _ => ℕ
  | .enterHandler _ => ℕ
  | .leaveHandler _ _ => ExecutionSubmissionResult
  | .upsertIdempotencyKey _ _ | .appendStateTransitions _ | .setOutage _ => Unit

/-- `ON CONFLICT (idempotency_key) DO UPDATE`. -/
def IdempotencyKeyRow.merge (old new : IdempotencyKeyRow) : IdempotencyKeyRow :=
  { old with
    executionIntentId := new.executionIntentId.or old.executionIntentId
    routePlanId := new.routePlanId.or old.routePlanId
    lastStatus := new.lastStatus }

/-- The row that `createRecord` returns. -/
def CreateExecutionRecordInput.row (input : CreateExecutionRecordInput)
    (old : Option ExecutionRecord) (freshId : ℕ) : ExecutionRecord where
  id := (old.map (·.id)).getD freshId
  executionIntentId := (old.map (·.executionIntentId)).getD input.executionIntentId
  executionState := input.executionState
  syncStatus := input.syncStatus
  settlementStatus := input.settlementStatus

def HandlerOutcome.answer : HandlerOutcome → Except ControlError ExecutionSubmissionResult
  | .answered result => .ok result
  | .thrown => .error .handler

def leave (outcome : HandlerOutcome) (submission : Submission) : Submission :=
  { submission with outcome := some outcome }

def perform : (e : ControlRequest) → ControlState → Except ControlError e.Answer × ControlState
  | .findIdempotencyKey key, s => (.ok (s.idempotencyKeys.lookup key), s)
  | .upsertIdempotencyKey key row, s =>
    (.ok (), { s with
      idempotencyKeys := OrderedMap.set key
        (((s.idempotencyKeys.lookup key).map (·.merge row)).getD row) s.idempotencyKeys })
  | .listReplayProtectionByIdempotencyKey key, s =>
    (.ok (s.replayProtection.filter fun record => record.idempotencyKey = key), s)
  | .createReplayProtectionRecord key protectionStatus, s =>
    (.ok s.nextId, { s with
      replayProtection := ⟨s.nextId, key, protectionStatus⟩ :: s.replayProtection
      nextId := s.nextId + 1 })
  | .createIntent requestKey, s =>
    match s.intents.lookup requestKey with
    | some id => (.ok id, s)
    | none => (.ok s.nextId, { s with
        intents := s.intents ++ [(requestKey, s.nextId)]
        nextId := s.nextId + 1 })
  | .createRecord input, s =>
    (.ok (input.row (s.records.lookup input.key) s.nextId), { s with
      records := OrderedMap.set input.key (input.row (s.records.lookup input.key) s.nextId)
        s.records
      nextId := s.nextId + 1 })
  | .appendStateTransitions transitions, s =>
    (.ok (), { s with transitions := s.transitions ++ transitions })
  | .insert row, s => (.ok s.nextId, { s with rows := s.rows ++ [row], nextId := s.nextId + 1 })
  | .enterHandler key, s =>
    (.ok s.submissions.length, { s with submissions := s.submissions ++ [⟨key, none⟩] })
  | .leaveHandler submission outcome, s =>
    (outcome.answer, { s with submissions := s.submissions.modify submission (leave outcome) })
  | .setOutage outage, s => (.ok (), { s with outage })

def ControlRequest.isStatement : ControlRequest → Bool
  | .enterHandler _ | .leaveHandler _ _ | .setOutage _ => false
  | _ => true

/-- Statements fail while there is an outage. -/
def handle (e : ControlRequest) (s : ControlState) : Except ControlError e.Answer × ControlState :=
  if e.isStatement && s.outage then (.error .repository, s) else perform e s

abbrev ControlProgram : Type → Type := Program ControlError ControlRequest ControlRequest.Answer

/-! ## A call -/

/-- The hashes, and the kinds of submission that there is a handler for. -/
structure GatewayConfig where
  hashes : Hashes
  handlers : ExecutionSubmissionKind → Bool

/-- A call of `execute`: the request, the random part of a key that is generated, the time, and how
the handler will end. -/
structure ExecuteCall where
  request : ExecutionControlRequest
  randomUUID : String
  currentTime : ℚ
  outcome : HandlerOutcome

structure ExecutionIdempotencyResult where
  idempotencyKey : String
  bindingHash : String
  status : ExecutionIdempotencyStatus

structure ExecutionReplayProtectionResult where
  status : ExecutionReplayProtectionStatus
  blockReasonCodes : List ExecutionControlReasonCode
  recordId : Option ℕ

def idempotencyKeyOf (hashes : Hashes) (input : ExecuteCall) : String :=
  input.request.idempotencyKey.getD
    (hashes.stablePrefix input.request.idempotencyBinding ++ "-" ++ input.randomUUID)

def matchExisting (hashes : Hashes) (request : ExecutionControlRequest)
    (existing : IdempotencyKeyRow) : ExecutionIdempotencyStatus :=
  if existing.bindingHash ≠ hashes.idempotency request.idempotencyBinding ∨
      existing.principalId ≠ request.userWalletReference.principalId ∨
      existing.walletRef ≠ request.userWalletReference.walletRef then .MISMATCHED
  else .REUSED

def IdempotencyKeyRow.allocated (hashes : Hashes) (request : ExecutionControlRequest) :
    IdempotencyKeyRow where
  executionIntentId := none
  routePlanId := request.routePlanId
  principalId := request.userWalletReference.principalId
  walletRef := request.userWalletReference.walletRef
  bindingHash := hashes.idempotency request.idempotencyBinding
  lastStatus := .ALLOCATED

def reserve (hashes : Hashes) (input : ExecuteCall) : ControlProgram ExecutionIdempotencyResult := do
  let idempotencyKey := idempotencyKeyOf hashes input
  let bindingHash := hashes.idempotency input.request.idempotencyBinding
  let existing ← call (ControlRequest.findIdempotencyKey idempotencyKey)
  match existing with
  | none =>
    call (ControlRequest.upsertIdempotencyKey idempotencyKey (.allocated hashes input.request))
    return ⟨idempotencyKey, bindingHash, .ALLOCATED⟩
  | some existing =>
    return ⟨idempotencyKey, bindingHash, matchExisting hashes input.request existing⟩

/-- What the replay protector makes of the latest record of a key. -/
def replayResultOf (records : List ReplayProtectionRecord) : ExecutionReplayProtectionResult :=
  match records.head? with
  | none => ⟨.CLEAR, [], none⟩
  | some latest =>
    match latest.protectionStatus with
    | .RECONCILE_REQUIRED | .UNSAFE_RETRY_BLOCKED =>
      ⟨.RECONCILE_REQUIRED, [.UNCERTAIN_SUBMISSION_STATE], some latest.id⟩
    | .BLOCKED_STALE_APPROVAL => ⟨.BLOCKED_STALE_APPROVAL, [.APPROVAL_STALE], some latest.id⟩
    | .BLOCKED_SUPERSEDED_ROUTE =>
      ⟨.BLOCKED_SUPERSEDED_ROUTE, [.SUPERSEDED_ROUTE_PLAN], some latest.id⟩
    | .BLOCKED_DUPLICATE => ⟨.BLOCKED_DUPLICATE, [.REPLAY_DUPLICATE_ATTEMPT], some latest.id⟩
    | .CLEAR => ⟨.CLEAR, [], some latest.id⟩

def evaluateReplay (idempotencyKey : String) :
    ControlProgram ExecutionReplayProtectionResult := do
  let records ← call (ControlRequest.listReplayProtectionByIdempotencyKey idempotencyKey)
  return replayResultOf records

structure CheckResults where
  policyResult : ExecutionPolicyValidationResult
  freshnessResult : ExecutionFreshnessResult
  approvalResult : ExecutionApprovalResult
  idempotencyResult : ExecutionIdempotencyResult
  replayResult : ExecutionReplayProtectionResult

def CheckResults.awaitsApproval (input : CheckResults) : Bool :=
  input.approvalResult.status = .AWAITING_APPROVAL || input.approvalResult.status = .REQUIRED

def buildDecision (input : CheckResults) : ExecutionControlDecision :=
  let blockReasonCodes :=
    input.policyResult.blockReasonCodes ++ input.freshnessResult.blockReasonCodes ++
    input.approvalResult.blockReasonCodes ++ input.replayResult.blockReasonCodes ++
    reasonIf (input.idempotencyResult.status = .MISMATCHED) .IDEMPOTENCY_CONFLICT
  { allowed :=
      input.policyResult.allowed && input.freshnessResult.fresh &&
      input.replayResult.blockReasonCodes.isEmpty &&
      (input.idempotencyResult.status ≠ .MISMATCHED) &&
      (input.approvalResult.status ≠ .MISMATCHED) && (input.approvalResult.status ≠ .STALE)
    blockReasonCodes
    warningCodes := input.policyResult.warningCodes
    freshnessStatus := input.freshnessResult.status
    policyStatus := input.policyResult.status
    approvalStatus := input.approvalResult.status
    idempotencyStatus := input.idempotencyResult.status
    replayProtectionStatus := input.replayResult.status
    nextAction :=
      if input.awaitsApproval then .REQUEST_APPROVAL
      else if input.freshnessResult.status ∈ [ExecutionFreshnessStatus.STALE_ROUTE, .STALE_QUOTE,
          .STALE_MARKET_STATE, .STALE_COMPATIBILITY] then .REGENERATE_ROUTE
      else if input.replayResult.status = .RECONCILE_REQUIRED then .RECONCILE
      else if !blockReasonCodes.isEmpty then .BLOCK
      else .SUBMIT }

def CheckResults.blocked (input : CheckResults) : Bool :=
  !(buildDecision input).allowed || !input.freshnessResult.blockReasonCodes.isEmpty ||
    !input.replayResult.blockReasonCodes.isEmpty || input.idempotencyResult.status = .MISMATCHED

/-! ### The audit -/

structure ExecutionTransitionRequest where
  nextState : ExecutionState
  reason : String
  syncStatus : Option SyncStatus
  settlementStatus : Option SettlementStatus

/-- `ExecutionAuditContext`: the record as it was last written, and the state machine. -/
structure AuditContext where
  intentId : ℕ
  key : RecordKey
  record : ExecutionRecord
  state : Option ExecutionState

def transitionEvents (recordId : ℕ) (state : Option ExecutionState) :
    List ExecutionTransitionRequest → Except ControlError (List StateTransition)
  | [] => .ok []
  | transition :: transitions =>
    if canTransitionExecutionState state transition.nextState then do
      let events ← transitionEvents recordId (some transition.nextState) transitions
      return ⟨recordId, state, transition.nextState, transition.reason⟩ :: events
    else .error (.invalidTransition state transition.nextState)

def writeTransitionEvidence (events : List StateTransition) : ControlProgram Unit := do
  call (ControlRequest.appendStateTransitions events)
  let _ ← call (ControlRequest.insert (.transitionAuditRecords events))

def transitionMany (audit : AuditContext) (transitions : List ExecutionTransitionRequest) :
    ControlProgram AuditContext :=
  match transitions.getLast? with
  | none => return audit
  | some finalTransition =>
    match transitionEvents audit.record.id audit.state transitions with
    | .error error => throw error
    | .ok events => do
      let record ← call (ControlRequest.createRecord {
        key := audit.key
        executionIntentId := audit.intentId
        executionState := finalTransition.nextState
        syncStatus := finalTransition.syncStatus.getD audit.record.syncStatus
        settlementStatus := finalTransition.settlementStatus.getD audit.record.settlementStatus })
      writeTransitionEvidence events
      return { audit with record, state := some finalTransition.nextState }

def transition (audit : AuditContext) (nextState : ExecutionState) (reason : String)
    (syncStatus : Option SyncStatus) : ControlProgram AuditContext :=
  transitionMany audit [⟨nextState, reason, syncStatus, none⟩]

/-- `recordRecovery`, which throws nothing. -/
def recordRecovery (audit : AuditContext) (localSyncFailed duplicateSubmissionRisk : Option Bool) :
    ControlProgram Unit := do
  let _ ← attempt (call (ControlRequest.insert
    (.recoveryAction audit.record.id localSyncFailed duplicateSubmissionRisk)))

def executionVenue (request : ExecutionControlRequest) : String :=
  match request.venueTargets with
  | [] => request.submissionKind.text
  | [venue] => venue
  | _ => "MULTI_VENUE"

def recordKeyOf (request : ExecutionControlRequest) : RecordKey where
  venue := executionVenue request
  providerExecutionKey := request.submissionKind.text ++ ":" ++
    request.routePlanId.getD request.canonicalExecutableMarketId

/-- `ExecutionAuditWriter.initialize`. -/
def initializeAudit (request : ExecutionControlRequest) (idempotencyKey : String) :
    ControlProgram AuditContext := do
  let intentId ← call (ControlRequest.createIntent idempotencyKey)
  let record ← call (ControlRequest.createRecord {
    key := recordKeyOf request
    executionIntentId := intentId
    executionState := .CREATED
    syncStatus := .pending
    settlementStatus := .pending })
  let _ ← call (ControlRequest.insert (.auditRecord record.id "EXECUTION_CONTROL_INTENT_CREATED"))
  match transitionEvents record.id none
    [⟨.CREATED, "execution_control_intent_created", none, none⟩] with
  | .error error => throw error
  | .ok events =>
    writeTransitionEvidence events
    return ⟨intentId, recordKeyOf request, record, some .CREATED⟩

/-! ### Submission -/

/-- `ExecutionSubmissionOrchestrator.submit`. -/
def submit (config : GatewayConfig) (input : ExecuteCall) (audit : AuditContext)
    (idempotencyKey : String) : ControlProgram ExecutionSubmissionResult := do
  if !config.handlers input.request.submissionKind then
    throw (.missingHandler input.request.submissionKind)
  else
    let _ ← call (ControlRequest.insert
      (.submissionLineage audit.record.id input.request.submissionKind))
    let submission ← call (ControlRequest.enterHandler idempotencyKey)
    call (ControlRequest.leaveHandler submission input.outcome)

structure ExecutionControlOutcome where
  status : ExecutionControlStatus
  executionIntentId : ℕ
  executionRecordId : ℕ
  rationale : List ExecutionControlReasonCode
  auditRef : ℕ
  idempotencyKey : String
  replayProtectionRef : ℕ
  deriving DecidableEq

def mapSubmissionStatus : SubmissionStatus → ExecutionControlStatus
  | .SYNC_PENDING => .SYNC_PENDING
  | .RECONCILING => .RECONCILING
  | .FAILED => .FAILED
  | .SUBMITTED | .COMPLETED | .PARTIAL => .SUBMITTED

/-- What `execute` writes once the handler has answered. -/
def recordResult (audit : AuditContext) (result : ExecutionSubmissionResult) :
    ControlProgram AuditContext := do
  match result.status with
  | .SYNC_PENDING =>
    let audit ← transition audit .SYNC_PENDING "execution_submission_uncertain" (some .sync_pending)
    recordRecovery audit (some true) result.duplicateRisk
    return audit
  | .RECONCILING =>
    let audit ← transition audit .RECONCILING "execution_submission_uncertain" (some .reconciling)
    recordRecovery audit (some false) result.duplicateRisk
    return audit
  | .FAILED =>
    let audit ← transition audit .FAILED "execution_submission_failed" (some .synced)
    recordRecovery audit none result.duplicateRisk
    return audit
  | .PARTIAL =>
    let audit ← transitionMany audit [
      ⟨.EXECUTING, "execution_submission_started", none, none⟩,
      ⟨.PARTIALLY_FILLED, "execution_submission_partial", none, none⟩]
    recordRecovery audit none none
    return audit
  | .SUBMITTED | .COMPLETED =>
    transitionMany audit [
      ⟨.EXECUTING, "execution_submission_started", none, none⟩,
      ⟨.FILLED, "execution_submission_completed", some .synced, none⟩,
      ⟨.SETTLED, "execution_submission_settled", none, some .settled⟩]

/-- What `execute` does with a request that is not blocked. -/
def submitChecked (config : GatewayConfig) (input : ExecuteCall) (checks : CheckResults)
    (audit : AuditContext) (auditRef replayProtectionRef : ℕ) :
    ControlProgram ExecutionControlOutcome := do
  let idempotencyKey := checks.idempotencyResult.idempotencyKey
  let audit ← transitionMany audit [
    ⟨.CHECKED, "execution_control_checks_passed", none, none⟩,
    ⟨.QUOTED, "execution_control_quote_bound", none, none⟩]
  let audit ← (if checks.approvalResult.status = .APPROVED ∨
      checks.approvalResult.status = .NOT_REQUIRED then
    transition audit .APPROVED "execution_control_approved" none
    else pure audit : ControlProgram AuditContext)
  let submitted ← attempt (submit config input audit idempotencyKey)
  match submitted with
  | .error _ =>
    let audit ← transition audit .SYNC_PENDING "execution_submission_uncertain" (some .sync_pending)
    recordRecovery audit (some true) none
    return ⟨.SYNC_PENDING, audit.intentId, audit.record.id, [.UNCERTAIN_SUBMISSION_STATE], auditRef,
      idempotencyKey, replayProtectionRef⟩
  | .ok result =>
    let audit ← recordResult audit result
    return ⟨mapSubmissionStatus result.status, audit.intentId, audit.record.id,
      if result.status = .FAILED then [.INTERNAL_ERROR] else (buildDecision checks).warningCodes,
      auditRef, idempotencyKey, replayProtectionRef⟩

/-- What `execute` decides, once all is written that is written in any case. -/
def decideOutcome (config : GatewayConfig) (input : ExecuteCall) (checks : CheckResults)
    (audit : AuditContext) (auditRef replayProtectionRef : ℕ) :
    ControlProgram ExecutionControlOutcome := do
  let idempotencyKey := checks.idempotencyResult.idempotencyKey
  if checks.awaitsApproval then
    let audit ← transition audit .AWAITING_APPROVAL "execution_awaiting_approval" none
    return ⟨.AWAITING_APPROVAL, audit.intentId, audit.record.id,
      checks.approvalResult.blockReasonCodes, auditRef, idempotencyKey, replayProtectionRef⟩
  else if checks.blocked then
    let audit ← transition audit .FAILED "execution_control_blocked" (some .blocked)
    return ⟨.BLOCKED, audit.intentId, audit.record.id, (buildDecision checks).blockReasonCodes,
      auditRef, idempotencyKey, replayProtectionRef⟩
  else submitChecked config input checks audit auditRef replayProtectionRef

def check (config : GatewayConfig) (input : ExecuteCall) : ControlProgram CheckResults := do
  let idempotencyResult ← reserve config.hashes input
  let replayResult ← evaluateReplay idempotencyResult.idempotencyKey
  return {
    policyResult := validate input.request
    freshnessResult := evaluateFreshness input.currentTime input.request
    approvalResult := evaluateApproval config.hashes input.request
    idempotencyResult
    replayResult }

/-- What `attachIntent` writes. -/
def IdempotencyKeyRow.attached (request : ExecutionControlRequest) (checks : CheckResults)
    (intentId : ℕ) : IdempotencyKeyRow where
  executionIntentId := some intentId
  routePlanId := request.routePlanId
  principalId := request.userWalletReference.principalId
  walletRef := request.userWalletReference.walletRef
  bindingHash := checks.approvalResult.bindingHash
  lastStatus := checks.idempotencyResult.status

/-- What `upsertApprovalState` is called with. -/
def approvalStateOf (request : ExecutionControlRequest) (approvalResult : ExecutionApprovalResult) :
    ApprovalState where
  approvalStatus := approvalResult.status
  approvalBindingHash := approvalResult.bindingHash
  approvalGrantedAt := request.approvalRequirements.approvalGrantedAt
  approvalActorRef := request.approvalRequirements.approvalActorRef
  approvalContextVersion := request.approvalRequirements.approvalContextVersion
  required := request.approvalRequirements.required

def execute (config : GatewayConfig) (input : ExecuteCall) :
    ControlProgram ExecutionControlOutcome := do
  let checks ← check config input
  let idempotencyKey := checks.idempotencyResult.idempotencyKey
  let audit ← initializeAudit input.request idempotencyKey
  call (ControlRequest.upsertIdempotencyKey idempotencyKey
    (.attached input.request checks audit.intentId))
  let _ ← call (ControlRequest.insert
    (.approvalState audit.intentId (approvalStateOf input.request checks.approvalResult)))
  let replayProtectionRef ← (match checks.replayResult.recordId with
    | some recordId => pure recordId
    | none => call (ControlRequest.createReplayProtectionRecord idempotencyKey
        checks.replayResult.status) : ControlProgram ℕ)
  let auditRef ← call (ControlRequest.insert
    (.auditRecord audit.record.id "EXECUTION_CONTROL_GATEWAY_EVALUATED"))
  let _ ← call (ControlRequest.insert (.decision audit.record.id (buildDecision checks)))
  decideOutcome config input checks audit auditRef replayProtectionRef

/-! ## Side by side -/

/-- A call of `execute`, or a change of the database's. -/
inductive ControlOperation where
  | execute (input : ExecuteCall)
  | setOutage (outage : Bool)

def ControlOperation.code (config : GatewayConfig) :
    ControlOperation → Code ControlRequest (fun e => Except ControlError e.Answer) Unit
  | .execute input => (Control.execute config input).run >>= fun _ => pure ()
  | .setOutage outage => request (ControlRequest.setOutage outage) >>= fun _ => pure ()

abbrev ControlSystem : Type :=
  System ControlState ControlRequest fun e => Except ControlError e.Answer

def controlStep (config : GatewayConfig) :
    ControlSystem → Action ControlOperation → Option ControlSystem :=
  step (ControlOperation.code config) handle

end LotusRfq.Control
