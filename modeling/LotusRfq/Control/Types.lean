import LotusRfq.Lib.OrderedMap
import Mathlib.Algebra.Order.Ring.Rat

/-!
# LotusRfq — the execution control layer: requests and checks

A request is checked by itself against its policy context, its freshness and its approval. Hashes of
what a request is bound to are parameters, and so is the clock.

* **`evaluateApproval_status`** — what the approval gate may answer.
-/

namespace LotusRfq.Control

inductive ExecutionControlStatus where
  | BLOCKED
  | AWAITING_APPROVAL
  | READY_FOR_SUBMISSION
  | SUBMITTED
  | SYNC_PENDING
  | RECONCILING
  | FAILED
  deriving DecidableEq

inductive ExecutionControlNextAction where
  | BLOCK
  | REQUEST_APPROVAL
  | SUBMIT
  | REGENERATE_ROUTE
  | RECONCILE
  | RETRY_SAFE
  | MARK_FAILED

inductive ExecutionApprovalStatus where
  | NOT_REQUIRED
  | REQUIRED
  | AWAITING_APPROVAL
  | APPROVED
  | STALE
  | MISMATCHED
  | BLOCKED
  deriving DecidableEq

inductive ExecutionFreshnessStatus where
  | FRESH
  | STALE_ROUTE
  | STALE_QUOTE
  | STALE_MARKET_STATE
  | STALE_COMPATIBILITY
  | STALE_APPROVAL
  | TIMING_CONSTRAINT_BLOCKED
  deriving DecidableEq

inductive ExecutionPolicyStatus where
  | ALLOWED
  | ROUTE_TYPE_FORBIDDEN
  | VENUE_FORBIDDEN
  | COMPATIBILITY_FORBIDDEN
  | SETTLEMENT_POLICY_FORBIDDEN
  | KILL_SWITCH_ACTIVE
  | ACCOUNT_RESTRICTED
  | SCOPE_RESTRICTED
  | ROLLOUT_RESTRICTED
  | MISSING_COMPATIBILITY_BASIS

inductive ExecutionIdempotencyStatus where
  | ALLOCATED
  | REUSED
  | CONFLICT
  | MISMATCHED
  deriving DecidableEq

inductive ExecutionReplayProtectionStatus where
  | CLEAR
  | BLOCKED_DUPLICATE
  | BLOCKED_STALE_APPROVAL
  | BLOCKED_SUPERSEDED_ROUTE
  | RECONCILE_REQUIRED
  | UNSAFE_RETRY_BLOCKED
  deriving DecidableEq

inductive ExecutionControlReasonCode where
  | ROUTE_TYPE_NOT_ALLOWED
  | VENUE_NOT_ALLOWED
  | COMPATIBILITY_CLASS_NOT_ALLOWED
  | SETTLEMENT_POLICY_BLOCKED
  | KILL_SWITCH_ACTIVE
  | USER_ACCOUNT_RESTRICTED
  | SCOPE_RESTRICTED
  | ROLLOUT_RESTRICTED
  | ROUTE_PLAN_STALE
  | QUOTE_STALE
  | MARKET_STATE_STALE
  | COMPATIBILITY_STALE
  | APPROVAL_REQUIRED
  | APPROVAL_STALE
  | APPROVAL_MISMATCH
  | IDEMPOTENCY_CONFLICT
  | REPLAY_DUPLICATE_ATTEMPT
  | SUPERSEDED_ROUTE_PLAN
  | UNCERTAIN_SUBMISSION_STATE
  | SAFE_RETRY_NOT_ALLOWED
  | MISSING_COMPATIBILITY_BASIS
  | INTERNAL_ERROR
  deriving DecidableEq

inductive ExecutionSubmissionKind where
  | INTERNAL_CROSS
  | SOR_PLAN
  | LEGACY_RFQ
  | COMBO_EXTERNAL_PLAN
  | COMBO_INTERNAL_CLEARING
  deriving DecidableEq

def ExecutionSubmissionKind.text : ExecutionSubmissionKind → String
  | .INTERNAL_CROSS => "INTERNAL_CROSS"
  | .SOR_PLAN => "SOR_PLAN"
  | .LEGACY_RFQ => "LEGACY_RFQ"
  | .COMBO_EXTERNAL_PLAN => "COMBO_EXTERNAL_PLAN"
  | .COMBO_INTERNAL_CLEARING => "COMBO_INTERNAL_CLEARING"

/-! ## Requests -/

/-- Times in milliseconds. -/
structure ExecutionRouteFreshnessMetadata where
  routeGeneratedAt : ℚ
  quoteObservedAt : Option ℚ
  quoteValidUntil : Option ℚ
  marketStateObservedAt : Option ℚ
  compatibilityEvaluatedAt : Option ℚ
  approvalGrantedAt : Option ℚ
  maxRouteAgeMs : ℚ
  maxQuoteAgeMs : Option ℚ
  maxMarketStateAgeMs : Option ℚ
  maxCompatibilityAgeMs : Option ℚ
  maxApprovalAgeMs : Option ℚ

structure ExecutionApprovalRequirement where
  required : Bool
  approvalBindingHash : Option String
  approvalGrantedAt : Option ℚ
  approvalContextVersion : Option String
  approvalActorRef : Option String

structure ExecutionPolicyContext where
  routeTypeAllowed : Bool
  venuesAllowed : Bool
  compatibilityAllowed : Bool
  settlementAllowed : Bool
  killSwitchActive : Bool
  accountAllowed : Bool
  scopeAllowed : Bool
  rolloutAllowed : Bool

structure ExecutionUserWalletReference where
  principalId : String
  walletRef : Option String

structure ExecutionControlRequest where
  routePlanId : Option String
  canonicalEventId : Option String
  canonicalExecutableMarketId : String
  venueTargets : List String
  userWalletReference : ExecutionUserWalletReference
  requestedSize : Option String
  requestedNotional : Option String
  configVersion : String
  engineVersion : String
  routeFreshnessMetadata : ExecutionRouteFreshnessMetadata
  approvalRequirements : ExecutionApprovalRequirement
  idempotencyKey : Option String
  routeType : String
  submissionKind : ExecutionSubmissionKind
  executionScopeBinding : Option String
  policyContext : ExecutionPolicyContext

/-- What `ExecutionIdempotencyService.buildBindingHash` hashes. -/
structure IdempotencyBinding where
  routePlanId : Option String
  principalId : String
  walletRef : Option String
  venueTargets : List String
  requestedSize : Option String
  requestedNotional : Option String
  routeType : String
  submissionKind : ExecutionSubmissionKind
  executionScopeBinding : Option String

/-- What `ExecutionApprovalGate.buildBindingHash` hashes. -/
structure ApprovalBinding where
  routePlanId : Option String
  canonicalExecutableMarketId : String
  canonicalEventId : Option String
  userWalletReference : ExecutionUserWalletReference
  venueTargets : List String
  requestedSize : Option String
  requestedNotional : Option String
  configVersion : String
  engineVersion : String
  submissionKind : ExecutionSubmissionKind
  executionScopeBinding : Option String

def ExecutionControlRequest.idempotencyBinding (request : ExecutionControlRequest) :
    IdempotencyBinding where
  routePlanId := request.routePlanId
  principalId := request.userWalletReference.principalId
  walletRef := request.userWalletReference.walletRef
  venueTargets := request.venueTargets
  requestedSize := request.requestedSize
  requestedNotional := request.requestedNotional
  routeType := request.routeType
  submissionKind := request.submissionKind
  executionScopeBinding := request.executionScopeBinding

def ExecutionControlRequest.approvalBinding (request : ExecutionControlRequest) :
    ApprovalBinding where
  routePlanId := request.routePlanId
  canonicalExecutableMarketId := request.canonicalExecutableMarketId
  canonicalEventId := request.canonicalEventId
  userWalletReference := request.userWalletReference
  venueTargets := request.venueTargets
  requestedSize := request.requestedSize
  requestedNotional := request.requestedNotional
  configVersion := request.configVersion
  engineVersion := request.engineVersion
  submissionKind := request.submissionKind
  executionScopeBinding := request.executionScopeBinding

/-- The hashes: of the two bindings, and the `stablePrefix` of a key that is generated. -/
structure Hashes where
  idempotency : IdempotencyBinding → String
  approval : ApprovalBinding → String
  stablePrefix : IdempotencyBinding → String

/-! ## Checks -/

structure ExecutionPolicyValidationResult where
  status : ExecutionPolicyStatus
  allowed : Bool
  blockReasonCodes : List ExecutionControlReasonCode
  warningCodes : List ExecutionControlReasonCode

structure ExecutionFreshnessResult where
  status : ExecutionFreshnessStatus
  fresh : Bool
  blockReasonCodes : List ExecutionControlReasonCode

structure ExecutionApprovalResult where
  status : ExecutionApprovalStatus
  blockReasonCodes : List ExecutionControlReasonCode
  bindingHash : String

def reasonIf (condition : Bool) (reason : ExecutionControlReasonCode) :
    List ExecutionControlReasonCode :=
  if condition then [reason] else []

def resolvePolicyStatus (blockReasonCodes : List ExecutionControlReasonCode) :
    ExecutionPolicyStatus :=
  if .KILL_SWITCH_ACTIVE ∈ blockReasonCodes then .KILL_SWITCH_ACTIVE
  else if .ROUTE_TYPE_NOT_ALLOWED ∈ blockReasonCodes then .ROUTE_TYPE_FORBIDDEN
  else if .VENUE_NOT_ALLOWED ∈ blockReasonCodes then .VENUE_FORBIDDEN
  else if .COMPATIBILITY_CLASS_NOT_ALLOWED ∈ blockReasonCodes then .COMPATIBILITY_FORBIDDEN
  else if .SETTLEMENT_POLICY_BLOCKED ∈ blockReasonCodes then .SETTLEMENT_POLICY_FORBIDDEN
  else if .USER_ACCOUNT_RESTRICTED ∈ blockReasonCodes then .ACCOUNT_RESTRICTED
  else if .SCOPE_RESTRICTED ∈ blockReasonCodes then .SCOPE_RESTRICTED
  else if .ROLLOUT_RESTRICTED ∈ blockReasonCodes then .ROLLOUT_RESTRICTED
  else if .MISSING_COMPATIBILITY_BASIS ∈ blockReasonCodes then .MISSING_COMPATIBILITY_BASIS
  else .ALLOWED

def validate (request : ExecutionControlRequest) : ExecutionPolicyValidationResult :=
  let policy := request.policyContext
  let blockReasonCodes :=
    reasonIf (!policy.routeTypeAllowed) .ROUTE_TYPE_NOT_ALLOWED ++
    reasonIf (!policy.venuesAllowed) .VENUE_NOT_ALLOWED ++
    reasonIf (!policy.compatibilityAllowed) .COMPATIBILITY_CLASS_NOT_ALLOWED ++
    reasonIf (!policy.settlementAllowed) .SETTLEMENT_POLICY_BLOCKED ++
    reasonIf policy.killSwitchActive .KILL_SWITCH_ACTIVE ++
    reasonIf (!policy.accountAllowed) .USER_ACCOUNT_RESTRICTED ++
    reasonIf (!policy.scopeAllowed) .SCOPE_RESTRICTED ++
    reasonIf (!policy.rolloutAllowed) .ROLLOUT_RESTRICTED
  { status := resolvePolicyStatus blockReasonCodes
    allowed := blockReasonCodes.isEmpty
    blockReasonCodes
    warningCodes := [] }

/-- Older than allowed, where there is a time and a bound. -/
def isOlder (currentTime : ℚ) (since maxAgeMs : Option ℚ) : Bool :=
  match since, maxAgeMs with
  | some since, some maxAgeMs => maxAgeMs < currentTime - since
  | _, _ => false

def resolveFreshnessStatus (reasons : List ExecutionControlReasonCode) : ExecutionFreshnessStatus :=
  if .ROUTE_PLAN_STALE ∈ reasons then .STALE_ROUTE
  else if .QUOTE_STALE ∈ reasons then .STALE_QUOTE
  else if .MARKET_STATE_STALE ∈ reasons then .STALE_MARKET_STATE
  else if .COMPATIBILITY_STALE ∈ reasons then .STALE_COMPATIBILITY
  else if .APPROVAL_STALE ∈ reasons then .STALE_APPROVAL
  else .FRESH

def evaluateFreshness (currentTime : ℚ) (request : ExecutionControlRequest) :
    ExecutionFreshnessResult :=
  let freshness := request.routeFreshnessMetadata
  let reasons :=
    reasonIf (isOlder currentTime (some freshness.routeGeneratedAt) (some freshness.maxRouteAgeMs))
      .ROUTE_PLAN_STALE ++
    reasonIf (isOlder currentTime freshness.quoteObservedAt freshness.maxQuoteAgeMs)
      .QUOTE_STALE ++
    reasonIf (freshness.quoteValidUntil.any fun validUntil => validUntil < currentTime)
      .QUOTE_STALE ++
    reasonIf (isOlder currentTime freshness.marketStateObservedAt freshness.maxMarketStateAgeMs)
      .MARKET_STATE_STALE ++
    reasonIf
      (isOlder currentTime freshness.compatibilityEvaluatedAt freshness.maxCompatibilityAgeMs)
      .COMPATIBILITY_STALE ++
    reasonIf (isOlder currentTime freshness.approvalGrantedAt freshness.maxApprovalAgeMs)
      .APPROVAL_STALE
  { status := resolveFreshnessStatus reasons
    fresh := reasons.isEmpty
    blockReasonCodes := reasons }

def evaluateApproval (hashes : Hashes) (request : ExecutionControlRequest) :
    ExecutionApprovalResult :=
  let bindingHash := hashes.approval request.approvalBinding
  let approval := request.approvalRequirements
  if !approval.required then ⟨.NOT_REQUIRED, [], bindingHash⟩
  else
    match approval.approvalBindingHash with
    | none => ⟨.AWAITING_APPROVAL, [.APPROVAL_REQUIRED], bindingHash⟩
    | some approvalBindingHash =>
      if approvalBindingHash = "" then ⟨.AWAITING_APPROVAL, [.APPROVAL_REQUIRED], bindingHash⟩
      else if approvalBindingHash ≠ bindingHash then
        ⟨.MISMATCHED, [.APPROVAL_MISMATCH], bindingHash⟩
      else if approval.approvalGrantedAt.isNone then
        ⟨.REQUIRED, [.APPROVAL_REQUIRED], bindingHash⟩
      else ⟨.APPROVED, [], bindingHash⟩

theorem evaluateApproval_status (hashes : Hashes) (request : ExecutionControlRequest) :
    (evaluateApproval hashes request).status ∈
      [ExecutionApprovalStatus.NOT_REQUIRED, .AWAITING_APPROVAL, .MISMATCHED, .REQUIRED,
        .APPROVED] := by
  unfold evaluateApproval
  dsimp only
  split
  · simp
  · split
    · simp
    · split
      · simp
      · split
        · simp
        · split <;> simp

end LotusRfq.Control
