import LotusRfq.Common.JsonValues
import LotusRfq.Control.Types

/-!
# LotusRfq — from an approved request to an execution request

The approval gate hashes eleven fields of a request. The handler builds the order out of those and
out of two that are not hashed: the side, a lane and the limits are read from `metadata`, the legs
from `submissionPayload.plan.steps`.

* **`hashedContent_bound`** — what the hash binds: size, venue path, user and scope token.
* **`approval_binds_order_iff`** — what else two requests must share to make the same order.
-/

namespace LotusRfq.Control

open Js

/-! ## Requests -/

inductive ExecutionScopeKind where
  | CRYPTO_LANE
  | SPORTS_LANE
  | POLITICS_NOMINEE_LANE

def ExecutionScopeKind.text : ExecutionScopeKind → String
  | .CRYPTO_LANE => "CRYPTO_LANE"
  | .SPORTS_LANE => "SPORTS_LANE"
  | .POLITICS_NOMINEE_LANE => "POLITICS_NOMINEE_LANE"

structure ExecutionScopeBinding where
  scopeKind : ExecutionScopeKind
  scopeId : String
  topicKey : String
  laneType : String
  venueSet : List String
  candidateSet : List String
  canonicalMarketId : String

/-- What `ExecutionApprovalGate.buildBindingHash` puts into words before it hashes them. -/
structure HashedContent where
  routePlanId : Option String
  canonicalExecutableMarketId : String
  canonicalEventId : Option String
  userWalletReference : ExecutionUserWalletReference
  venueTargets : List String
  requestedSize : Option String
  requestedNotional : Option String
  configVersion : String
  engineVersion : String
  submissionKind : ExecutionSubmissionKind
  executionScopeBinding : Option ExecutionScopeBinding

/-- An `ExecutionControlRequest` with the fields only a handler reads. -/
structure SubmissionRequest where
  hashedContent : HashedContent
  routeFreshnessMetadata : ExecutionRouteFreshnessMetadata
  approvalRequirements : ExecutionApprovalRequirement
  idempotencyKey : Option String
  routeType : String
  policyContext : ExecutionPolicyContext
  submissionPayload : Json
  metadata : Option Json

/-- The request as the gateway reads it, a scope binding as the text it is stored as. -/
def SubmissionRequest.control (stringify : ExecutionScopeBinding → String)
    (request : SubmissionRequest) : ExecutionControlRequest where
  routePlanId := request.hashedContent.routePlanId
  canonicalEventId := request.hashedContent.canonicalEventId
  canonicalExecutableMarketId := request.hashedContent.canonicalExecutableMarketId
  venueTargets := request.hashedContent.venueTargets
  userWalletReference := request.hashedContent.userWalletReference
  requestedSize := request.hashedContent.requestedSize
  requestedNotional := request.hashedContent.requestedNotional
  configVersion := request.hashedContent.configVersion
  engineVersion := request.hashedContent.engineVersion
  routeFreshnessMetadata := request.routeFreshnessMetadata
  approvalRequirements := request.approvalRequirements
  idempotencyKey := request.idempotencyKey
  routeType := request.routeType
  submissionKind := request.hashedContent.submissionKind
  executionScopeBinding := request.hashedContent.executionScopeBinding.map stringify
  policyContext := request.policyContext

/-- `JSON.stringify`, then the hash. -/
def bindingHash (hashes : Hashes) (stringify : ExecutionScopeBinding → String)
    (content : HashedContent) : String :=
  hashes.approval {
    routePlanId := content.routePlanId
    canonicalExecutableMarketId := content.canonicalExecutableMarketId
    canonicalEventId := content.canonicalEventId
    userWalletReference := content.userWalletReference
    venueTargets := content.venueTargets
    requestedSize := content.requestedSize
    requestedNotional := content.requestedNotional
    configVersion := content.configVersion
    engineVersion := content.engineVersion
    submissionKind := content.submissionKind
    executionScopeBinding := content.executionScopeBinding.map stringify }

theorem evaluateApproval_bindingHash (hashes : Hashes)
    (stringify : ExecutionScopeBinding → String) (request : SubmissionRequest) :
    (evaluateApproval hashes (request.control stringify)).bindingHash =
      bindingHash hashes stringify request.hashedContent := by
  unfold evaluateApproval
  dsimp only
  split
  · rfl
  · split
    · rfl
    · split
      · rfl
      · split
        · rfl
        · split <;> rfl

/-! ## The handler -/

inductive ExecutionMode where
  | SINGLE_VENUE
  | PAIR
  | TRI
  | SPLIT

inductive ExecutionSide where
  | buy
  | sell
  deriving DecidableEq

def executionModeForVenuePath (venuePath : List String) : ExecutionMode :=
  if venuePath.length = 1 then .SINGLE_VENUE
  else if venuePath.length = 2 then .PAIR
  else if venuePath.length = 3 then .TRI
  else .SPLIT

/-- `metadata?.[key]`. -/
def metadataField (metadata : Option Json) (key : String) : Option Json :=
  metadata.bind (Json.get · key)

def textField : Option Json → Option String
  | some (.string text) => if hasText text then some text else none
  | _ => none

def stringMetadata (metadata : Option Json) (key : String) : Option String :=
  textField (metadataField metadata key)

/-- `typeof value === "string" ? value : null`. -/
def asText : Option Json → Option String
  | some (.string text) => some text
  | _ => none

/-- `typeof value === "number" ? value : null`. -/
def asNumber : Option Json → Option Numeric
  | some (.number n) => some n
  | _ => none

/-- A leg as it is handed on, before the legs without venue or size are left out. -/
structure RouteLeg where
  venue : Option String
  size : Option String
  price : Option ℚ
  venueMarketId : Option String
  venueOutcomeId : Option String

def routeLegOf (step : Json) : RouteLeg where
  venue := asText (step.get "providerId")
  size := ((asNumber (step.get "roundedSize")).orElse fun _ =>
    asNumber (step.get "targetSize")).map Numeric.text
  price := (asNumber (step.get "targetPrice")).map Numeric.value
  venueMarketId := (recordField step "metadata").bind fun metadata => asText (metadata.get "leg_id")
  venueOutcomeId := asText (step.get "candidateId")

/-- `payload.plan.steps`, if there is a list of them. -/
def planSteps (payload : Json) : List Json :=
  match (recordField payload "plan").bind (Json.get · "steps") with
  | some (.array steps) => steps.filter isRecord
  | _ => []

def extractRouteLegs (payload : Json) : List RouteLeg :=
  ((planSteps payload).map routeLegOf).filter fun leg => leg.venue.isSome && leg.size.isSome

/-- An `ExecutionRequestV0`; a limit that is no finite number is `none`. -/
structure ExecutionRequestV0 where
  executionId : ℕ
  rfqId : String
  userId : String
  canonicalTopicKey : String
  candidateId : String
  side : ExecutionSide
  size : String
  selectedLaneId : String
  venuePath : List String
  executionMode : ExecutionMode
  approvedScopeHash : String
  maxSlippage : Option ℚ
  fastLaneEnabled : Bool
  ghostFillProtectionEnabled : Bool
  expectedPrice : Option ℚ
  idempotencyKey : String
  executionScopeToken : Option String
  fallbackLaneId : Option String
  quoteId : Option String
  routeLegs : List RouteLeg

/-- What `ExecutionSystemOrchestrator.execute` is called with. -/
structure OrchestratorCall where
  request : ExecutionRequestV0
  routePlanId : Option String
  actorIdentity : String
  scopeBinding : Option ExecutionScopeBinding

/-- `Number(value ?? 0)`. -/
def numberOrZero : Option Json → Option ℚ
  | none | some .null => some 0
  | some value => numberOf (some value)

def ExecutionScopeBinding.token (binding : ExecutionScopeBinding) : Option String :=
  if binding.scopeId = "" then none
  else some (binding.scopeKind.text ++ ":" ++ binding.scopeId)

open ExecutionScopeBinding (topicKey scopeId token)

def isTrue : Option Json → Bool
  | some (.bool true) => true
  | _ => false

def isFalse : Option Json → Bool
  | some (.bool false) => true
  | _ => false

/-- `ExecutionSystemSubmissionHandler.execute`, up to the call of the orchestrator. -/
def buildExecutionRequest (request : SubmissionRequest) (executionId : ℕ)
    (idempotencyKey : String) : OrchestratorCall :=
  let content := request.hashedContent
  let binding := content.executionScopeBinding
  let metadata := request.metadata
  { request := {
      executionId
      rfqId := (stringMetadata metadata "sessionId").getD
        (content.routePlanId.getD content.canonicalExecutableMarketId)
      userId := content.userWalletReference.principalId
      canonicalTopicKey :=
        (binding.map topicKey).getD content.canonicalExecutableMarketId
      candidateId :=
        (binding.bind fun binding => binding.candidateSet.head?).getD
          content.canonicalExecutableMarketId
      side := if stringMetadata metadata "executionSide" = some "sell" then .sell else .buy
      size := content.requestedSize.getD "0"
      selectedLaneId := (binding.map scopeId).getD
        ((stringMetadata metadata "selectedLaneId").getD "UNSCOPED_MARKET_LANE")
      venuePath := content.venueTargets
      executionMode := executionModeForVenuePath content.venueTargets
      approvedScopeHash :=
        request.approvalRequirements.approvalBindingHash.getD idempotencyKey
      maxSlippage := numberOrZero (metadataField metadata "maxSlippage")
      fastLaneEnabled := isTrue (metadataField metadata "fastLaneEnabled")
      ghostFillProtectionEnabled := !isFalse (metadataField metadata "ghostFillProtectionEnabled")
      expectedPrice := numberOrZero (metadataField metadata "expectedPrice")
      idempotencyKey
      executionScopeToken := binding.bind token
      fallbackLaneId := stringMetadata metadata "fallbackLaneId"
      quoteId := stringMetadata metadata "quoteId"
      routeLegs := extractRouteLegs request.submissionPayload }
    routePlanId := content.routePlanId
    actorIdentity := content.userWalletReference.principalId
    scopeBinding := binding }

/-! ## What an approval binds -/

structure SameApprovedPart (a b : OrchestratorCall) : Prop where
  userId : a.request.userId = b.request.userId
  size : a.request.size = b.request.size
  venuePath : a.request.venuePath = b.request.venuePath
  executionMode : a.request.executionMode = b.request.executionMode
  executionScopeToken : a.request.executionScopeToken = b.request.executionScopeToken
  scopeBinding : a.scopeBinding = b.scopeBinding
  routePlanId : a.routePlanId = b.routePlanId
  actorIdentity : a.actorIdentity = b.actorIdentity

/-- Two calls ask for one order: same side, size, venue path, route legs, user and scope. -/
structure SameOrder (a b : OrchestratorCall) : Prop where
  side : a.request.side = b.request.side
  size : a.request.size = b.request.size
  venuePath : a.request.venuePath = b.request.venuePath
  routeLegs : a.request.routeLegs = b.request.routeLegs
  userId : a.request.userId = b.request.userId
  selectedLaneId : a.request.selectedLaneId = b.request.selectedLaneId
  executionScopeToken : a.request.executionScopeToken = b.request.executionScopeToken
  scopeBinding : a.scopeBinding = b.scopeBinding

variable {a b : SubmissionRequest}

theorem hashedContent_bound (h : a.hashedContent = b.hashedContent) (i j : ℕ) (k l : String) :
    SameApprovedPart (buildExecutionRequest a i k) (buildExecutionRequest b j l) := by
  unfold buildExecutionRequest
  rw [h]
  exact ⟨rfl, rfl, rfl, rfl, rfl, rfl, rfl, rfl⟩

/-- `metadata.executionSide` is the word for selling. -/
def SaysSell (request : SubmissionRequest) : Prop :=
  metadataField request.metadata "executionSide" = some (.string "sell")

def isLeg (step : Json) : Bool :=
  (asText (step.get "providerId")).isSome &&
    ((asNumber (step.get "roundedSize")).isSome || (asNumber (step.get "targetSize")).isSome)

/-- Two steps agree in what is read of them. -/
structure SameStep (a b : Json) : Prop where
  providerId : asText (a.get "providerId") = asText (b.get "providerId")
  size : ((asNumber (a.get "roundedSize")).orElse fun _ =>
      asNumber (a.get "targetSize")).map Numeric.text =
    ((asNumber (b.get "roundedSize")).orElse fun _ =>
      asNumber (b.get "targetSize")).map Numeric.text
  targetPrice : (asNumber (a.get "targetPrice")).map Numeric.value =
    (asNumber (b.get "targetPrice")).map Numeric.value
  leg_id : ((recordField a "metadata").bind fun metadata => asText (metadata.get "leg_id")) =
    (recordField b "metadata").bind fun metadata => asText (metadata.get "leg_id")
  candidateId : asText (a.get "candidateId") = asText (b.get "candidateId")

/-- What two requests share that the hash does not bind: the word for the side, the steps of the
plan, and the lane where there is no scope binding. -/
structure SameUnhashed (a b : SubmissionRequest) : Prop where
  side : SaysSell a ↔ SaysSell b
  steps : List.Forall₂ SameStep ((planSteps a.submissionPayload).filter isLeg)
    ((planSteps b.submissionPayload).filter isLeg)
  lane : a.hashedContent.executionScopeBinding = none →
    (stringMetadata a.metadata "selectedLaneId").getD "UNSCOPED_MARKET_LANE" =
      (stringMetadata b.metadata "selectedLaneId").getD "UNSCOPED_MARKET_LANE"

theorem textField_eq_some {value : Option Json} {text : String} :
    textField value = some text ↔ value = some (.string text) ∧ hasText text = true := by
  constructor
  · intro h
    unfold textField at h
    split at h
    · split at h
      · have htext := Option.some.inj h
        rw [← htext]
        exact ⟨rfl, by assumption⟩
      · exact absurd h nofun
    · exact absurd h nofun
  · intro ⟨hvalue, htext⟩
    rw [hvalue]
    exact if_pos htext

theorem stringMetadata_sell (request : SubmissionRequest) :
    stringMetadata request.metadata "executionSide" = some "sell" ↔ SaysSell request := by
  have hsell : hasText "sell" = true := by decide
  show textField _ = some "sell" ↔ _
  rw [textField_eq_some, and_iff_left hsell]
  exact Iff.rfl

theorem side_eq_iff (a b : SubmissionRequest) (i j : ℕ) (k l : String) :
    (buildExecutionRequest a i k).request.side = (buildExecutionRequest b j l).request.side ↔
      (SaysSell a ↔ SaysSell b) := by
  show (if stringMetadata a.metadata "executionSide" = some "sell" then ExecutionSide.sell
    else .buy) = (if stringMetadata b.metadata "executionSide" = some "sell" then .sell
    else .buy) ↔ _
  rw [← stringMetadata_sell a, ← stringMetadata_sell b]
  split <;> split <;> simp_all

theorem isLeg_iff (step : Json) :
    isLeg step = ((routeLegOf step).venue.isSome && (routeLegOf step).size.isSome) := by
  unfold isLeg routeLegOf
  cases asNumber (step.get "roundedSize") <;> simp

theorem extractRouteLegs_eq (payload : Json) :
    extractRouteLegs payload = ((planSteps payload).filter isLeg).map routeLegOf := by
  unfold extractRouteLegs
  rw [List.filter_map]
  congr 1
  apply List.filter_congr
  intro step _
  exact (isLeg_iff step).symm

theorem routeLegOf_eq_iff (a b : Json) : routeLegOf a = routeLegOf b ↔ SameStep a b := by
  constructor
  · intro h
    exact ⟨congrArg RouteLeg.venue h, congrArg RouteLeg.size h, congrArg RouteLeg.price h,
      congrArg RouteLeg.venueMarketId h, congrArg RouteLeg.venueOutcomeId h⟩
  · intro h
    unfold routeLegOf
    rw [h.providerId, h.size, h.targetPrice, h.leg_id, h.candidateId]

theorem routeLegs_eq_iff (p q : Json) : extractRouteLegs p = extractRouteLegs q ↔
      List.Forall₂ SameStep ((planSteps p).filter isLeg) ((planSteps q).filter isLeg) := by
  rw [extractRouteLegs_eq, extractRouteLegs_eq, ← List.forall₂_eq_eq_eq,
    List.forall₂_map_left_iff, List.forall₂_map_right_iff]
  constructor <;> apply List.Forall₂.imp <;> intro a b
  · exact (routeLegOf_eq_iff a b).mp
  · exact (routeLegOf_eq_iff a b).mpr

theorem lane_eq_iff (h : a.hashedContent = b.hashedContent) (i j : ℕ) (k l : String) :
    (buildExecutionRequest a i k).request.selectedLaneId =
        (buildExecutionRequest b j l).request.selectedLaneId ↔
      (a.hashedContent.executionScopeBinding = none →
        (stringMetadata a.metadata "selectedLaneId").getD "UNSCOPED_MARKET_LANE" =
          (stringMetadata b.metadata "selectedLaneId").getD "UNSCOPED_MARKET_LANE") := by
  unfold buildExecutionRequest
  rw [h]
  cases hscope : b.hashedContent.executionScopeBinding with
  | none => simp [hscope]
  | some binding => simp [hscope]

theorem sameOrder_iff (h : a.hashedContent = b.hashedContent) (i j : ℕ) (k l : String) :
    SameOrder (buildExecutionRequest a i k) (buildExecutionRequest b j l) ↔ SameUnhashed a b := by
  have hpart := hashedContent_bound h i j k l
  have hside := side_eq_iff a b i j k l
  have hlane := lane_eq_iff h i j k l
  have hlegs := routeLegs_eq_iff a.submissionPayload b.submissionPayload
  constructor
  · intro hsame
    exact ⟨hside.mp hsame.side, hlegs.mp hsame.routeLegs, hlane.mp hsame.selectedLaneId⟩
  · intro hsame
    exact ⟨hside.mpr hsame.side, hpart.size, hpart.venuePath, hlegs.mpr hsame.steps, hpart.userId,
      hlane.mpr hsame.lane, hpart.executionScopeToken, hpart.scopeBinding⟩

/-- Two requests with one binding hash make the same order exactly if they also agree in what the
hash does not bind. -/
theorem approval_binds_order_iff (hashes : Hashes) (stringify : ExecutionScopeBinding → String)
    (a b : SubmissionRequest)
    (hinjective : Set.InjOn (bindingHash hashes stringify) {a.hashedContent, b.hashedContent})
    (hhash : (evaluateApproval hashes (a.control stringify)).bindingHash =
      (evaluateApproval hashes (b.control stringify)).bindingHash) (i j : ℕ) (k l : String) :
    SameOrder (buildExecutionRequest a i k) (buildExecutionRequest b j l) ↔ SameUnhashed a b := by
  rw [evaluateApproval_bindingHash, evaluateApproval_bindingHash] at hhash
  have hcontent : a.hashedContent = b.hashedContent :=
    hinjective (Set.mem_insert _ _) (Set.mem_insert_of_mem _ rfl) hhash
  exact sameOrder_iff hcontent i j k l

/-- A request for ten shares at one venue, with an approval, and what its metadata and its plan
say. -/
def approvedRequest (metadata : Json) (steps : List Json) : SubmissionRequest where
  hashedContent := {
    routePlanId := some "plan", canonicalExecutableMarketId := "market", canonicalEventId := none
    userWalletReference := ⟨"user", none⟩, venueTargets := ["LIMITLESS"]
    requestedSize := some "10", requestedNotional := none, configVersion := "v1"
    engineVersion := "v1", submissionKind := .SOR_PLAN, executionScopeBinding := none }
  routeFreshnessMetadata := {
    routeGeneratedAt := 0, quoteObservedAt := none, quoteValidUntil := none
    marketStateObservedAt := none, compatibilityEvaluatedAt := none, approvalGrantedAt := none
    maxRouteAgeMs := 1000, maxQuoteAgeMs := none, maxMarketStateAgeMs := none
    maxCompatibilityAgeMs := none, maxApprovalAgeMs := none }
  approvalRequirements := ⟨true, some "market", some 0, none, none⟩
  idempotencyKey := none
  routeType := "SINGLE_VENUE"
  policyContext := ⟨true, true, true, true, false, true, true, true⟩
  submissionPayload := .object [("plan", .object [("steps", .array steps)])]
  metadata := some metadata

def marketHashes : Hashes where
  idempotency := fun binding => binding.principalId
  approval := fun binding => binding.canonicalExecutableMarketId
  stablePrefix := fun binding => binding.principalId

def legStep : Json :=
  .object [("providerId", .string "LIMITLESS"), ("roundedSize", .number ⟨10, "10", by decide +kernel⟩)]

/-- Two requests that differ in the fast lane alone make the same order. -/
theorem approval_binds_order_fastLane :
    SameOrder (buildExecutionRequest (approvedRequest (.object []) [legStep]) 0 "key")
      (buildExecutionRequest (approvedRequest (.object [("fastLaneEnabled", .bool true)])
        [legStep]) 0 "key") := by
  have hunhashed : SameUnhashed (approvedRequest (.object []) [legStep])
      (approvedRequest (.object [("fastLaneEnabled", .bool true)]) [legStep]) := by
    refine ⟨iff_of_false nofun nofun, ?_, fun _ => rfl⟩
    show List.Forall₂ SameStep [legStep] [legStep]
    exact .cons ⟨rfl, rfl, rfl, rfl, rfl⟩ .nil
  apply (approval_binds_order_iff marketHashes scopeId (approvedRequest (.object []) [legStep])
    (approvedRequest (.object [("fastLaneEnabled", .bool true)]) [legStep]) ?_ rfl
    0 0 "key" "key").mpr hunhashed
  show Set.InjOn _ {(approvedRequest (.object []) [legStep]).hashedContent,
    (approvedRequest (.object []) [legStep]).hashedContent}
  rw [Set.pair_eq_singleton]
  exact Set.injOn_singleton _ _

/-- The approval of the order to buy lets the order to sell pass, which has the same hash. -/
theorem approval_authorises_other_side :
    let buys := approvedRequest (.object []) [legStep]
    let sells := approvedRequest (.object [("executionSide", .string "sell")]) [legStep]
    buys.hashedContent = sells.hashedContent ∧
      buys.approvalRequirements = sells.approvalRequirements ∧
      (evaluateApproval marketHashes (buys.control scopeId)).status = .APPROVED ∧
      (evaluateApproval marketHashes (sells.control scopeId)).status = .APPROVED ∧
      (buildExecutionRequest buys 0 "key").request.side = .buy ∧
      (buildExecutionRequest sells 0 "key").request.side = .sell ∧
      ¬ SameOrder (buildExecutionRequest buys 0 "key") (buildExecutionRequest sells 0 "key") := by
  refine ⟨rfl, rfl, by decide, by decide, by decide, by decide, fun hsame => ?_⟩
  exact absurd hsame.side (by decide)

end LotusRfq.Control
