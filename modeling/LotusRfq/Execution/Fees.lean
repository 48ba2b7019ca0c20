import LotusRfq.Common.Exposure
import LotusRfq.Execution.Types

/-!
# LotusRfq — the fees of an execution

Lotus takes a share of the price improvement, capped by the notional. While the fees are in
shadow mode nothing is collected but what a venue's settlement evidence says it paid as builder
fee. Every fee that is recorded becomes an entry of the ledger.
-/

namespace LotusRfq.Execution

inductive MonetizationCaptureMode where
  | DISABLED
  | SHADOW
  | BUILDER_FEE_ONLY
  | SHADOW_PLUS_BUILDER_FEE
  | SMART_FEE_ROUTER_PLANNED
  deriving DecidableEq

inductive MonetizationMode where
  | DISABLED
  | SHADOW
  | ENFORCED

structure MonetizationPolicy where
  mode : MonetizationMode
  policyVersion : String
  currency : String
  priceImprovementShareBps : ℕ
  executionFeeBps : ℕ
  fastLaneFeeBps : ℕ
  ghostFillProtectionFeeBps : ℕ
  maxTotalFeeBps : ℕ
  captureMode : MonetizationCaptureMode

def isBuilderFeeCaptureEnabled (policy : MonetizationPolicy) : Bool :=
  policy.captureMode = .BUILDER_FEE_ONLY ∨ policy.captureMode = .SHADOW_PLUS_BUILDER_FEE

def isShadowImprovementEnabled (policy : MonetizationPolicy) : Bool :=
  policy.captureMode ≠ .DISABLED

/-! ## `ExecutionFeeService` -/

structure FeeConfigV0 where
  priceImprovementShare : Option ℚ
  fastLaneFee : Option ℚ
  ghostFillProtectionFee : Option ℚ
  futureSettlementFee : ℚ
  policy : Option MonetizationPolicy

structure ExecutionFeeSummary where
  policyVersion : String
  currency : String
  mode : MonetizationMode
  captureMode : MonetizationCaptureMode
  priceImprovementFee : ℚ
  executionFee : ℚ
  fastLaneFee : ℚ
  ghostFillProtectionFee : ℚ
  futureSettlementFee : ℚ
  totalLotusFee : ℚ
  /-- No cap is `Number.POSITIVE_INFINITY`. -/
  notionalCap : Option ℚ
  capApplied : Bool
  actualBuilderFeesCollected : ℚ
  shadowImprovementFees : ℚ
  uncollectedImprovementOpportunity : ℚ
  userFeeDisclosureLabel : String
  totalFees : ℚ

def notCollectedLabel : String := "Estimated Lotus improvement share, not collected."

structure FeeInput where
  expectedPrice : ℚ
  realizedPrice : ℚ
  size : ℚ
  side : ExecutionSide
  fastLaneEnabled : Bool
  ghostFillProtectionEnabled : Bool

def legacyFees (config : FeeConfigV0) (input : FeeInput) : ExecutionFeeSummary :=
  let legacyImprovement := max 0 (input.expectedPrice - input.realizedPrice) * input.size
  let legacyPriceImprovementFee := legacyImprovement * config.priceImprovementShare.getD (1 / 10)
  let legacyFastLaneFee := if input.fastLaneEnabled then config.fastLaneFee.getD 0 else 0
  let legacyGhostFillProtectionFee :=
    if input.ghostFillProtectionEnabled then config.ghostFillProtectionFee.getD 0 else 0
  let legacyTotal := legacyPriceImprovementFee + legacyFastLaneFee +
    legacyGhostFillProtectionFee + config.futureSettlementFee
  { policyVersion := "legacy-fees-v0"
    currency := "USDC"
    mode := .SHADOW
    captureMode := .SHADOW
    priceImprovementFee := legacyPriceImprovementFee
    executionFee := 0
    fastLaneFee := legacyFastLaneFee
    ghostFillProtectionFee := legacyGhostFillProtectionFee
    futureSettlementFee := config.futureSettlementFee
    totalLotusFee := legacyTotal
    notionalCap := none
    capApplied := false
    actualBuilderFeesCollected := 0
    shadowImprovementFees := legacyTotal
    uncollectedImprovementOpportunity := legacyTotal
    userFeeDisclosureLabel := notCollectedLabel
    totalFees := legacyTotal }

def policyFees (policy : MonetizationPolicy) (futureSettlementFee : ℚ) (input : FeeInput) :
    ExecutionFeeSummary :=
  let improvementPerUnit := match input.side with
    | .sell => input.realizedPrice - input.expectedPrice
    | .buy => input.expectedPrice - input.realizedPrice
  let improvement := max 0 improvementPerUnit * input.size
  let filledNotional := max 0 (input.realizedPrice * input.size)
  let priceImprovementFee := improvement * policy.priceImprovementShareBps / 10000
  let executionFee := filledNotional * policy.executionFeeBps / 10000
  let fastLaneFee :=
    if input.fastLaneEnabled then improvement * policy.fastLaneFeeBps / 10000 else 0
  let ghostFillProtectionFee :=
    if input.ghostFillProtectionEnabled then
      improvement * policy.ghostFillProtectionFeeBps / 10000
    else 0
  let uncappedTotal :=
    if ¬ isShadowImprovementEnabled policy then 0
    else priceImprovementFee + executionFee + fastLaneFee + ghostFillProtectionFee +
      futureSettlementFee
  let notionalCap := filledNotional * policy.maxTotalFeeBps / 10000
  let totalLotusFee := min uncappedTotal notionalCap
  { policyVersion := policy.policyVersion
    currency := policy.currency
    mode := policy.mode
    captureMode := policy.captureMode
    priceImprovementFee := priceImprovementFee
    executionFee := executionFee
    fastLaneFee := fastLaneFee
    ghostFillProtectionFee := ghostFillProtectionFee
    futureSettlementFee := futureSettlementFee
    totalLotusFee := totalLotusFee
    notionalCap := some notionalCap
    capApplied := uncappedTotal > notionalCap
    actualBuilderFeesCollected := 0
    shadowImprovementFees := totalLotusFee
    uncollectedImprovementOpportunity := totalLotusFee
    userFeeDisclosureLabel := notCollectedLabel
    totalFees := totalLotusFee }

def calculate (config : FeeConfigV0) (input : FeeInput) : ExecutionFeeSummary :=
  match config.policy with
  | none => legacyFees config input
  | some policy => policyFees policy config.futureSettlementFee input

def realized (config : FeeConfigV0) (request : ExecutionRequestV0) (realizedPrice : ℚ) :
    ExecutionFeeSummary :=
  calculate config
    { expectedPrice := request.expectedPrice
      realizedPrice := realizedPrice
      size := request.size
      side := request.side
      fastLaneEnabled := request.fastLaneEnabled
      ghostFillProtectionEnabled := request.ghostFillProtectionEnabled }

def preview (config : FeeConfigV0) (request : ExecutionRequestV0) : ExecutionFeeSummary :=
  realized config request request.expectedPrice

/-! ## Builder fees -/

def numericMetadata : JsValue → Option ℚ
  | .number value => if 0 ≤ value then some value else none
  | .text value number =>
    if Js.hasText value then number.filter fun parsed => 0 ≤ parsed else none
  | _ => none

/-- The first of the keys under which a record has a number. -/
def numberUnder (fields : JsRecord) (keys : List String) : Option ℚ :=
  keys.findSome? fun key => numericMetadata (fields.get key)

mutual

/-- The number under one of the keys, in the value or the first value inside that has one. -/
def findNumericEvidence (keys : List String) : JsValue → Option ℚ
  | .record fields => (numberUnder fields keys).or (findInFields keys fields)
  | .array items => findInItems keys items
  | _ => none

def findInFields (keys : List String) : JsRecord → Option ℚ
  | [] => none
  | (_, value) :: fields => (findNumericEvidence keys value).or (findInFields keys fields)

def findInItems (keys : List String) : List JsValue → Option ℚ
  | [] => none
  | value :: items => (findNumericEvidence keys value).or (findInItems keys items)

end

def builderFeeAmountKeys : List String :=
  ["builderFeeAmount", "builder_fee_amount", "builderFeeCollected", "builder_fee_collected",
    "builderFee", "builder_fee"]

def builderFeeBpsKeys : List String :=
  ["builderFeeBps", "builder_fee_bps", "builderFeeRateBps", "builder_fee_rate_bps", "tbf", "mbf"]

def extractConfirmedBuilderFeeAmount (leg : ExecutionLegV0) (evidence : Option JsRecord) :
    Option ℚ :=
  match evidence with
  | none => none
  | some evidence =>
    match findNumericEvidence builderFeeAmountKeys (.record evidence) with
    | some directAmount => some directAmount
    | none =>
      match findNumericEvidence builderFeeBpsKeys (.record evidence) with
      | some feeBps => some (leg.size * leg.price * feeBps / 10000)
      | none => none

structure BuilderFeeRow where
  leg : ExecutionLegV0
  amount : ℚ

/-- What the settlement evidence says the venue paid for each leg. -/
def builderFeeRows (policy : MonetizationPolicy) (legs : List ExecutionLegV0)
    (evidence : List (ExecutionLegId × JsRecord)) : List BuilderFeeRow :=
  if ¬ isBuilderFeeCaptureEnabled policy then []
  else
    (legs.filter fun leg => leg.venue.toUpper = "POLYMARKET").filterMap fun leg =>
      match extractConfirmedBuilderFeeAmount leg (evidence.lookup leg.executionLegId) with
      | some amount => if 0 < amount then some ⟨leg, amount⟩ else none
      | none => none

/-! ## The ledger -/

structure LedgerEntry where
  idempotencyKey : String
  executionId : String
  rfqId : String
  quoteId : Option String
  userId : String
  venue : String
  laneId : String
  feePolicyVersion : String
  feeType : String
  status : String
  amount : ℚ
  currency : String
  captureMode : MonetizationCaptureMode
  revenueSource : String
  settlementStatus : SettlementStatusV0

def stringMetadata (metadata : JsRecord) (key : String) : Option String :=
  match metadata.get key with
  | .text value _ => if Js.hasText value then some value else none
  | _ => none

def shadowEntry (policy : MonetizationPolicy) (request : ExecutionRequestV0)
    (fees : ExecutionFeeSummary) : LedgerEntry :=
  { idempotencyKey :=
      request.executionId ++ ":SHADOW_PRICE_IMPROVEMENT:" ++ policy.policyVersion
    executionId := request.executionId
    rfqId := request.rfqId
    quoteId := stringMetadata request.metadata "quoteId"
    userId := request.userId
    venue := "|".intercalate request.venuePath
    laneId := request.selectedLaneId
    feePolicyVersion := policy.policyVersion
    feeType := "LOTUS_SHADOW_PRICE_IMPROVEMENT"
    status := "SHADOW_ONLY"
    amount := fees.shadowImprovementFees
    currency := fees.currency
    captureMode := policy.captureMode
    revenueSource := "SHADOW_PRICE_IMPROVEMENT"
    settlementStatus := .SETTLEMENT_VERIFIED }

def builderEntry (policy : MonetizationPolicy) (request : ExecutionRequestV0)
    (fees : ExecutionFeeSummary) (row : BuilderFeeRow) : LedgerEntry :=
  { idempotencyKey := request.executionId ++ ":POLYMARKET_BUILDER_FEE:" ++
      row.leg.executionLegId.text ++ ":" ++ policy.policyVersion
    executionId := request.executionId
    rfqId := request.rfqId
    quoteId := stringMetadata request.metadata "quoteId"
    userId := request.userId
    venue := row.leg.venue
    laneId := request.selectedLaneId
    feePolicyVersion := policy.policyVersion
    feeType := "LOTUS_BUILDER_FEE"
    status := "COLLECTED_BUILDER_FEE"
    amount := toDecimalPlaces 8 row.amount
    currency := fees.currency
    captureMode := policy.captureMode
    revenueSource := "POLYMARKET_BUILDER_FEE"
    settlementStatus := .SETTLEMENT_VERIFIED }

/-- The entries of a settled execution: the shadow fee, then the builder fees. -/
def ledgerEntries (policy : MonetizationPolicy) (request : ExecutionRequestV0)
    (fees : ExecutionFeeSummary) (legs : List ExecutionLegV0)
    (evidence : List (ExecutionLegId × JsRecord)) : List LedgerEntry :=
  (if isShadowImprovementEnabled policy then [shadowEntry policy request fees] else []) ++
    (builderFeeRows policy legs evidence).map (builderEntry policy request fees)

end LotusRfq.Execution
