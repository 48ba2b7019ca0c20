import LotusRfq.Sor.PlanComposer

/-!
# LotusRfq — the cost model

`CostModel` prices a candidate at a size and puts the candidates in the order of their expected
cost. Its one operation on decimals that leaves the rationals is the power of the slippage
curve, which is a parameter here.

* **`evaluateCandidates_perm`** — there is one score for each candidate.
-/

namespace LotusRfq.Sor

open LotusRfq.Js

/-- A route candidate with the fields the cost model reads. -/
structure PricedCandidate extends ProvidedCandidate where
  quoted_price : ℚ
  fees : List (String × ℚ)
  latency_ms : ℕ
  fill_prob : ℚ
  deriving DecidableEq

/-- The bounds of `RouteCandidateSchema`. -/
def PricedCandidate.valid (candidate : PricedCandidate) : Bool :=
  candidate.provider_id ≠ "" && 0 ≤ candidate.available_size && 0 ≤ candidate.quoted_price &&
    candidate.fees.all (fun fee => 0 ≤ fee.2) && 0 ≤ candidate.fill_prob &&
    candidate.fill_prob ≤ 1

structure CostModelConfig where
  slippageAlpha : ℚ := 1 / 1000
  slippageBeta : ℚ := 11 / 10
  expectedRecoveryCost : ℚ := 1 / 10
  timeValueOfMoneyCost : ℚ := 1 / 100
  latencyPenaltyPerMs : ℚ := 1 / 10000

structure CandidateScoreBreakdown where
  effective_cost : ℚ
  failure_cost : ℚ
  latency_penalty : ℚ
  resolution_risk_penalty : ℚ
  total_score : ℚ

structure CostBreakdown where
  effectiveUnitCost : ℚ
  basePrice : ℚ
  providerFee : ℚ
  protocolFee : ℚ
  gasCost : ℚ
  feeTotal : ℚ
  latencyPenalty : ℚ
  failurePenalty : ℚ
  resolutionRiskPenalty : ℚ

/-- A score with the fields the splitter does not read. -/
structure EvaluatedCandidate extends CandidateScore where
  totalExpectedCost : ℚ
  breakdown : CostBreakdown

def feeTotal (candidate : PricedCandidate) : ℚ := (candidate.fees.map Prod.snd).sum

section CostModel

variable (pow : ℚ → ℚ → ℚ) (config : CostModelConfig)

def scoreCandidate (candidate : PricedCandidate) (size resolutionRiskPenalty : ℚ) :
    CandidateScoreBreakdown :=
  let tradeSize := max size 0
  let availableSize := max candidate.available_size (1 / 1000000000)
  let notional := candidate.quoted_price * tradeSize
  let slippageRatio := config.slippageAlpha * pow (tradeSize / availableSize) config.slippageBeta
  let effectiveCost := notional + notional * slippageRatio + feeTotal candidate
  let isInternal := candidate.provider_type = .INTERNAL_CROSS
  let failureProb := 1 - max 0 (min 1 candidate.fill_prob)
  let failureCost := if isInternal then 0
    else failureProb * (config.expectedRecoveryCost + config.timeValueOfMoneyCost)
  let latencyPenalty := if isInternal then 0
    else candidate.latency_ms * config.latencyPenaltyPerMs
  { effective_cost := effectiveCost
    failure_cost := failureCost
    latency_penalty := latencyPenalty
    resolution_risk_penalty := resolutionRiskPenalty
    total_score := effectiveCost + failureCost + latencyPenalty + resolutionRiskPenalty }

/-- The callback `evaluateCandidates` maps over the candidates. -/
def evaluateCandidate (quantity : ℚ) (candidate : PricedCandidate) : EvaluatedCandidate :=
  let scored := scoreCandidate pow config candidate quantity 0
  let size := max quantity (1 / 1000000000)
  { candidateId := candidate.id
    providerId := candidate.provider_id
    effectiveUnitCost := scored.total_score / size
    totalExpectedCost := scored.total_score
    breakdown :=
      { effectiveUnitCost := scored.effective_cost / size
        basePrice := candidate.quoted_price
        providerFee := (candidate.fees.lookup "provider_fee").getD 0
        protocolFee := (candidate.fees.lookup "protocol_fee").getD 0
        gasCost := (candidate.fees.lookup "gas_cost").getD 0
        feeTotal := feeTotal candidate
        latencyPenalty := scored.latency_penalty
        failurePenalty := scored.failure_cost
        resolutionRiskPenalty := scored.resolution_risk_penalty } }

def evaluateCandidates (candidates : List PricedCandidate) (quantity : ℚ) :
    List EvaluatedCandidate :=
  sortWith (fun a b => compare a.totalExpectedCost b.totalExpectedCost)
    (candidates.map (evaluateCandidate pow config quantity))

theorem evaluateCandidates_perm (candidates : List PricedCandidate) (quantity : ℚ) :
    (evaluateCandidates pow config candidates quantity).Perm
      (candidates.map (evaluateCandidate pow config quantity)) :=
  sortWith_perm _ _

end CostModel

end LotusRfq.Sor
