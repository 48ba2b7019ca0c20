import LotusRfq.Routing.Decimals

/-!
# LotusRfq — candidates and the scores of routes

A leg is made from a candidate; the score of a route looks the candidates up by venue, where the
last candidate of a venue in the list stands for all of it. Venues are given in upper case, as the
code reads them.

* **`candidateByVenue_eq_some`** — which candidate a venue stands for.
-/

namespace LotusRfq.Routing

inductive TradeSide where
  | buy | sell

inductive TradeRouteType where
  | CROSS_VENUE | SINGLE_VENUE

structure TradeRouteCandidate where
  venue : String
  price : ℚ
  availableSize : ℚ≥0
  requiresUserSignature : Bool := false
  feeBps : Option ℚ := none
  feeAmount : Option ℚ := none
  effectiveFeeBps : Option ℚ := none
  feeConfidence : Option String := none
  fixedFee : Option ℚ := none
  spreadBps : Option ℚ := none
  slippageBps : Option ℚ := none
  liquidityScore : Option ℚ := none
  confidencePenaltyBps : Option ℚ := none
  missingFactors : List String := []
deriving DecidableEq

structure ExecutableRouteLeg where
  venue : String
  size : ℚ
  price : ℚ
  feeAmount : Option ℚ
  effectiveFeeBps : Option ℚ
  feeConfidence : Option String
  requiresUserSignature : Bool

structure ScoredRoute where
  routeType : TradeRouteType
  legs : List ExecutableRouteLeg
  rawNotional : ℚ
  feeNotional : ℚ
  slippageNotional : ℚ
  feeEvidenceComplete : Bool
  effectiveNotional : ℚ
  score : ℚ
  skippedDustVenues : List String
  stagingForced : Bool := false

def extraVenuePenaltyBps : ℚ := 2
def userSignaturePenaltyBps : ℚ := 5
def liquidityPenaltyBps : ℚ := 1

def nonNegative (value : Option ℚ) : ℚ := max 0 (value.getD 0)

def liquidityPenalty : Option ℚ → ℚ
  | none => 0
  | some score => (1 - max 0 (min 1 score)) * liquidityPenaltyBps

def effectiveCandidatePrice (side : TradeSide) (candidate : TradeRouteCandidate) (size : ℚ) : ℚ :=
  let basis := max candidate.price 0
  let feeBps := candidate.effectiveFeeBps <|> candidate.feeBps
  let variableBps := nonNegative feeBps + nonNegative candidate.spreadBps +
    nonNegative candidate.slippageBps
  let fixedFeeImpact := if 0 < size then nonNegative candidate.fixedFee / size else 0
  let signaturePenaltyBps := if candidate.requiresUserSignature then userSignaturePenaltyBps else 0
  let adjustment := basis * ((variableBps + liquidityPenalty candidate.liquidityScore +
    signaturePenaltyBps + nonNegative candidate.confidencePenaltyBps) / 10000) + fixedFeeImpact
  match side with
  | .buy => basis + adjustment
  | .sell => basis - adjustment

def prorateFee (candidate : TradeRouteCandidate) (size : ℚ) : ℚ :=
  match candidate.feeAmount with
  | some feeAmount =>
    if 0 < candidate.availableSize then
      nonNegative (some feeAmount) * (size / candidate.availableSize)
    else nonNegative (some feeAmount)
  | none =>
    candidate.price * size * nonNegative (candidate.effectiveFeeBps <|> candidate.feeBps) / 10000

def requiresUserSignature (candidate : TradeRouteCandidate) : Bool :=
  candidate.requiresUserSignature || candidate.venue == "POLYMARKET"

def toLeg (candidate : TradeRouteCandidate) (size : ℚ) : ExecutableRouteLeg where
  venue := candidate.venue
  size := decimal size
  price := candidate.price
  feeAmount := candidate.feeAmount.map fun _ => prorateFee candidate size
  effectiveFeeBps := candidate.effectiveFeeBps
  feeConfidence := candidate.feeConfidence.filter (· ≠ "")
  requiresUserSignature := requiresUserSignature candidate

def routeFrictionNotional (side : TradeSide) (legs : List ExecutableRouteLeg) : ℚ :=
  let extraVenueCount : ℚ := (legs.length - 1 : ℕ)
  let rawNotional := (legs.map fun leg => leg.size * leg.price).sum
  let friction := rawNotional * (extraVenueCount * extraVenuePenaltyBps) / 10000
  match side with
  | .buy => friction
  | .sell => -friction

/-- `new Map(sourceCandidates.map(…))`, where the last entry of a key stays. -/
def candidateByVenue (sourceCandidates : List TradeRouteCandidate) (venue : String) :
    Option TradeRouteCandidate :=
  sourceCandidates.reverse.find? fun candidate => candidate.venue = venue

/-- The figures of a route, each leg with the candidate that it is scored with. -/
def scoreLegs (side : TradeSide) (routeType : TradeRouteType)
    (scored : List (ExecutableRouteLeg × Option TradeRouteCandidate))
    (skippedDustVenues : List String) : ScoredRoute :=
  let legs := scored.map Prod.fst
  let candidateAdjustedNotional := (scored.map fun entry => entry.1.size *
    match entry.2 with
    | some candidate => effectiveCandidatePrice side candidate entry.1.size
    | none => entry.1.price).sum
  let effectiveNotional := candidateAdjustedNotional + routeFrictionNotional side legs
  { routeType := routeType
    legs := legs
    rawNotional := (legs.map fun leg => leg.size * leg.price).sum
    feeNotional := (scored.map fun entry =>
      (entry.2.map fun candidate => prorateFee candidate entry.1.size).getD 0).sum
    slippageNotional := (scored.map fun entry =>
      entry.1.size * entry.1.price * nonNegative (entry.2.bind (·.slippageBps)) / 10000).sum
    feeEvidenceComplete := scored.all fun entry => entry.2.any fun candidate =>
      !candidate.missingFactors.contains "FEE_DISCOVERY" &&
        (candidate.feeAmount.isSome || candidate.effectiveFeeBps.isSome ||
          candidate.feeBps.isSome) &&
        candidate.feeConfidence != some "LOW"
    effectiveNotional := effectiveNotional
    score := effectiveNotional
    skippedDustVenues := skippedDustVenues.eraseDups }

def scoreRoute (side : TradeSide) (routeType : TradeRouteType) (legs : List ExecutableRouteLeg)
    (sourceCandidates : List TradeRouteCandidate) (skippedDustVenues : List String) : ScoredRoute :=
  scoreLegs side routeType
    (legs.map fun leg => (leg, candidateByVenue sourceCandidates leg.venue)) skippedDustVenues

/-! ## The candidate that a venue stands for -/

/-- A candidate which no candidate of its venue comes after. -/
def LastOfVenue (sourceCandidates : List TradeRouteCandidate) (candidate : TradeRouteCandidate) :
    Prop :=
  ∃ before after, sourceCandidates = before ++ candidate :: after ∧
    ∀ other ∈ after, other.venue ≠ candidate.venue

theorem candidateByVenue_eq_some {sourceCandidates : List TradeRouteCandidate}
    {candidate : TradeRouteCandidate} :
    candidateByVenue sourceCandidates candidate.venue = some candidate ↔
      LastOfVenue sourceCandidates candidate := by
  rw [candidateByVenue, List.find?_eq_some_iff_append]
  constructor
  · intro ⟨_, later, earlier, heq, hlater⟩
    refine ⟨earlier.reverse, later.reverse, ?_, fun other hother => ?_⟩
    · have hreverse := congrArg List.reverse heq
      simpa using hreverse
    · simpa using hlater other (List.mem_reverse.mp hother)
  · intro ⟨before, after, heq, hafter⟩
    refine ⟨decide_eq_true rfl, after.reverse, before.reverse, ?_, fun other hother => ?_⟩
    · rw [heq]
      simp
    · simpa using hafter other (List.mem_reverse.mp hother)

end LotusRfq.Routing
