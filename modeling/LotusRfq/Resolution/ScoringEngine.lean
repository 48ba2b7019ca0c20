import LotusRfq.Resolution.PairComparator
import LotusRfq.Sor.Types

/-!
# LotusRfq — `ResolutionRiskScoringEngine`

The factors of a comparison are weighed into a risk score and a confidence score, and these,
with a few hard blockers, become an equivalence class. `Decimal` keeps twenty significant
digits. Profiles of different markets are not scored: their class is the last one.

* **`score_of_valid`** — a valid input is always scored.
-/

namespace LotusRfq.Resolution

open LotusRfq.Js Decimals
open Sor (ResolutionEquivalenceClass)

def FACTOR_ORDER : List FactorName :=
  [.oracleMismatch, .ruleMismatch, .wordingAmbiguity, .disputeWindowMismatch,
    .settlementLagMismatch, .structuralMismatch, .historicalDivergence]

def FactorName.text : FactorName → String
  | .oracleMismatch => "oracleMismatch"
  | .ruleMismatch => "ruleMismatch"
  | .wordingAmbiguity => "wordingAmbiguity"
  | .disputeWindowMismatch => "disputeWindowMismatch"
  | .settlementLagMismatch => "settlementLagMismatch"
  | .structuralMismatch => "structuralMismatch"
  | .historicalDivergence => "historicalDivergence"

abbrev ResolutionRiskScoringWeights : Type := FactorName → ℚ

structure ResolutionRiskEquivalenceThresholds where
  safeEquivalentMaxRisk : ℚ
  safeEquivalentMinConfidence : ℚ
  cautionMaxRisk : ℚ
  highRiskMaxRisk : ℚ
  doNotPoolMinRisk : ℚ
  lowConfidenceThreshold : ℚ

/-- What the engine is configured with; what is missing has a default. -/
structure ResolutionRiskScoringConfig where
  weights : Option ResolutionRiskScoringWeights
  thresholds : Option ResolutionRiskEquivalenceThresholds
  conservativeDowngradeOnLowConfidence : Option Bool

structure ResolutionRiskScoringEngine where
  weights : ResolutionRiskScoringWeights
  thresholds : ResolutionRiskEquivalenceThresholds
  conservativeDowngradeOnLowConfidence : Bool

def DEFAULT_FACTOR_WEIGHTS : ResolutionRiskScoringWeights
  | .oracleMismatch => 22 / 100
  | .ruleMismatch => 20 / 100
  | .wordingAmbiguity => 16 / 100
  | .disputeWindowMismatch => 12 / 100
  | .settlementLagMismatch => 10 / 100
  | .structuralMismatch => 10 / 100
  | .historicalDivergence => 10 / 100

def DEFAULT_THRESHOLDS : ResolutionRiskEquivalenceThresholds :=
  { safeEquivalentMaxRisk := 20 / 100
    safeEquivalentMinConfidence := 70 / 100
    cautionMaxRisk := 45 / 100
    highRiskMaxRisk := 75 / 100
    doNotPoolMinRisk := 75 / 100
    lowConfidenceThreshold := 50 / 100 }

def ResolutionRiskScoringConfig.engine (config : ResolutionRiskScoringConfig) :
    ResolutionRiskScoringEngine :=
  { weights := config.weights.getD DEFAULT_FACTOR_WEIGHTS
    thresholds := config.thresholds.getD DEFAULT_THRESHOLDS
    conservativeDowngradeOnLowConfidence :=
      config.conservativeDowngradeOnLowConfidence.getD true }

inductive ResolutionRiskScoringError where
  | invalid_factor_comparison
  | invalid_scoring_input
  deriving DecidableEq

structure ResolutionRiskScoringInput where
  canonicalEventId : String
  profileA : NormalizedResolutionProfile
  profileB : NormalizedResolutionProfile
  factorComparison : ResolutionFactorComparisonResult
  version : String

structure ResolutionRiskAssessment where
  canonicalEventId : String
  canonicalMarketId : String
  marketAProfileId : String
  marketBProfileId : String
  riskScore : ℚ
  confidenceScore : ℚ
  equivalenceClass : ResolutionEquivalenceClass
  /-- An empty record of factors is `none`. -/
  factorBreakdown : Option ResolutionFactorComparisonResult
  reasons : List String
  version : String
  liquidityCost : ℚ
  /-- `NaN` is `none`. -/
  maxSettlementDelayHours : Option ℚ

/-! ## Market identities -/

/-- Drops the characters from both ends. -/
def stripEnds (drop : Char → Bool) (text : List Char) : List Char :=
  ((text.dropWhile drop).reverse.dropWhile drop).reverse

def normalizeVenueSegment (venue : Option String) : List Char :=
  let segment := replaceRuns (fun c => ¬ c.isAlphanum) '_' (trim (venue.getD "")).toList
  (stripEnds (· = '_') segment).map Char.toUpper

def FALLBACK_VENUES : List String :=
  ["POLYMARKET", "LIMITLESS", "PREDICT", "PREDICT_FUN", "PREDICTIFY", "OPINION", "MYRIAD"]

/-- `text.slice(0, -length)`. -/
def dropLast (length : ℕ) (text : List Char) : List Char := text.take (text.length - length)

/-- `FALLBACK_VENUE_SUFFIX_PATTERN`, taken off a text it matches. -/
def dropFallbackVenue (text : List Char) : List Char :=
  match FALLBACK_VENUES.find? fun venue =>
      (':' :: venue.toList).isSuffixOf (text.map Char.toUpper) with
  | some venue => dropLast (venue.length + 1) text
  | none => text

variable (runtime : Runtime)

def normalizeCanonicalMarketIdentity (canonicalMarketId venue : Option String) : String :=
  let trimmed := trim (canonicalMarketId.getD "")
  let venueSegment := normalizeVenueSegment venue
  if venueSegment ≠ [] ∧
      (':' :: venueSegment).isSuffixOf (runtime.toUpperCase trimmed).toList then
    String.ofList (dropLast (venueSegment.length + 1) trimmed.toList)
  else String.ofList (dropFallbackVenue trimmed.toList)

/-- The market a profile belongs to, without the suffix of its venue. -/
def NormalizedResolutionProfile.market (profile : NormalizedResolutionProfile) : String :=
  normalizeCanonicalMarketIdentity runtime profile.canonicalMarketId profile.venue

/-! ## Scores -/

def validFactor (factor : ResolutionFactorComparison) : Prop :=
  0 ≤ factor.score ∧ factor.score ≤ 1 ∧ 0 ≤ factor.confidence ∧ factor.confidence ≤ 1

instance (factor : ResolutionFactorComparison) : Decidable (validFactor factor) :=
  inferInstanceAs (Decidable (_ ∧ _))

def validateInput (input : ResolutionRiskScoringInput) :
    Except ResolutionRiskScoringError Unit := do
  require (hasText input.canonicalEventId ∧ hasText input.profileA.id ∧
    hasText input.profileB.id ∧ hasText input.version) .invalid_scoring_input
  require (input.profileA.id ≠ input.profileB.id) .invalid_scoring_input
  require (∀ factorName ∈ FACTOR_ORDER, validFactor (input.factorComparison factorName))
    .invalid_factor_comparison

/-- `left.plus(right)`. -/
def plus (left right : ℚ) : ℚ := toSignificant precision (left + right)

/-- `left.times(right)`. -/
def times (left right : ℚ) : ℚ := toSignificant precision (left * right)

def clampDecimal (value : ℚ) : ℚ := if value < 0 then 0 else if value > 1 then 1 else value

namespace ResolutionRiskScoringEngine

variable (engine : ResolutionRiskScoringEngine)

def computeWeightedValue (field : FactorName → ℚ) : ℚ :=
  FACTOR_ORDER.foldl
    (fun acc factorName => plus acc (times (engine.weights factorName) (field factorName))) 0

/-- How complete the metadata is, from the confidence in each factor but the historical one. -/
def metadataCompletenessScore (confidence : FactorName → ℚ) : ℚ :=
  let nonHistoricalFactors :=
    (FACTOR_ORDER.filter (· ≠ .historicalDivergence)).map confidence
  if nonHistoricalFactors.any (· ≤ 2 / 5) then 3 / 10
  else if nonHistoricalFactors.all (1 ≤ ·) then 1
  else if nonHistoricalFactors.all (3 / 4 ≤ ·) then 3 / 4
  else 1 / 2

def computeConfidenceScore (factorComparison : ResolutionFactorComparisonResult) : ℚ :=
  let confidence := fun factorName => (factorComparison factorName).confidence
  let baseFactorConfidence := engine.computeWeightedValue confidence
  let historicalCoverageScore := confidence .historicalDivergence
  clampDecimal (plus
    (plus (times baseFactorConfidence (7 / 10))
      (times (metadataCompletenessScore confidence) (2 / 10)))
    (times historicalCoverageScore (1 / 10)))

def isOutcomeSymmetric (factorComparison : ResolutionFactorComparisonResult) : Bool :=
  (factorComparison .oracleMismatch).score = 0 ∧ (factorComparison .ruleMismatch).score = 0 ∧
    (factorComparison .structuralMismatch).score = 0 ∧
    (factorComparison .wordingAmbiguity).score = 0

def classification (riskScore : ℚ) (factorComparison : ResolutionFactorComparisonResult) :
    ResolutionEquivalenceClass :=
  if (factorComparison .oracleMismatch).score = 1 ∨ (factorComparison .ruleMismatch).score = 1 ∨
      (factorComparison .structuralMismatch).score = 1 ∨
      riskScore ≥ engine.thresholds.doNotPoolMinRisk then
    .DO_NOT_POOL
  else if riskScore ≥ engine.thresholds.cautionMaxRisk then
    if isOutcomeSymmetric factorComparison then .EQUIVALENT_WITH_LAG else .HIGH_RISK
  else if riskScore ≥ engine.thresholds.safeEquivalentMaxRisk then
    if isOutcomeSymmetric factorComparison then .EQUIVALENT_WITH_LAG else .CAUTION
  else .SAFE_EQUIVALENT

def downgrade : ResolutionEquivalenceClass → ResolutionEquivalenceClass
  | .SAFE_EQUIVALENT | .EQUIVALENT_WITH_LAG => .CAUTION
  | .CAUTION => .HIGH_RISK
  | .HIGH_RISK => .DO_NOT_POOL
  | equivalenceClass => equivalenceClass

def mapEquivalenceClass (riskScore confidenceScore : ℚ)
    (factorComparison : ResolutionFactorComparisonResult) : ResolutionEquivalenceClass :=
  let classification := engine.classification riskScore factorComparison
  if engine.conservativeDowngradeOnLowConfidence ∧
      confidenceScore < engine.thresholds.lowConfidenceThreshold then
    downgrade classification
  else if classification = .SAFE_EQUIVALENT ∧
      confidenceScore < engine.thresholds.safeEquivalentMinConfidence then
    if isOutcomeSymmetric factorComparison then .EQUIVALENT_WITH_LAG else .CAUTION
  else classification

def buildReasons (factorComparison : ResolutionFactorComparisonResult) : List String :=
  distinct (FACTOR_ORDER.filterMap fun factorName =>
    let factor := factorComparison factorName
    if factor.score > 0 ∨ factor.confidence < 1 then
      some (factorName.text ++ ": " ++ factor.reason.getD
        "comparison indicates non-zero risk or reduced confidence")
    else none)

/-- The hours until a market is settled for good. -/
def maxDelay (profile : NormalizedResolutionProfile) : Option ℚ := do
  let disputeWindow ← numberOfText (profile.disputeWindowHours.getD "0")
  let settlementLag ← numberOfText (profile.settlementLagHours.getD "0")
  return disputeWindow + settlementLag

def calculateMaxSettlementDelay (profileA profileB : NormalizedResolutionProfile) : Option ℚ := do
  let profileAMaxDelay ← maxDelay profileA
  let profileBMaxDelay ← maxDelay profileB
  return |profileAMaxDelay - profileBMaxDelay|

/-- A year of the delay costs 15% of the size. -/
def liquidityCost (maxSettlementDelayHours : Option ℚ) : ℚ :=
  match maxSettlementDelayHours with
  | some hours =>
    if hours > 0 then toSignificant precision (times (15 / 100) hours / 8760) else 0
  | none => 0

/-- `left || right`. -/
def orElse (left right : String) : String := if left = "" then right else left

def identityMismatch (input : ResolutionRiskScoringInput) : ResolutionRiskAssessment :=
  { canonicalEventId := input.canonicalEventId
    canonicalMarketId := "IDENTITY_MISMATCH"
    marketAProfileId := input.profileA.id
    marketBProfileId := input.profileB.id
    riskScore := 1
    confidenceScore := 1
    equivalenceClass := .DO_NOT_POOL
    factorBreakdown := none
    reasons := ["Market identity mismatch: " ++
      input.profileA.canonicalMarketId.getD "undefined" ++ " vs " ++
      input.profileB.canonicalMarketId.getD "undefined"]
    version := input.version
    liquidityCost := 0
    maxSettlementDelayHours := some 0 }

def assess (input : ResolutionRiskScoringInput) : ResolutionRiskAssessment :=
  let riskScore := engine.computeWeightedValue fun factorName =>
    (input.factorComparison factorName).score
  let confidenceScore := engine.computeConfidenceScore input.factorComparison
  let maxSettlementDelayHours := calculateMaxSettlementDelay input.profileA input.profileB
  { canonicalEventId := input.canonicalEventId
    canonicalMarketId := orElse (input.profileA.market runtime)
      (orElse (input.profileA.canonicalMarketId.getD "") input.canonicalEventId)
    marketAProfileId := input.profileA.id
    marketBProfileId := input.profileB.id
    riskScore := clampDecimal riskScore
    confidenceScore := clampDecimal confidenceScore
    equivalenceClass :=
      engine.mapEquivalenceClass riskScore confidenceScore input.factorComparison
    factorBreakdown := some input.factorComparison
    reasons := buildReasons input.factorComparison
    version := input.version
    liquidityCost := clampDecimal (liquidityCost maxSettlementDelayHours)
    maxSettlementDelayHours := maxSettlementDelayHours }

def score (input : ResolutionRiskScoringInput) :
    Except ResolutionRiskScoringError ResolutionRiskAssessment := do
  validateInput input
  if input.profileA.market runtime ≠ input.profileB.market runtime then
    return identityMismatch input
  else return engine.assess runtime input

theorem score_of_valid {input : ResolutionRiskScoringInput} (h : validateInput input = .ok ()) :
    ∃ assessment, score runtime engine input = .ok assessment := by
  unfold score
  rw [h]
  simp only [bind, Except.bind]
  split
  · exact ⟨identityMismatch input, rfl⟩
  · exact ⟨engine.assess runtime input, rfl⟩

end ResolutionRiskScoringEngine

end LotusRfq.Resolution
