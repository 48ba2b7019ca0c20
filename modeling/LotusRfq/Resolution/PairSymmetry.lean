import LotusRfq.Resolution.ScoringEngine

/-!
# LotusRfq — a pair of profiles, either way round

Assessments are stored for unordered pairs, so comparing and scoring a pair must not depend on
which profile comes first. The texts of an assessment name the two in their order; its figures
do not.

* **`compareScore_comm`** — the figures of a pair, its failures included.
-/

namespace LotusRfq.Resolution

open LotusRfq.Js
open Sor (ResolutionEquivalenceClass)
open ResolutionRiskScoringEngine

variable (runtime : Runtime)

inductive AssessmentFailure where
  | comparison (code : ComparisonCode)
  | scoring (error : ResolutionRiskScoringError)

/-- `compareScoreAndPersist` up to the scored assessment, with the factors it rests on. -/
def compareScore (engine : ResolutionRiskScoringEngine) (version : String)
    (profileA profileB : NormalizedResolutionProfile) :
    Except AssessmentFailure (ResolutionFactorComparisonResult × ResolutionRiskAssessment) := do
  let factorComparison ← (compareProfiles runtime profileA profileB).mapError .comparison
  let scored ← (engine.score runtime
    { canonicalEventId := profileA.canonicalEventId
      profileA := profileA
      profileB := profileB
      factorComparison := factorComparison
      version := version }).mapError .scoring
  return (factorComparison, scored)

structure Figures where
  riskScore : ℚ
  confidenceScore : ℚ
  equivalenceClass : ResolutionEquivalenceClass
  liquidityCost : ℚ

def ResolutionRiskAssessment.figures (assessment : ResolutionRiskAssessment) : Figures :=
  { riskScore := assessment.riskScore
    confidenceScore := assessment.confidenceScore
    equivalenceClass := assessment.equivalenceClass
    liquidityCost := assessment.liquidityCost }

def ResolutionRiskScoringInput.swap (input : ResolutionRiskScoringInput) :
    ResolutionRiskScoringInput :=
  { input with profileA := input.profileB, profileB := input.profileA }

variable {runtime}

theorem require_congr {condition condition' : Prop} [Decidable condition]
    [Decidable condition'] {ε : Type} {error : ε} (h : condition ↔ condition') :
    require condition error = require condition' error := by
  unfold require
  simp only [h]

theorem validateInput_swap (input : ResolutionRiskScoringInput) :
    validateInput input.swap = validateInput input := by
  unfold validateInput ResolutionRiskScoringInput.swap
  simp only
  rw [require_congr (show (hasText input.canonicalEventId = true ∧ hasText input.profileB.id = true ∧
      hasText input.profileA.id = true ∧ hasText input.version = true) ↔
    (hasText input.canonicalEventId = true ∧ hasText input.profileA.id = true ∧
      hasText input.profileB.id = true ∧ hasText input.version = true) by tauto),
    require_congr (ne_comm (a := input.profileB.id))]

theorem calculateMaxSettlementDelay_comm (profileA profileB : NormalizedResolutionProfile) :
    calculateMaxSettlementDelay profileA profileB =
      calculateMaxSettlementDelay profileB profileA := by
  unfold calculateMaxSettlementDelay
  cases maxDelay profileA with
  | none => cases maxDelay profileB <;> rfl
  | some delayA =>
    cases maxDelay profileB with
    | none => rfl
    | some delayB =>
      show some |delayA - delayB| = some |delayB - delayA|
      rw [abs_sub_comm]

theorem assess_swap (engine : ResolutionRiskScoringEngine) (input : ResolutionRiskScoringInput) :
    (engine.assess runtime input.swap).figures = (engine.assess runtime input).figures := by
  unfold assess ResolutionRiskAssessment.figures ResolutionRiskScoringInput.swap
  simp only [calculateMaxSettlementDelay_comm input.profileB]

theorem score_swap (engine : ResolutionRiskScoringEngine) (input : ResolutionRiskScoringInput) :
    (engine.score runtime input.swap).map ResolutionRiskAssessment.figures =
      (engine.score runtime input).map ResolutionRiskAssessment.figures := by
  unfold score
  rw [validateInput_swap]
  generalize validateInput input = outcome
  cases outcome with
  | error error => simp only [bind, Except.bind, Except.map]
  | ok valid =>
    simp only [bind, Except.bind]
    by_cases hmarkets : input.profileA.market runtime = input.profileB.market runtime
    · rw [if_neg (not_not_intro hmarkets), if_neg (not_not_intro (show
        input.swap.profileA.market runtime = input.swap.profileB.market runtime from
          hmarkets.symm))]
      exact congrArg Except.ok (assess_swap engine input)
    · rw [if_pos hmarkets, if_pos (show input.swap.profileA.market runtime ≠
        input.swap.profileB.market runtime from Ne.symm hmarkets)]
      rfl

theorem event_of_compareProfiles {profileA profileB : NormalizedResolutionProfile}
    {factorComparison : ResolutionFactorComparisonResult}
    (h : compareProfiles runtime profileA profileB = .ok factorComparison) :
    profileA.canonicalEventId = profileB.canonicalEventId := by
  unfold compareProfiles validateProfiles at h
  simp only [bind_assoc, require_bind] at h
  exact h.1

theorem map_beside_congr {ε ε' α β γ : Type} {left right : Except ε α} {f : α → β}
    (h : left.map f = right.map f) (fail : ε → ε') (other : γ) :
    (do let a ← left.mapError fail; return (other, a) : Except ε' (γ × α)).map (Prod.map id f) =
      (do let a ← right.mapError fail; return (other, a) : Except ε' (γ × α)).map
        (Prod.map id f) := by
  cases left with
  | error e =>
    cases right with
    | error e' => cases h; rfl
    | ok b => cases h
  | ok a =>
    cases right with
    | error e' => cases h
    | ok b =>
      have hab : f a = f b := Except.ok.inj h
      show Except.ok (other, f a) = Except.ok (other, f b)
      rw [hab]

/-- **Either way round.** A pair of profiles has the same factors, scores, class and liquidity
cost in either order, or fails for the same reason. -/
theorem compareScore_comm (engine : ResolutionRiskScoringEngine) (version : String)
    (profileA profileB : NormalizedResolutionProfile) :
    (compareScore runtime engine version profileA profileB).map
        (Prod.map id ResolutionRiskAssessment.figures) =
      (compareScore runtime engine version profileB profileA).map
        (Prod.map id ResolutionRiskAssessment.figures) := by
  unfold compareScore
  rw [compareProfiles_comm profileA profileB]
  cases hcompare : compareProfiles runtime profileB profileA with
  | error code => rfl
  | ok factorComparison =>
    have hswap := @score_swap runtime engine
      { canonicalEventId := profileB.canonicalEventId
        profileA := profileB
        profileB := profileA
        factorComparison := factorComparison
        version := version }
    rw [← event_of_compareProfiles hcompare]
    exact map_beside_congr hswap AssessmentFailure.scoring factorComparison

end LotusRfq.Resolution
