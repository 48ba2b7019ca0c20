import LotusRfq.Canonical.ExecutableMarkets
import LotusRfq.Sor.RouteScout
import LotusRfq.Sor.SplitterLimits

/-!
# LotusRfq — `OrderRouter.buildPlan`

What the router does of an RFQ the internal crossing has not filled: it discovers candidates for
the residual, drops those of the taker itself and the infeasible ones, scores the others,
allocates the residual to every leg, and composes a step for every allocation. While a guardrail
is enforced a leg goes to its cheapest candidate alone.

* **`BuildsPlan`** — a call that composes a plan.
-/

namespace LotusRfq.Sor

open LotusRfq.Js TickFill

/-! ## Filters -/

/-- `EffectiveCompatibilityDecision`, as the filter reads it. -/
structure EffectiveCompatibilityDecision where
  effectiveClass : Canonical.CompatibilityClass
  overrideAmbiguous : Bool

def candidateDecisionId (candidate : RouteCandidate) : Option String :=
  match candidate.metadata.bind (·.lookup "compatibility_decision_id") with
  | some (.text value) => some value
  | _ => none

/-- `FeasibilityFilter.filter` accepts the candidate; `resolve` answers for the override service. -/
def isFeasible (resolve : Option (String → EffectiveCompatibilityDecision))
    (candidate : PricedCandidate) : Bool :=
  match candidateDecisionId candidate.toRouteCandidate, resolve with
  | some decisionId, some resolve =>
    decisionId = "" || (!(resolve decisionId).overrideAmbiguous &&
      ((resolve decisionId).effectiveClass = .EQUIVALENT ||
        (resolve decisionId).effectiveClass = .COMPATIBLE_WITH_CAUTION))
  | _, _ => true

def filterSTPViolations (rfq : CanonicalRFQInput) (candidates : List PricedCandidate) :
    List PricedCandidate :=
  if rfq.stpMode = .NONE then candidates
  else candidates.filter fun candidate => candidate.provider_id ≠ rfq.takerId

/-! ## One candidate for each leg -/

section Isolated

variable (localeCompare : String → String → Ordering)

def routeCandidateById (routeCandidates : List RouteCandidate) : List (String × RouteCandidate) :=
  routeCandidates.foldl (fun byId candidate => OrderedMap.set candidate.id candidate byId) []

/-- The scores of each leg; a score without its candidate is skipped. -/
def scoresByLeg (routeCandidates : List RouteCandidate) (scoredCandidates : List CandidateScore) :
    List (String × List CandidateScore) :=
  OrderedMap.group Prod.fst Prod.snd <| scoredCandidates.filterMap fun scored =>
    ((routeCandidateById routeCandidates).lookup scored.candidateId).map fun routeCandidate =>
      (routeCandidate.leg_id, scored)

/-- The cheapest score of a leg, ties by identifier. -/
def bestOf (legScores : List CandidateScore) : Option CandidateScore :=
  (sortWith (fun left right =>
    if left.effectiveUnitCost ≠ right.effectiveUnitCost then
      compareOfLessAndEq left.effectiveUnitCost right.effectiveUnitCost
    else localeCompare left.candidateId right.candidateId) legScores).head?

/-- What an isolated leg is allocated; none where it throws. -/
def isolatedAllocation (routeCandidates : List RouteCandidate) (targetSize : ℚ)
    (policy : SORAcceptancePolicy) (legScores : List CandidateScore) : Option SplitAllocation := do
  let best ← bestOf localeCompare legScores
  let routeCandidate ← (routeCandidateById routeCandidates).lookup best.candidateId
  let roundedSize := min targetSize routeCandidate.available_size
  if policy = .ALL_OR_NONE ∧ roundedSize + 1 / 1000000000 < targetSize then none
  else
    return { candidateId := best.candidateId
             providerId := best.providerId
             targetSize := targetSize
             roundedSize := roundedSize
             targetPrice := best.effectiveUnitCost }

def buildIsolatedAllocationsByLeg (routeCandidates : List RouteCandidate)
    (scoredCandidates : List CandidateScore) (targetSize : ℚ) (policy : SORAcceptancePolicy) :
    Option (List SplitAllocation) := do
  let allocations ← (scoresByLeg routeCandidates scoredCandidates).mapM fun leg =>
    isolatedAllocation localeCompare routeCandidates targetSize policy leg.2
  if allocations = [] then none else return allocations

end Isolated

/-! ## A plan -/

/-- Whether a guardrail is enforced that isolates routes. -/
inductive AllocationMode where
  | pooled
  | isolated

structure RouterEnv (Uuid : Type) where
  localeCompare : String → String → Ordering
  column : UuidColumn Uuid
  deps : ResolutionRiskDeps Uuid
  resolve : Option (String → EffectiveCompatibilityDecision)
  pow : ℚ → ℚ → ℚ
  config : CostModelConfig
  sha256 : String → String

/-- A call past the internal crossing, which has left `remainingSize`; `remaining` is the number
it parses to. -/
structure RouterCall where
  rfq : CanonicalRFQInput
  policy : SORAcceptancePolicy
  remainingSize : String
  remaining : ℚ
  mode : AllocationMode
  discovery : Discovery

structure PlanRun where
  discovered : List PricedCandidate
  routeCandidates : List PricedCandidate
  allocations : List SplitAllocation
  steps : List ComposedStep

section Plan

variable {Uuid : Type} [DecidableEq Uuid] (env : RouterEnv Uuid) (call : RouterCall)

def keptOf (discovered : List PricedCandidate) : List PricedCandidate :=
  (filterSTPViolations call.rfq discovered).filter (isFeasible env.resolve)

def scoresOf (routeCandidates : List PricedCandidate) : List CandidateScore :=
  (evaluateCandidates env.pow env.config routeCandidates call.remaining).map
    (·.toCandidateScore)

def Allocates (routeCandidates : List PricedCandidate) (allocations : List SplitAllocation) :
    Prop :=
  match call.mode with
  | .pooled => ∃ results,
      AllocatesByLeg env.localeCompare env.column env.deps (scoresOf env call routeCandidates)
        call.remaining call.policy call.rfq.canonicalMarketId
        (routeCandidates.map (·.toRouteCandidate)) results ∧
      allocations = results.flatMap (·.allocations)
  | .isolated =>
      buildIsolatedAllocationsByLeg env.localeCompare (routeCandidates.map (·.toRouteCandidate))
        (scoresOf env call routeCandidates) call.remaining call.policy = some allocations

/-- `buildPlan` composes a plan. -/
structure BuildsPlan (run : PlanRun) : Prop where
  discovered : discoverCandidates call.discovery
    (buildResidualRFQ call.rfq call.remainingSize) call.remaining = .ok run.discovered
  routeCandidates : run.routeCandidates = keptOf env call run.discovered
  nonempty : run.routeCandidates ≠ []
  allocated : Allocates env call run.routeCandidates run.allocations
  composed : stepsOf env.sha256
    { rfqId := call.rfq.rfqId, idempotencyKey := call.rfq.idempotencyKey
      candidates := run.routeCandidates.map (·.toProvidedCandidate)
      allocations := run.allocations, policy := call.policy } = some run.steps

end Plan

end LotusRfq.Sor
