import LotusRfq.Sor.ResolutionRisk
import LotusRfq.Sor.Splitter

/-!
# LotusRfq — allocations by leg

`buildAllocationsByLeg` of the order router: the candidates are grouped by leg, and each leg is
split on its own, under the capacities and pair policies of its candidates. The splitter need
not come back, so a leg's result is a relation, `LegAllocates`.
-/

namespace LotusRfq.Sor

open LotusRfq.Js List

inductive SORAcceptancePolicy where
  | ALL_OR_NONE
  | PARTIAL_ALLOWED
  | BEST_EFFORT
  deriving DecidableEq

structure ReplaySplitEligibilitySnapshot where
  candidateId : String
  allowed : Bool
  reason : String
  pairKey : Option String

def DEFAULT_MIN_CHUNK : ℚ := 1 / 1000000

def DEFAULT_TICK_SIZE : ℚ := 1 / 1000000

/-- The capacity map of a leg: a later candidate of a provider replaces an earlier one. -/
def perProviderCapacity (legCandidates : List RouteCandidate) : List (String × ℚ) :=
  legCandidates.foldl
    (fun capacity candidate => OrderedMap.set candidate.provider_id candidate.available_size
      capacity) []

/-- The grouping loop: `candidatesByLeg`. -/
def candidatesByLeg (routeCandidates : List RouteCandidate) : List (String × List RouteCandidate) :=
  routeCandidates.foldl (fun legs candidate =>
    if (legs.lookup candidate.leg_id).isSome then
      OrderedMap.modify candidate.leg_id (· ++ [candidate]) legs
    else OrderedMap.set candidate.leg_id [candidate] legs) []

def legScores (scoredCandidates : List CandidateScore) (legCandidates : List RouteCandidate) :
    List CandidateScore :=
  let scoreByCandidateId := scoredCandidates.foldl
    (fun scores candidate => OrderedMap.set candidate.candidateId candidate scores) []
  legCandidates.filterMap fun candidate => scoreByCandidateId.lookup candidate.id

def legOptions (legCandidates : List RouteCandidate)
    (resolutionRisk : Option (List (String × ResolutionRiskRoutingDecision))) : SplitOptions :=
  { minChunkSize := DEFAULT_MIN_CHUNK
    tickSize := DEFAULT_TICK_SIZE
    perProviderCapacity := perProviderCapacity legCandidates
    resolutionRisk := resolutionRisk }

def ResolutionRiskRoutingMode.text : ResolutionRiskRoutingMode → String
  | .normal => "normal"
  | .penalty => "penalty"
  | .isolated_only => "isolated_only"
  | .blocked => "blocked"

def splitEligibility (entry : String × ResolutionRiskRoutingDecision) :
    ReplaySplitEligibilitySnapshot :=
  { candidateId := entry.1
    allowed := entry.2.mode = .normal ∨ entry.2.mode = .penalty
    reason := entry.2.reason.getD entry.2.mode.text
    pairKey := if entry.2.mode ≠ .normal then some entry.1 else none }

/-- What one leg adds to the three lists the router returns. -/
structure LegResult where
  allocations : List SplitAllocation
  resolutionRiskPairPolicies : List (String × ResolutionRiskRoutingDecision)
  splitEligibilityDecisions : List ReplaySplitEligibilitySnapshot

section Legs

variable (localeCompare : String → String → Ordering)
variable {Uuid : Type} [DecidableEq Uuid] (column : UuidColumn Uuid)
variable (deps : ResolutionRiskDeps Uuid) (scoredCandidates : List CandidateScore)
variable (targetSize : ℚ) (policy : SORAcceptancePolicy) (canonicalMarketId : String)

/-- One round of the leg loop that does not throw: some candidate is scored, the context is
built, the splitter returns, and the policy accepts what it allocated. -/
def LegAllocates (legCandidates : List RouteCandidate) (result : LegResult) : Prop :=
  legScores scoredCandidates legCandidates ≠ [] ∧
  ∃ resolutionRisk,
    buildResolutionRiskContext localeCompare column deps legCandidates canonicalMarketId =
      .ok resolutionRisk ∧
    SplitReturns localeCompare (legOptions legCandidates resolutionRisk)
      (legScores scoredCandidates legCandidates) targetSize result.allocations ∧
    ¬ (policy = .ALL_OR_NONE ∧
      (result.allocations.map (·.roundedSize)).sum + 1 / 1000000000 < targetSize) ∧
    result.resolutionRiskPairPolicies = resolutionRisk.getD [] ∧
    result.splitEligibilityDecisions = (resolutionRisk.getD []).map splitEligibility

/-- The leg loop: every leg allocates, and the results are appended in order. -/
inductive AllocatesLegs : List (List RouteCandidate) → List LegResult → Prop where
  | nil : AllocatesLegs [] []
  | cons {legCandidates : List RouteCandidate} {legs : List (List RouteCandidate)}
      {result : LegResult} {results : List LegResult}
      (hleg : LegAllocates localeCompare column deps scoredCandidates targetSize policy
        canonicalMarketId legCandidates result)
      (hlegs : AllocatesLegs legs results) :
      AllocatesLegs (legCandidates :: legs) (result :: results)

/-- `buildAllocationsByLeg` returns these results, one for each leg. -/
def AllocatesByLeg (routeCandidates : List RouteCandidate) (results : List LegResult) : Prop :=
  AllocatesLegs localeCompare column deps scoredCandidates targetSize policy canonicalMarketId
    ((candidatesByLeg routeCandidates).map (·.2)) results

end Legs

/-! ## Legs and their candidates -/

theorem mem_legScores {scoredCandidates : List CandidateScore}
    {legCandidates : List RouteCandidate} {score : CandidateScore}
    (h : score ∈ legScores scoredCandidates legCandidates) :
    ∃ candidate ∈ legCandidates, candidate.id = score.candidateId := by
  obtain ⟨candidate, hmem, hlookup⟩ := mem_filterMap.mp h
  refine ⟨candidate, hmem, ?_⟩
  suffices hkeyed : ∀ (scores : List CandidateScore) (m : List (String × CandidateScore)),
      (∀ k v, m.lookup k = some v → k = v.candidateId) → ∀ k v,
      (scores.foldl (fun m s => OrderedMap.set s.candidateId s m) m).lookup k = some v →
      k = v.candidateId from
    hkeyed scoredCandidates [] (by simp) _ _ hlookup
  intro scores
  induction scores with
  | nil => exact fun m hm => hm
  | cons s scores ih =>
    intro m hm
    refine ih _ fun k v hkv => ?_
    rw [OrderedMap.lookup_set] at hkv
    split at hkv
    · obtain rfl := Option.some.inj hkv
      assumption
    · exact hm k v hkv

theorem candidatesByLeg_sublist (routeCandidates : List RouteCandidate) :
    ∀ entry ∈ candidatesByLeg routeCandidates, entry.2.Sublist routeCandidates := by
  induction routeCandidates using List.reverseRecOn with
  | nil => simp [candidatesByLeg]
  | append_singleton candidates c ih =>
    rw [candidatesByLeg, foldl_append, foldl_cons, foldl_nil, ← candidatesByLeg]
    intro entry hentry
    split at hentry
    · rcases OrderedMap.mem_modify hentry with h | ⟨value, h, rfl⟩
      · exact (ih entry h).trans (sublist_append_left _ _)
      · exact (ih (_, value) h).append (List.Sublist.refl _)
    · rcases OrderedMap.mem_set hentry with h | rfl
      · exact (ih entry h).trans (sublist_append_left _ _)
      · exact sublist_append_right _ _

theorem leg_id_mem_candidatesByLeg {routeCandidates : List RouteCandidate}
    {candidate : RouteCandidate} (h : candidate ∈ routeCandidates) :
    candidate.leg_id ∈ (candidatesByLeg routeCandidates).map Prod.fst :=
  OrderedMap.mem_keys_group.mpr ⟨candidate, h, rfl⟩

theorem candidatesByLeg_of_oneLeg {c : RouteCandidate} {candidates : List RouteCandidate}
    (h : ∀ other ∈ candidates, other.leg_id = c.leg_id) :
    candidatesByLeg (c :: candidates) = [(c.leg_id, c :: candidates)] := by
  induction candidates using List.reverseRecOn with
  | nil => rfl
  | append_singleton candidates last ih =>
    rw [candidatesByLeg, ← cons_append, foldl_append, foldl_cons, foldl_nil,
      ← candidatesByLeg, ih fun other hother => h other (mem_append_left _ hother),
      h last (mem_append_right _ mem_cons_self)]
    simp [OrderedMap.modify]

theorem AllocatesLegs.result_of_leg {localeCompare : String → String → Ordering} {Uuid : Type}
    [DecidableEq Uuid] {column : UuidColumn Uuid} {deps : ResolutionRiskDeps Uuid}
    {scoredCandidates : List CandidateScore} {targetSize : ℚ} {policy : SORAcceptancePolicy}
    {canonicalMarketId : String} {legs : List (List RouteCandidate)} {results : List LegResult}
    (h : AllocatesLegs localeCompare column deps scoredCandidates targetSize policy
      canonicalMarketId legs results) :
    ∀ result ∈ results, ∃ leg ∈ legs, LegAllocates localeCompare column deps scoredCandidates
      targetSize policy canonicalMarketId leg result := by
  induction h with
  | nil => simp
  | cons hleg _ ih =>
    intro result hresult
    rcases mem_cons.mp hresult with rfl | hresult
    · exact ⟨_, mem_cons_self, hleg⟩
    · obtain ⟨leg, hmem, h⟩ := ih result hresult
      exact ⟨leg, mem_cons_of_mem _ hmem, h⟩

end LotusRfq.Sor
