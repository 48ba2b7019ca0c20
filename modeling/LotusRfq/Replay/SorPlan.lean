import LotusRfq.Sor.CostModel
import LotusRfq.Sor.PoolingIsolation

/-!
# LotusRfq — exact replay of a plan

The order router splits each leg on its own, with ticks of a millionth and the capacities of the
leg's providers. `replaySORPlan` rebuilds the call from the captured envelope, but as one split
over all candidates, with whole units and no capacities. The two agree on few plans.

* **`splitReturns_iff`** — when the splitter returns, and what, without its loop;
* **`matches_iff_fills`** — a captured plan replays when the two fills are equal;
* **`fillsAgree_iff_replaysWhole`** — up to the default capacity that means one leg, whose first
  candidate takes a whole number of units and leaves nothing for another one;
* **`matches_iff`** — which plans replay.
-/

namespace LotusRfq.Replay

open LotusRfq.Js LotusRfq.Sor TickFill List

/-! ## Capture -/

/-- What `normalizeBuildResult` keeps of the result of `buildPlan`. -/
structure PlanCreated where
  crossingFilledSize : String
  remainingSize : String

/-- The replay envelope of a plan; `quantity` is that of the selected quote. -/
structure SorPlanEnvelope where
  quantity : ℚ
  routeCandidates : List PricedCandidate
  resolutionRiskPairPolicies : List (String × ResolutionRiskRoutingDecision)
  scoredCandidates : List EvaluatedCandidate
  allocations : List SplitAllocation
  buildResult : PlanCreated

/-- The candidates as the splitter and the legs see them. -/
def SorPlanEnvelope.candidates (envelope : SorPlanEnvelope) : List RouteCandidate :=
  envelope.routeCandidates.map (·.toRouteCandidate)

def SorPlanEnvelope.scores (envelope : SorPlanEnvelope) : List CandidateScore :=
  envelope.scoredCandidates.map (·.toCandidateScore)

section Replay

variable (localeCompare : String → String → Ordering)
variable {Uuid : Type} [DecidableEq Uuid] (column : UuidColumn Uuid)
variable (deps : ResolutionRiskDeps Uuid) (policy : SORAcceptancePolicy)
variable (canonicalMarketId : String)
variable (pow : ℚ → ℚ → ℚ) (config : CostModelConfig)

/-- A plan `buildPlan` creates in full mode, as its envelope records it. The schemas of the
route scout have accepted the quote and the candidates. -/
structure Captured (envelope : SorPlanEnvelope) : Prop where
  quantity_pos : 0 < envelope.quantity
  valid : ∀ candidate ∈ envelope.routeCandidates, candidate.valid = true
  nonempty : envelope.routeCandidates ≠ []
  scored : envelope.scoredCandidates =
    evaluateCandidates pow config envelope.routeCandidates envelope.quantity
  allocated : ∃ results,
    AllocatesByLeg localeCompare column deps envelope.scores envelope.quantity policy
      canonicalMarketId envelope.candidates results ∧
    envelope.allocations = results.flatMap (·.allocations) ∧
    envelope.resolutionRiskPairPolicies = results.flatMap (·.resolutionRiskPairPolicies)

/-! ## Replay -/

/-- The entry `replaySORPlan` rebuilds from a recorded policy. -/
def replayDecision (decision : ResolutionRiskRoutingDecision) : ResolutionRiskRoutingDecision :=
  { mode := decision.mode, penalty := decision.penalty, reason := none, equivalenceClass := none }

def replayPairPolicies (policies : List (String × ResolutionRiskRoutingDecision)) :
    List (String × ResolutionRiskRoutingDecision) :=
  policies.foldl (fun pairPolicies entry =>
    OrderedMap.set entry.1 (replayDecision entry.2) pairPolicies) []

/-- The options `replaySORPlan` splits with. -/
def replayOptions (policies : List (String × ResolutionRiskRoutingDecision)) : SplitOptions :=
  { minChunkSize := 1
    tickSize := 1
    perProviderCapacity := []
    resolutionRisk := some (replayPairPolicies policies) }

structure SorPlanSnapshot where
  scoredCandidates : List EvaluatedCandidate
  allocations : List SplitAllocation
  buildResult : PlanCreated

/-- `expectedComparableSnapshot`. -/
def SorPlanEnvelope.expected (envelope : SorPlanEnvelope) : SorPlanSnapshot :=
  { scoredCandidates := envelope.scoredCandidates
    allocations := envelope.allocations
    buildResult := envelope.buildResult }

/-- `replaySORPlan` passes its schemas and returns this snapshot. -/
structure ReplaysSORPlan (envelope : SorPlanEnvelope) (snapshot : SorPlanSnapshot) : Prop where
  quantity_pos : 0 < envelope.quantity
  valid : ∀ candidate ∈ envelope.routeCandidates, candidate.valid = true
  scored : snapshot.scoredCandidates =
    evaluateCandidates pow config envelope.routeCandidates envelope.quantity
  allocated : SplitReturns localeCompare (replayOptions envelope.resolutionRiskPairPolicies)
    (snapshot.scoredCandidates.map (·.toCandidateScore)) envelope.quantity snapshot.allocations
  buildResult : snapshot.buildResult = envelope.buildResult

/-- `ExactReplayRunner.run` answers `MATCH`. -/
def Matches (envelope : SorPlanEnvelope) : Prop :=
  ∃ snapshot, ReplaysSORPlan localeCompare pow config envelope snapshot ∧
    snapshot = envelope.expected

/-! ## The conditions -/

def splitFill (options : SplitOptions) (scoredCandidates : List CandidateScore)
    (targetSize : ℚ) : List SplitAllocation :=
  List.zipWith allocationOf (candidateOrder localeCompare options scoredCandidates)
    (granted options.tickSize targetSize
      (orderCapacities localeCompare options scoredCandidates))

def legFill (envelope : SorPlanEnvelope) (legCandidates : List RouteCandidate) :
    List SplitAllocation :=
  match buildResolutionRiskContext localeCompare column deps legCandidates canonicalMarketId with
  | .error _ => []
  | .ok resolutionRisk =>
    splitFill localeCompare (legOptions legCandidates resolutionRisk)
      (legScores envelope.scores legCandidates) envelope.quantity

/-- The fills of the legs, one after another, are the fill of all candidates in whole units, and
every candidate that fill comes to with something left has room for a unit. -/
def FillsAgree (envelope : SorPlanEnvelope) : Prop :=
  let options := replayOptions envelope.resolutionRiskPairPolicies
  Serves 1 1 envelope.quantity (orderCapacities localeCompare options envelope.scores) ∧
    ((candidatesByLeg envelope.candidates).map (·.2)).flatMap
        (legFill localeCompare column deps canonicalMarketId envelope) =
      splitFill localeCompare options envelope.scores envelope.quantity

/-- A score as the splitter sees it before it has used a candidate. -/
def unpaired (score : CandidateScore) : SortableCandidate :=
  { candidate := score
    pairingDecision := { blocked := false, penalty := 0 }
    adjustedEffectiveUnitCost := score.effectiveUnitCost }

/-- No candidate is cheaper than this one, or as cheap with an earlier identifier. -/
def Cheapest (scoredCandidates : List CandidateScore) (first : CandidateScore) : Prop :=
  first ∈ scoredCandidates ∧
    ∀ other ∈ scoredCandidates,
      compareSortable localeCompare (unpaired other) (unpaired first) ≠ .lt

/-- The recorded policies keep every other candidate apart from this one. -/
def KeptAlone (scoredCandidates : List CandidateScore)
    (policies : List (String × ResolutionRiskRoutingDecision)) (first : CandidateScore) : Prop :=
  ∀ other ∈ scoredCandidates, other.candidateId ≠ first.candidateId →
    ∃ decision, (replayPairPolicies policies).lookup
        (resolutionRiskCandidatePairKey localeCompare other.candidateId first.candidateId) =
          some decision ∧
      decision.forbids = true

def firstShare (legCandidates : List RouteCandidate) (quantity : ℚ) (first : CandidateScore) : ℚ :=
  roundDownToTick (min (((perProviderCapacity legCandidates).lookup first.providerId).getD
    MAX_SAFE_INTEGER) quantity) DEFAULT_TICK_SIZE

/-- All candidates are for one leg; what the provider of the cheapest can take of the quantity
is, in ticks, the quantity in whole units; and that is all of it, unless nothing can be pooled
with the cheapest. -/
def ReplaysWhole (envelope : SorPlanEnvelope) : Prop :=
  (∀ a ∈ envelope.candidates, ∀ b ∈ envelope.candidates, a.leg_id = b.leg_id) ∧
  ∃ first, Cheapest localeCompare envelope.scores first ∧
    firstShare envelope.candidates envelope.quantity first = ⌊envelope.quantity⌋ ∧
    (envelope.quantity = ⌊envelope.quantity⌋ ∨
      KeptAlone localeCompare envelope.scores envelope.resolutionRiskPairPolicies first)

end Replay

/-! ## The first choice of a split -/

variable {first : CandidateScore} {targetSize : ℚ} {results : List LegResult}

section FirstChoice

variable {localeCompare : String → String → Ordering}
variable {options : SplitOptions} {scored : List CandidateScore}

theorem compareSortable_eq (left right : SortableCandidate) :
    compareSortable localeCompare left right =
      (compare left.adjustedEffectiveUnitCost right.adjustedEffectiveUnitCost).then
        (localeCompare left.candidate.candidateId right.candidate.candidateId) := by
  unfold compareSortable
  rcases lt_trichotomy left.adjustedEffectiveUnitCost right.adjustedEffectiveUnitCost with
    hlt | heq | hgt
  · rw [if_neg hlt.ne, if_pos hlt, compare_lt_iff_lt.mpr hlt]
    rfl
  · rw [if_pos heq, compare_eq_iff_eq.mpr heq]
    rfl
  · rw [if_neg hgt.ne', if_neg hgt.not_gt, compare_gt_iff_gt.mpr hgt]
    rfl

instance transCmp_compareSortable [Std.TransCmp localeCompare] :
    Std.TransCmp (compareSortable localeCompare) := by
  have hcost := transCmp_ascending (compare : ℚ → ℚ → Ordering)
    SortableCandidate.adjustedEffectiveUnitCost
  have hid := transCmp_ascending localeCompare
    fun entry : SortableCandidate => entry.candidate.candidateId
  have heq : compareSortable localeCompare = compareLex
      (fun left right : SortableCandidate =>
        compare left.adjustedEffectiveUnitCost right.adjustedEffectiveUnitCost)
      (fun left right => localeCompare left.candidate.candidateId right.candidate.candidateId) :=
    funext₂ compareSortable_eq
  rw [heq]
  infer_instance

theorem evaluatePairingDecision_nil (candidateId : String)
    (risk : Option (List (String × ResolutionRiskRoutingDecision))) :
    evaluatePairingDecision localeCompare candidateId [] risk =
      { blocked := false, penalty := 0 } := by
  cases risk with
  | none => rfl
  | some pairPolicies => rfl

/-- A candidate is blocked by a single used one when their decision keeps them apart. -/
theorem blocked_singleton_iff {candidateId usedCandidateId : String}
    {pairPolicies : List (String × ResolutionRiskRoutingDecision)} :
    (evaluatePairingDecision localeCompare candidateId [usedCandidateId]
        (some pairPolicies)).blocked = true ↔
      ∃ decision, pairPolicies.lookup
          (resolutionRiskCandidatePairKey localeCompare candidateId usedCandidateId) =
            some decision ∧ decision.forbids = true := by
  simp only [evaluatePairingDecision, pairingLoop]
  cases pairPolicies.lookup
      (resolutionRiskCandidatePairKey localeCompare candidateId usedCandidateId) with
  | none => simp
  | some decision =>
    cases hmode : decision.mode <;> simp [hmode, ResolutionRiskRoutingDecision.forbids]

theorem sortableCandidates_first (options : SplitOptions) :
    sortableCandidates localeCompare options scored [] (splitInit scored 0).remainingCandidateIds =
      sortWith (compareSortable localeCompare) (scored.map unpaired) := by
  have hall : scored.filter (fun candidate => candidate.candidateId ∈
      (splitInit scored 0).remainingCandidateIds) = scored := by
    refine filter_eq_self.mpr fun candidate hmem => decide_eq_true ?_
    exact OrderedMap.mem_foldl_addNew.mpr (Or.inr (mem_map_of_mem hmem))
  unfold sortableCandidates
  simp only [hall, evaluatePairingDecision_nil, add_zero]
  congr 1
  refine filter_eq_self.mpr fun entry hentry => ?_
  obtain ⟨candidate, -, rfl⟩ := mem_map.mp hentry
  rfl

def secondChoices (localeCompare : String → String → Ordering) (options : SplitOptions)
    (scoredCandidates : List CandidateScore) (first : CandidateScore) : List SortableCandidate :=
  sortableCandidates localeCompare options scoredCandidates [first.candidateId]
    (OrderedMap.delete (splitInit scoredCandidates 0).remainingCandidateIds first.candidateId)

/-- The order begins with a cheapest candidate, and goes on when there is a second choice. -/
theorem candidateOrder_cons (localeCompare : String → String → Ordering) (options : SplitOptions)
    [Std.TransCmp localeCompare] (hscored : scored ≠ []) :
    ∃ first rest, candidateOrder localeCompare options scored = unpaired first :: rest ∧
      Cheapest localeCompare scored first ∧
      (rest = [] ↔ secondChoices localeCompare options scored first = []) := by
  have hsorted : sortWith (compareSortable localeCompare) (scored.map unpaired) ≠ [] := by
    intro h
    have hnil := (sortWith_perm (compareSortable localeCompare) (scored.map unpaired)).length_eq
    rw [h, length_map, length_nil] at hnil
    exact hscored (length_eq_zero_iff.mp hnil.symm)
  obtain ⟨entry, others, hcons⟩ := exists_cons_of_ne_nil hsorted
  have hhead := head?_eq_some_iff.mpr ⟨others, hcons⟩
  obtain ⟨hmem, hleast⟩ := head_sortWith hhead
  obtain ⟨first, hfirst, rfl⟩ := mem_map.mp hmem
  rw [← sortableCandidates_first options] at hhead
  refine ⟨first, _, selectionOrder_cons hhead,
    ⟨hfirst, fun other hother => hleast _ (mem_map_of_mem hother)⟩, ?_⟩
  show selectionOrder localeCompare options scored [first.candidateId] _ = [] ↔ _
  cases hsecond : (secondChoices localeCompare options scored first).head? with
  | none =>
    have hempty := head?_eq_none_iff.mp hsecond
    exact iff_of_true (selectionOrder_nil hsecond) hempty
  | some entry =>
    refine iff_of_false (fun h => ?_) (fun h => ?_)
    · have hnext := selectionOrder_cons hsecond
      exact absurd (hnext.symm.trans h) (cons_ne_nil _ _)
    · rw [h] at hsecond
      cases hsecond

theorem secondChoices_eq_nil_iff : secondChoices localeCompare options scored first = [] ↔
      ∀ other ∈ scored, other.candidateId ≠ first.candidateId →
        (evaluatePairingDecision localeCompare other.candidateId [first.candidateId]
          options.resolutionRisk).blocked = true := by
  constructor
  · intro hnil other hother hne
    by_contra hfree
    rw [Bool.not_eq_true] at hfree
    have hid : other.candidateId ∈ (splitInit scored 0).remainingCandidateIds :=
      OrderedMap.mem_foldl_addNew.mpr (Or.inr (mem_map_of_mem hother))
    have hmem : (⟨other, evaluatePairingDecision localeCompare other.candidateId
        [first.candidateId] options.resolutionRisk, other.effectiveUnitCost +
          (evaluatePairingDecision localeCompare other.candidateId [first.candidateId]
            options.resolutionRisk).penalty⟩ : SortableCandidate) ∈
        secondChoices localeCompare options scored first := by
      simp only [secondChoices, sortableCandidates, mem_sortWith, mem_filter, mem_map,
        decide_eq_true_eq]
      exact ⟨⟨other, ⟨hother, OrderedMap.mem_delete.mpr ⟨hid, hne⟩⟩, rfl⟩, by simp [hfree]⟩
    rw [hnil] at hmem
    cases hmem
  · intro hblocked
    rw [eq_nil_iff_forall_not_mem]
    intro entry hentry
    obtain ⟨hmem, hid, hfree⟩ := mem_sortableCandidates hentry
    have hne := (OrderedMap.mem_delete.mp hid).2
    exact absurd (hblocked _ hmem hne) (by simp [hfree])

theorem Cheapest.unique [Std.TransCmp localeCompare] (hids : (scored.map (·.candidateId)).Nodup)
    (htold : ∀ a ∈ scored, ∀ b ∈ scored, localeCompare a.candidateId
      b.candidateId = .eq → a.candidateId = b.candidateId) {other : CandidateScore}
    (hfirst : Cheapest localeCompare scored first)
    (hother : Cheapest localeCompare scored other) : first = other := by
  have hnotLt := hother.2 first hfirst.1
  have hnotGt : compareSortable localeCompare (unpaired first) (unpaired other) ≠ .gt :=
    fun h => hfirst.2 other hother.1 (Std.OrientedCmp.gt_iff_lt.mp h)
  have heq : compareSortable localeCompare (unpaired first) (unpaired other) = .eq := by
    cases h : compareSortable localeCompare (unpaired first) (unpaired other) with
    | lt => exact absurd h hnotLt
    | eq => rfl
    | gt => exact absurd h hnotGt
  rw [compareSortable_eq, Ordering.then_eq_eq] at heq
  exact inj_on_of_nodup_map hids hfirst.1 hother.1 (htold first hfirst.1 other hother.1 heq.2)

end FirstChoice

/-! ## A split without its loop -/

section Fill

variable {localeCompare : String → String → Ordering}
variable {options : SplitOptions} {scored : List CandidateScore}

/-- **When `split` returns, and what.** -/
theorem splitReturns_iff {allocations : List SplitAllocation} :
    SplitReturns localeCompare options scored targetSize allocations ↔ options.valid = true ∧
      Serves options.tickSize options.minChunkSize targetSize
        (orderCapacities localeCompare options scored) ∧
      allocations = splitFill localeCompare options scored targetSize := by
  constructor
  · intro hreturns
    have heq := allocations_eq hreturns
    obtain ⟨hvalid, final, hends, -⟩ := hreturns
    have htick := ((valid_iff options).mp hvalid).2.1
    exact ⟨hvalid, (terminates_iff_serves htick _ _ rfl).mp ⟨final, hends⟩, heq⟩
  · rintro ⟨hvalid, hserves, rfl⟩
    have htick := ((valid_iff options).mp hvalid).2.1
    obtain ⟨final, hends⟩ := (terminates_iff_serves htick
      (candidateOrder localeCompare options scored) (splitInit scored targetSize) rfl).mpr hserves
    exact ⟨hvalid, final, hends, (ends_allocations htick _ rfl hends).trans rfl⟩

theorem splitFill_cons {rest : List SortableCandidate}
    (horder : candidateOrder localeCompare options scored = unpaired first :: rest)
    (htarget : 0 < targetSize) : ∃ more, splitFill localeCompare options scored targetSize =
        allocationOf (unpaired first) (floorTick options.tickSize
          (min (providerCapacity options first) targetSize)) :: more ∧
      (more = [] ↔ rest = [] ∨ targetSize ≤ floorTick options.tickSize
        (min (providerCapacity options first) targetSize)) := by
  unfold splitFill
  rw [orderCapacities, horder, map_cons, granted, if_neg (not_le.mpr htarget), zipWith_cons_cons]
  refine ⟨_, rfl, ?_⟩
  cases rest with
  | nil => simp
  | cons entry rest =>
    rw [zipWith_eq_nil_iff, map_cons, granted]
    refine or_congr_right ⟨fun hnone => ?_, fun hdone => if_pos (sub_nonpos.mpr hdone)⟩
    by_contra hleft
    rw [if_neg (by rw [sub_nonpos]; exact hleft)] at hnone
    cases hnone

end Fill

/-! ## Captured plans -/

section Plans

variable {localeCompare : String → String → Ordering}
variable {Uuid : Type} [DecidableEq Uuid] {column : UuidColumn Uuid}
variable {deps : ResolutionRiskDeps Uuid} {policy : SORAcceptancePolicy}
variable {canonicalMarketId : String}
variable {pow : ℚ → ℚ → ℚ} {config : CostModelConfig} {envelope : SorPlanEnvelope}

theorem allocatesLegs_fill {legs : List (List RouteCandidate)}
    (h : AllocatesLegs localeCompare column deps envelope.scores envelope.quantity policy
      canonicalMarketId legs results) :
    results.flatMap (·.allocations) =
        legs.flatMap (legFill localeCompare column deps canonicalMarketId envelope) ∧
      results.length = legs.length := by
  induction h with
  | nil => exact ⟨rfl, rfl⟩
  | cons hleg _ ih =>
    obtain ⟨-, risk, hcontext, hreturns, -⟩ := hleg
    have hfill := (splitReturns_iff.mp hreturns).2.2
    refine ⟨?_, by rw [length_cons, length_cons, ih.2]⟩
    rw [flatMap_cons, flatMap_cons, ih.1, hfill, legFill, hcontext]

theorem Captured.allocations_eq
    (h : Captured localeCompare column deps policy canonicalMarketId pow config envelope) :
    envelope.allocations = ((candidatesByLeg envelope.candidates).map (·.2)).flatMap
      (legFill localeCompare column deps canonicalMarketId envelope) := by
  obtain ⟨results, hlegs, hallocations, -⟩ := h.allocated
  rw [hallocations]
  exact (allocatesLegs_fill hlegs).1

theorem replayOptions_valid (policies : List (String × ResolutionRiskRoutingDecision)) :
    (replayOptions policies).valid = true := by
  rw [valid_iff]
  exact ⟨one_pos, one_pos, fun _ hentry => absurd hentry not_mem_nil⟩

/-- **When a captured plan replays.** -/
theorem matches_iff_fills
    (h : Captured localeCompare column deps policy canonicalMarketId pow config envelope) :
    Matches localeCompare pow config envelope ↔
      FillsAgree localeCompare column deps canonicalMarketId envelope := by
  have hscores : (evaluateCandidates pow config envelope.routeCandidates
      envelope.quantity).map (·.toCandidateScore) = envelope.scores := by
    rw [SorPlanEnvelope.scores, h.scored]
  constructor
  · rintro ⟨snapshot, hreplays, rfl⟩
    have hallocated := hreplays.allocated
    obtain ⟨-, hserves, hfill⟩ := splitReturns_iff.mp hallocated
    exact ⟨hserves, h.allocations_eq.symm.trans hfill⟩
  · rintro ⟨hserves, hfill⟩
    refine ⟨envelope.expected, ⟨h.quantity_pos, h.valid, h.scored, ?_, rfl⟩, rfl⟩
    exact splitReturns_iff.mpr ⟨replayOptions_valid _, hserves, h.allocations_eq.trans hfill⟩

/-! ### One leg -/

section

variable
  (h : envelope.scoredCandidates = evaluateCandidates pow config envelope.routeCandidates
    envelope.quantity)

include h

theorem mem_scores {score : CandidateScore} :
    score ∈ envelope.scores ↔ ∃ candidate ∈ envelope.routeCandidates,
      (evaluateCandidate pow config envelope.quantity candidate).toCandidateScore = score := by
  have hperm := evaluateCandidates_perm pow config envelope.routeCandidates envelope.quantity
  rw [SorPlanEnvelope.scores, h, mem_map]
  constructor
  · rintro ⟨evaluated, hmem, rfl⟩
    obtain ⟨candidate, hcandidate, rfl⟩ := mem_map.mp (hperm.mem_iff.mp hmem)
    exact ⟨candidate, hcandidate, rfl⟩
  · rintro ⟨candidate, hcandidate, rfl⟩
    exact ⟨_, hperm.mem_iff.mpr (mem_map_of_mem hcandidate), rfl⟩

theorem scores_ids :
    (envelope.scores.map (·.candidateId)).Perm (envelope.candidates.map (·.id)) := by
  have hperm := evaluateCandidates_perm pow config envelope.routeCandidates envelope.quantity
  have hmap := hperm.map fun evaluated => evaluated.candidateId
  rw [map_map] at hmap
  rw [SorPlanEnvelope.scores, SorPlanEnvelope.candidates, h, map_map, map_map]
  exact hmap

end

theorem LegAllocates.cheapest_first [Std.TransCmp localeCompare] (htarget : 0 < envelope.quantity)
    {legCandidates : List RouteCandidate} {result : LegResult}
    (h : LegAllocates localeCompare column deps envelope.scores envelope.quantity policy
      canonicalMarketId legCandidates result) :
    ∃ first more risk, Cheapest localeCompare (legScores envelope.scores legCandidates) first ∧
      buildResolutionRiskContext localeCompare column deps legCandidates canonicalMarketId =
        .ok risk ∧
      result.resolutionRiskPairPolicies = risk.getD [] ∧
      result.allocations = allocationOf (unpaired first)
        (firstShare legCandidates envelope.quantity first) :: more ∧
      (more = [] ↔ secondChoices localeCompare (legOptions legCandidates risk)
            (legScores envelope.scores legCandidates) first = [] ∨
          envelope.quantity ≤ firstShare legCandidates envelope.quantity first) := by
  obtain ⟨hscores, risk, hcontext, hreturns, -, hpolicies, -⟩ := h
  obtain ⟨first, rest, horder, hcheapest, hrest⟩ :=
    candidateOrder_cons localeCompare (legOptions legCandidates risk) hscores
  obtain ⟨more, hfill, hmore⟩ := splitFill_cons horder htarget
  have hshare : firstShare legCandidates envelope.quantity first =
      floorTick (legOptions legCandidates risk).tickSize
        (min (providerCapacity (legOptions legCandidates risk) first) envelope.quantity) :=
    roundDownToTick_eq (by norm_num [DEFAULT_TICK_SIZE]) _
  rw [← hshare] at hfill hmore
  refine ⟨first, more, risk, hcheapest, hcontext, hpolicies, ?_, ?_⟩
  · exact (splitReturns_iff.mp hreturns).2.2.trans hfill
  · rw [← hrest]
    exact hmore

/-- Up to the default capacity, the replay gives the first candidate the whole units. -/
theorem floorTick_replay (hsafe : targetSize ≤ MAX_SAFE_INTEGER) :
    floorTick 1 (min MAX_SAFE_INTEGER targetSize) = ⌊targetSize⌋ := by
  rw [min_eq_right hsafe, floorTick, ticks, div_one, mul_one]

/-- **When the replay comes back**: there is a unit to give, and what is left after it is nothing
or finds no candidate. -/
theorem serves_replay_iff {policies : List (String × ResolutionRiskRoutingDecision)}
    {scored : List CandidateScore} {rest : List SortableCandidate}
    (htarget : 0 < targetSize) (hsafe : targetSize ≤ MAX_SAFE_INTEGER)
    (horder : candidateOrder localeCompare (replayOptions policies) scored = unpaired
      first :: rest) :
    Serves 1 1 targetSize (orderCapacities localeCompare (replayOptions policies) scored) ↔
      1 ≤ ⌊targetSize⌋ ∧ (targetSize = ⌊targetSize⌋ ∨ rest = []) := by
  have hone : (1 : ℚ) ≤ ⌊targetSize⌋ ↔ 1 ≤ ⌊targetSize⌋ := by exact_mod_cast Iff.rfl
  rw [orderCapacities, horder, map_cons, Serves, or_iff_right (not_le.mpr htarget)]
  show 1 ≤ floorTick 1 (min MAX_SAFE_INTEGER targetSize) ∧
    Serves 1 1 (targetSize - floorTick 1 (min MAX_SAFE_INTEGER targetSize))
      (rest.map fun entry => providerCapacity (replayOptions policies) entry.candidate) ↔ _
  rw [floorTick_replay hsafe, hone]
  refine and_congr_right fun _ => ?_
  cases rest with
  | nil => simp [Serves]
  | cons entry rest =>
    -- what is left is less than a unit, so the next candidate is never served
    have hnext : ¬ (1 : ℚ) ≤ floorTick 1
        (min (providerCapacity (replayOptions policies) entry.candidate)
          (targetSize - ⌊targetSize⌋)) := by
      have hle : floorTick 1 (min (providerCapacity (replayOptions policies) entry.candidate)
          (targetSize - ⌊targetSize⌋)) ≤ targetSize - ⌊targetSize⌋ :=
        (ticks_mul_le one_pos _).trans (min_le_right _ _)
      have hlt : targetSize - ⌊targetSize⌋ < 1 := Int.fract_lt_one targetSize
      linarith
    simp only [map_cons, Serves, hnext, false_and, or_false, sub_nonpos, cons_ne_nil]
    constructor
    · exact fun h => le_antisymm h (Int.floor_le targetSize)
    · exact fun h => h.le

theorem oneLeg_of_single [Std.TransCmp localeCompare] (htarget : 0 < envelope.quantity)
    (hlegs : AllocatesByLeg localeCompare column deps envelope.scores envelope.quantity policy
      canonicalMarketId envelope.candidates results) {only : SplitAllocation}
    (hsingle : results.flatMap (·.allocations) = [only]) :
    ∀ a ∈ envelope.candidates, ∀ b ∈ envelope.candidates, a.leg_id = b.leg_id := by
  have hsome : ∀ result ∈ results, 1 ≤ result.allocations.length := by
    intro result hresult
    obtain ⟨leg, -, hleg⟩ := hlegs.result_of_leg result hresult
    obtain ⟨first, more, -, -, -, -, hallocations, -⟩ := LegAllocates.cheapest_first htarget hleg
    rw [hallocations, length_cons]
    omega
  have hone : results.length ≤ 1 := by
    match results, hsome, hsingle with
    | [], _, _ => decide
    | [_], _, _ => exact le_refl 1
    | r :: r' :: rest, hsome, hsingle =>
      have hlength := congrArg List.length hsingle
      rw [flatMap_cons, flatMap_cons, length_append, length_append, length_singleton] at hlength
      have hr := hsome r mem_cons_self
      have hr' := hsome r' (mem_cons_of_mem _ mem_cons_self)
      omega
  have hlength : (candidatesByLeg envelope.candidates).length ≤ 1 := by
    have hsame := (allocatesLegs_fill hlegs).2
    rw [length_map] at hsame
    omega
  intro a ha b hb
  have hkeyA := leg_id_mem_candidatesByLeg ha
  have hkeyB := leg_id_mem_candidatesByLeg hb
  match candidatesByLeg envelope.candidates, hlength, hkeyA, hkeyB with
  | [], _, hkeyA, _ => cases hkeyA
  | [(leg, _)], _, hkeyA, hkeyB =>
    exact (mem_singleton.mp hkeyA).trans (mem_singleton.mp hkeyB).symm

theorem allocates_oneLeg (hnonempty : envelope.candidates ≠ [])
    (honeLeg : ∀ a ∈ envelope.candidates, ∀ b ∈ envelope.candidates, a.leg_id = b.leg_id)
    (hlegs : AllocatesByLeg localeCompare column deps envelope.scores envelope.quantity policy
      canonicalMarketId envelope.candidates results) :
    ∃ result, results = [result] ∧
      LegAllocates localeCompare column deps envelope.scores envelope.quantity policy
        canonicalMarketId envelope.candidates result := by
  obtain ⟨c, others, hcons⟩ := exists_cons_of_ne_nil hnonempty
  have hlegs' := hlegs
  rw [hcons] at honeLeg hlegs'
  unfold AllocatesByLeg at hlegs'
  rw [candidatesByLeg_of_oneLeg fun other hother =>
    honeLeg other (mem_cons_of_mem _ hother) c mem_cons_self] at hlegs'
  cases hlegs' with
  | cons hleg hrest =>
    cases hrest with
    | nil => exact ⟨_, rfl, hcons ▸ hleg⟩

theorem mem_legScores_all (hids : (envelope.candidates.map (·.id)).Nodup)
    (h : envelope.scoredCandidates =
      evaluateCandidates pow config envelope.routeCandidates envelope.quantity)
    {score : CandidateScore} :
    score ∈ legScores envelope.scores envelope.candidates ↔ score ∈ envelope.scores := by
  have hkeys : (envelope.scores.map (·.candidateId)).Nodup := (scores_ids h).nodup_iff.mpr hids
  have hmap : envelope.scores.foldl (fun scores candidate =>
      OrderedMap.set candidate.candidateId candidate scores) [] =
      envelope.scores.map fun candidate => (candidate.candidateId, candidate) := by
    have hset := OrderedMap.foldl_set (m := ([] : List (String × CandidateScore))) id hkeys
      (fun _ _ => not_mem_nil)
    exact hset
  have hnodup : ((envelope.scores.map fun candidate =>
      (candidate.candidateId, candidate)).map Prod.fst).Nodup := by
    rw [map_map]
    exact hkeys
  unfold legScores
  simp only [hmap, mem_filterMap]
  constructor
  · rintro ⟨candidate, -, hlookup⟩
    obtain ⟨pre, post, hsplit, -⟩ := lookup_eq_some_iff.mp hlookup
    have hentry : (candidate.id, score) ∈ envelope.scores.map fun candidate =>
        (candidate.candidateId, candidate) := by
      rw [hsplit]
      exact mem_append_right _ mem_cons_self
    obtain ⟨score', hscore', heq⟩ := mem_map.mp hentry
    have hsame : score' = score := congrArg Prod.snd heq
    exact hsame ▸ hscore'
  · intro hscore
    obtain ⟨candidate, hcandidate, rfl⟩ := (mem_scores h).mp hscore
    exact ⟨candidate.toRouteCandidate, mem_map_of_mem hcandidate,
      OrderedMap.lookup_of_mem hnodup (mem_map_of_mem hscore)⟩

theorem cheapest_congr {left right : List CandidateScore}
    (hsame : ∀ score, score ∈ left ↔ score ∈ right) :
    Cheapest localeCompare left first ↔ Cheapest localeCompare right first := by
  unfold Cheapest
  simp only [hsame]

theorem context_keys_nodup {candidates : List RouteCandidate}
    {risk : Option (List (String × ResolutionRiskRoutingDecision))}
    (h : buildResolutionRiskContext localeCompare column deps candidates canonicalMarketId =
      .ok risk) : ((risk.getD []).map Prod.fst).Nodup := by
  unfold buildResolutionRiskContext at h
  split at h
  · cases h
    exact nodup_nil
  · cases hfetch : fetchAssessments localeCompare column deps
        (profilePairsToFetch (candidatePairs candidates)) with
    | error message => simp [hfetch] at h
    | ok assessments =>
      simp only [hfetch, Except.ok.injEq] at h
      rw [← h]
      split
      · exact nodup_nil
      · exact OrderedMap.nodup_keys_fillMissing _ _ (OrderedMap.nodup_keys_fill _ _ nodup_nil)

theorem lookup_replayPairPolicies {policies : List (String × ResolutionRiskRoutingDecision)}
    (hkeys : (policies.map Prod.fst).Nodup) (key : String) :
    (replayPairPolicies policies).lookup key = (policies.lookup key).map replayDecision := by
  have hset : replayPairPolicies policies =
      policies.map fun entry => (entry.1, replayDecision entry.2) := by
    have h := OrderedMap.foldl_set (m := ([] : List (String × ResolutionRiskRoutingDecision)))
      (fun entry => replayDecision entry.2) hkeys (fun _ _ => not_mem_nil)
    exact h
  rw [hset, OrderedMap.lookup_mapValues]

theorem secondChoices_of_keptAlone {candidates : List RouteCandidate}
    {scored legScored : List CandidateScore} (hsame : ∀ score, score ∈ legScored ↔ score ∈ scored)
    {risk : Option (List (String × ResolutionRiskRoutingDecision))}
    (hcontext : buildResolutionRiskContext localeCompare column deps candidates canonicalMarketId
      = .ok risk)
    (halone : KeptAlone localeCompare scored (risk.getD []) first) :
    secondChoices localeCompare (legOptions candidates risk) legScored first = [] := by
  refine secondChoices_eq_nil_iff.mpr fun other hother hne => ?_
  obtain ⟨decision, hlookup, hforbids⟩ := halone other ((hsame other).mp hother) hne
  rw [lookup_replayPairPolicies (context_keys_nodup hcontext)] at hlookup
  obtain ⟨recorded, hrecorded, rfl⟩ := Option.map_eq_some_iff.mp hlookup
  cases risk with
  | none => cases hrecorded
  | some pairPolicies => exact blocked_singleton_iff.mpr ⟨recorded, hrecorded, hforbids⟩

/-- **Quantities up to the default capacity.** -/
theorem fillsAgree_iff_replaysWhole [Std.TransCmp localeCompare]
    (hids : (envelope.candidates.map (·.id)).Nodup)
    (htold : ∀ a ∈ envelope.candidates, ∀ b ∈ envelope.candidates,
      localeCompare a.id b.id = .eq → a.id = b.id)
    (h : Captured localeCompare column deps policy canonicalMarketId pow config envelope)
    (hsafe : envelope.quantity ≤ MAX_SAFE_INTEGER) :
    FillsAgree localeCompare column deps canonicalMarketId envelope ↔
      ReplaysWhole localeCompare envelope := by
  have htarget := h.quantity_pos
  have hnonempty : envelope.candidates ≠ [] := fun hnil =>
    h.nonempty (map_eq_nil_iff.mp hnil)
  have hscores : envelope.scores ≠ [] := by
    intro hnil
    have hlength := (scores_ids h.scored).length_eq
    rw [hnil, map_nil, length_nil, length_map] at hlength
    exact hnonempty (length_eq_zero_iff.mp hlength.symm)
  have hall : ∀ score, score ∈ legScores envelope.scores envelope.candidates ↔
      score ∈ envelope.scores := fun score => mem_legScores_all hids h.scored
  obtain ⟨first, rest, horder, hcheapest, hrest⟩ := candidateOrder_cons localeCompare
    (replayOptions envelope.resolutionRiskPairPolicies) hscores
  obtain ⟨more, hfill, hmore⟩ := splitFill_cons horder htarget
  have hshare : floorTick (replayOptions envelope.resolutionRiskPairPolicies).tickSize
      (min (providerCapacity (replayOptions envelope.resolutionRiskPairPolicies) first)
        envelope.quantity) = ⌊envelope.quantity⌋ := floorTick_replay hsafe
  rw [hshare] at hfill hmore
  have hrestKept : rest = [] ↔
      KeptAlone localeCompare envelope.scores envelope.resolutionRiskPairPolicies first := by
    rw [hrest, secondChoices_eq_nil_iff]
    refine forall₃_congr fun other _ _ => ?_
    exact blocked_singleton_iff
  have hkeys : (envelope.scores.map (·.candidateId)).Nodup :=
    (scores_ids h.scored).nodup_iff.mpr hids
  have htoldScores : ∀ a ∈ envelope.scores, ∀ b ∈ envelope.scores,
      localeCompare a.candidateId b.candidateId = .eq → a.candidateId = b.candidateId := by
    intro a ha b hb heq
    obtain ⟨a', ha', rfl⟩ := (mem_scores h.scored).mp ha
    obtain ⟨b', hb', rfl⟩ := (mem_scores h.scored).mp hb
    exact htold _ (mem_map_of_mem ha') _ (mem_map_of_mem hb') heq
  obtain ⟨results, hlegs, hallocations, hpolicies⟩ := h.allocated
  unfold FillsAgree
  simp only []
  rw [serves_replay_iff htarget hsafe horder, ← h.allocations_eq, hfill]
  constructor
  · rintro ⟨⟨-, hdone⟩, hsame⟩
    have hmoreNil : more = [] := hmore.mpr (hdone.symm.imp_right Eq.le)
    rw [hmoreNil] at hsame
    have honeLeg := oneLeg_of_single htarget hlegs (hallocations.symm.trans hsame)
    obtain ⟨result, rfl, hleg⟩ := allocates_oneLeg hnonempty honeLeg hlegs
    obtain ⟨first', more', -, -, -, -, hleg', -⟩ := LegAllocates.cheapest_first htarget hleg
    rw [hallocations, flatMap_singleton, hleg'] at hsame
    -- the one allocation names the candidate, its provider and its size
    have hhead := (List.cons.inj hsame).1
    have hprovider : first'.providerId = first.providerId :=
      congrArg SplitAllocation.providerId hhead
    have hsize := congrArg SplitAllocation.roundedSize hhead
    refine ⟨honeLeg, first, hcheapest, ?_, hdone.imp_right hrestKept.mp⟩
    unfold firstShare
    rw [← hprovider]
    exact hsize
  · rintro ⟨honeLeg, first', hcheapest', hshare', hdone⟩
    have hsameFirst : first' = first := hcheapest'.unique hkeys htoldScores hcheapest
    subst hsameFirst
    obtain ⟨result, rfl, hleg⟩ := allocates_oneLeg hnonempty honeLeg hlegs
    obtain ⟨live, more', risk, hlive, hcontext, hrecorded, hleg', hmore'⟩ :=
      LegAllocates.cheapest_first htarget hleg
    have hsameLive : live = first' :=
      ((cheapest_congr hall).mp hlive).unique hkeys htoldScores hcheapest
    subst hsameLive
    rw [flatMap_singleton] at hallocations hpolicies
    rw [hrecorded] at hpolicies
    have hunit : 1 ≤ ⌊envelope.quantity⌋ := by
      obtain ⟨-, _, -, hreturns, -⟩ := hleg
      have hpos : 0 < firstShare envelope.candidates envelope.quantity live :=
        roundedSize_pos hreturns htarget _ (hleg' ▸ mem_cons_self)
      rw [hshare'] at hpos
      exact Int.cast_pos.mp hpos
    have hmoreNil : more = [] := hmore.mpr (hdone.symm.imp hrestKept.mpr Eq.le)
    have hmoreNil' : more' = [] := by
      rw [hshare'] at hmore'
      refine hmore'.mpr (hdone.symm.imp (fun halone => ?_) Eq.le)
      rw [hpolicies] at halone
      exact secondChoices_of_keptAlone hall hcontext halone
    refine ⟨⟨hunit, hdone.imp_right hrestKept.mpr⟩, ?_⟩
    rw [hallocations, hleg', hshare', hmoreNil, hmoreNil']

/-- **Which plans replay.** For candidates with different identifiers, exact replay of a captured
plan answers `MATCH` exactly when there is one leg, whose cheapest candidate takes the whole units
of the quantity and leaves nothing that another one could take; past the splitter's default
capacity, when the fills of the legs are the fill in whole units. -/
theorem matches_iff [Std.TransCmp localeCompare] (hids : (envelope.candidates.map (·.id)).Nodup)
    (htold : ∀ a ∈ envelope.candidates, ∀ b ∈ envelope.candidates,
      localeCompare a.id b.id = .eq → a.id = b.id)
    (h : Captured localeCompare column deps policy canonicalMarketId pow config envelope) :
    Matches localeCompare pow config envelope ↔
      (envelope.quantity ≤ MAX_SAFE_INTEGER ∧ ReplaysWhole localeCompare envelope) ∨
      (MAX_SAFE_INTEGER < envelope.quantity ∧
        FillsAgree localeCompare column deps canonicalMarketId envelope) := by
  rw [matches_iff_fills h]
  rcases le_or_gt envelope.quantity MAX_SAFE_INTEGER with hsafe | hlarge
  · simp only [hsafe, true_and, not_lt.mpr hsafe, false_and, or_false]
    exact fillsAgree_iff_replaysWhole hids htold h hsafe
  · simp only [hlarge, true_and, not_le.mpr hlarge, false_and, false_or]

end Plans

/-! ## One candidate -/

section Lone

def lonePriced (quantity : ℚ) : PricedCandidate :=
  { id := "a", leg_id := "leg", provider_id := "venue", available_size := quantity
    metadata := none, provider_type := .VENUE, quoted_price := 1 / 2, fees := []
    latency_ms := 0, fill_prob := 1 }

/-- The power at one, where the slippage of such a candidate is. -/
def powAtOne (base _exponent : ℚ) : ℚ := base

def loneScore (quantity : ℚ) : EvaluatedCandidate :=
  evaluateCandidate powAtOne {} quantity (lonePriced quantity)

def loneEnvelope (quantity : ℚ) : SorPlanEnvelope :=
  { quantity := quantity
    routeCandidates := [lonePriced quantity]
    resolutionRiskPairPolicies := []
    scoredCandidates := [loneScore quantity]
    allocations := [allocationOf (unpaired (loneScore quantity).toCandidateScore) quantity]
    buildResult := { crossingFilledSize := "0", remainingSize := "" } }

def loneDeps : ResolutionRiskDeps { value : String // NoSeparator value } :=
  { resolutionRiskPenalty := none
    resolutionRiskReadService := none
    resolutionRiskPolicyService := none }

theorem lone_cheapest (quantity : ℚ) :
    Cheapest compare (loneEnvelope quantity).scores (loneScore quantity).toCandidateScore := by
  refine ⟨mem_cons_self, fun other hother => ?_⟩
  rw [mem_singleton.mp hother]
  exact fun hlt => absurd (Std.ReflCmp.compare_self.symm.trans hlt) (by decide)

theorem lone_returns {quantity : ℚ} (hpos : 0 < quantity)
    (hticks : floorTick DEFAULT_TICK_SIZE quantity = quantity) :
    SplitReturns compare (legOptions (loneEnvelope quantity).candidates none)
      (loneEnvelope quantity).scores quantity (loneEnvelope quantity).allocations :=
  splitReturns_lone rfl hpos hticks le_rfl

theorem lone_captured {quantity : ℚ} (hpos : 0 < quantity)
    (hticks : floorTick DEFAULT_TICK_SIZE quantity = quantity) :
    Captured compare plainColumn loneDeps .PARTIAL_ALLOWED "market" powAtOne {}
      (loneEnvelope quantity) := by
  have hleg : LegAllocates compare plainColumn loneDeps (loneEnvelope quantity).scores quantity
      .PARTIAL_ALLOWED "market" (loneEnvelope quantity).candidates
      ⟨(loneEnvelope quantity).allocations, [], []⟩ := by
    refine ⟨cons_ne_nil _ _, none, rfl, lone_returns hpos hticks, ?_, rfl, rfl⟩
    rintro ⟨hpolicy, -⟩
    cases hpolicy
  refine ⟨hpos, ?_, cons_ne_nil _ _, rfl,
    [⟨(loneEnvelope quantity).allocations, [], []⟩], .cons hleg .nil, rfl, rfl⟩
  intro candidate hcandidate
  rw [mem_singleton.mp hcandidate]
  simp [PricedCandidate.valid, lonePriced, hpos.le]

theorem two_units_match : Matches compare powAtOne {} (loneEnvelope 2) := by
  have hticks : floorTick DEFAULT_TICK_SIZE 2 = 2 := by
    norm_num [floorTick, ticks, DEFAULT_TICK_SIZE]
  have hcaptured := lone_captured (by norm_num) hticks
  have hids : ((loneEnvelope 2).candidates.map (·.id)).Nodup := nodup_singleton _
  have hwhole : (2 : ℚ) = ⌊(2 : ℚ)⌋ := by norm_num
  refine (matches_iff hids ?_ hcaptured).mpr (Or.inl ⟨?_, ?_, _, lone_cheapest 2, ?_, Or.inl hwhole⟩)
  · intro a ha b hb _
    rw [mem_singleton.mp ha, mem_singleton.mp hb]
  · norm_num [loneEnvelope, MAX_SAFE_INTEGER]
  · intro a ha b hb
    rw [mem_singleton.mp ha, mem_singleton.mp hb]
  · show roundDownToTick (min 2 2) DEFAULT_TICK_SIZE = _
    rw [min_self, roundDownToTick_eq (by norm_num [DEFAULT_TICK_SIZE]), hticks]
    exact hwhole

/-- Two units and a half are allotted, and replayed as two. -/
theorem half_unit_differs :
    Captured compare plainColumn loneDeps .PARTIAL_ALLOWED "market" powAtOne {}
        (loneEnvelope (5 / 2)) ∧ ¬ Matches compare powAtOne {} (loneEnvelope (5 / 2)) := by
  have hticks : floorTick DEFAULT_TICK_SIZE (5 / 2) = 5 / 2 := by
    norm_num [floorTick, ticks, DEFAULT_TICK_SIZE]
  have hcaptured := lone_captured (by norm_num) hticks
  refine ⟨hcaptured, fun hmatches => ?_⟩
  obtain ⟨hserves, hfill⟩ := (matches_iff_fills hcaptured).mp hmatches
  obtain ⟨first, rest, horder, -, -⟩ := candidateOrder_cons compare
    (replayOptions (loneEnvelope (5 / 2)).resolutionRiskPairPolicies)
    (show (loneEnvelope (5 / 2)).scores ≠ [] from cons_ne_nil _ _)
  obtain ⟨more, hcons, -⟩ := splitFill_cons horder (show (0 : ℚ) < 5 / 2 by norm_num)
  rw [← hcaptured.allocations_eq] at hfill
  -- the recorded size is a half unit more than the replayed one
  have hsize := congrArg SplitAllocation.roundedSize (List.cons.inj (hfill.trans hcons)).1
  have hreplayed : (5 / 2 : ℚ) = floorTick 1 (min MAX_SAFE_INTEGER (5 / 2)) := hsize
  rw [floorTick_replay (by norm_num [MAX_SAFE_INTEGER])] at hreplayed
  norm_num at hreplayed

end Lone

end LotusRfq.Replay
