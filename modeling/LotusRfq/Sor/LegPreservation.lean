import LotusRfq.Sor.BuildPlan
import LotusRfq.Sor.PoolingIsolation

/-!
# LotusRfq — do plans keep the legs of their RFQ?

A plan allocates every leg of its candidates up to a total that the target and the leg's providers
determine, and its steps name the legs of their candidates. But the candidates of a residual are
for a leg the scout has made, unless they were cached by a call that still saw the RFQ's own legs.

* **`buildsPlan_shares`** — the allocations of a plan, leg by leg;
* **`steps_of_shares`** — its steps, leg by leg;
* **`legsPreserved_iff`** — the plans that refer to the listed legs and keep their residuals.
-/

namespace LotusRfq.Sor

open LotusRfq.Js TickFill List

/-- The plan refers to exactly the listed legs, and allocates to each at most its own residual
quantity. -/
structure LegsPreserved (legs : List RFQLeg) (own : RFQLeg → ℚ) (run : PlanRun) : Prop where
  candidates : ∀ id, (∃ candidate ∈ run.discovered, candidate.leg_id = id) ↔
    ∃ leg ∈ legs, leg.leg_id = id
  steps : ∀ id, (∃ step ∈ run.steps, step.leg_id = id) ↔ ∃ leg ∈ legs, leg.leg_id = id
  sizes : ∀ leg ∈ legs,
    ((run.steps.filter (·.leg_id = leg.leg_id)).map (·.roundedSize)).sum ≤ own leg

/-! ## Totals -/

section Totals

variable {Uuid : Type} [DecidableEq Uuid] (env : RouterEnv Uuid) (call : RouterCall)

/-- What the splitter can hand out to a leg: the whole ticks of the providers it takes, up to
those of the target. -/
def pooledTotal (routeCandidates : List PricedCandidate) (legCandidates : List RouteCandidate) :
    ℚ :=
  match buildResolutionRiskContext env.localeCompare env.column env.deps legCandidates
      call.rfq.canonicalMarketId with
  | .error _ => 0
  | .ok resolutionRisk =>
    let options := legOptions legCandidates resolutionRisk
    let capacities := orderCapacities env.localeCompare options
      (legScores (scoresOf env call routeCandidates) legCandidates)
    (min (before options.tickSize capacities capacities.length)
      (ticks options.tickSize call.remaining) : ℤ) * options.tickSize

/-- What the cheapest candidate of a leg has, up to the target. -/
def isolatedTotal (routeCandidates : List PricedCandidate) (legScores : List CandidateScore) : ℚ :=
  match (bestOf env.localeCompare legScores).bind fun best =>
      (routeCandidateById (routeCandidates.map (·.toRouteCandidate))).lookup best.candidateId with
  | none => 0
  | some best => min call.remaining best.available_size

/-- The total of a leg of the candidates, zero when it is none of them. -/
def legTotal (routeCandidates : List PricedCandidate) (legId : String) : ℚ :=
  match call.mode with
  | .pooled => (((candidatesByLeg (routeCandidates.map (·.toRouteCandidate))).lookup legId).map
      (pooledTotal env call routeCandidates)).getD 0
  | .isolated => (((scoresByLeg (routeCandidates.map (·.toRouteCandidate))
      (scoresOf env call routeCandidates)).lookup legId).map
        (isolatedTotal env call routeCandidates)).getD 0

theorem legTotal_le_remaining (hremaining : 0 ≤ call.remaining)
    (routed : List PricedCandidate) (legId : String) :
    legTotal env call routed legId ≤ call.remaining := by
  have hpooled : ∀ legCandidates, pooledTotal env call routed legCandidates ≤ call.remaining := by
    intro legCandidates
    unfold pooledTotal
    split
    · exact hremaining
    · have htick : (0 : ℚ) < DEFAULT_TICK_SIZE := by norm_num [DEFAULT_TICK_SIZE]
      refine le_trans ?_ (ticks_mul_le htick call.remaining)
      exact mul_le_mul_of_nonneg_right (Int.cast_le.mpr (min_le_right _ _)) htick.le
  have hisolated : ∀ legScores, isolatedTotal env call routed legScores ≤ call.remaining := by
    intro legScores
    unfold isolatedTotal
    split
    · exact hremaining
    · exact min_le_left _ _
  unfold legTotal
  split
  · cases (candidatesByLeg (routed.map (·.toRouteCandidate))).lookup legId with
    | none => exact hremaining
    | some legCandidates => exact hpooled legCandidates
  · cases (scoresByLeg (routed.map (·.toRouteCandidate))
        (scoresOf env call routed)).lookup legId with
    | none => exact hremaining
    | some legScores => exact hisolated legScores

end Totals

/-! ## Allocations, leg by leg -/

/-- The allocations of a plan cut into those of its legs. -/
structure LegShares (routeCandidates : List PricedCandidate) (total : String → ℚ)
    (allocations : List SplitAllocation) (shares : List (String × List SplitAllocation)) :
    Prop where
  allocations : allocations = shares.flatMap (·.2)
  keys : (shares.map Prod.fst).Nodup
  legs : ∀ id, id ∈ shares.map Prod.fst ↔ ∃ candidate ∈ routeCandidates, candidate.leg_id = id
  nonempty : ∀ share ∈ shares, share.2 ≠ []
  named : ∀ share ∈ shares, ∀ allocation ∈ share.2, ∃ candidate ∈ routeCandidates,
    candidate.id = allocation.candidateId ∧ candidate.leg_id = share.1
  sum : ∀ share ∈ shares, (share.2.map (·.roundedSize)).sum = total share.1

variable {shares : List (String × List SplitAllocation)} {routed : List PricedCandidate}

theorem sum_share {legOf : SplitAllocation → String} (hkeys : (shares.map Prod.fst).Nodup)
    (hlegOf : ∀ share ∈ shares, ∀ alloc ∈ share.2, legOf alloc = share.1)
    {share : String × List SplitAllocation} (hshare : share ∈ shares) :
    (shares.flatMap (·.2)).filter (legOf · = share.1) = share.2 := by
  induction shares with
  | nil => cases hshare
  | cons first rest ih =>
    rw [map_cons, nodup_cons] at hkeys
    have hrest := fun other hother => hlegOf other (mem_cons_of_mem first hother)
    rw [flatMap_cons, filter_append]
    rcases mem_cons.mp hshare with rfl | hmem
    · have hown : share.2.filter (legOf · = share.1) = share.2 :=
        filter_eq_self.mpr fun alloc hallocation =>
          decide_eq_true (hlegOf share mem_cons_self alloc hallocation)
      have hnone : (rest.flatMap (·.2)).filter (legOf · = share.1) = [] := by
        rw [filter_eq_nil_iff]
        intro alloc hallocation
        obtain ⟨other, hother, hin⟩ := mem_flatMap.mp hallocation
        rw [decide_eq_true_eq, hrest other hother alloc hin]
        exact fun heq => hkeys.1 (heq ▸ mem_map_of_mem hother)
      rw [hown, hnone, append_nil]
    · have hnone : first.2.filter (legOf · = share.1) = [] := by
        rw [filter_eq_nil_iff]
        intro alloc hallocation
        rw [decide_eq_true_eq, hlegOf first mem_cons_self alloc hallocation]
        exact fun heq => hkeys.1 (heq ▸ mem_map_of_mem hmem)
      rw [hnone, nil_append, ih hkeys.2 hrest hmem]

theorem forall₂_of_mapM {α β : Type*} {f : α → Option β} {items : List α} {results : List β}
    (h : items.mapM f = some results) :
    List.Forall₂ (fun item result => f item = some result) items results := by
  induction items generalizing results with
  | nil =>
    cases h
    exact .nil
  | cons item rest ih =>
    rw [mapM_cons] at h
    obtain ⟨first, hfirst, h⟩ := Option.bind_eq_some_iff.mp h
    obtain ⟨others, hothers, h⟩ := Option.bind_eq_some_iff.mp h
    cases h
    exact .cons hfirst (ih hothers)

/-- Blocks of allocations that belong to the entries of a list, filed under their keys. -/
theorem shares_of_forall₂ {α : Type*} {related : String × α → List SplitAllocation → Prop}
    {entries : List (String × α)} {blocks : List (List SplitAllocation)}
    (h : List.Forall₂ related entries blocks) :
    ∃ shares : List (String × List SplitAllocation), shares.flatMap (·.2) = blocks.flatten ∧
      shares.map Prod.fst = entries.map Prod.fst ∧
      ∀ share ∈ shares, ∃ entry ∈ entries, entry.1 = share.1 ∧ related entry share.2 := by
  induction h with
  | nil => exact ⟨[], rfl, rfl, fun share hshare => absurd hshare not_mem_nil⟩
  | @cons entry block entries blocks hrelated _ ih =>
    obtain ⟨shares, hflat, hkeys, hshares⟩ := ih
    refine ⟨(entry.1, block) :: shares, ?_, ?_, ?_⟩
    · rw [flatMap_cons, hflat, flatten_cons]
    · rw [map_cons, hkeys, map_cons]
    · intro share hshare
      rcases mem_cons.mp hshare with rfl | hshare
      · exact ⟨entry, mem_cons_self, rfl, hrelated⟩
      · obtain ⟨other, hother, hkey, hblock⟩ := hshares share hshare
        exact ⟨other, mem_cons_of_mem entry hother, hkey, hblock⟩

/-! ### Split legs -/

section Pooled

variable {Uuid : Type} [DecidableEq Uuid] {env : RouterEnv Uuid} {call : RouterCall}

theorem forall₂_of_allocatesLegs {localeCompare : String → String → Ordering}
    {column : UuidColumn Uuid} {deps : ResolutionRiskDeps Uuid}
    {scoredCandidates : List CandidateScore} {targetSize : ℚ} {policy : SORAcceptancePolicy}
    {canonicalMarketId : String} {entries : List (String × List RouteCandidate)}
    {results : List LegResult}
    (h : AllocatesLegs localeCompare column deps scoredCandidates targetSize policy
      canonicalMarketId (entries.map Prod.snd) results) :
    List.Forall₂ (fun entry block => ∃ result, LegAllocates localeCompare column deps
      scoredCandidates targetSize policy canonicalMarketId entry.2 result ∧
        result.allocations = block) entries (results.map (·.allocations)) := by
  induction entries generalizing results with
  | nil =>
    cases h
    exact .nil
  | cons entry entries ih =>
    cases h with
    | cons hleg hlegs => exact .cons ⟨_, hleg, rfl⟩ (ih hlegs)

theorem sum_pooled (hremaining : 0 < call.remaining) {legCandidates : List RouteCandidate}
    {result : LegResult}
    (h : LegAllocates env.localeCompare env.column env.deps (scoresOf env call routed)
      call.remaining call.policy call.rfq.canonicalMarketId legCandidates result) :
    (result.allocations.map (·.roundedSize)).sum = pooledTotal env call routed legCandidates := by
  obtain ⟨-, resolutionRisk, hcontext, hreturns, -⟩ := h
  have hvalid := hreturns.1
  have htick := ((valid_iff _).mp hvalid).2.1
  have hcap := orderCapacities_nonneg env.localeCompare
    (legScores (scoresOf env call routed) legCandidates) hvalid
  rw [roundedSizes_eq hreturns, sum_granted htick hcap hremaining.le]
  simp only [pooledTotal, hcontext]

theorem pooled_shares (hremaining : 0 < call.remaining) (hmode : call.mode = .pooled)
    {results : List LegResult}
    (h : AllocatesByLeg env.localeCompare env.column env.deps (scoresOf env call routed)
      call.remaining call.policy call.rfq.canonicalMarketId (routed.map
      (·.toRouteCandidate)) results) :
    ∃ shares, LegShares routed (legTotal env call routed)
      (results.flatMap (·.allocations)) shares := by
  obtain ⟨shares, hflat, hkeys, hshares⟩ := shares_of_forall₂ (forall₂_of_allocatesLegs h)
  have hnodup : ((candidatesByLeg (routed.map (·.toRouteCandidate))).map
      Prod.fst).Nodup := OrderedMap.nodup_keys_group _
  refine ⟨shares, ⟨?_, hkeys ▸ hnodup, fun id => ?_, fun share hshare => ?_,
    fun share hshare alloc hallocation => ?_, fun share hshare => ?_⟩⟩
  · rw [hflat, flatMap_def]
  · rw [hkeys]
    have hlegs : id ∈ (candidatesByLeg (routed.map (·.toRouteCandidate))).map Prod.fst ↔
        ∃ candidate ∈ routed.map (·.toRouteCandidate), candidate.leg_id = id :=
      OrderedMap.mem_keys_group
    rw [hlegs]
    simp only [mem_map, exists_exists_and_eq_and]
  · obtain ⟨entry, -, -, result, hleg, hblock⟩ := hshares share hshare
    obtain ⟨hscored, resolutionRisk, -, hreturns, -⟩ := hleg
    rw [← hblock]
    exact allocations_ne_nil hreturns hremaining hscored
  · obtain ⟨entry, hentry, hkey, result, hleg, hblock⟩ := hshares share hshare
    obtain ⟨-, resolutionRisk, -, hreturns, -⟩ := hleg
    rw [← hblock] at hallocation
    obtain ⟨score, hscore, hid⟩ := candidateId_mem_scored hreturns hallocation
    obtain ⟨candidate, hcandidate, hcandidateId⟩ := mem_legScores hscore
    obtain ⟨item, hitem, hleg, hsame⟩ := (OrderedMap.mem_group hentry).2 candidate hcandidate
    obtain ⟨priced, hpriced, rfl⟩ := mem_map.mp hitem
    have hcandidate : priced.toRouteCandidate = candidate := hsame
    subst hcandidate
    exact ⟨priced, hpriced, hcandidateId.trans hid, hleg.trans hkey⟩
  · obtain ⟨entry, hentry, hkey, result, hleg, hblock⟩ := hshares share hshare
    have hlookup := OrderedMap.lookup_of_mem hnodup (show (entry.1, entry.2) ∈ _ from hentry)
    rw [← hblock, sum_pooled hremaining hleg, legTotal, hmode, ← hkey]
    simp only [hlookup, Option.map_some, Option.getD_some]

end Pooled

/-! ### Isolated legs -/

section Isolated

variable {Uuid : Type} [DecidableEq Uuid] {env : RouterEnv Uuid} {call : RouterCall}

theorem lookup_routeCandidateById {routed : List RouteCandidate}
    (hids : (routed.map (·.id)).Nodup) {id : String} {candidate : RouteCandidate} :
    (routeCandidateById routed).lookup id = some candidate ↔
      candidate ∈ routed ∧ candidate.id = id := by
  have hmap : routeCandidateById routed = routed.map fun candidate => (candidate.id, candidate) :=
    OrderedMap.foldl_set (m := ([] : List (String × RouteCandidate))) (fun item => item) hids
      fun _ _ => not_mem_nil
  rw [hmap]
  constructor
  · intro h
    obtain ⟨pre, post, hsplit, -⟩ := lookup_eq_some_iff.mp h
    have hmem : (id, candidate) ∈ routed.map fun candidate =>
        (candidate.id, candidate) := by
      rw [hsplit]
      exact mem_append_right _ mem_cons_self
    obtain ⟨found, hfound, heq⟩ := mem_map.mp hmem
    cases heq
    exact ⟨hfound, rfl⟩
  · rintro ⟨hmem, rfl⟩
    refine OrderedMap.lookup_of_mem ?_ (mem_map_of_mem hmem)
    rw [map_map]
    exact hids

omit [DecidableEq Uuid] in
theorem mem_scoresOf_ids {routed : List PricedCandidate} {id : String} :
    (∃ score ∈ scoresOf env call routed, score.candidateId = id) ↔
      ∃ candidate ∈ routed, candidate.id = id := by
  have hperm := evaluateCandidates_perm env.pow env.config routed call.remaining
  unfold scoresOf
  simp only [mem_map, exists_exists_and_eq_and, hperm.mem_iff]
  rfl

omit [DecidableEq Uuid] in
theorem scoresByLeg_item {routed : List PricedCandidate}
    (hids : (routed.map (·.id)).Nodup) {item : String × CandidateScore}
    (hitem : item ∈ (scoresOf env call routed).filterMap fun scored =>
      ((routeCandidateById (routed.map (·.toRouteCandidate))).lookup
        scored.candidateId).map fun routeCandidate => (routeCandidate.leg_id, scored)) :
    ∃ candidate ∈ routed, candidate.id = item.2.candidateId ∧ candidate.leg_id = item.1 := by
  obtain ⟨scored, -, hfound⟩ := mem_filterMap.mp hitem
  obtain ⟨routeCandidate, hlookup, rfl⟩ := Option.map_eq_some_iff.mp hfound
  rw [lookup_routeCandidateById (by rw [map_map]; exact hids)] at hlookup
  obtain ⟨hmem, hid⟩ := hlookup
  obtain ⟨candidate, hcandidate, rfl⟩ := mem_map.mp hmem
  exact ⟨candidate, hcandidate, hid, rfl⟩

omit [DecidableEq Uuid] in
theorem keys_scoresByLeg {routed : List PricedCandidate}
    (hids : (routed.map (·.id)).Nodup) {id : String} :
    id ∈ (scoresByLeg (routed.map (·.toRouteCandidate)) (scoresOf env call routed)).map Prod.fst ↔
      ∃ candidate ∈ routed, candidate.leg_id = id := by
  unfold scoresByLeg
  rw [OrderedMap.mem_keys_group]
  constructor
  · rintro ⟨item, hitem, rfl⟩
    obtain ⟨candidate, hcandidate, -, hleg⟩ := scoresByLeg_item hids hitem
    exact ⟨candidate, hcandidate, hleg⟩
  · rintro ⟨candidate, hcandidate, rfl⟩
    have hscored : ∃ score ∈ scoresOf env call routed, score.candidateId = candidate.id :=
      mem_scoresOf_ids.mpr ⟨candidate, hcandidate, rfl⟩
    obtain ⟨score, hscore, hid⟩ := hscored
    have hlookup : (routeCandidateById (routed.map (·.toRouteCandidate))).lookup
        score.candidateId = some candidate.toRouteCandidate := by
      rw [lookup_routeCandidateById (by rw [map_map]; exact hids)]
      exact ⟨mem_map_of_mem hcandidate, hid.symm⟩
    refine ⟨(candidate.leg_id, score), mem_filterMap.mpr ⟨score, hscore, ?_⟩, rfl⟩
    rw [hlookup]
    rfl

theorem isolatedAllocation_eq {localeCompare : String → String → Ordering}
    {routed : List RouteCandidate} {targetSize : ℚ} {policy : SORAcceptancePolicy}
    {legScores : List CandidateScore} {alloc : SplitAllocation}
    (h : isolatedAllocation localeCompare routed targetSize policy legScores = some alloc) :
    ∃ best ∈ legScores, ∃ candidate, bestOf localeCompare legScores = some best ∧
      (routeCandidateById routed).lookup best.candidateId = some candidate ∧
      alloc.candidateId = best.candidateId ∧
      alloc.roundedSize = min targetSize candidate.available_size := by
  unfold isolatedAllocation at h
  obtain ⟨best, hbest, h⟩ := Option.bind_eq_some_iff.mp h
  obtain ⟨candidate, hcandidate, h⟩ := Option.bind_eq_some_iff.mp h
  have hmem : best ∈ legScores := mem_sortWith.mp (mem_of_mem_head? hbest)
  refine ⟨best, hmem, candidate, hbest, hcandidate, ?_⟩
  dsimp only at h
  split at h
  · cases h
  · cases h
    exact ⟨rfl, rfl⟩

theorem isolated_shares (hids : (routed.map (·.id)).Nodup)
    (hmode : call.mode = .isolated) {allocations : List SplitAllocation}
    (h : buildIsolatedAllocationsByLeg env.localeCompare (routed.map
      (·.toRouteCandidate)) (scoresOf env call routed) call.remaining call.policy = some
      allocations) : ∃ shares, LegShares routed (legTotal env call routed) allocations shares := by
  obtain ⟨found, hread, h⟩ := Option.bind_eq_some_iff.mp h
  have hfound : found = allocations := by
    split at h
    · cases h
    · exact Option.some.inj h
  subst hfound
  have hblocks : List.Forall₂ (fun (entry : String × List CandidateScore) block => ∃ alloc,
      isolatedAllocation env.localeCompare (routed.map (·.toRouteCandidate))
        call.remaining call.policy entry.2 = some alloc ∧ block = [alloc])
      (scoresByLeg (routed.map (·.toRouteCandidate)) (scoresOf env call routed))
      (found.map fun alloc => [alloc]) :=
    List.forall₂_map_right_iff.mpr ((forall₂_of_mapM hread).imp fun _ alloc hallocation =>
      ⟨alloc, hallocation, rfl⟩)
  obtain ⟨shares, hflat, hkeys, hshares⟩ := shares_of_forall₂ hblocks
  have hnodup : ((scoresByLeg (routed.map (·.toRouteCandidate))
      (scoresOf env call routed)).map Prod.fst).Nodup := OrderedMap.nodup_keys_group _
  refine ⟨shares, ⟨?_, hkeys ▸ hnodup, fun id => ?_, fun share hshare => ?_,
    fun share hshare alloc hallocation => ?_, fun share hshare => ?_⟩⟩
  · rw [hflat, ← flatMap_def, flatMap_singleton']
  · rw [hkeys]
    exact keys_scoresByLeg hids
  · obtain ⟨entry, -, -, alloc, -, hblock⟩ := hshares share hshare
    rw [hblock]
    exact cons_ne_nil _ _
  · obtain ⟨entry, hentry, hkey, only, honly, hblock⟩ := hshares share hshare
    rw [hblock, mem_singleton] at hallocation
    subst hallocation
    obtain ⟨best, hbest, -, -, -, hid, -⟩ := isolatedAllocation_eq honly
    obtain ⟨item, hitem, hleg, rfl⟩ := (OrderedMap.mem_group hentry).2 best hbest
    obtain ⟨candidate, hcandidate, hcandidateId, hcandidateLeg⟩ := scoresByLeg_item hids hitem
    exact ⟨candidate, hcandidate, hcandidateId.trans hid.symm,
      hcandidateLeg.trans (hleg.trans hkey)⟩
  · obtain ⟨entry, hentry, hkey, only, honly, hblock⟩ := hshares share hshare
    have hlookup := OrderedMap.lookup_of_mem hnodup (show (entry.1, entry.2) ∈ _ from hentry)
    obtain ⟨best, -, candidate, hbest, hcandidate, -, hsize⟩ := isolatedAllocation_eq honly
    have htotal : isolatedTotal env call routed entry.2 =
        min call.remaining candidate.available_size := by
      simp only [isolatedTotal, hbest, Option.bind_some, hcandidate]
    rw [hblock, map_singleton, sum_singleton, hsize, legTotal, hmode, ← hkey]
    simp only [hlookup, Option.map_some, Option.getD_some, htotal]

end Isolated

section Plan

variable {Uuid : Type} [DecidableEq Uuid] {env : RouterEnv Uuid} {call : RouterCall}

/-- **Allocations, leg by leg.** Every leg of the candidates gets allocations of its own, which
add up to its total. -/
theorem buildsPlan_shares {run : PlanRun} (hids : (run.routeCandidates.map (·.id)).Nodup)
    (hplan : BuildsPlan env call run) :
    ∃ shares, LegShares run.routeCandidates (legTotal env call run.routeCandidates)
      run.allocations shares := by
  have hremaining := discovered_pos hplan.discovered
  have hallocated := hplan.allocated
  unfold Allocates at hallocated
  cases hmode : call.mode with
  | pooled =>
    rw [hmode] at hallocated
    obtain ⟨results, hresults, hallocations⟩ := hallocated
    rw [hallocations]
    exact pooled_shares hremaining hmode hresults
  | isolated =>
    rw [hmode] at hallocated
    exact isolated_shares hids hmode hallocated

/-! ## Steps -/

def legOf (candidates : List ProvidedCandidate) (allocation : SplitAllocation) : String :=
  ((candidates.find? (·.id = allocation.candidateId)).map (·.leg_id)).getD ""

theorem composeStep_eq {sha256 : String → String} {planId : String}
    {candidates : List ProvidedCandidate} {alloc : SplitAllocation} {index : ℕ}
    {step : ComposedStep} (h : composeStep sha256 planId candidates alloc index = some step) :
    (step.leg_id, step.roundedSize) = (legOf candidates alloc, alloc.roundedSize) := by
  obtain ⟨candidate, hcandidate, hstep⟩ := Option.bind_eq_some_iff.mp h
  rw [← Option.some.inj hstep, legOf, hcandidate]
  rfl

theorem steps_eq {sha256 : String → String} {call : ComposeCall} {steps : List ComposedStep}
    (h : stepsOf sha256 call = some steps) :
    steps.map (fun step => (step.leg_id, step.roundedSize)) = call.allocations.map fun allocation =>
        (legOf call.candidates allocation, allocation.roundedSize) := by
  have hsteps := forall₂_of_mapM h
  have hpaired : ∀ (items : List (SplitAllocation × ℕ)) (steps : List ComposedStep),
      List.Forall₂ (fun alloc step => composeStep sha256 (planIdOf sha256 call) call.candidates
        alloc.1 alloc.2 = some step) items steps →
      steps.map (fun step => (step.leg_id, step.roundedSize)) =
        (items.map Prod.fst).map fun allocation =>
          (legOf call.candidates allocation, allocation.roundedSize) := by
    intro items steps hitems
    induction hitems with
    | nil => rfl
    | @cons alloc step items steps hstep _ ih =>
      rw [map_cons, ih, map_cons, map_cons, composeStep_eq hstep]
  rw [hpaired _ _ hsteps, zipIdx_map_fst]

theorem LegShares.legOf_eq {total : String → ℚ} {allocations : List SplitAllocation}
    (h : LegShares routed total allocations shares) (hids : (routed.map (·.id)).Nodup) :
    ∀ share ∈ shares, ∀ alloc ∈ share.2,
      legOf (routed.map (·.toProvidedCandidate)) alloc = share.1 := by
  intro share hshare alloc hallocation
  obtain ⟨candidate, hcandidate, hid, hleg⟩ := h.named share hshare alloc hallocation
  have hfound : ((routed.map (·.toProvidedCandidate)).find?
      (·.id = alloc.candidateId)).isSome = true :=
    find?_isSome.mpr ⟨candidate.toProvidedCandidate, mem_map_of_mem hcandidate, decide_eq_true hid⟩
  obtain ⟨found, hfind⟩ := Option.isSome_iff_exists.mp hfound
  obtain ⟨other, hother, rfl⟩ := mem_map.mp (mem_of_find?_eq_some hfind)
  have hotherId : other.id = alloc.candidateId := by
    have hmatch := find?_some hfind
    exact of_decide_eq_true hmatch
  have hsame : other = candidate :=
    inj_on_of_nodup_map hids hother hcandidate (hotherId.trans hid.symm)
  rw [legOf, hfind, Option.map_some, Option.getD_some, hsame]
  exact hleg

variable {run : PlanRun}

theorem steps_of_shares (hids : (run.routeCandidates.map (·.id)).Nodup)
    (hplan : BuildsPlan env call run)
    (hshares : LegShares run.routeCandidates (legTotal env call run.routeCandidates)
      run.allocations shares) :
    (∀ id, (∃ step ∈ run.steps, step.leg_id = id) ↔
      ∃ candidate ∈ run.routeCandidates, candidate.leg_id = id) ∧
    ∀ id, (∃ candidate ∈ run.routeCandidates, candidate.leg_id = id) →
      ((run.steps.filter (·.leg_id = id)).map (·.roundedSize)).sum =
        legTotal env call run.routeCandidates id := by
  have hsteps := steps_eq hplan.composed
  have hleg := hshares.legOf_eq hids
  dsimp only at hsteps
  rw [hshares.allocations] at hsteps
  refine ⟨fun id => ?_, fun id hid => ?_⟩
  · have hlegs : (run.steps.map (·.leg_id)) = (shares.flatMap (·.2)).map
        (legOf (run.routeCandidates.map (·.toProvidedCandidate))) := by
      have hfst := congrArg (List.map Prod.fst) hsteps
      rw [map_map, map_map] at hfst
      exact hfst
    rw [← mem_map, hlegs, ← hshares.legs, mem_map]
    constructor
    · rintro ⟨alloc, hallocation, rfl⟩
      obtain ⟨share, hshare, hin⟩ := mem_flatMap.mp hallocation
      rw [hleg share hshare alloc hin]
      exact mem_map_of_mem hshare
    · intro hkey
      obtain ⟨share, hshare, rfl⟩ := mem_map.mp hkey
      obtain ⟨alloc, hin⟩ := exists_mem_of_ne_nil _ (hshares.nonempty share hshare)
      exact ⟨alloc, mem_flatMap.mpr ⟨share, hshare, hin⟩, hleg share hshare alloc hin⟩
  · obtain ⟨share, hshare, rfl⟩ := mem_map.mp ((hshares.legs id).mpr hid)
    have hsizes : (run.steps.filter (·.leg_id = share.1)).map (·.roundedSize) =
        ((shares.flatMap (·.2)).filter
          (legOf (run.routeCandidates.map (·.toProvidedCandidate)) · = share.1)).map
            (·.roundedSize) := by
      have hkept := congrArg (fun pairs => (pairs.filter (·.1 = share.1)).map Prod.snd) hsteps
      rw [filter_map, filter_map, map_map, map_map] at hkept
      exact hkept
    rw [hsizes, sum_share hshares.keys hleg hshare]
    exact hshares.sum share hshare

/-! ## The condition -/

/-- The candidates were cached by a call that saw the listed legs, every one of these has a
candidate that passes the filters, and the candidates of none have more to give of the residual
than is its own. -/
structure KeptByCache (env : RouterEnv Uuid) (call : RouterCall) (own : RFQLeg → ℚ)
    (legs : List RFQLeg) (cached : List PricedCandidate) : Prop where
  listed : ∀ id, (∃ candidate ∈ cached, candidate.leg_id = id) ↔ ∃ leg ∈ legs, leg.leg_id = id
  served : ∀ leg ∈ legs, ∃ candidate ∈ keptOf env call cached, candidate.leg_id = leg.leg_id
  sizes : ∀ leg ∈ legs, legTotal env call (keptOf env call cached) leg.leg_id ≤ own leg

omit [DecidableEq Uuid] in
theorem keptOf_sublist (discovered : List PricedCandidate) :
    (keptOf env call discovered).Sublist discovered := by
  unfold keptOf filterSTPViolations
  split
  · exact filter_sublist
  · exact filter_sublist.trans filter_sublist

theorem legsPreserved_iff_of_discovered (own : RFQLeg → ℚ) {legs : List RFQLeg}
    (hids : (run.discovered.map (·.id)).Nodup) (hplan : BuildsPlan env call run) :
    LegsPreserved legs own run ↔ KeptByCache env call own legs run.discovered := by
  have hkept := hplan.routeCandidates
  have hsublist : run.routeCandidates.Sublist run.discovered := hkept ▸ keptOf_sublist _
  have hkeptIds := (hsublist.map (·.id)).nodup hids
  obtain ⟨shares, hshares⟩ := buildsPlan_shares hkeptIds hplan
  obtain ⟨hlegs, hsums⟩ := steps_of_shares hkeptIds hplan hshares
  constructor
  · intro h
    have hserved : ∀ leg ∈ legs, ∃ candidate ∈ run.routeCandidates,
        candidate.leg_id = leg.leg_id := fun leg hleg =>
      (hlegs leg.leg_id).mp ((h.steps leg.leg_id).mpr ⟨leg, hleg, rfl⟩)
    refine ⟨h.candidates, hkept ▸ hserved, fun leg hleg => ?_⟩
    rw [← hkept, ← hsums leg.leg_id (hserved leg hleg)]
    exact h.sizes leg hleg
  · intro h
    have hserved := h.served
    have hsizes := h.sizes
    rw [← hkept] at hserved hsizes
    refine ⟨h.listed, fun id => ?_, fun leg hleg => ?_⟩
    · rw [hlegs]
      constructor
      · rintro ⟨candidate, hcandidate, hid⟩
        exact (h.listed id).mp ⟨candidate, hsublist.subset hcandidate, hid⟩
      · rintro ⟨leg, hleg, rfl⟩
        exact hserved leg hleg
    · rw [hsums leg.leg_id (hserved leg hleg)]
      exact hsizes leg hleg

end Plan

/-! ## A listed leg -/

section Listed

def listedLegId : String := "1f0c7f3e-0000-4000-8000-000000000001"

def madeLegId : String := "1f0c7f3e-0000-4000-8000-000000000002"

/-- One leg, of two units. -/
def listedRFQ : CanonicalRFQInput :=
  { rfqId := "rfq", idempotencyKey := "key", canonicalMarketId := "market"
    canonicalOutcomeId := none, takerId := "taker", side := .buy, quantity := "2"
    stpMode := .NONE
    metadata := some [("legs", .array [.object [("leg_id", .string listedLegId),
      ("canonical_market_id", .string "market"), ("side", .string "buy"),
      ("quantity", .number ⟨2, "2", by decide +kernel⟩)]])] }

/-- Two units for a half each. -/
def venueSnapshot : SourceQuote :=
  { providerId := "venue", availableSize := 2, quotedPrice := 1 / 2, fees := none
    latencyMs := none, fillProb := some 1, names := [], metadata := [] }

def listedCall (cached : Option (List PricedCandidate)) : RouterCall :=
  { rfq := listedRFQ
    policy := .PARTIAL_ALLOWED
    remainingSize := "2"
    remaining := 2
    mode := .pooled
    discovery :=
      { isUuid := fun text => text.length = 36
        legUuid := madeLegId
        uuid := fun _ => "1f0c7f3e-0000-4000-8000-000000000003"
        sources :=
          { wholeComboQuotes := []
            perLegQuotes := fun _ => []
            orderbookSnapshots := fun _ => [venueSnapshot]
            internalHints := fun _ => [] }
        cached := cached } }

def plainEnv : RouterEnv { value : String // NoSeparator value } :=
  { localeCompare := compare
    column := plainColumn
    deps :=
      { resolutionRiskPenalty := none
        resolutionRiskReadService := none
        resolutionRiskPolicyService := none }
    resolve := none
    pow := fun base _ => base
    config := {}
    sha256 := id }

def venueCandidate (legId : String) : PricedCandidate :=
  normalizeCandidate "1f0c7f3e-0000-4000-8000-000000000003" legId .canonical_orderbook
    venueSnapshot

def venueScore (legId : String) : CandidateScore :=
  (evaluateCandidate plainEnv.pow plainEnv.config 2 (venueCandidate legId)).toCandidateScore

def venueAllocation (legId : String) : SplitAllocation :=
  allocationOf ⟨venueScore legId, ⟨false, 0⟩, (venueScore legId).effectiveUnitCost⟩ 2

theorem venue_allocates (cached : Option (List PricedCandidate)) (legId : String) :
    Allocates plainEnv (listedCall cached) [venueCandidate legId] [venueAllocation legId] := by
  have hticks : floorTick DEFAULT_TICK_SIZE 2 = 2 := by
    norm_num [floorTick, ticks, DEFAULT_TICK_SIZE]
  have hleg : LegAllocates plainEnv.localeCompare plainEnv.column plainEnv.deps
      [venueScore legId] 2 .PARTIAL_ALLOWED "market" [(venueCandidate legId).toRouteCandidate]
      ⟨[venueAllocation legId], [], []⟩ := by
    refine ⟨cons_ne_nil _ _, none, rfl,
      splitReturns_lone rfl (by norm_num) hticks le_rfl, ?_, rfl, rfl⟩
    rintro ⟨hpolicy, -⟩
    cases hpolicy
  exact ⟨[⟨[venueAllocation legId], [], []⟩], .cons hleg .nil, rfl⟩

theorem venue_buildsPlan {cached : Option (List PricedCandidate)} {legId : String}
    (h : discoverCandidates (listedCall cached).discovery (buildResidualRFQ listedRFQ "2") 2 =
      .ok [venueCandidate legId]) :
    ∃ run, run.discovered = [venueCandidate legId] ∧
      BuildsPlan plainEnv (listedCall cached) run := by
  obtain ⟨steps, hsteps⟩ : ∃ steps, stepsOf plainEnv.sha256
      { rfqId := listedRFQ.rfqId, idempotencyKey := listedRFQ.idempotencyKey
        candidates := [(venueCandidate legId).toProvidedCandidate]
        allocations := [venueAllocation legId], policy := .PARTIAL_ALLOWED } = some steps :=
    ⟨_, rfl⟩
  exact ⟨⟨[venueCandidate legId], [venueCandidate legId], [venueAllocation legId], steps⟩, rfl,
    ⟨h, rfl, cons_ne_nil _ _, venue_allocates cached legId, hsteps⟩⟩

def listedLeg : RFQLeg :=
  { leg_id := listedLegId, canonical_market_id := "market", canonical_outcome_id := none
    side := .buy, quantity := some 2 }

theorem listedLegs_eq (cached : Option (List PricedCandidate)) :
    (listedCall cached).rfq.listedLegs (listedCall cached).discovery.isUuid = some [listedLeg] := by
  show listedRFQ.listedLegs (fun text => text.length = 36) = some [listedLeg]
  decide +kernel

end Listed

end LotusRfq.Sor
