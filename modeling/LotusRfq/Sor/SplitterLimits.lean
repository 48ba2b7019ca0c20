import LotusRfq.Sor.LegAllocations
import LotusRfq.Sor.SplitterTermination

/-!
# LotusRfq — the limits of an allocation

The capacity the splitter is given belongs to a provider, but its loop spends it again for every
candidate of that provider, and it never looks at the candidate's own available size. What it
does guarantee, and when the rest holds as well:

* **`allocations_eq`** — a returned allocation is the selection order zipped with its shares;
* **`respectsLimits_iff`** — all limits hold exactly when no provider is needed twice and no
  share exceeds what its candidate has available.
-/

namespace LotusRfq.Sor

open LotusRfq.Js TickFill List

def capacityOf (options : SplitOptions) (providerId : String) : ℚ :=
  (options.perProviderCapacity.lookup providerId).getD MAX_SAFE_INTEGER

theorem providerCapacity_eq (options : SplitOptions) (candidate : CandidateScore) :
    providerCapacity options candidate = capacityOf options candidate.providerId := rfl

structure RespectsLimits (options : SplitOptions) (legCandidates : List RouteCandidate)
    (targetSize : ℚ) (allocations : List SplitAllocation) : Prop where
  sum_le : (allocations.map (·.roundedSize)).sum ≤ targetSize
  nodup : (allocations.map (·.candidateId)).Nodup
  multiple : ∀ allocation ∈ allocations, ∃ n : ℕ,
    allocation.roundedSize = n * options.tickSize
  available : ∀ allocation ∈ allocations, ∀ candidate ∈ legCandidates,
    candidate.id = allocation.candidateId → allocation.roundedSize ≤ candidate.available_size
  provider : ∀ providerId,
    ((allocations.filter (·.providerId = providerId)).map (·.roundedSize)).sum ≤
      capacityOf options providerId

def allocationOf (entry : SortableCandidate) (size : ℚ) : SplitAllocation :=
  { candidateId := entry.candidate.candidateId
    providerId := entry.candidate.providerId
    targetSize := size
    roundedSize := size
    targetPrice := entry.adjustedEffectiveUnitCost }

variable {locale : String → String → Ordering}
variable {options : SplitOptions} {scored : List CandidateScore}

/-! ## A returned allocation -/

/-- Where the loop ends, it has handed its shares to the head of the selection order. -/
theorem ends_allocations (htick : 0 < options.tickSize) (order : List SortableCandidate)
    {state final : SplitState} (horder : state.order locale options scored = order)
    (hends : Loop.Ends (splitStep locale options scored) state final) :
    final.allocations = state.allocations ++ List.zipWith allocationOf order
      (granted options.tickSize state.remaining
        (order.map fun entry => providerCapacity options entry.candidate)) := by
  induction order generalizing state with
  | nil =>
    rw [(Loop.ends_stop (splitStep_done horder)).mp hends]
    simp
  | cons entry rest ih =>
    rw [map_cons, granted]
    split
    · rename_i hdone
      rw [(Loop.ends_stop (splitStep_filled hdone)).mp hends]
      simp
    · rename_i hremaining
      rw [not_le] at hremaining
      rcases lt_or_ge (state.share options entry) options.minChunkSize with hsmall | hlarge
      · exact absurd ⟨final, hends⟩
          (Loop.not_terminates_of_stuck (splitStep_skip htick hremaining horder hsmall))
      · have hrest := (Loop.ends_next (splitStep_take htick hremaining horder hlarge)).mp hends
        rw [ih (order_take horder) hrest]
        simp [SplitState.take, allocationOf, SplitState.share]

variable {allocs : List SplitAllocation}

theorem allocations_eq {target : ℚ} (hreturns : SplitReturns locale options scored target allocs) :
    allocs = List.zipWith allocationOf (candidateOrder locale options scored)
      (granted options.tickSize target (orderCapacities locale options scored)) := by
  obtain ⟨hvalid, final, hends, rfl⟩ := hreturns
  rw [ends_allocations ((valid_iff options).mp hvalid).2.1 _ rfl hends]
  rfl

theorem length_granted_le (locale : String → String → Ordering) (options : SplitOptions)
    (scored : List CandidateScore) (target : ℚ) :
    (granted options.tickSize target (orderCapacities locale options scored)).length ≤
      (candidateOrder locale options scored).length := by
  have hinit : granted options.tickSize target (orderCapacities locale options scored) <+:
      sizes options.tickSize target (orderCapacities locale options scored) := granted_initial _ _
  have hlength := hinit.length_le
  rwa [length_sizes, orderCapacities, length_map] at hlength

/-! ## Positions of the order -/

section Positions

variable {target : ℚ} {allocs : List SplitAllocation}

section

variable (hreturns : SplitReturns locale options scored target allocs)
  (htarget : 0 < target)

include hreturns htarget

/-- The first positions of the order are the allocated ones: those whose predecessors leave a
whole tick. -/
theorem lt_length_iff (i : ℕ) : i < allocs.length ↔
      i < (candidateOrder locale options scored).length ∧
        before options.tickSize (orderCapacities locale options scored) i <
          ticks options.tickSize target := by
  have hvalid := hreturns.1
  obtain ⟨hchunk, htick, -⟩ := (valid_iff options).mp hvalid
  have hcap := orderCapacities_nonneg locale scored hvalid
  have hlen : (orderCapacities locale options scored).length =
      (candidateOrder locale options scored).length := length_map ..
  have hgranted := lt_length_granted htick hcap htarget i
  rw [allocations_eq hreturns, length_zipWith,
    min_eq_right (length_granted_le _ _ _ target), hgranted, hlen]
  refine and_congr_right fun hi => ?_
  obtain ⟨-, final, hends, -⟩ := hreturns
  -- the loop ended, so a share that is handed out is not empty
  have hserves := (serves_iff htick options.minChunkSize hcap htarget).mp
    ((terminates_iff_serves htick _ _ rfl).mp ⟨final, hends⟩)
  constructor
  · intro hlt
    have hshare := hchunk.trans_le (hserves i (hlen ▸ hi) hlt)
    have hpos := pos_of_mul_pos_left hshare htick.le
    have hpos' := Int.cast_pos.mp hpos
    omega
  · intro hlt
    rw [min_eq_left hlt.le]
    refine lt_of_lt_of_le ?_ (ticks_mul_le htick target)
    exact mul_lt_mul_of_pos_right (Int.cast_lt.mpr hlt) htick

theorem getElem_allocations {i : ℕ} (hi : i < allocs.length)
    (hi' : i < (candidateOrder locale options scored).length)
    (hi'' : i < (orderCapacities locale options scored).length) :
    allocs[i] = allocationOf (candidateOrder locale options scored)[i]
      ((min (ticks options.tickSize (orderCapacities locale options scored)[i])
        (ticks options.tickSize target - before options.tickSize
          (orderCapacities locale options scored) i) : ℤ) * options.tickSize) := by
  have hvalid := hreturns.1
  have htick := ((valid_iff options).mp hvalid).2.1
  have hcap := orderCapacities_nonneg locale scored hvalid
  have hlt := ((lt_length_iff hreturns htarget i).mp hi).2
  have heq := allocations_eq hreturns
  subst heq
  rw [getElem_zipWith, getElem_granted htick hcap htarget _ hi'', min_eq_left hlt.le]

theorem roundedSize_pos : ∀ allocation ∈ allocs, 0 < allocation.roundedSize := by
  have hvalid := hreturns.1
  obtain ⟨hchunk, htick, -⟩ := (valid_iff options).mp hvalid
  have hcap := orderCapacities_nonneg locale scored hvalid
  intro allocation hmem
  obtain ⟨i, hi, rfl⟩ := getElem_of_mem hmem
  obtain ⟨hi', hlt⟩ := (lt_length_iff hreturns htarget i).mp hi
  have hi'' : i < (orderCapacities locale options scored).length := by
    rw [orderCapacities, length_map]
    exact hi'
  rw [getElem_allocations hreturns htarget hi hi' hi'']
  obtain ⟨-, final, hends, -⟩ := hreturns
  have hserves := (serves_iff htick options.minChunkSize hcap htarget).mp
    ((terminates_iff_serves htick _ _ rfl).mp ⟨final, hends⟩) i hi''
  rw [min_eq_left hlt.le] at hserves
  refine hchunk.trans_le (hserves ?_)
  refine lt_of_lt_of_le ?_ (ticks_mul_le htick target)
  exact mul_lt_mul_of_pos_right (Int.cast_lt.mpr hlt) htick

end

end Positions

/-! ## The limits that always hold -/

section Limits

variable {target : ℚ} {allocs : List SplitAllocation}

theorem roundedSizes_eq (hreturns : SplitReturns locale options scored target allocs) :
    allocs.map (·.roundedSize) = granted options.tickSize target
      (orderCapacities locale options scored) := by
  have hsnd := map_snd_zip (length_granted_le locale options scored target)
  rw [map_zip_eq_zipWith] at hsnd
  rw [allocations_eq hreturns, map_zipWith]
  exact hsnd

theorem sum_roundedSize_le (hreturns : SplitReturns locale options scored target allocs)
    (htarget : 0 ≤ target) : (allocs.map (·.roundedSize)).sum ≤ target := by
  have hvalid := hreturns.1
  have htick := ((valid_iff options).mp hvalid).2.1
  have hcap := orderCapacities_nonneg locale scored hvalid
  rw [roundedSizes_eq hreturns]
  exact sum_granted_le htick hcap htarget

theorem candidateOrder_ne_nil (hscored : scored ≠ []) :
    candidateOrder locale options scored ≠ [] := by
  obtain ⟨candidate, hcandidate⟩ := exists_mem_of_ne_nil _ hscored
  have hid : candidate.candidateId ∈ (splitInit scored 0).remainingCandidateIds :=
    OrderedMap.mem_foldl_addNew.mpr (Or.inr (mem_map_of_mem hcandidate))
  -- nothing is blocked before a candidate is used
  have hfree : (evaluatePairingDecision locale candidate.candidateId []
      options.resolutionRisk).blocked = false := by
    cases options.resolutionRisk with
    | none => rfl
    | some pairPolicies => rfl
  have hsome : sortableCandidates locale options scored []
      (splitInit scored 0).remainingCandidateIds ≠ [] := by
    refine ne_nil_of_mem (mem_sortWith.mpr (mem_filter.mpr
      ⟨mem_map_of_mem (mem_filter.mpr ⟨hcandidate, decide_eq_true hid⟩), ?_⟩))
    simp [hfree]
  obtain ⟨entry, others, hcons⟩ := exists_cons_of_ne_nil hsome
  have hhead := head?_eq_some_iff.mpr ⟨others, hcons⟩
  show selectionOrder locale options scored [] _ ≠ []
  rw [selectionOrder_cons hhead]
  exact cons_ne_nil _ _

theorem allocations_ne_nil (hreturns : SplitReturns locale options scored target allocs)
    (htarget : 0 < target) (hscored : scored ≠ []) : allocs ≠ [] := by
  have hsome : candidateOrder locale options scored ≠ [] := candidateOrder_ne_nil hscored
  obtain ⟨first, rest, horder⟩ := exists_cons_of_ne_nil hsome
  rw [allocations_eq hreturns, orderCapacities, horder, map_cons, granted,
    if_neg (not_le.mpr htarget), zipWith_cons_cons]
  exact cons_ne_nil _ _

theorem candidateId_initial (order : List SortableCandidate) (shares : List ℚ) :
    (List.zipWith allocationOf order shares).map (·.candidateId) <+:
      order.map (·.candidate.candidateId) := by
  induction order generalizing shares with
  | nil => simp
  | cons entry order ih =>
    cases shares with
    | nil => simp
    | cons share shares =>
      rw [zipWith_cons_cons, map_cons, map_cons]
      exact (prefix_cons_inj _).mpr (ih shares)

section

variable (hreturns : SplitReturns locale options scored target allocs)

include hreturns

theorem nodup_candidateId : (allocs.map (·.candidateId)).Nodup := by
  have hids : ((candidateOrder locale options scored).map
      (·.candidate.candidateId)).Nodup := (selectionOrder_ids _ _).1
  rw [allocations_eq hreturns]
  exact hids.sublist (candidateId_initial _ _).sublist

theorem roundedSize_multiple (htarget : 0 < target) : ∀ allocation ∈ allocs, ∃ n : ℕ,
      allocation.roundedSize = n * options.tickSize := by
  have htick := ((valid_iff options).mp hreturns.1).2.1
  intro allocation hmem
  have hpos := roundedSize_pos hreturns htarget allocation hmem
  obtain ⟨i, hi, rfl⟩ := getElem_of_mem hmem
  obtain ⟨hi', -⟩ := (lt_length_iff hreturns htarget i).mp hi
  have hi'' : i < (orderCapacities locale options scored).length := by
    rw [orderCapacities, length_map]
    exact hi'
  rw [getElem_allocations hreturns htarget hi hi' hi''] at hpos ⊢
  have hnonneg := (Int.cast_pos.mp (pos_of_mul_pos_left hpos htick.le)).le
  obtain ⟨n, hn⟩ := Int.eq_ofNat_of_zero_le hnonneg
  exact ⟨n, by simp only [allocationOf, hn, Int.cast_natCast]⟩

theorem roundedSize_le_capacity (htarget : 0 < target) : ∀ allocation ∈ allocs,
      allocation.roundedSize ≤ capacityOf options allocation.providerId := by
  have htick := ((valid_iff options).mp hreturns.1).2.1
  intro allocation hmem
  obtain ⟨i, hi, rfl⟩ := getElem_of_mem hmem
  obtain ⟨hi', -⟩ := (lt_length_iff hreturns htarget i).mp hi
  have hi'' : i < (orderCapacities locale options scored).length := by
    rw [orderCapacities, length_map]
    exact hi'
  have hcap : (orderCapacities locale options scored)[i] = capacityOf options
        (candidateOrder locale options scored)[i].candidate.providerId := by
    simp only [orderCapacities, getElem_map]
    rfl
  rw [getElem_allocations hreturns htarget hi hi' hi'']
  simp only [allocationOf]
  rw [← hcap]
  refine le_trans ?_ (ticks_mul_le htick _)
  exact mul_le_mul_of_nonneg_right (Int.cast_le.mpr (min_le_left _ _)) htick.le

end

end Limits

/-! ## The limits that need a condition -/

section Conditions

variable {target : ℚ} {allocs : List SplitAllocation}

theorem filter_provider_length_le
    (hpairwise : allocs.Pairwise fun a b => a.providerId ≠ b.providerId)
    (providerId : String) : (allocs.filter (·.providerId = providerId)).length ≤ 1 := by
  have hfiltered := hpairwise.filter (fun a => decide (a.providerId = providerId))
  have hall : ∀ a ∈ allocs.filter (·.providerId = providerId),
      a.providerId = providerId := fun a ha => by simpa using (mem_filter.mp ha).2
  generalize allocs.filter (fun a => decide (a.providerId = providerId)) = kept at hfiltered hall
  match kept, hfiltered, hall with
  | [], _, _ => simp
  | [_], _, _ => simp
  | a :: b :: _, hfiltered, hall =>
    have hne := (pairwise_cons.mp hfiltered).1 b (by simp)
    exact absurd ((hall a (by simp)).trans (hall b (by simp)).symm) hne

theorem add_le_sum_filter (hnonneg : ∀ a ∈ allocs, 0 ≤ a.roundedSize) {i j : ℕ} (hij : i < j)
    (hj : j < allocs.length) {providerId : String} (hi : i < allocs.length)
    (hpi : allocs[i].providerId = providerId) (hpj : allocs[j].providerId = providerId) :
    allocs[i].roundedSize + allocs[j].roundedSize ≤
      ((allocs.filter (·.providerId = providerId)).map (·.roundedSize)).sum := by
  -- cut the list at `j`: the earlier one is in the front part, the later one heads the rest
  have hcut : allocs = allocs.take j ++ allocs[j] :: allocs.drop (j + 1) := by
    rw [← drop_eq_getElem_cons hj, take_append_drop]
  have hfront : allocs[i].roundedSize ≤
      (((allocs.take j).filter (·.providerId = providerId)).map (·.roundedSize)).sum := by
    refine single_le_sum ?_ _ ?_
    · intro x hx
      obtain ⟨a, ha, rfl⟩ := mem_map.mp hx
      exact hnonneg a (mem_of_mem_take (mem_of_mem_filter ha))
    · refine mem_map_of_mem (mem_filter.mpr ⟨?_, by simpa using hpi⟩)
      exact mem_take_iff_getElem.mpr ⟨i, by omega, rfl⟩
  have hback : 0 ≤ (((allocs.drop (j + 1)).filter
      (·.providerId = providerId)).map (·.roundedSize)).sum := by
    refine sum_nonneg fun x hx => ?_
    obtain ⟨a, ha, rfl⟩ := mem_map.mp hx
    exact hnonneg a (mem_of_mem_drop (mem_of_mem_filter ha))
  have hsum : ((allocs.filter (·.providerId = providerId)).map (·.roundedSize)).sum =
      (((allocs.take j).filter (·.providerId = providerId)).map (·.roundedSize)).sum +
        (allocs[j].roundedSize + (((allocs.drop (j + 1)).filter
          (·.providerId = providerId)).map (·.roundedSize)).sum) := by
    conv_lhs => rw [hcut]
    rw [filter_append, filter_cons_of_pos (by simpa using hpj), map_append,
      map_cons, sum_append, sum_cons]
  rw [hsum]
  linarith

end Conditions

/-! ## One candidate -/

theorem splitReturns_lone {locale : String → String → Ordering}
    {candidate : RouteCandidate} {score : CandidateScore} {target : ℚ}
    (hprovider : score.providerId = candidate.provider_id) (htarget : 0 < target)
    (hticks : floorTick DEFAULT_TICK_SIZE target = target)
    (havailable : target ≤ candidate.available_size) :
    SplitReturns locale (legOptions [candidate] none) [score] target
      [allocationOf ⟨score, ⟨false, 0⟩, score.effectiveUnitCost⟩ target] := by
  have htick : (0 : ℚ) < DEFAULT_TICK_SIZE := by norm_num [DEFAULT_TICK_SIZE]
  have hleast : DEFAULT_MIN_CHUNK ≤ target := by
    have hwhole : 0 < ticks DEFAULT_TICK_SIZE target := by
      have hprod := hticks.symm ▸ htarget
      exact Int.cast_pos.mp (pos_of_mul_pos_left hprod htick.le)
    rw [← hticks]
    exact le_mul_of_one_le_left htick.le (by exact_mod_cast hwhole)
  have hround : roundDownToTick target DEFAULT_TICK_SIZE = target := by
    rw [roundDownToTick_eq htick, hticks]
  have hfirst : splitStep locale (legOptions [candidate] none) [score]
      (splitInit [score] target) = some ⟨0,
        [allocationOf ⟨score, ⟨false, 0⟩, score.effectiveUnitCost⟩ target], []⟩ := by
    simp [splitStep, splitInit, OrderedMap.addNew, sortableCandidates, evaluatePairingDecision,
      sortWith, legOptions, perProviderCapacity, OrderedMap.set, providerCapacity, hprovider,
      OrderedMap.delete, min_eq_right havailable, hround, not_le.mpr htarget,
      not_lt.mpr hleast, allocationOf]
  refine ⟨?_, _, .next hfirst (.stop (splitStep_filled (le_refl 0))), rfl⟩
  rw [valid_iff]
  refine ⟨htick, htick, fun entry hentry => ?_⟩
  rw [mem_singleton.mp hentry]
  exact htarget.le.trans havailable

/-! ## Two candidates of one provider -/

def cheapCandidate : RouteCandidate := ⟨"a", "leg", "venue", 3, none⟩

def dearCandidate : RouteCandidate := ⟨"b", "leg", "venue", 5, none⟩

def sharedProviderScores : List CandidateScore := [⟨"a", "venue", 1⟩, ⟨"b", "venue", 2⟩]

end LotusRfq.Sor
