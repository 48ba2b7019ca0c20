import Mathlib.Data.Rat.Floor
import LotusRfq.Lib.Loop
import LotusRfq.Lib.OrderedMap
import LotusRfq.Lib.TickFill
import LotusRfq.Sor.Types

/-!
# LotusRfq — the splitter

`Splitter.split` hands a target size out to scored candidates: in each round it takes the
cheapest candidate that may still be pooled with the ones already used, and gives it what its
provider's capacity and the remaining size allow, rounded down to a tick.

The body of its `while` loop is `splitStep`. Which candidate a round takes depends on the ones
taken before and never on sizes, so the whole sequence of choices is a list of its own,
`selectionOrder`, and the loop walks down that list:

* **`splitStep_done`**, **`splitStep_skip`**, **`splitStep_take`** — one round, in terms of the
  head of the selection order.
-/

namespace LotusRfq.Sor

open LotusRfq.Js TickFill List

/-- The options of `split`; `resolutionRisk` is its map of pair policies. -/
structure SplitOptions where
  minChunkSize : ℚ
  tickSize : ℚ
  perProviderCapacity : List (String × ℚ)
  resolutionRisk : Option (List (String × ResolutionRiskRoutingDecision))

/-- The schema `split` parses its options with before it starts. -/
def SplitOptions.valid (options : SplitOptions) : Bool :=
  0 < options.minChunkSize && 0 < options.tickSize &&
    options.perProviderCapacity.all fun entry => 0 ≤ entry.2

structure PairingDecision where
  blocked : Bool
  penalty : ℚ

/-- A candidate still in play, with its decision against the ones already used. -/
structure SortableCandidate where
  candidate : CandidateScore
  pairingDecision : PairingDecision
  adjustedEffectiveUnitCost : ℚ

structure SplitState where
  remaining : ℚ
  allocations : List SplitAllocation
  remainingCandidateIds : List String

def roundDownToTick (value tickSize : ℚ) : ℚ :=
  if tickSize ≤ 0 then 0 else ⌊value / tickSize⌋ * tickSize

section Split

variable (localeCompare : String → String → Ordering)

/-- The loop of `evaluatePairingDecision` over the candidates already used. -/
def pairingLoop (pairPolicies : List (String × ResolutionRiskRoutingDecision))
    (candidateId : String) : List String → ℚ → PairingDecision
  | [], totalPenalty => { blocked := false, penalty := totalPenalty }
  | usedCandidateId :: used, totalPenalty =>
    match pairPolicies.lookup
        (resolutionRiskCandidatePairKey localeCompare candidateId usedCandidateId) with
    | none => pairingLoop pairPolicies candidateId used totalPenalty
    | some decision =>
      match decision.mode with
      | .blocked => { blocked := true, penalty := 0 }
      | .isolated_only => { blocked := true, penalty := 0 }
      | .penalty =>
        pairingLoop pairPolicies candidateId used (totalPenalty + decision.penalty)
      | .normal => pairingLoop pairPolicies candidateId used totalPenalty

def evaluatePairingDecision (candidateId : String) (usedCandidateIds : List String)
    (resolutionRisk : Option (List (String × ResolutionRiskRoutingDecision))) : PairingDecision :=
  match resolutionRisk with
  | none => { blocked := false, penalty := 0 }
  | some pairPolicies => pairingLoop localeCompare pairPolicies candidateId usedCandidateIds 0

/-- Cheaper first, ties by identifier. -/
def compareSortable (left right : SortableCandidate) : Ordering :=
  if left.adjustedEffectiveUnitCost = right.adjustedEffectiveUnitCost then
    localeCompare left.candidate.candidateId right.candidate.candidateId
  else if left.adjustedEffectiveUnitCost < right.adjustedEffectiveUnitCost then .lt
  else .gt

variable (options : SplitOptions) (scoredCandidates : List CandidateScore)

/-- The candidates a round chooses from, best first. -/
def sortableCandidates (usedCandidateIds remainingCandidateIds : List String) :
    List SortableCandidate :=
  let entries := (scoredCandidates.filter (·.candidateId ∈ remainingCandidateIds)).map
    fun candidate =>
      let pairingDecision := evaluatePairingDecision localeCompare candidate.candidateId
        usedCandidateIds options.resolutionRisk
      { candidate := candidate
        pairingDecision := pairingDecision
        adjustedEffectiveUnitCost := candidate.effectiveUnitCost + pairingDecision.penalty }
  sortWith (compareSortable localeCompare) (entries.filter fun entry =>
    !entry.pairingDecision.blocked)

/-- `perProviderCapacity[candidate.providerId] ?? Number.MAX_SAFE_INTEGER`. -/
def providerCapacity (candidate : CandidateScore) : ℚ :=
  (options.perProviderCapacity.lookup candidate.providerId).getD MAX_SAFE_INTEGER

/-- The `while` loop of `split`: `none` when the condition fails or on `break`. The `continue`
of a share below the minimum leaves every variable as it is. -/
def splitStep (state : SplitState) : Option SplitState :=
  if ¬ (0 < state.remaining ∧ state.remainingCandidateIds ≠ []) then none
  else
    let usedCandidateIds := state.allocations.map (·.candidateId)
    match (sortableCandidates localeCompare options scoredCandidates usedCandidateIds
        state.remainingCandidateIds).head? with
    | none => none
    | some nextCandidate =>
      let candidate := nextCandidate.candidate
      let available := min (providerCapacity options candidate) state.remaining
      let rounded := roundDownToTick available options.tickSize
      if rounded < options.minChunkSize then some state
      else
        some
          { remaining := state.remaining - rounded
            allocations := state.allocations ++
              [{ candidateId := candidate.candidateId
                 providerId := candidate.providerId
                 targetSize := rounded
                 roundedSize := rounded
                 targetPrice := nextCandidate.adjustedEffectiveUnitCost }]
            remainingCandidateIds :=
              OrderedMap.delete state.remainingCandidateIds candidate.candidateId }

/-- The variables before the first round. -/
def splitInit (targetSize : ℚ) : SplitState :=
  { remaining := targetSize
    allocations := []
    remainingCandidateIds :=
      (scoredCandidates.map (·.candidateId)).foldl OrderedMap.addNew [] }

/-- `split` comes back: it rejects its options, or its loop ends. -/
def SplitTerminates (targetSize : ℚ) : Prop :=
  options.valid = false ∨
    Loop.Terminates (splitStep localeCompare options scoredCandidates)
      (splitInit scoredCandidates targetSize)

/-- `split` returns these allocations. -/
def SplitReturns (targetSize : ℚ) (allocations : List SplitAllocation) : Prop :=
  options.valid = true ∧ ∃ final,
    Loop.Ends (splitStep localeCompare options scoredCandidates)
      (splitInit scoredCandidates targetSize) final ∧
    final.allocations = allocations

end Split

/-! ## The order of selection -/

variable {used : List String} {entry : SortableCandidate} {ids : List String}

section Order

variable {localeCompare : String → String → Ordering}
variable {options : SplitOptions} {scoredCandidates : List CandidateScore}

theorem mem_sortableCandidates
    (h : entry ∈ sortableCandidates localeCompare options scoredCandidates used ids) :
    entry.candidate ∈ scoredCandidates ∧ entry.candidate.candidateId ∈ ids ∧
      (evaluatePairingDecision localeCompare entry.candidate.candidateId used
        options.resolutionRisk).blocked = false := by
  simp only [sortableCandidates, mem_sortWith, mem_filter, mem_map, decide_eq_true_eq] at h
  obtain ⟨⟨candidate, ⟨hmem, hid⟩, rfl⟩, hblocked⟩ := h
  exact ⟨hmem, hid, by simpa using hblocked⟩

theorem head_mem
    (h : (sortableCandidates localeCompare options scoredCandidates used ids).head? = some entry) :
    entry ∈ sortableCandidates localeCompare options scoredCandidates used ids :=
  mem_of_head? h

/-- The candidates the rounds take one after another, as long as every round takes one. -/
def selectionOrder (localeCompare : String → String → Ordering) (options : SplitOptions)
    (scoredCandidates : List CandidateScore) (used ids : List String) : List SortableCandidate :=
  match _h : (sortableCandidates localeCompare options scoredCandidates used ids).head? with
  | none => []
  | some entry =>
    entry :: selectionOrder localeCompare options scoredCandidates
      (used ++ [entry.candidate.candidateId])
      (OrderedMap.delete ids entry.candidate.candidateId)
termination_by ids.length
decreasing_by exact OrderedMap.length_delete_lt (mem_sortableCandidates (head_mem _h)).2.1

theorem selectionOrder_nil
    (h : (sortableCandidates localeCompare options scoredCandidates used ids).head? = none) :
    selectionOrder localeCompare options scoredCandidates used ids = [] := by
  rw [selectionOrder]
  split
  · rfl
  · rename_i entry hentry
    simp [h] at hentry

theorem selectionOrder_cons
    (h : (sortableCandidates localeCompare options scoredCandidates used ids).head? = some entry) :
    selectionOrder localeCompare options scoredCandidates used ids =
      entry :: selectionOrder localeCompare options scoredCandidates
        (used ++ [entry.candidate.candidateId])
        (OrderedMap.delete ids entry.candidate.candidateId) := by
  rw [selectionOrder]
  split
  · rename_i hnone
    simp [h] at hnone
  · rename_i entry' hentry'
    rw [h, Option.some.injEq] at hentry'
    rw [hentry']

theorem selectionOrder_ids (used ids : List String) :
    ((selectionOrder localeCompare options scoredCandidates used ids).map
        (·.candidate.candidateId)).Nodup ∧
      ∀ entry ∈ selectionOrder localeCompare options scoredCandidates used ids,
        entry.candidate.candidateId ∈ ids := by
  induction used, ids using selectionOrder.induct localeCompare options scoredCandidates with
  | case1 used ids hhead => simp [selectionOrder_nil hhead]
  | case2 used ids entry hhead ih =>
    rw [selectionOrder_cons hhead]
    obtain ⟨hnodup, hmem⟩ := ih
    refine ⟨?_, ?_⟩
    · rw [map_cons, nodup_cons]
      refine ⟨fun h => ?_, hnodup⟩
      obtain ⟨entry', hentry', hid⟩ := mem_map.mp h
      exact (OrderedMap.mem_delete.mp (hmem entry' hentry')).2 hid
    · intro entry' hentry'
      rcases mem_cons.mp hentry' with rfl | hentry'
      · exact (mem_sortableCandidates (head_mem hhead)).2.1
      · exact (OrderedMap.mem_delete.mp (hmem entry' hentry')).1

/-- Two candidates whose filed decision, if there is one, does not keep them apart. -/
def Compatible (localeCompare : String → String → Ordering)
    (resolutionRisk : Option (List (String × ResolutionRiskRoutingDecision)))
    (usedCandidateId candidateId : String) : Prop :=
  ∀ pairPolicies decision, resolutionRisk = some pairPolicies →
    pairPolicies.lookup
      (resolutionRiskCandidatePairKey localeCompare candidateId usedCandidateId) =
        some decision →
    decision.forbids = false

theorem pairingLoop_compatible {pairPolicies : List (String × ResolutionRiskRoutingDecision)}
    {candidateId : String} {totalPenalty : ℚ}
    (h : (pairingLoop localeCompare pairPolicies candidateId used totalPenalty).blocked = false) :
    ∀ usedCandidateId ∈ used,
      Compatible localeCompare (some pairPolicies) usedCandidateId candidateId := by
  induction used generalizing totalPenalty with
  | nil => simp
  | cons usedCandidateId used ih =>
    rw [pairingLoop] at h
    cases hlookup : pairPolicies.lookup
        (resolutionRiskCandidatePairKey localeCompare candidateId usedCandidateId) with
    | none =>
      simp only [hlookup] at h
      intro u hu
      rcases mem_cons.mp hu with rfl | hu
      · intro policies decision heq hdecision
        obtain rfl := Option.some.inj heq
        simp [hlookup] at hdecision
      · exact ih h u hu
    | some decision =>
      simp only [hlookup] at h
      have hfree : decision.forbids = false ∧
          ∃ total, (pairingLoop localeCompare pairPolicies candidateId used total).blocked =
            false := by
        cases hmode : decision.mode <;> simp [hmode] at h
        · exact ⟨by simp [ResolutionRiskRoutingDecision.forbids, hmode], _, h⟩
        · exact ⟨by simp [ResolutionRiskRoutingDecision.forbids, hmode], _, h⟩
      obtain ⟨hforbids, total, hrest⟩ := hfree
      intro u hu
      rcases mem_cons.mp hu with rfl | hu
      · intro policies decision' heq hdecision
        obtain rfl := Option.some.inj heq
        rw [hlookup] at hdecision
        obtain rfl := Option.some.inj hdecision
        exact hforbids
      · exact ih hrest u hu

theorem evaluatePairingDecision_compatible {candidateId : String}
    (h : (evaluatePairingDecision localeCompare candidateId used options.resolutionRisk).blocked =
      false) :
    ∀ usedCandidateId ∈ used,
      Compatible localeCompare options.resolutionRisk usedCandidateId candidateId := by
  intro u hu policies decision hpolicies hdecision
  simp only [evaluatePairingDecision, hpolicies] at h
  exact pairingLoop_compatible h u hu policies decision rfl hdecision

/-- **Greedy compatibility.** Every selected candidate is compatible with all the ones before
it, those already used included. -/
theorem selectionOrder_compatible (used ids : List String) :
    ((selectionOrder localeCompare options scoredCandidates used ids).map
        (·.candidate.candidateId)).Pairwise (Compatible localeCompare options.resolutionRisk) ∧
      ∀ u ∈ used, ∀ entry ∈ selectionOrder localeCompare options scoredCandidates used ids,
        Compatible localeCompare options.resolutionRisk u entry.candidate.candidateId := by
  induction used, ids using selectionOrder.induct localeCompare options scoredCandidates with
  | case1 used ids hhead => simp [selectionOrder_nil hhead]
  | case2 used ids entry hhead ih =>
    rw [selectionOrder_cons hhead]
    obtain ⟨hpairwise, hused⟩ := ih
    have hchosen := evaluatePairingDecision_compatible (mem_sortableCandidates (head_mem hhead)).2.2
    refine ⟨?_, ?_⟩
    · rw [map_cons, pairwise_cons]
      refine ⟨fun id hid => ?_, hpairwise⟩
      obtain ⟨later, hlater, rfl⟩ := mem_map.mp hid
      exact hused _ (by simp) later hlater
    · intro u hu later hlater
      rcases mem_cons.mp hlater with rfl | hlater
      · exact hchosen u hu
      · exact hused u (mem_append_left _ hu) later hlater

theorem sortableCandidates_nil (used : List String) :
    (sortableCandidates localeCompare options scoredCandidates used []).head? = none := by
  rw [head?_eq_none_iff, eq_nil_iff_forall_not_mem]
  intro entry hentry
  simpa using (mem_sortableCandidates hentry).2.1

end Order

/-! ## One round -/

section Round

variable (localeCompare : String → String → Ordering)
variable (options : SplitOptions) (scoredCandidates : List CandidateScore)

def SplitState.order (state : SplitState) : List SortableCandidate :=
  selectionOrder localeCompare options scoredCandidates
    (state.allocations.map (·.candidateId)) state.remainingCandidateIds

/-- The size the loop works out for a candidate. -/
def SplitState.share (state : SplitState) (entry : SortableCandidate) : ℚ :=
  floorTick options.tickSize (min (providerCapacity options entry.candidate) state.remaining)

def SplitState.take (state : SplitState) (entry : SortableCandidate) : SplitState :=
  { remaining := state.remaining - state.share options entry
    allocations := state.allocations ++
      [{ candidateId := entry.candidate.candidateId
         providerId := entry.candidate.providerId
         targetSize := state.share options entry
         roundedSize := state.share options entry
         targetPrice := entry.adjustedEffectiveUnitCost }]
    remainingCandidateIds :=
      OrderedMap.delete state.remainingCandidateIds entry.candidate.candidateId }

theorem roundDownToTick_eq {tick : ℚ} (htick : 0 < tick) (value : ℚ) :
    roundDownToTick value tick = floorTick tick value := by
  rw [roundDownToTick, if_neg (not_le.mpr htick), floorTick, ticks]

variable {localeCompare options scoredCandidates} {state : SplitState}

theorem splitStep_filled (h : state.remaining ≤ 0) :
    splitStep localeCompare options scoredCandidates state = none := by
  rw [splitStep, if_pos fun hcond => absurd hcond.1 (not_lt.mpr h)]

theorem splitStep_done (h : state.order localeCompare options scoredCandidates = []) :
    splitStep localeCompare options scoredCandidates state = none := by
  unfold SplitState.order at h
  unfold splitStep
  split
  · rfl
  · cases hhead : (sortableCandidates localeCompare options scoredCandidates
        (state.allocations.map (·.candidateId)) state.remainingCandidateIds).head? with
    | none => simp only [hhead]
    | some entry =>
      rw [selectionOrder_cons hhead] at h
      simp at h

theorem head_of_order {rest : List SortableCandidate}
    (h : state.order localeCompare options scoredCandidates = entry :: rest) :
    (sortableCandidates localeCompare options scoredCandidates
        (state.allocations.map (·.candidateId)) state.remainingCandidateIds).head? = some entry ∧
      state.remainingCandidateIds ≠ [] := by
  unfold SplitState.order at h
  cases hhead : (sortableCandidates localeCompare options scoredCandidates
      (state.allocations.map (·.candidateId)) state.remainingCandidateIds).head? with
  | none => rw [selectionOrder_nil hhead] at h; simp at h
  | some entry' =>
    rw [selectionOrder_cons hhead] at h
    refine ⟨by rw [(List.cons.inj h).1], fun hids => ?_⟩
    rw [hids, sortableCandidates_nil] at hhead
    simp at hhead

section

variable {entry : SortableCandidate} {rest : List SortableCandidate}
  (htick : 0 < options.tickSize) (hremaining : 0 < state.remaining)
  (h : state.order localeCompare options scoredCandidates = entry :: rest)

include htick hremaining h

theorem splitStep_skip (hshare : state.share options entry < options.minChunkSize) :
    splitStep localeCompare options scoredCandidates state = some state := by
  obtain ⟨hhead, hids⟩ := head_of_order h
  unfold splitStep
  simp only [hremaining, hids, ne_eq, not_false_eq_true, and_self, not_true_eq_false, if_false,
    hhead, roundDownToTick_eq htick]
  exact if_pos hshare

theorem splitStep_take (hshare : options.minChunkSize ≤ state.share options entry) :
    splitStep localeCompare options scoredCandidates state = some (state.take options entry) := by
  obtain ⟨hhead, hids⟩ := head_of_order h
  unfold splitStep
  simp only [hremaining, hids, ne_eq, not_false_eq_true, and_self, not_true_eq_false, if_false,
    hhead, roundDownToTick_eq htick]
  exact if_neg (not_lt.mpr hshare)

end

theorem order_take {rest : List SortableCandidate}
    (h : state.order localeCompare options scoredCandidates = entry :: rest) :
    (state.take options entry).order localeCompare options scoredCandidates = rest := by
  have hhead := (head_of_order h).1
  unfold SplitState.order at h ⊢
  rw [selectionOrder_cons hhead] at h
  simp only [SplitState.take, map_append, map_cons, map_nil]
  exact (List.cons.inj h).2

end Round

end LotusRfq.Sor
