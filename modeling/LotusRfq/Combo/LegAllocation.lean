import LotusRfq.Combo.VectorsAt

/-!
# LotusRfq — what a clearing round takes off the legs of a participant

The residual vector of a participant nets its buys of an outcome against its sells, and what is
matched of the outcome is taken off the legs of one side only. A net size is never more than what
is open on its side, so the legs of the side always have enough, whatever is open on the other.

The vector and what is left to take are decimals of a fixed number of digits. Sizes of one outcome
that share a last place within that many digits are added and subtracted exactly.

* **`allocateMatchedSizeToLegsAt_spreads`** — a matched size over the legs of its participant.
-/

namespace LotusRfq.Combo

open Tables Decimals List

/-! ## At a precision -/

/-- The matched size over the legs in turn, each subtraction to `precision` digits. -/
def takeFromLegsAt (precision : ℕ) (entityId : String) :
    ℚ → List LegRow → Except String (List LegUpdate × ℚ)
  | remainingToAllocate, [] => .ok ([], remainingToAllocate)
  | remainingToAllocate, leg :: rest =>
    let cleared := min leg.remaining_size remainingToAllocate
    if remainingToAllocate = 0 then .ok ([], 0)
    else if 0 < cleared then
      match leg.price_hint with
      | none => .error "missing_clearing_leg_price_hint"
      | some priceHint => do
        let (updates, left) ← takeFromLegsAt precision entityId
          (toSignificant precision (remainingToAllocate - cleared)) rest
        return (⟨leg.id, entityId, leg.canonical_market_id, leg.canonical_outcome_id, leg.side,
          cleared, priceHint⟩ :: updates, left)
    else takeFromLegsAt precision entityId remainingToAllocate rest

def legsOn (env : ClearingEnv) (combo : LoadedCombo) (marketId outcomeId : String) (side : Side) :
    List LegRow :=
  Js.sortWith (fun left right => env.localeCompare left.id right.id)
    (combo.legs.filter fun leg => leg.canonical_market_id = marketId ∧
      leg.canonical_outcome_id = outcomeId ∧ leg.side = side)

def allocateMatchedSizeToLegsAt (precision : ℕ) (env : ClearingEnv) (combo : LoadedCombo)
    (key : String) (matchedSigned : ℚ) : Except String (List LegUpdate) := do
  let (marketId, outcomeId) ← splitLegKey key
  let legs := legsOn env combo marketId outcomeId (sideOf matchedSigned)
  if legs = [] then throw "missing_clearing_leg_allocation"
  let (updates, left) ← takeFromLegsAt precision combo.row.id |matchedSigned| legs
  if left ≠ 0 then throw "unallocated_clearing_size"
  return updates

/-! ## Over the legs -/

section Legs

variable {precision : ℕ} {places : ℤ} {entityId : String} {toAllocate left : ℚ}
  {legs : List LegRow} {updates : List LegUpdate}

theorem takeFromLegsAt_taken
    (h : takeFromLegsAt precision entityId toAllocate legs = .ok (updates, left)) :
    (∀ update ∈ updates, ∃ leg ∈ legs, update.TakenFrom entityId leg ∧
      update.clearedSize ≤ leg.remaining_size) ∧
      (updates.map LegUpdate.legId).Sublist (legs.map LegRow.id) := by
  induction legs generalizing toAllocate updates left with
  | nil =>
    cases h
    exact ⟨fun update hupdate => absurd hupdate not_mem_nil, .slnil⟩
  | cons leg rest ih =>
    rw [takeFromLegsAt] at h
    simp only at h
    split at h
    next =>
      cases h
      exact ⟨fun update hupdate => absurd hupdate not_mem_nil, nil_sublist _⟩
    next =>
      split at h
      next hpos =>
        split at h
        next => cases h
        next priceHint hhint =>
          obtain ⟨⟨others, left'⟩, hrest, h⟩ := bind_eq_ok.mp h
          cases h
          obtain ⟨htaken, hids⟩ := ih hrest
          refine ⟨fun update hupdate => ?_, ?_⟩
          · rcases mem_cons.mp hupdate with rfl | hmem
            · exact ⟨leg, mem_cons_self, ⟨rfl, rfl, rfl, rfl, rfl, hhint, hpos⟩, min_le_left _ _⟩
            · obtain ⟨other, hother, hfrom⟩ := htaken update hmem
              exact ⟨other, mem_cons_of_mem _ hother, hfrom⟩
          · rw [map_cons, map_cons]
            exact hids.cons_cons leg.id
      next =>
        obtain ⟨htaken, hids⟩ := ih h
        refine ⟨fun update hupdate => ?_, hids.cons leg.id⟩
        obtain ⟨other, hother, hfrom⟩ := htaken update hupdate
        exact ⟨other, mem_cons_of_mem _ hother, hfrom⟩

theorem takeFromLegsAt_eq (hremaining : 0 ≤ toAllocate) (hfit : FitsIn precision places toAllocate)
    (hgrid : ∀ leg ∈ legs, OnGrid places leg.remaining_size) :
    takeFromLegsAt precision entityId toAllocate legs = takeFromLegs entityId toAllocate legs := by
  induction legs generalizing toAllocate with
  | nil => rfl
  | cons leg rest ih =>
    have hrest : ∀ other ∈ rest, OnGrid places other.remaining_size :=
      fun other hother => hgrid other (mem_cons_of_mem _ hother)
    rw [takeFromLegsAt, takeFromLegs]
    by_cases hcleared : 0 < min leg.remaining_size toAllocate
    · have hleft : 0 ≤ toAllocate - min leg.remaining_size toAllocate :=
        sub_nonneg.mpr (min_le_right _ _)
      have hfits : FitsIn precision places (toAllocate - min leg.remaining_size toAllocate) := by
        refine hfit.of_le (hfit.onGrid.sub ((hgrid leg mem_cons_self).min hfit.onGrid)) ?_
        rw [abs_of_nonneg hleft, abs_of_nonneg hremaining]
        exact sub_le_self _ hcleared.le
      cases leg.price_hint <;>
        simp only [hcleared, if_true, toSignificant_eq hfits, ih hleft hfits hrest]
    · simp only [hcleared, if_false, ih hremaining hfit hrest]

theorem takeFromLegs_all (hnonneg : ∀ leg ∈ legs, 0 ≤ leg.remaining_size)
    (hhints : ∀ leg ∈ legs, leg.price_hint ≠ none) (hremaining : 0 ≤ toAllocate)
    (hle : toAllocate ≤ (legs.map LegRow.remaining_size).sum) :
    ∃ updates, takeFromLegs entityId toAllocate legs = .ok (updates, 0) := by
  induction legs generalizing toAllocate with
  | nil =>
    have hzero : toAllocate = 0 := le_antisymm (by simpa using hle) hremaining
    exact ⟨[], by rw [takeFromLegs, hzero]⟩
  | cons leg rest ih =>
    have hleg := hnonneg leg mem_cons_self
    have hnext := @ih (toAllocate - min leg.remaining_size toAllocate)
      (fun other hother => hnonneg other (mem_cons_of_mem _ hother))
      (fun other hother => hhints other (mem_cons_of_mem _ hother))
      (sub_nonneg.mpr (min_le_right _ _))
    rw [map_cons, sum_cons] at hle
    have hrest : 0 ≤ (rest.map LegRow.remaining_size).sum := by
      refine sum_nonneg fun size hsize => ?_
      obtain ⟨other, hother, rfl⟩ := mem_map.mp hsize
      exact hnonneg other (mem_cons_of_mem _ hother)
    -- what the leg does not give is left to the others
    have hleft : toAllocate - min leg.remaining_size toAllocate ≤
        (rest.map LegRow.remaining_size).sum := by
      rcases min_choice leg.remaining_size toAllocate with heq | heq
      · rw [heq]
        linarith
      · rw [heq, sub_self]
        exact hrest
    obtain ⟨updates, hupdates⟩ := hnext hleft
    rw [takeFromLegs]
    by_cases hzero : toAllocate = 0
    · exact ⟨[], by simp [hzero]⟩
    · by_cases hcleared : 0 < min leg.remaining_size toAllocate
      · cases hhint : leg.price_hint with
        | none => exact absurd hhint (hhints leg mem_cons_self)
        | some priceHint =>
          simp only [hzero, hcleared, if_false, if_true, hupdates]
          exact ⟨_, rfl⟩
      · have hempty : min leg.remaining_size toAllocate = 0 :=
          le_antisymm (not_lt.mp hcleared) (le_min hleg hremaining)
        rw [hempty, sub_zero] at hupdates
        exact ⟨updates, by simp only [hzero, hcleared, if_false, hupdates]⟩

end Legs

/-! ## What is matched of an outcome -/

section Matched

variable {precision : ℕ} {places : ℤ} {env : ClearingEnv} {group : CandidateGroup}
  {participants : List ParticipantState} {groupResiduals : SizeVector}
  {allocations : List ParticipantAllocation}

theorem keepResidual_onGrid {residualIsPositive : Bool} {residualToAssign : ℚ}
    {contributors : List (String × ℚ)} (hassign : OnGrid places residualToAssign)
    (hgrid : ∀ contributor ∈ contributors, OnGrid places contributor.2) :
    ∀ share ∈ (keepResidual residualIsPositive residualToAssign contributors).1,
      OnGrid places share.residual := by
  induction contributors generalizing residualToAssign with
  | nil => exact fun share hshare => absurd hshare not_mem_nil
  | cons contributor rest ih =>
    obtain ⟨entityId, original⟩ := contributor
    have hrest : ∀ other ∈ rest, OnGrid places other.2 :=
      fun other hother => hgrid other (mem_cons_of_mem _ hother)
    have hkeep : OnGrid places (min |original| residualToAssign) :=
      (hgrid _ mem_cons_self).abs.min hassign
    rw [keepResidual]
    intro share hshare
    split at hshare
    next =>
      rcases mem_cons.mp hshare with rfl | hmem
      · exact .zero
      · exact ih hassign hrest share hmem
    next =>
      rcases mem_cons.mp hshare with rfl | hmem
      · show OnGrid places (if 0 < original then _ else -_)
        split
        · exact hkeep
        · exact hkeep.neg
      · exact ih (hassign.sub hkeep) hrest share hmem

theorem shareKey_onGrid {groupResidual : ℚ} {contributors : List (String × ℚ)}
    {shares : List KeyShare} (hgroup : OnGrid places groupResidual)
    (hgrid : ∀ contributor ∈ contributors, OnGrid places contributor.2)
    (h : shareKey groupResidual contributors = .ok shares) :
    ∀ share ∈ shares, OnGrid places share.residual := by
  unfold shareKey at h
  split at h
  next =>
    split at h
    next =>
      cases h
      exact fun share hshare => absurd hshare not_mem_nil
    next => cases h
  next =>
    split at h
    next =>
      cases h
      intro share hshare
      obtain ⟨contributor, -, rfl⟩ := mem_map.mp hshare
      exact .zero
    next =>
      simp only at h
      split at h
      next => cases h
      next =>
        cases h
        exact keepResidual_onGrid hgroup.abs hgrid

/-- The outcome's sizes and the group's residual share a last place, and fit. -/
def KeyFits (precision : ℕ) (members : List ParticipantState) (groupResiduals : SizeVector)
    (key : String) : Prop :=
  ∃ places, FitsIn precision places (residualOf groupResiduals key) ∧
    ∀ member ∈ members, LegsFit precision places member.combo key

/-- The share that a matched entry was read off. -/
structure SharedAt (precision : ℕ) (env : ClearingEnv) (group : CandidateGroup)
    (participants : List ParticipantState) (groupResiduals : SizeVector)
    (participant : ParticipantState) (key : String) (matched : ℚ) (members : List ParticipantState)
    (keyShares : List KeyShare) (share : KeyShare) : Prop where
  found : ∀ other ∈ members, other ∈ membersOf group participants ∧
    findParticipant participants other.combo.row.id = .ok other
  member : participant ∈ members
  shares : shareKeyAt precision (residualOf groupResiduals key) (contributorsOf env members key) =
    .ok keyShares
  mem : share ∈ keyShares
  entityId : share.entityId = participant.combo.row.id
  size : share.matched = matched
  ne_zero : matched ≠ 0

theorem exists_sharedAt
    (hallocations : allocateParticipantResidualsAt precision env group participants
      groupResiduals = .ok allocations)
    {allocation : ParticipantAllocation} (hallocation : allocation ∈ allocations) {key : String}
    {matched : ℚ} (hentry : (key, matched) ∈ allocation.matchedVector) :
    ∃ members keyShares share, SharedAt precision env group participants groupResiduals
      allocation.participant key matched members keyShares share := by
  obtain ⟨members, hmembers, h⟩ := bind_eq_ok.mp hallocations
  obtain ⟨shares, hshares, h⟩ := bind_eq_ok.mp h
  cases h
  obtain ⟨member, hmember, rfl⟩ := mem_map.mp hallocation
  obtain ⟨keyShares, share, hmem, hfind, hmatched, hne⟩ := mem_sharesOf.mp hentry
  have hshare := mem_of_find?_eq_some hfind
  have hid : share.entityId = member.combo.row.id := by simpa using find?_some hfind
  obtain ⟨key', -, hread⟩ := mem_of_mapM hshares hmem
  obtain ⟨hkey, hread⟩ := shareEntry_ok hread
  simp only at hkey hread
  subst hkey
  refine ⟨members, keyShares, share, fun other hother => ?_, hmember, hread, hshare, hid, hmatched,
    hne⟩
  obtain ⟨participantId, hin, hfind⟩ := mem_of_mapM hmembers hother
  obtain ⟨hparticipant, heq⟩ := findParticipant_ok hfind
  refine ⟨?_, heq ▸ hfind⟩
  unfold membersOf
  rw [mem_filter, decide_eq_true_eq]
  exact ⟨hparticipant, heq ▸ hin⟩

variable {participant : ParticipantState} {key : String} {matched : ℚ}
  {members : List ParticipantState} {keyShares : List KeyShare} {share : KeyShare}

theorem SharedAt.contributor (h : SharedAt precision env group participants groupResiduals
      participant key matched members keyShares share) {original : ℚ}
    (horiginal : (share.entityId, original) ∈ contributorsOf env members key) :
    original = entryOf participant.vector.vector key ∧ original ≠ 0 := by
  obtain ⟨other, hother, heq⟩ :=
    mem_map.mp ((contributorsOf_perm env members key).mem_iff.mp horiginal)
  rw [mem_filter, decide_eq_true_eq] at hother
  rw [Prod.mk.injEq] at heq
  have hfind := (h.found other hother.1).2
  rw [heq.1, h.entityId, (h.found participant h.member).2] at hfind
  cases hfind
  exact ⟨heq.2.symm, heq.2 ▸ hother.2⟩

theorem keepResidualAt_entityId (residualIsPositive : Bool) (residualToAssign : ℚ)
    (contributors : List (String × ℚ)) :
    (keepResidualAt precision residualIsPositive residualToAssign contributors).1.map
      KeyShare.entityId = contributors.map Prod.fst := by
  induction contributors generalizing residualToAssign with
  | nil => rfl
  | cons contributor rest ih =>
    rw [keepResidualAt]
    split
    next => simp only [map_cons, ih]
    next => simp only [map_cons, ih]

theorem shareKeyAt_entityId {groupResidual : ℚ} {contributors : List (String × ℚ)}
    {shares : List KeyShare} (h : shareKeyAt precision groupResidual contributors = .ok shares) :
    shares.map KeyShare.entityId = contributors.map Prod.fst := by
  unfold shareKeyAt at h
  split at h
  next hnone =>
    split at h
    next =>
      cases h
      rw [hnone]
      rfl
    next => cases h
  next =>
    split at h
    next =>
      cases h
      simp [Function.comp_def]
    next =>
      simp only at h
      split at h
      next => cases h
      next =>
        cases h
        exact keepResidualAt_entityId _ _ _

section

variable
  (h : SharedAt precision env group participants groupResiduals participant key matched members
    keyShares share)

include h

theorem SharedAt.entry_ne_zero : entryOf participant.vector.vector key ≠ 0 := by
  have hid : share.entityId ∈ (contributorsOf env members key).map Prod.fst := by
    rw [← shareKeyAt_entityId h.shares]
    exact mem_map_of_mem h.mem
  obtain ⟨⟨entityId, original⟩, hmem, heq⟩ := mem_map.mp hid
  have hmem' : (share.entityId, original) ∈ contributorsOf env members key := by
    rw [← heq]
    exact hmem
  obtain ⟨hentry, hne⟩ := h.contributor hmem'
  exact hentry ▸ hne

/-- **What is matched of an outcome** is at most what its participant has of it net, and shares
the last place of the outcome's sizes. -/
theorem SharedAt.shrinks
    (hbuilt : ∀ participant ∈ participants, buildResidualVectorAt precision participant.combo =
      .ok participant.vector)
    (hfit : KeyFits precision (membersOf group participants) groupResiduals key) :
    Shrinks (netSize participant.combo key) matched ∧
      ∃ places, LegsFit precision places participant.combo key ∧ OnGrid places matched := by
  obtain ⟨places, hresidual, hlegs⟩ := hfit
  -- the vectors of the members say what their legs come to
  have hsizes : ∀ other ∈ members, entryOf other.vector.vector key = netSize other.combo key ∧
      FitsIn precision places (netSize other.combo key) := by
    intro other hother
    obtain ⟨hmem, -⟩ := h.found other hother
    have hparticipant : other ∈ participants := mem_of_mem_filter hmem
    obtain ⟨hnonneg, hvector⟩ := buildResidualVectorAt_ok (hbuilt other hparticipant)
    have hother := hlegs other hmem
    refine ⟨by rw [hvector, entryOf_vectorAt hnonneg hother], ?_⟩
    have hgrid : OnGrid places (netSize other.combo key) := by
      rw [netSize_eq]
      exact (hother.fits .buy).onGrid.sub (hother.fits .sell).onGrid
    exact (hother.fits _).of_le hgrid ((abs_netSize_le hnonneg).trans (le_abs_self _))
  have hfits : ∀ contributor ∈ contributorsOf env members key,
      FitsIn precision places contributor.2 := by
    intro contributor hcontributor
    obtain ⟨other, hother, rfl⟩ :=
      mem_map.mp ((contributorsOf_perm env members key).mem_iff.mp hcontributor)
    obtain ⟨heq, hother⟩ := hsizes other (mem_of_mem_filter hother)
    exact heq ▸ hother
  have hshares := h.shares
  rw [shareKeyAt_eq hresidual hfits] at hshares
  obtain ⟨original, horiginal, hsplit⟩ := (shareKey_splits hshares).2 share h.mem
  obtain ⟨heq, hnet⟩ := hsizes participant h.member
  have hsame : original = netSize participant.combo key := (h.contributor horiginal).1.trans heq
  have hgrid := shareKey_onGrid hresidual.onGrid
    (fun contributor hcontributor => (hfits contributor hcontributor).onGrid) hshares share h.mem
  have hrest : matched = original - share.residual := by
    rw [← h.size, ← hsplit.sum, add_sub_cancel_right]
  refine ⟨?_, places, hlegs participant (h.found participant h.member).1, ?_⟩
  · rw [hrest, ← hsame]
    exact hsplit.shrinks.rest
  · rw [hrest, hsame]
    exact hnet.onGrid.sub hgrid

end

end Matched

/-! ## The whole of a matched size -/

/-- What the tables guarantee of a combo's legs: their ids are distinct, and their outcomes are
UUIDs, which are not empty and have no colon in them. -/
structure LegsKeyed (combo : LoadedCombo) : Prop where
  ids : (combo.legs.map LegRow.id).Nodup
  markets : ∀ leg ∈ combo.legs, leg.canonical_market_id ≠ "" ∧
    ':' ∉ leg.canonical_market_id.toList
  outcomes : ∀ leg ∈ combo.legs, leg.canonical_outcome_id ≠ "" ∧
    ':' ∉ leg.canonical_outcome_id.toList

def clearedOf (updates : List LegUpdate) (legId : String) : ℚ :=
  ((updates.filter fun update => update.legId = legId).map LegUpdate.clearedSize).sum

/-- The updates are of the combo's legs of the outcome on the side, each takes something and at
most what its leg has left, and no leg is left with less than nothing. -/
structure TakesFrom (updates : List LegUpdate) (combo : LoadedCombo) (key : String) (side : Side) :
    Prop where
  taken : ∀ update ∈ updates, ∃ leg ∈ combo.legs, legKey leg = key ∧ leg.side = side ∧
    update.TakenFrom combo.row.id leg ∧ update.clearedSize ≤ leg.remaining_size
  nonneg : ∀ leg ∈ combo.legs, 0 ≤ leg.remaining_size →
    0 ≤ leg.remaining_size - clearedOf updates leg.id

section Spread

variable {precision : ℕ} {places : ℤ} {env : ClearingEnv} {combo : LoadedCombo}

theorem splitLegKey_of_leg (hkeyed : LegsKeyed combo) {leg : LegRow} (hleg : leg ∈ combo.legs) :
    splitLegKey (legKey leg) = .ok (leg.canonical_market_id, leg.canonical_outcome_id) := by
  obtain ⟨hmarket, hmarketColon⟩ := hkeyed.markets leg hleg
  obtain ⟨houtcome, houtcomeColon⟩ := hkeyed.outcomes leg hleg
  cases hsplit : splitLegKey (legKey leg) with
  | ok parts => rw [splitLegKey_ok hmarketColon houtcomeColon hsplit]
  | error error =>
    have hparts : (legKey leg).toList.splitOn ':' =
        [leg.canonical_market_id.toList, leg.canonical_outcome_id.toList] := by
      rw [legKey, String.toList_append, String.toList_append, append_assoc,
        show ":".toList ++ leg.canonical_outcome_id.toList =
          ':' :: leg.canonical_outcome_id.toList from rfl,
        splitOn_append_cons_self_of_not_mem hmarketColon,
        splitOn_eq_singleton houtcomeColon]
    unfold splitLegKey at hsplit
    rw [hparts] at hsplit
    simp [hmarket, houtcome] at hsplit

theorem legsOn_perm (hkeyed : LegsKeyed combo) {leg : LegRow} (hleg : leg ∈ combo.legs)
    (side : Side) : (legsOn env combo leg.canonical_market_id leg.canonical_outcome_id side).Perm
      (combo.legs.filter fun other => legKey other = legKey leg ∧ other.side = side) := by
  refine (Js.sortWith_perm _ _).trans (List.Perm.of_eq ?_)
  refine filter_congr fun other hother => ?_
  rw [decide_eq_decide]
  constructor
  · rintro ⟨hmarket, houtcome, hside⟩
    exact ⟨by rw [legKey, hmarket, houtcome]; rfl, hside⟩
  · rintro ⟨hkey, hside⟩
    have hparts := splitLegKey_of_leg hkeyed hother
    rw [hkey, splitLegKey_of_leg hkeyed hleg] at hparts
    rw [Except.ok.injEq, Prod.mk.injEq] at hparts
    exact ⟨hparts.1.symm, hparts.2.symm, hside⟩

theorem filter_legId_le_one {updates : List LegUpdate}
    (hnodup : (updates.map LegUpdate.legId).Nodup) (legId : String) :
    (updates.filter fun update => update.legId = legId).length ≤ 1 := by
  have hcount : (updates.map LegUpdate.legId).count legId ≤ 1 :=
    nodup_iff_count_le_one.mp hnodup legId
  rw [count_eq_countP, countP_map, countP_eq_length_filter] at hcount
  exact hcount

theorem allocateMatchedSizeToLegsAt_taken (hkeyed : LegsKeyed combo) {key : String}
    {signed : ℚ} {updates : List LegUpdate} {leg : LegRow} (hleg : leg ∈ combo.legs)
    (hkey : legKey leg = key)
    (h : allocateMatchedSizeToLegsAt precision env combo key signed = .ok updates) :
    TakesFrom updates combo key (sideOf signed) := by
  unfold allocateMatchedSizeToLegsAt at h
  rw [← hkey, splitLegKey_of_leg hkeyed hleg] at h
  have hperm := @legsOn_perm env combo hkeyed leg hleg (sideOf signed)
  simp only [bind, Except.bind] at h
  split at h
  next => cases h
  next =>
    split at h
    next => cases h
    next result hresult =>
      split at h
      next => cases h
      next =>
        cases h
        obtain ⟨htaken, hids⟩ := takeFromLegsAt_taken hresult
        have hnodup : (result.1.map LegUpdate.legId).Nodup := by
          refine hids.nodup ((hperm.map LegRow.id).nodup_iff.mpr ?_)
          exact (filter_sublist.map LegRow.id).nodup hkeyed.ids
        have hfrom : ∀ update ∈ result.1, ∃ other ∈ combo.legs, legKey other = key ∧
            other.side = sideOf signed ∧ update.TakenFrom combo.row.id other ∧
            update.clearedSize ≤ other.remaining_size := by
          intro update hupdate
          obtain ⟨other, hother, hupdated, hle⟩ := htaken update hupdate
          have hmem := hperm.mem_iff.mp hother
          rw [mem_filter, decide_eq_true_eq] at hmem
          exact ⟨other, hmem.1, hkey ▸ hmem.2.1, hmem.2.2, hupdated, hle⟩
        refine ⟨hfrom, fun other hother hopen => sub_nonneg.mpr ?_⟩
        -- at most one update is of the leg
        have hone := filter_legId_le_one hnodup other.id
        unfold clearedOf
        cases hcleared : result.1.filter fun update => update.legId = other.id with
        | nil => simpa using hopen
        | cons update rest =>
          rw [hcleared] at hone
          have hrest : rest = [] := by
            rw [← length_eq_zero_iff]
            simpa using hone
          have hupdate : update ∈ result.1.filter fun update => update.legId = other.id :=
            hcleared ▸ mem_cons_self
          rw [mem_filter, decide_eq_true_eq] at hupdate
          obtain ⟨source, hsource, -, -, hupdated, hle⟩ := hfrom update hupdate.1
          have hsame : source = other := inj_on_of_nodup_map hkeyed.ids hsource hother
              (hupdated.legId.trans hupdate.2)
          rw [hrest, ← hsame]
          simpa using hle

theorem abs_le_openSize {key : String} {signed : ℚ}
    (hnonneg : ∀ leg ∈ combo.legs, 0 ≤ leg.remaining_size) (hne : signed ≠ 0)
    (hshrinks : Shrinks (netSize combo key) signed) :
    |signed| ≤ openSize combo key (sideOf signed) ∧
      |signed| ≤ |netSize combo key| := by
  have hside : sideOf (netSize combo key) = sideOf signed ∧
      |signed| ≤ |netSize combo key| := by
    unfold sideOf
    rcases hshrinks with ⟨hpos, hle⟩ | ⟨hle, hneg⟩
    · have hlt : 0 < signed := lt_of_le_of_ne hpos (Ne.symm hne)
      have hnet : 0 < netSize combo key := hlt.trans_le hle
      rw [if_pos hlt, if_pos hnet, abs_of_pos hlt, abs_of_pos hnet]
      exact ⟨rfl, hle⟩
    · have hnet : netSize combo key ≤ 0 := hle.trans hneg
      rw [if_neg (not_lt.mpr hneg), if_neg (not_lt.mpr hnet), abs_of_nonpos hneg,
        abs_of_nonpos hnet]
      exact ⟨rfl, neg_le_neg hle⟩
  exact ⟨hside.1 ▸ hside.2.trans (abs_netSize_le hnonneg), hside.2⟩

theorem allocateMatchedSizeToLegsAt_whole (hkeyed : LegsKeyed combo) {key : String}
    {signed : ℚ} (hnonneg : ∀ leg ∈ combo.legs, 0 ≤ leg.remaining_size)
    (hne : signed ≠ 0) (hshrinks : Shrinks (netSize combo key) signed)
    (hfit : LegsFit precision places combo key) (hgrid : OnGrid places signed) :
    (∀ updates, allocateMatchedSizeToLegsAt precision env combo key signed = .ok updates →
      (updates.map LegUpdate.clearedSize).sum = |signed|) ∧
    ((∀ leg ∈ combo.legs, leg.price_hint ≠ none) →
      ∃ updates, allocateMatchedSizeToLegsAt precision env combo key signed = .ok updates) := by
  obtain ⟨hopen, -⟩ := abs_le_openSize hnonneg hne hshrinks
  have hpos : 0 < |signed| := abs_pos.mpr hne
  -- the side has a leg
  have hsome : ∃ leg ∈ combo.legs, legKey leg = key := by
    by_contra hnone
    push Not at hnone
    have hempty : openSize combo key (sideOf signed) = 0 := by
      unfold openSize
      rw [filter_eq_nil_iff.mpr fun leg hleg => by simp [hnone leg hleg]]
      rfl
    exact absurd hopen (by rw [hempty]; exact not_le.mpr hpos)
  obtain ⟨leg, hleg, hkey⟩ := hsome
  have hperm := @legsOn_perm env combo hkeyed leg hleg (sideOf signed)
  rw [hkey] at hperm
  generalize hlegs : legsOn env combo leg.canonical_market_id leg.canonical_outcome_id
    (sideOf signed) = legs at hperm
  have hsum : (legs.map LegRow.remaining_size).sum =
      openSize combo key (sideOf signed) := (hperm.map _).sum_eq
  have hmem : ∀ other ∈ legs, other ∈ combo.legs ∧ legKey other = key := by
    intro other hother
    have hin := hperm.mem_iff.mp hother
    rw [mem_filter, decide_eq_true_eq] at hin
    exact ⟨hin.1, hin.2.1⟩
  have hlegsNe : legs ≠ [] := by
    rintro rfl
    rw [← hsum] at hopen
    exact absurd hopen (not_le.mpr hpos)
  have hfits : FitsIn precision places |signed| := by
    refine (hfit.fits (sideOf signed)).of_le hgrid.abs ?_
    rw [abs_abs]
    exact hopen.trans (le_abs_self _)
  have hexact : takeFromLegsAt precision combo.row.id |signed| legs =
      takeFromLegs combo.row.id |signed| legs :=
    takeFromLegsAt_eq hpos.le hfits fun other hother =>
      hfit.onGrid other (hmem other hother).1 (hmem other hother).2
  unfold allocateMatchedSizeToLegsAt
  rw [← hkey, splitLegKey_of_leg hkeyed hleg]
  simp only [bind, Except.bind, hlegs, if_neg hlegsNe, hexact]
  refine ⟨fun updates h => ?_, fun hhints => ?_⟩
  · split at h
    next => cases h
    next result hresult =>
      split at h
      next => cases h
      next hleft =>
        cases h
        rw [not_not] at hleft
        have htaken := (takeFromLegs_taken hresult).2
        rwa [hleft, add_zero] at htaken
  · obtain ⟨updates, hupdates⟩ := @takeFromLegs_all combo.row.id |signed| legs
      (fun other hother => hnonneg other (hmem other hother).1)
      (fun other hother => hhints other (hmem other hother).1) hpos.le (hsum ▸ hopen)
    exact ⟨updates, by rw [hupdates]; rfl⟩

end Spread

/-- **A matched size over the legs of its participant.** No leg gives more than it has. Where the
outcome's sizes fit, the legs of the matching side give all of it, and with the price hints there
it does not throw. -/
theorem allocateMatchedSizeToLegsAt_spreads {env : ClearingEnv} {group : CandidateGroup}
    {participants : List ParticipantState} {groupResiduals : SizeVector}
    {allocations : List ParticipantAllocation} (hbuilt : ∀ participant ∈ participants,
      buildResidualVectorAt DECIMAL_PRECISION participant.combo = .ok participant.vector)
    (hkeyed : ∀ participant ∈ participants, LegsKeyed participant.combo)
    (hallocations : allocateParticipantResidualsAt DECIMAL_PRECISION env group participants
      groupResiduals = .ok allocations)
    {allocation : ParticipantAllocation} (hallocation : allocation ∈ allocations) {key : String}
    {matched : ℚ} (hentry : (key, matched) ∈ allocation.matchedVector) :
    (∀ updates, allocateMatchedSizeToLegsAt DECIMAL_PRECISION env allocation.participant.combo key
        matched = .ok updates →
      TakesFrom updates allocation.participant.combo key (sideOf matched)) ∧
    (KeyFits DECIMAL_PRECISION (membersOf group participants) groupResiduals key →
      (∀ updates, allocateMatchedSizeToLegsAt DECIMAL_PRECISION env
          allocation.participant.combo key matched = .ok updates →
        (updates.map LegUpdate.clearedSize).sum = |matched|) ∧
      ((∀ leg ∈ allocation.participant.combo.legs, leg.price_hint ≠ none) →
        ∃ updates, allocateMatchedSizeToLegsAt DECIMAL_PRECISION env
          allocation.participant.combo key matched = .ok updates)) := by
  obtain ⟨members, keyShares, share, hshared⟩ := exists_sharedAt hallocations hallocation hentry
  have hparticipant : allocation.participant ∈ participants :=
    mem_of_mem_filter (hshared.found _ hshared.member).1
  have hlegs := hkeyed _ hparticipant
  obtain ⟨hnonneg, hvector⟩ := buildResidualVectorAt_ok (hbuilt _ hparticipant)
  refine ⟨fun updates h => ?_, fun hfit => ?_⟩
  · -- the outcome is that of one of the legs
    have hne := hshared.entry_ne_zero
    rw [hvector] at hne
    obtain ⟨leg, hleg, hkey⟩ := exists_leg_of_entry hne
    exact allocateMatchedSizeToLegsAt_taken hlegs (mem_of_mem_filter hleg) hkey h
  · obtain ⟨hshrinks, places, hlegsFit, hgrid⟩ := hshared.shrinks hbuilt hfit
    exact allocateMatchedSizeToLegsAt_whole hlegs hnonneg hshared.ne_zero hshrinks hlegsFit hgrid

/-! ## A buyer of two legs and a seller of one -/

def hintedLeg (id comboId : String) (side : Side) (size : ℚ) : LegRow where
  id
  combo_rfq_id := comboId
  canonical_market_id := "market"
  canonical_outcome_id := "yes"
  side
  size
  remaining_size := size
  price_hint := some (1 / 2)
  metadata := some ⟨none, "universe", "expiry", "settlement", "rule"⟩

/-- A participant whose vector has `net` of the outcome. -/
def participantOf (id : String) (legs : List LegRow) (gross net : ℚ) : ParticipantState where
  combo := ⟨⟨id, id, .OPEN, 0⟩, legs⟩
  vector :=
    { entityId := id
      userId := id
      compatibilityBucket := "universe|expiry|settlement|rule"
      vector := [("market:yes", net)]
      legCount := legs.length
      grossAbsSize := gross
      resolutionProfileId := none
      createdAt := 0 }

/-- A buyer of legs of two sizes, and a seller of `total`. -/
def buyerAndSeller (first second total : ℚ) : List ParticipantState :=
  [participantOf "a" [hintedLeg "a1" "a" .buy first, hintedLeg "a2" "a" .buy second] total total,
    participantOf "b" [hintedLeg "b1" "b" .sell total] total (-total)]

def pairGroup : CandidateGroup where
  participantIds := ["a", "b"]
  uniqueLegs := ["market:yes"]
  estimatedCompressionScore := 1
  residualAfterNetting := []
  exactnessScore := 1

theorem buyerAndSeller_keyed (first second total : ℚ) :
    ∀ participant ∈ buyerAndSeller first second total, LegsKeyed participant.combo := by
  intro participant hparticipant
  simp only [buyerAndSeller, mem_cons, not_mem_nil, or_false] at hparticipant
  rcases hparticipant with rfl | rfl
  · exact ⟨by simp [participantOf, hintedLeg], by simp [participantOf, hintedLeg],
      by simp [participantOf, hintedLeg]⟩
  · exact ⟨by simp [participantOf, hintedLeg], by simp [participantOf, hintedLeg],
      by simp [participantOf, hintedLeg]⟩

def allocatedPair (first second total : ℚ) : List ParticipantAllocation :=
  (buyerAndSeller first second total).map fun participant =>
    ⟨participant, participant.vector.vector, []⟩

theorem spread_two_legs : ∃ updates, allocateMatchedSizeToLegsAt DECIMAL_PRECISION trioEnv
        (participantOf "a" [hintedLeg "a1" "a" .buy 3, hintedLeg "a2" "a" .buy 2] 5 5).combo
        "market:yes" 5 = .ok updates ∧ (updates.map LegUpdate.clearedSize).sum = |5| := by
  have hspread := @allocateMatchedSizeToLegsAt_spreads trioEnv pairGroup (buyerAndSeller 3 2 5) []
    (allocatedPair 3 2 5) (by decide +kernel) (buyerAndSeller_keyed 3 2 5) (by decide +kernel)
    ⟨participantOf "a" [hintedLeg "a1" "a" .buy 3, hintedLeg "a2" "a" .buy 2] 5 5,
      [("market:yes", 5)], []⟩ (by decide +kernel) "market:yes" 5 (by decide +kernel)
  have hfit : KeyFits DECIMAL_PRECISION (membersOf pairGroup (buyerAndSeller 3 2 5)) []
      "market:yes" := by
    refine ⟨0, .zero, fun member hmember => ?_⟩
    have hmem : member ∈ buyerAndSeller 3 2 5 := mem_of_mem_filter hmember
    simp only [buyerAndSeller, mem_cons, not_mem_nil, or_false] at hmem
    rcases hmem with rfl | rfl
    · refine ⟨fun leg hleg _ => ?_, fun side => ?_⟩
      · simp only [participantOf, mem_cons, not_mem_nil, or_false] at hleg
        rcases hleg with rfl | rfl
        · exact ⟨3, by decide +kernel⟩
        · exact ⟨2, by decide +kernel⟩
      · cases side with
        | buy => exact ⟨5, by decide +kernel, by decide⟩
        | sell => exact ⟨0, by decide +kernel, by decide⟩
    · refine ⟨fun leg hleg _ => ?_, fun side => ?_⟩
      · simp only [participantOf, mem_cons, not_mem_nil, or_false] at hleg
        subst hleg
        exact ⟨5, by decide +kernel⟩
      · cases side with
        | buy => exact ⟨0, by decide +kernel, by decide⟩
        | sell => exact ⟨5, by decide +kernel, by decide⟩
  obtain ⟨hwhole, hreturns⟩ := hspread.2 hfit
  obtain ⟨updates, hupdates⟩ := hreturns (by decide +kernel)
  exact ⟨updates, hupdates, hwhole updates hupdates⟩

/-- Beside `10 ^ 20` a leg of `6` counts as `10` in the vector, and the legs do not have what is
matched of it. -/
theorem crowded_legs_unallocated : (∀ participant ∈ buyerAndSeller (10 ^ 20) 6 (10 ^ 20 + 10),
      buildResidualVectorAt DECIMAL_PRECISION participant.combo = .ok participant.vector) ∧
    (∀ participant ∈ buyerAndSeller (10 ^ 20) 6 (10 ^ 20 + 10), LegsKeyed participant.combo) ∧
    (∀ participant ∈ buyerAndSeller (10 ^ 20) 6 (10 ^ 20 + 10),
      ∀ leg ∈ participant.combo.legs, leg.price_hint ≠ none) ∧
    allocateParticipantResidualsAt DECIMAL_PRECISION trioEnv pairGroup
      (buyerAndSeller (10 ^ 20) 6 (10 ^ 20 + 10)) [] =
        .ok (allocatedPair (10 ^ 20) 6 (10 ^ 20 + 10)) ∧
    ∃ allocation ∈ allocatedPair (10 ^ 20) 6 (10 ^ 20 + 10),
      ("market:yes", 10 ^ 20 + 10) ∈ allocation.matchedVector ∧
      allocateMatchedSizeToLegsAt DECIMAL_PRECISION trioEnv allocation.participant.combo
        "market:yes" (10 ^ 20 + 10) = .error "unallocated_clearing_size" := by
  refine ⟨by decide +kernel, buyerAndSeller_keyed _ _ _, by decide +kernel, by decide +kernel, ?_⟩
  decide +kernel

end LotusRfq.Combo
