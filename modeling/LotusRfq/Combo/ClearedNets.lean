import LotusRfq.Combo.LegUpdates

/-!
# LotusRfq — what a clearing round leaves of its participants

Of each outcome a participant keeps a part of what it had, on the side it had it; what all the
participants of a round keep of one outcome is on one side. So a round moves every net size towards
zero, and its participants do not oppose each other any more.

* **`executeClearing_nets`** — what a transaction that commits does to the net sizes;
* **`recheckClearing_unopposed`** — participants that do not oppose each other are not cleared.
-/

namespace LotusRfq.Combo

open Tables List

/-! ## Shares -/

/-- Moved towards zero, not past it. -/
def Shrinks (before after : ℚ) : Prop :=
  0 ≤ after ∧ after ≤ before ∨ before ≤ after ∧ after ≤ 0

theorem Shrinks.refl (size : ℚ) : Shrinks size size := by
  rcases le_total 0 size with hsize | hsize
  · exact .inl ⟨hsize, le_rfl⟩
  · exact .inr ⟨le_rfl, hsize⟩

theorem Shrinks.zero (size : ℚ) : Shrinks size 0 := by
  rcases le_total 0 size with hsize | hsize
  · exact .inl ⟨le_rfl, hsize⟩
  · exact .inr ⟨hsize, le_rfl⟩

theorem Shrinks.nonneg {before after : ℚ} (h : Shrinks before after) (hbefore : 0 ≤ before) :
    0 ≤ after := by
  rcases h with ⟨hafter, -⟩ | ⟨hle, -⟩
  · exact hafter
  · exact hbefore.trans hle

theorem Shrinks.nonpos {before after : ℚ} (h : Shrinks before after) (hbefore : before ≤ 0) :
    after ≤ 0 := by
  rcases h with ⟨-, hle⟩ | ⟨-, hafter⟩
  · exact hle.trans hbefore
  · exact hafter

/-- A share splits what its contributor had, and keeps of it what is on the side of the group's
residual. -/
structure KeyShare.Splits (share : KeyShare) (original groupResidual : ℚ) : Prop where
  sum : share.matched + share.residual = original
  shrinks : Shrinks original share.residual
  nonneg : 0 ≤ groupResidual → 0 ≤ share.residual
  nonpos : groupResidual ≤ 0 → share.residual ≤ 0

variable {groupResidual : ℚ} {roundId : String} {uuid : ℕ → String} {result : ClearingEnd}

theorem keepResidual_splits (hgroup : groupResidual ≠ 0) {residualToAssign : ℚ}
    (hassign : 0 ≤ residualToAssign) (contributors : List (String × ℚ)) :
    (keepResidual (0 < groupResidual) residualToAssign contributors).1.map KeyShare.entityId =
        contributors.map Prod.fst ∧
      ∀ share ∈ (keepResidual (0 < groupResidual) residualToAssign contributors).1,
        ∃ original, (share.entityId, original) ∈ contributors ∧
          share.Splits original groupResidual := by
  induction contributors generalizing residualToAssign with
  | nil => exact ⟨rfl, fun share hshare => absurd hshare not_mem_nil⟩
  | cons contributor rest ih =>
    obtain ⟨entityId, original⟩ := contributor
    rw [keepResidual]
    split
    next hside =>
      obtain ⟨hmap, hsplits⟩ := ih hassign
      refine ⟨by simp only [map_cons, hmap], fun share hshare => ?_⟩
      rcases mem_cons.mp hshare with rfl | hmem
      · exact ⟨original, mem_cons_self, ⟨add_zero _, .zero _, fun _ => le_rfl, fun _ => le_rfl⟩⟩
      · obtain ⟨other, hother, hsplit⟩ := hsplits share hmem
        exact ⟨other, mem_cons_of_mem _ hother, hsplit⟩
    next hside =>
      have hkeep : 0 ≤ min |original| residualToAssign := le_min (abs_nonneg _) hassign
      have hleft : 0 ≤ residualToAssign - min |original| residualToAssign :=
        sub_nonneg.mpr (min_le_right _ _)
      have hmost : min |original| residualToAssign ≤ |original| := min_le_left _ _
      obtain ⟨hmap, hsplits⟩ := ih hleft
      refine ⟨by simp only [map_cons, hmap], fun share hshare => ?_⟩
      rcases mem_cons.mp hshare with rfl | hmem
      · refine ⟨original, mem_cons_self, ?_⟩
        rw [not_not] at hside
        by_cases hpos : 0 < original
        · have hgroupPos : 0 < groupResidual := by simpa [hpos] using hside
          rw [abs_of_pos hpos] at hkeep hmost ⊢
          simp only [hpos, if_true]
          exact ⟨sub_add_cancel _ _, .inl ⟨hkeep, hmost⟩, fun _ => hkeep,
            fun hle => absurd hle (not_le.mpr hgroupPos)⟩
        · have hgroupNeg : groupResidual < 0 := by
            have hnot : ¬ 0 < groupResidual := by simpa [hpos] using hside
            exact lt_of_le_of_ne (not_lt.mp hnot) hgroup
          rw [abs_of_nonpos (not_lt.mp hpos)] at hkeep hmost ⊢
          simp only [hpos, if_false]
          refine ⟨by ring, .inr ⟨by linarith, by linarith⟩,
            fun hge => absurd hge (not_le.mpr hgroupNeg), fun _ => by linarith⟩
      · obtain ⟨other, hother, hsplit⟩ := hsplits share hmem
        exact ⟨other, mem_cons_of_mem _ hother, hsplit⟩

theorem shareKey_splits {contributors : List (String × ℚ)} {shares : List KeyShare}
    (h : shareKey groupResidual contributors = .ok shares) :
    shares.map KeyShare.entityId = contributors.map Prod.fst ∧
      ∀ share ∈ shares, ∃ original, (share.entityId, original) ∈ contributors ∧
        share.Splits original groupResidual := by
  unfold shareKey at h
  split at h
  next hnone =>
    split at h
    next =>
      cases h
      subst hnone
      exact ⟨rfl, fun share hshare => absurd hshare not_mem_nil⟩
    next => cases h
  next =>
    split at h
    next hzero =>
      cases h
      refine ⟨by simp [Function.comp_def], fun share hshare => ?_⟩
      obtain ⟨⟨entityId, original⟩, hmem, rfl⟩ := mem_map.mp hshare
      exact ⟨original, hmem, ⟨add_zero _, .zero _, fun _ => le_rfl, fun _ => le_rfl⟩⟩
    next hne =>
      simp only at h
      split at h
      next => cases h
      next =>
        cases h
        exact keepResidual_splits hne (abs_nonneg _) contributors

/-! ## Entries -/

def shareOf (shares : List (String × List KeyShare)) (entityId key : String) : Option KeyShare :=
  (shares.lookup key).bind fun keyShares => keyShares.find? fun share => share.entityId = entityId

theorem keysOf_sharesOf_sublist (entityId : String) (part : KeyShare → ℚ)
    (shares : List (String × List KeyShare)) :
    (keysOf (sharesOf entityId part shares)).Sublist (shares.map Prod.fst) := by
  induction shares with
  | nil => exact .slnil
  | cons first rest ih =>
    obtain ⟨key, keyShares⟩ := first
    unfold sharesOf at ih ⊢
    rw [filterMap_cons]
    split
    next => exact ih.cons _
    next entry hentry =>
      have hkey : entry.1 = key := by
        simp only at hentry
        split at hentry
        next => cases hentry
        next =>
          split at hentry
          next => cases hentry
          next =>
            cases hentry
            rfl
      rw [keysOf, map_cons, map_cons, hkey]
      exact ih.cons_cons _

theorem mem_sharesOf {shares : List (String × List KeyShare)} {entityId key : String}
    {part : KeyShare → ℚ} {size : ℚ} : (key, size) ∈ sharesOf entityId part shares ↔
      ∃ keyShares share, (key, keyShares) ∈ shares ∧
        keyShares.find? (fun share => share.entityId = entityId) = some share ∧
        part share = size ∧ size ≠ 0 := by
  unfold sharesOf
  rw [mem_filterMap]
  constructor
  · rintro ⟨⟨k, keyShares⟩, hmem, hread⟩
    simp only at hread
    split at hread
    next => cases hread
    next share hfind =>
      split at hread
      next => cases hread
      next hne =>
        cases hread
        exact ⟨keyShares, share, hmem, hfind, rfl, hne⟩
  · rintro ⟨keyShares, share, hmem, hfind, rfl, hne⟩
    refine ⟨(key, keyShares), hmem, ?_⟩
    simp only [hfind, if_neg hne]

theorem entryOf_sharesOf {shares : List (String × List KeyShare)}
    (hkeys : (shares.map Prod.fst).Nodup) (entityId : String) (part : KeyShare → ℚ) (key : String) :
    entryOf (sharesOf entityId part shares) key = (shareOf shares entityId key).elim 0 part := by
  induction shares with
  | nil => rfl
  | cons first rest ih =>
    obtain ⟨k, keyShares⟩ := first
    rw [map_cons, nodup_cons] at hkeys
    have hrest := ih hkeys.2
    have hnone : entryOf (sharesOf entityId part rest) k = 0 :=
      entryOf_eq_zero fun hmem => hkeys.1 ((keysOf_sharesOf_sublist _ _ _).subset hmem)
    have hlookup : shareOf ((k, keyShares) :: rest) entityId key =
        if key = k then keyShares.find? fun share => share.entityId = entityId
        else shareOf rest entityId key := by
      unfold shareOf
      rw [OrderedMap.lookup_cons]
      split <;> rfl
    -- an entry that is zero is left out, which reads the same
    have hcons : entryOf (sharesOf entityId part ((k, keyShares) :: rest)) key =
        if key = k then (keyShares.find? fun share => share.entityId = entityId).elim 0 part
        else entryOf (sharesOf entityId part rest) key := by
      cases hfind : keyShares.find? fun share => share.entityId = entityId with
      | none =>
        have heq : sharesOf entityId part ((k, keyShares) :: rest) =
            sharesOf entityId part rest := by
          unfold sharesOf
          rw [filterMap_cons_none]
          simp only [hfind]
        rw [heq]
        split
        next hkey => rw [hkey, hnone]; rfl
        next => rfl
      | some share =>
        by_cases hzero : part share = 0
        · have heq : sharesOf entityId part ((k, keyShares) :: rest) =
              sharesOf entityId part rest := by
            unfold sharesOf
            rw [filterMap_cons_none]
            simp only [hfind, hzero, if_true]
          rw [heq]
          split
          next hkey => rw [hkey, hnone]; exact hzero.symm
          next => rfl
        · have heq : sharesOf entityId part ((k, keyShares) :: rest) =
              (k, part share) :: sharesOf entityId part rest := by
            unfold sharesOf
            rw [filterMap_cons_some]
            simp only [hfind, hzero, if_false]
          rw [heq, entryOf, OrderedMap.lookup_cons]
          split
          next => rfl
          next => rfl
    rw [hcons, hlookup, hrest]
    split <;> rfl

/-! ## Allocations -/

section

variable {env : ClearingEnv} {participants : List ParticipantState}

theorem contributorsOf_perm (env : ClearingEnv) (participants : List ParticipantState)
    (key : String) : (contributorsOf env participants key).Perm <|
      (participants.filter fun participant => entryOf participant.vector.vector key ≠ 0).map
        fun participant =>
          (participant.combo.row.id, entryOf participant.vector.vector key) := by
  unfold contributorsOf
  exact (Js.sortWith_perm _ _).map _

def residualOf (groupResiduals : SizeVector) (key : String) : ℚ :=
  (groupResiduals.reverse.lookup key).getD 0

/-- An allocation takes from each outcome of the group a part of what its participant has of it,
and leaves the rest on the side of the group's residual. -/
structure ParticipantAllocation.Keeps (allocation : ParticipantAllocation) (uniqueLegs : List String)
    (groupResiduals : SizeVector) : Prop where
  keys : (keysOf allocation.matchedVector).Nodup
  mem_uniqueLegs : ∀ key ∈ keysOf allocation.matchedVector, key ∈ uniqueLegs
  splits : ∀ key ∈ uniqueLegs, KeyShare.Splits
    ⟨allocation.participant.combo.row.id, entryOf allocation.matchedVector key,
      entryOf allocation.residualVector key⟩
    (entryOf allocation.participant.vector.vector key) (residualOf groupResiduals key)

theorem shareOf_splits {members : List ParticipantState} {key : String}
    (hids : (members.map fun participant => participant.combo.row.id).Nodup)
    {keyShares : List KeyShare}
    (h : shareKey groupResidual (contributorsOf env members key) = .ok keyShares)
    {member : ParticipantState} (hmember : member ∈ members) : KeyShare.Splits ⟨member.combo.row.id,
        (keyShares.find? fun share => share.entityId = member.combo.row.id).elim 0 KeyShare.matched,
        (keyShares.find? fun share => share.entityId = member.combo.row.id).elim 0
          KeyShare.residual⟩ (entryOf member.vector.vector key) groupResidual := by
  obtain ⟨hmap, hsplits⟩ := shareKey_splits h
  have hperm := contributorsOf_perm env members key
  -- a contributor of the member's id is the member
  have hcontributor : ∀ original, (member.combo.row.id, original) ∈ contributorsOf env members key →
      original = entryOf member.vector.vector key := by
    intro original hmem
    obtain ⟨other, hother, heq⟩ := mem_map.mp (hperm.mem_iff.mp hmem)
    rw [Prod.mk.injEq] at heq
    have hsame := inj_on_of_nodup_map hids (mem_of_mem_filter hother) hmember heq.1
    rw [← heq.2, hsame]
  cases hfind : keyShares.find? fun share => share.entityId = member.combo.row.id with
  | some share =>
    have hid : share.entityId = member.combo.row.id := by simpa using find?_some hfind
    obtain ⟨original, hmem, hsplit⟩ := hsplits share (mem_of_find?_eq_some hfind)
    rw [hid] at hmem
    rw [← hcontributor original hmem]
    exact ⟨hsplit.sum, hsplit.shrinks, hsplit.nonneg, hsplit.nonpos⟩
  | none =>
    -- who has no share has nothing of the outcome
    have hzero : entryOf member.vector.vector key = 0 := by
      by_contra hne
      have hmem : (member.combo.row.id, entryOf member.vector.vector key) ∈
          contributorsOf env members key :=
        hperm.mem_iff.mpr (mem_map.mpr ⟨member, mem_filter.mpr ⟨hmember, by simpa using hne⟩, rfl⟩)
      have hid : member.combo.row.id ∈ keyShares.map KeyShare.entityId := by
        rw [hmap]
        exact mem_map_of_mem (f := Prod.fst) hmem
      obtain ⟨share, hshare, heq⟩ := mem_map.mp hid
      exact absurd heq (by simpa using find?_eq_none.mp hfind share hshare)
    rw [hzero]
    exact ⟨add_zero 0, .refl 0, fun _ => le_rfl, fun _ => le_rfl⟩

def findParticipant (participants : List ParticipantState) (participantId : String) :
    Except String ParticipantState :=
  match participants.find? fun participant => participant.combo.row.id = participantId with
  | none => throw "participant_vector_mismatch"
  | some participant => return participant

theorem findParticipant_ok {participants : List ParticipantState} {participantId : String}
    {member : ParticipantState} (h : findParticipant participants participantId = .ok member) :
    member ∈ participants ∧ member.combo.row.id = participantId := by
  unfold findParticipant at h
  split at h
  next => cases h
  next found hfound =>
    cases h
    exact ⟨mem_of_find?_eq_some hfound, by simpa using find?_some hfound⟩

theorem ids_of_mapM_findParticipant {participants members : List ParticipantState}
    {participantIds : List String}
    (h : participantIds.mapM (findParticipant participants) = .ok members) :
    members.map (fun member => member.combo.row.id) = participantIds := by
  have heq : members.map (fun member => member.combo.row.id) = participantIds.map id :=
    map_of_mapM h fun participantId _ member hfind => (findParticipant_ok hfind).2
  rwa [map_id] at heq

/-- **What is allocated** to the members of a group. -/
theorem allocateParticipantResiduals_keeps {group : CandidateGroup} {groupResiduals : SizeVector}
    {allocs : List ParticipantAllocation} (hids : group.participantIds.Nodup)
    (h : allocateParticipantResiduals env group participants groupResiduals = .ok allocs) :
    allocs.map (fun alloc => alloc.participant.combo.row.id) = group.participantIds ∧
      ∀ alloc ∈ allocs, alloc.participant ∈ participants ∧
        alloc.Keeps group.uniqueLegs groupResiduals := by
  obtain ⟨members, hmembers, h⟩ := bind_eq_ok.mp h
  obtain ⟨shares, hshares, h⟩ := bind_eq_ok.mp h
  cases h
  have hread : group.participantIds.mapM (findParticipant participants) = .ok members := hmembers
  have hmap := ids_of_mapM_findParticipant hread
  refine ⟨?_, fun alloc halloc => ?_⟩
  · rw [map_map, ← hmap]
    rfl
  · obtain ⟨member, hmember, rfl⟩ := mem_map.mp halloc
    obtain ⟨participantId, hparticipant, hfind⟩ := mem_of_mapM hread hmember
    refine ⟨(findParticipant_ok hfind).1, ?_⟩
    have hkeys : shares.map Prod.fst =
        Js.sortWith env.localeCompare (group.uniqueLegs.foldl OrderedMap.addNew []) := by
      have heq : shares.map Prod.fst =
          (Js.sortWith env.localeCompare (group.uniqueLegs.foldl OrderedMap.addNew [])).map id := by
        refine map_of_mapM hshares fun key _ share hshare => ?_
        obtain ⟨keyShares, -, hshare⟩ := bind_eq_ok.mp hshare
        cases hshare
        rfl
      rwa [map_id] at heq
    have hmem : ∀ key, key ∈ shares.map Prod.fst ↔ key ∈ group.uniqueLegs := by
      intro key
      rw [hkeys, Js.mem_sortWith, OrderedMap.mem_foldl_addNew]
      simp
    have hnodup : (shares.map Prod.fst).Nodup := by
      rw [hkeys, (Js.sortWith_perm _ _).nodup_iff]
      exact OrderedMap.nodup_foldl_addNew _ nodup_nil
    refine ⟨(keysOf_sharesOf_sublist _ _ shares).nodup hnodup, fun key hkey =>
      (hmem key).mp ((keysOf_sharesOf_sublist _ _ shares).subset hkey), fun key hkey => ?_⟩
    obtain ⟨share, hshare, hread⟩ := exists_of_mapM hshares (hkeys ▸ (hmem key).mpr hkey)
    obtain ⟨keyShares, hkeyShares, hread⟩ := bind_eq_ok.mp hread
    cases hread
    rw [entryOf_sharesOf hnodup, entryOf_sharesOf hnodup, shareOf,
      OrderedMap.lookup_of_mem hnodup hshare]
    exact shareOf_splits (hmap ▸ hids) hkeyShares hmember

end

/-! ## What a transaction has checked -/

section

variable {env : ClearingEnv} {db db' : ComboDb} {plan locked : ClearingRoundPlan}
  {signatures : ClearingMatchSignature} {allocs : List ParticipantAllocation}

section

variable {participantIds : List String} {participants : List ParticipantState}
  {participant : ParticipantState} (h : loadParticipants db participantIds = .ok participants)
  (hparticipant : participant ∈ participants)

include h hparticipant

theorem loadParticipants_mem :
    ∃ participantId ∈ participantIds, loadCombo db participantId = some participant.combo ∧
      buildResidualVector participant.combo = .ok participant.vector := by
  obtain ⟨participantId, hid, hload⟩ := mem_of_mapM h hparticipant
  refine ⟨participantId, hid, ?_⟩
  unfold toParticipant at hload
  split at hload
  next => cases hload
  next combo hcombo =>
    split at hload
    next => cases hload
    next =>
      cases hvector : buildResidualVector combo with
      | error error => simp [hvector, Except.map] at hload
      | ok vector =>
        rw [hvector] at hload
        cases hload
        exact ⟨hcombo, hvector⟩

theorem loadParticipants_entry (key : String) :
    entryOf participant.vector.vector key = netIn db participant.combo.row.id key := by
  obtain ⟨participantId, -, hload, hvector⟩ := loadParticipants_mem h hparticipant
  rw [(buildResidualVector_vector hvector).entry, netIn_loadCombo hload, (loadCombo_some hload).2.1]

end

structure Revalidated (env : ClearingEnv) (plan lockedPlan : ClearingRoundPlan)
    (participants : List ParticipantState) : Prop where
  scored : ∃ scored, scoredGroups env.localeCompare DEFAULT_ENUMERATOR_CONFIG
    (participants.map ParticipantState.vector) = .ok scored ∧
      (lockedPlan.selectedGroup, lockedPlan.score) ∈ scored
  bucket : lockedPlan.compatibilityBucket = plan.compatibilityBucket
  participantIds : lockedPlan.selectedGroup.participantIds = plan.selectedGroup.participantIds
  uniqueLegs : lockedPlan.selectedGroup.uniqueLegs = plan.selectedGroup.uniqueLegs
  residuals : lockedPlan.selectedGroup.residualAfterNetting = plan.residuals
  planned : lockedPlan.residuals = plan.residuals
  lockOrder : lockedPlan.participantLockOrder = plan.participantLockOrder

theorem revalidateRoundPlan_ok {participants : List ParticipantState}
    (h : revalidateRoundPlan env plan participants = .ok locked) :
    Revalidated env plan locked participants := by
  unfold revalidateRoundPlan at h
  split at h
  next => cases h
  next =>
    obtain ⟨scored, hscored, h⟩ := bind_eq_ok.mp h
    split at h
    next => cases h
    next group score rest hsorted =>
      split at h
      next => cases h
      next hsame =>
        cases h
        push Not at hsame
        obtain ⟨hids, hlegs, hresiduals⟩ := hsame
        have hmem : (group, score) ∈ Js.sortWith (compareScores env.localeCompare) scored := by
          rw [hsorted]
          exact mem_cons_self
        rw [Js.mem_sortWith] at hmem
        exact ⟨⟨scored, hscored, hmem⟩, rfl, hids, hlegs, hresiduals, hresiduals, rfl⟩

/-- What a transaction has found before it writes. -/
structure Rechecked (env : ClearingEnv) (db : ComboDb) (plan lockedPlan : ClearingRoundPlan)
    (signatures : ClearingMatchSignature) (allocations : List ParticipantAllocation) : Prop where
  checked : ∃ participants, loadParticipants db plan.participantLockOrder = .ok participants ∧
    Revalidated env plan lockedPlan participants ∧
    allocateParticipantResiduals env lockedPlan.selectedGroup participants lockedPlan.residuals =
      .ok allocations
  signatures : buildMatchSignatures env lockedPlan = signatures

theorem recheckClearing_ok (h : recheckClearing env db plan signatures = .ok (locked, allocs)) :
    Rechecked env db plan locked signatures allocs := by
  obtain ⟨participants, hparticipants, h⟩ := bind_eq_ok.mp h
  obtain ⟨revalidated, hrevalidated, h⟩ := bind_eq_ok.mp h
  obtain ⟨allocated, hallocated, h⟩ := bind_eq_ok.mp h
  simp only at h
  split at h
  next => cases h
  next hsignatures =>
    cases h
    exact ⟨⟨participants, hparticipants, revalidateRoundPlan_ok hrevalidated, hallocated⟩,
      not_not.mp hsignatures⟩

/-- **Participants that do not oppose each other** are not cleared. -/
theorem recheckClearing_unopposed
    (hunopposed : Unopposed (· ∈ plan.participantLockOrder) (netIn db)) :
    ∃ error, recheckClearing env db plan signatures = .error error := by
  cases hcheck : recheckClearing env db plan signatures with
  | error error => exact ⟨error, rfl⟩
  | ok checked =>
    obtain ⟨locked, allocs⟩ := checked
    obtain ⟨⟨participants, hparticipants, hrevalidated, -⟩, -⟩ := recheckClearing_ok hcheck
    obtain ⟨scored, hscored, hmem⟩ := hrevalidated.scored
    have hvectors : Unopposed (· ∈ participants.map ParticipantState.vector)
        fun vector => entryOf vector.vector := by
      refine hunopposed.of_sizes fun vector hvector => ?_
      obtain ⟨participant, hparticipant, rfl⟩ := mem_map.mp hvector
      obtain ⟨participantId, hid, hload, -⟩ := loadParticipants_mem hparticipants hparticipant
      refine ⟨participantId, hid, fun key => ?_⟩
      rw [loadParticipants_entry hparticipants hparticipant, (loadCombo_some hload).2.1]
    rw [scoredGroups_unopposed hvectors hscored] at hmem
    cases hmem

/-! ## The writes of a round -/

theorem insertRoundParticipants_length (roundId : String) (uuid : ℕ → String)
    (allocs : List ParticipantAllocation) :
    (insertRoundParticipants roundId uuid allocs).length = allocs.length := by
  simp [insertRoundParticipants]

/-- The legs that a round writes are those of its updates, and these take what was matched. -/
theorem writeClearing_taken
    (hmatched : ∀ alloc ∈ allocs, (keysOf alloc.matchedVector).Nodup ∧ ∀ key ∈
      keysOf alloc.matchedVector, ∃ marketId outcomeId : String, key = marketId ++ ":" ++
      outcomeId ∧ ':' ∉ marketId.toList ∧ ':' ∉ outcomeId.toList)
    (h : writeClearing env roundId signatures plan allocs uuid db = .ok db') :
    ∃ updates start cleared, applyLegUpdates updates start = .ok cleared ∧
      start.legs = db.legs ∧ db'.legs = cleared.legs ∧ (∀ update ∈ updates, ∃ alloc ∈ allocs,
        ∃ leg ∈ alloc.participant.combo.legs, update.TakenFrom alloc.participant.combo.row.id leg) ∧
      ∀ entityId key, takenOf updates entityId key = (allocs.map fun alloc =>
        if alloc.participant.combo.row.id = entityId then
          entryOf alloc.matchedVector key else 0).sum := by
  obtain ⟨matched, hread, h⟩ := bind_eq_ok.mp h
  obtain ⟨cleared, hcleared, h⟩ := bind_eq_ok.mp h
  obtain ⟨exposed, hexposed, h⟩ := bind_eq_ok.mp h
  cases h
  have hlength := insertRoundParticipants_length roundId (fun n => uuid (2 * n)) allocs
  have htaken : ∀ entry ∈ (insertRoundParticipants roundId (fun n => uuid (2 * n))
      allocs).zip allocs, ∀ part,
      matchParticipant env roundId entry.1.id entry.2 = .ok part → entry.2 ∈ allocs ∧
        (∀ update ∈ part.2, ∃ leg ∈ entry.2.participant.combo.legs,
          update.TakenFrom entry.2.participant.combo.row.id leg) ∧
        ∀ entityId key, takenOf part.2 entityId key =
          if entry.2.participant.combo.row.id = entityId then entryOf entry.2.matchedVector key
          else 0 := by
    intro entry hentry part hpart
    have halloc := (of_mem_zip hentry).2
    obtain ⟨hkeys, hcolons⟩ := hmatched entry.2 halloc
    exact ⟨halloc, matchParticipant_taken hcolons hkeys hpart⟩
  refine ⟨matched.flatMap Prod.snd, _, cleared, hcleared, rfl, ?_, fun update hupdate => ?_,
    fun entityId key => ?_⟩
  · exact (written_frame hcleared hexposed).1
  · obtain ⟨part, hpart, hmem⟩ := mem_flatMap.mp hupdate
    obtain ⟨entry, hzip, hmatch⟩ := mem_of_mapM hread hpart
    obtain ⟨halloc, hfrom, -⟩ := htaken entry hzip part hmatch
    exact ⟨entry.2, halloc, hfrom update hmem⟩
  · have hsums : matched.map (fun part => takenOf part.2 entityId key) =
        ((insertRoundParticipants roundId (fun n => uuid (2 * n)) allocs).zip
          allocs).map fun entry =>
            if entry.2.participant.combo.row.id = entityId then
              entryOf entry.2.matchedVector key else 0 :=
      map_of_mapM hread fun entry hentry part hpart =>
        (htaken entry hentry part hpart).2.2 entityId key
    have hzip : ((insertRoundParticipants roundId (fun n => uuid (2 * n)) allocs).zip
        allocs).map Prod.snd = allocs := map_snd_zip (le_of_eq hlength.symm)
    rw [takenOf_flatMap, hsums]
    nth_rewrite 3 [← hzip]
    rw [map_map]
    rfl

/-! ## Net sizes -/

theorem Rechecked.allocated (hkeyed : ClearingKeyed db)
    (h : Rechecked env db plan locked signatures allocs) :
    locked.selectedGroup.participantIds.Nodup ∧
    allocs.map (fun alloc => alloc.participant.combo.row.id) = locked.selectedGroup.participantIds ∧
    ∀ alloc ∈ allocs, (∃ participantId ∈ plan.participantLockOrder,
        loadCombo db participantId = some alloc.participant.combo) ∧
      alloc.Keeps locked.selectedGroup.uniqueLegs locked.residuals ∧
      (∀ key, entryOf alloc.participant.vector.vector key =
        netIn db alloc.participant.combo.row.id key) ∧
      (∀ key, key ∉ locked.selectedGroup.uniqueLegs →
        netIn db alloc.participant.combo.row.id key = 0) ∧
      ∀ key ∈ keysOf alloc.matchedVector, ∃ marketId outcomeId : String,
        key = marketId ++ ":" ++ outcomeId ∧ ':' ∉ marketId.toList ∧ ':' ∉ outcomeId.toList := by
  obtain ⟨⟨participants, hparticipants, hrevalidated, hallocated⟩, -⟩ := h
  obtain ⟨scored, hscored, hmem⟩ := hrevalidated.scored
  obtain ⟨hnodup, htwo, huniqueLegs, hofLeg⟩ := scoredGroups_mem hscored hmem
  obtain ⟨hids, hkeeps⟩ := allocateParticipantResiduals_keeps hnodup hallocated
  refine ⟨hnodup, hids, fun alloc halloc => ?_⟩
  obtain ⟨hparticipant, hkeep⟩ := hkeeps alloc halloc
  obtain ⟨participantId, hlocked, hload, hvector⟩ := loadParticipants_mem hparticipants hparticipant
  have hentry := loadParticipants_entry hparticipants hparticipant
  refine ⟨⟨participantId, hlocked, hload⟩, hkeep, hentry, fun key hkey => ?_, fun key hkey => ?_⟩
  · -- an outcome that is not the group's is not one of its members' either
    rw [← hentry key]
    refine entryOf_eq_zero fun hin => hkey ?_
    refine huniqueLegs _ (mem_map_of_mem hparticipant) ?_ key hin
    rw [(buildResidualVector_vector hvector).entityId, ← hids]
    exact mem_map_of_mem halloc
  · obtain ⟨vector, hin, -, hkey⟩ := hofLeg key (hkeep.mem_uniqueLegs key hkey)
    obtain ⟨member, hmember, rfl⟩ := mem_map.mp hin
    obtain ⟨memberId, -, hloadMember, hvectorMember⟩ := loadParticipants_mem hparticipants hmember
    obtain ⟨leg, hleg, -, rfl⟩ := ((buildResidualVector_vector hvectorMember).mem_keys key).mp hkey
    rw [(loadCombo_some hloadMember).2.2, mem_selectLegs] at hleg
    exact ⟨_, _, rfl, hkeyed.markets leg hleg.1, hkeyed.outcomes leg hleg.1⟩

theorem netIn_congr (h : db'.legs = db.legs) (comboId key : String) :
    netIn db' comboId key = netIn db comboId key := by
  unfold netIn
  rw [h]

def matchedOf (allocations : List ParticipantAllocation) (comboId key : String) : ℚ :=
  (allocations.map fun allocation =>
    if allocation.participant.combo.row.id = comboId then
      entryOf allocation.matchedVector key else 0).sum

theorem matchedOf_of_mem {alloc : ParticipantAllocation}
    (hids : (allocs.map fun alloc => alloc.participant.combo.row.id).Nodup)
    (halloc : alloc ∈ allocs) (key : String) : matchedOf allocs alloc.participant.combo.row.id key =
      entryOf alloc.matchedVector key := by
  unfold matchedOf
  rw [sum_map_ite_zero, filter_key_eq _ hids halloc]
  simp

theorem matchedOf_eq_zero {comboId : String}
    (h : comboId ∉ allocs.map fun alloc => alloc.participant.combo.row.id)
    (key : String) : matchedOf allocs comboId key = 0 := by
  refine sum_eq_zero fun x hx => ?_
  obtain ⟨alloc, halloc, rfl⟩ := mem_map.mp hx
  exact if_neg fun heq => h (mem_map.mpr ⟨alloc, halloc, heq⟩)

theorem writeClearing_netIn {registered : ComboDb} (hkeyed : ClearingKeyed db)
    (hlegs : registered.legs = db.legs) (hchecked : Rechecked env db plan locked signatures allocs)
    (hwritten : writeClearing env roundId signatures locked allocs uuid registered = .ok
      db') (comboId key : String) :
    netIn db' comboId key = netIn db comboId key - matchedOf allocs comboId key := by
  obtain ⟨-, -, hallocated⟩ := hchecked.allocated hkeyed
  obtain ⟨updates, start, cleared, hcleared, hstart, hend, hfrom, htaken⟩ :=
    writeClearing_taken (fun alloc halloc =>
      ⟨(hallocated alloc halloc).2.1.keys, (hallocated alloc halloc).2.2.2.2⟩) hwritten
  rw [hlegs] at hstart
  have hknown : ∀ update ∈ updates, update.Known start.legs := by
    intro update hupdate
    obtain ⟨alloc, halloc, leg, hleg, htakenFrom⟩ := hfrom update hupdate
    obtain ⟨participantId, -, hload⟩ := (hallocated alloc halloc).1
    rw [hstart]
    exact htakenFrom.known hload hleg
  calc netIn db' comboId key = netIn cleared comboId key := netIn_congr hend comboId key
    _ = netIn start comboId key - takenOf updates comboId key :=
      applyLegUpdates_netIn (hstart ▸ hkeyed.legIds) hknown hcleared comboId key
    _ = netIn db comboId key - matchedOf allocs comboId key := by
      rw [netIn_congr hstart, htaken, matchedOf]

section

variable {roundId : String} {uuid : ℕ → String} {result : ClearingEnd} (hkeyed : ClearingKeyed db)
  (h : executeClearing env db plan signatures roundId uuid = .committed db' result)

include hkeyed h

theorem executeClearing_netIn : ∃ locked allocs, Rechecked env db plan locked signatures allocs ∧
      ∀ comboId key, netIn db' comboId key =
        netIn db comboId key - matchedOf allocs comboId key := by
  obtain ⟨locked, allocs, inserted, registered, hchecked, hinserted, hregistered, hwritten,
    -⟩ := executeClearing_ok h
  have hchecked := recheckClearing_ok hchecked
  exact ⟨locked, allocs, hchecked, writeClearing_netIn hkeyed
    (registered_frame hinserted hregistered).1 hchecked hwritten⟩

/-- **What a commit does to the net sizes.** Every one moves towards zero, and the participants of
the round do not oppose each other any more. -/
theorem executeClearing_nets :
    (∀ comboId key, Shrinks (netIn db comboId key) (netIn db' comboId key)) ∧
      Unopposed (· ∈ plan.selectedGroup.participantIds) (netIn db') := by
  obtain ⟨locked, allocs, hchecked, hnet⟩ := executeClearing_netIn hkeyed h
  obtain ⟨hnodup, hids, hallocated⟩ := hchecked.allocated hkeyed
  obtain ⟨⟨participants, -, hrevalidated, -⟩, -⟩ := hchecked
  have hunique : (allocs.map fun alloc =>
      alloc.participant.combo.row.id).Nodup := hids ▸ hnodup
  -- what a participant keeps of an outcome
  have hkept : ∀ alloc ∈ allocs, ∀ key, Shrinks (netIn db alloc.participant.combo.row.id key)
        (netIn db' alloc.participant.combo.row.id key) ∧
      (0 ≤ residualOf locked.residuals key → 0 ≤ netIn db' alloc.participant.combo.row.id key) ∧
      (residualOf locked.residuals key ≤ 0 → netIn db' alloc.participant.combo.row.id key ≤ 0) := by
    intro alloc halloc key
    obtain ⟨-, hkeeps, hentry, hother, -⟩ := hallocated alloc halloc
    rw [hnet, matchedOf_of_mem hunique halloc]
    by_cases hkey : key ∈ locked.selectedGroup.uniqueLegs
    · obtain ⟨hsum, hshrinks, hnonneg, hnonpos⟩ := hkeeps.splits key hkey
      rw [hentry key] at hsum hshrinks
      have hkeep : netIn db alloc.participant.combo.row.id key -
          entryOf alloc.matchedVector key = entryOf alloc.residualVector key :=
        sub_eq_of_eq_add' hsum.symm
      rw [hkeep]
      exact ⟨hshrinks, hnonneg, hnonpos⟩
    · have hnone : entryOf alloc.matchedVector key = 0 :=
        entryOf_eq_zero fun hin => hkey (hkeeps.mem_uniqueLegs key hin)
      rw [hother key hkey, hnone, sub_zero]
      exact ⟨.refl 0, fun _ => le_rfl, fun _ => le_rfl⟩
  have hmember : ∀ comboId ∈ plan.selectedGroup.participantIds, ∃ alloc ∈ allocs,
      alloc.participant.combo.row.id = comboId := by
    intro comboId hcombo
    rw [← hrevalidated.participantIds, ← hids] at hcombo
    obtain ⟨alloc, halloc, heq⟩ := mem_map.mp hcombo
    exact ⟨alloc, halloc, heq⟩
  refine ⟨fun comboId key => ?_, fun key => ?_⟩
  · by_cases hcombo : comboId ∈ allocs.map fun alloc =>
        alloc.participant.combo.row.id
    · obtain ⟨alloc, halloc, rfl⟩ := mem_map.mp hcombo
      exact (hkept alloc halloc key).1
    · rw [hnet, matchedOf_eq_zero hcombo, sub_zero]
      exact .refl _
  · rcases le_total 0 (residualOf locked.residuals key) with hside | hside
    · refine .inl fun comboId hcombo => ?_
      obtain ⟨alloc, halloc, rfl⟩ := hmember comboId hcombo
      exact (hkept alloc halloc key).2.1 hside
    · refine .inr fun comboId hcombo => ?_
      obtain ⟨alloc, halloc, rfl⟩ := hmember comboId hcombo
      exact (hkept alloc halloc key).2.2 hside

end

theorem Unopposed.shrinks {members : String → Prop} (h : Unopposed members (netIn db))
    (hshrinks : ∀ comboId key, Shrinks (netIn db comboId key) (netIn db' comboId key)) :
    Unopposed members (netIn db') := by
  intro key
  exact (h key).imp (fun hall comboId hcombo => (hshrinks comboId key).nonneg (hall comboId hcombo))
    fun hall comboId hcombo => (hshrinks comboId key).nonpos (hall comboId hcombo)

theorem applyLegUpdates_columns {β : Type*} {g : LegRow → β}
    (hg : ∀ leg remaining, g { leg with remaining_size := remaining } = g leg)
    {updates : List LegUpdate} (h : applyLegUpdates updates db = .ok db') :
    db'.legs.map g = db.legs.map g := by
  refine foldlM_invariant (P := fun current : ComboDb => current.legs.map g = db.legs.map g)
    ?_ rfl h
  intro current update _ next hcurrent hupdate
  obtain ⟨-, rfl⟩ := updateLeg_ok hupdate
  rw [← hcurrent]
  exact map_update _ (fun leg => hg leg _) current.legs

theorem executeClearing_keyed (hkeyed : ClearingKeyed db)
    (h : executeClearing env db plan signatures roundId uuid = .committed db' result) :
    ClearingKeyed db' := by
  obtain ⟨locked, allocs, inserted, registered, hchecked, hinserted, hregistered, hwritten,
    -⟩ := executeClearing_ok h
  obtain ⟨updates, start, cleared, hcleared, hstart, hend, -⟩ := writeClearing_legs hwritten
  have hcolumns : ∀ {β : Type} {g : LegRow → β},
      (∀ leg remaining, g { leg with remaining_size := remaining } = g leg) →
      db'.legs.map g = db.legs.map g := by
    intro β g hg
    rw [hend, applyLegUpdates_columns hg hcleared, hstart,
      (registered_frame hinserted hregistered).1]
  have hids : db'.legs.map LegRow.id = db.legs.map LegRow.id := hcolumns fun _ _ => rfl
  have hmarkets : db'.legs.map LegRow.canonical_market_id =
      db.legs.map LegRow.canonical_market_id := hcolumns fun _ _ => rfl
  have houtcomes : db'.legs.map LegRow.canonical_outcome_id =
      db.legs.map LegRow.canonical_outcome_id := hcolumns fun _ _ => rfl
  refine ⟨hids ▸ hkeyed.legIds, fun leg' hleg' => ?_, fun leg' hleg' => ?_⟩
  · have hmem := hmarkets ▸ mem_map_of_mem (f := LegRow.canonical_market_id) hleg'
    obtain ⟨leg, hleg, heq⟩ := mem_map.mp hmem
    exact heq ▸ hkeyed.markets leg hleg
  · have hmem := houtcomes ▸ mem_map_of_mem (f := LegRow.canonical_outcome_id) hleg'
    obtain ⟨leg, hleg, heq⟩ := mem_map.mp hmem
    exact heq ▸ hkeyed.outcomes leg hleg

/-- **The round of a commit** is new, and on record from then on. -/
theorem executeClearing_rounds
    (h : executeClearing env db plan signatures roundId uuid = .committed db' result) :
    (∀ round ∈ db.rounds, ¬ (round.participant_set_hash = signatures.participantSetHash ∧
      round.match_signature_hash = signatures.matchSignatureHash)) ∧
    ∃ row : ClearingRoundRow, db'.rounds = db.rounds ++ [row] ∧ row.id = roundId ∧
      row.participant_set_hash = signatures.participantSetHash ∧
      row.match_signature_hash = signatures.matchSignatureHash := by
  obtain ⟨locked, allocs, inserted, registered, -, hinserted, hregistered, hwritten, -⟩ :=
    executeClearing_ok h
  obtain ⟨matched, -, hwritten⟩ := bind_eq_ok.mp hwritten
  obtain ⟨cleared, hcleared, hwritten⟩ := bind_eq_ok.mp hwritten
  obtain ⟨exposed, hexposed, hwritten⟩ := bind_eq_ok.mp hwritten
  cases hwritten
  -- behind the insert of its round the transaction leaves the rounds alone
  have hrounds := (written_frame hcleared hexposed).2.2.2.1.trans
    (registered_frame hinserted hregistered).2.2.2
  exact ⟨(insertClearingRound_frame hinserted).1, _, hrounds, rfl, rfl, rfl⟩

end

end LotusRfq.Combo
