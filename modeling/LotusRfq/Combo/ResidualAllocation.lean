import LotusRfq.Combo.ClearedNets
import LotusRfq.Combo.RoundPlanner
import LotusRfq.Lib.Decimals

/-!
# LotusRfq — what a clearing round leaves to each of its participants

`allocateParticipantResiduals` with the precision of its decimals: what is left after a
subtraction is kept to a number of significant digits. On sizes that are exact at that precision
nothing is lost, and the rows and the columns of an allocation both add up.

* **`keepResidualAt_eq`** — subtractions of sizes that fit are exact;
* **`allocateParticipantResidualsAt_conserves`** — what is matched and what is kept.
-/

namespace LotusRfq.Combo

open Tables Decimals List
open KeyShare (matched residual entityId)

/-! ## At a precision -/

/-- `Decimal.config({ precision: 20, … })`. -/
def DECIMAL_PRECISION : ℕ := 20

/-- `keepResidual`, each subtraction to `precision` digits. -/
def keepResidualAt (precision : ℕ) (residualIsPositive : Bool) :
    ℚ → List (String × ℚ) → List KeyShare × ℚ
  | residualToAssign, [] => ([], residualToAssign)
  | residualToAssign, (entityId, original) :: rest =>
    if decide (0 < original) ≠ residualIsPositive then
      let (shares, left) := keepResidualAt precision residualIsPositive residualToAssign rest
      (⟨entityId, original, 0⟩ :: shares, left)
    else
      let keepAmount := min |original| residualToAssign
      let signed (x : ℚ) : ℚ := if 0 < original then x else -x
      let matchedAmount := toSignificant precision (|original| - keepAmount)
      let (shares, left) := keepResidualAt precision residualIsPositive
        (toSignificant precision (residualToAssign - keepAmount)) rest
      (⟨entityId, signed matchedAmount, signed keepAmount⟩ :: shares, left)

def shareKeyAt (precision : ℕ) (groupResidual : ℚ) (contributors : List (String × ℚ)) :
    Except String (List KeyShare) :=
  if contributors = [] then
    if groupResidual = 0 then .ok [] else .error "invalid_clearing_residual_signature"
  else if groupResidual = 0 then
    .ok (contributors.map fun (entityId, original) => ⟨entityId, original, 0⟩)
  else
    let (shares, left) := keepResidualAt precision (0 < groupResidual) |groupResidual| contributors
    if left ≠ 0 then .error "invalid_clearing_residual_signature" else .ok shares

def shareEntry (precision : ℕ) (env : ClearingEnv) (members : List ParticipantState)
    (groupResiduals : SizeVector) (key : String) : Except String (String × List KeyShare) :=
  (shareKeyAt precision (residualOf groupResiduals key) (contributorsOf env members key)).map
    fun keyShares => (key, keyShares)

def allocateParticipantResidualsAt (precision : ℕ) (env : ClearingEnv) (group : CandidateGroup)
    (participants : List ParticipantState) (groupResiduals : SizeVector) :
    Except String (List ParticipantAllocation) := do
  let members ← group.participantIds.mapM (findParticipant participants)
  let keys := Js.sortWith env.localeCompare (group.uniqueLegs.foldl OrderedMap.addNew [])
  let shares ← keys.mapM (shareEntry precision env members groupResiduals)
  return members.map fun participant =>
    ⟨participant, sharesOf participant.combo.row.id matched shares,
      sharesOf participant.combo.row.id residual shares⟩

/-! ## Where the subtractions are exact -/

section Shares

variable {precision : ℕ} {places : ℤ} {groupResidual toAssign : ℚ}
  {residualIsPositive : Bool} {parts : List (String × ℚ)}

theorem keepResidualAt_eq (hassign : 0 ≤ toAssign) (hfit : FitsIn precision places toAssign)
    (hfits : ∀ contributor ∈ parts, FitsIn precision places contributor.2) :
    keepResidualAt precision residualIsPositive toAssign parts =
      keepResidual residualIsPositive toAssign parts := by
  induction parts generalizing toAssign with
  | nil => rfl
  | cons contributor rest ih =>
    obtain ⟨entityId, original⟩ := contributor
    have horiginal := hfits _ mem_cons_self
    have hrest : ∀ other ∈ rest, FitsIn precision places other.2 :=
      fun other hother => hfits other (mem_cons_of_mem _ hother)
    rw [keepResidualAt, keepResidual]
    split
    next => rw [ih hassign hfit hrest]
    next =>
      have hmatched := horiginal.abs.sub_min hfit (abs_nonneg original) hassign
      have hleft : FitsIn precision places (toAssign - min |original| toAssign) := by
        rw [min_comm]
        exact hfit.sub_min horiginal.abs hassign (abs_nonneg original)
      have hnonneg : 0 ≤ toAssign - min |original| toAssign :=
        sub_nonneg.mpr (min_le_right _ _)
      simp only [toSignificant_eq hmatched, toSignificant_eq hleft, ih hnonneg hleft hrest]

theorem shareKeyAt_eq (hgroup : FitsIn precision places groupResidual)
    (hfits : ∀ contributor ∈ parts, FitsIn precision places contributor.2) :
    shareKeyAt precision groupResidual parts = shareKey groupResidual parts := by
  unfold shareKeyAt shareKey
  rw [keepResidualAt_eq (abs_nonneg _) hgroup.abs hfits]

/-! ## What is kept of a key -/

def sizeOn (positive : Bool) (contributors : List (String × ℚ)) : ℚ :=
  ((contributors.filter fun contributor => decide (0 < contributor.2) = positive).map
    fun contributor => |contributor.2|).sum

theorem sizeOn_cons_same {positive : Bool} {contributor : String × ℚ}
    (hside : decide (0 < contributor.2) = positive) :
    sizeOn positive (contributor :: parts) =
      |contributor.2| + sizeOn positive parts := by
  simp [sizeOn, hside]

theorem sizeOn_cons_other {positive : Bool} {contributor : String × ℚ}
    (hside : decide (0 < contributor.2) ≠ positive) :
    sizeOn positive (contributor :: parts) = sizeOn positive parts := by
  simp [sizeOn, hside]

theorem sizeOn_nonneg (positive : Bool) (parts : List (String × ℚ)) :
    0 ≤ sizeOn positive parts := by
  refine sum_nonneg fun size hsize => ?_
  obtain ⟨contributor, -, rfl⟩ := mem_map.mp hsize
  exact abs_nonneg _

theorem sum_eq_sizeOn (parts : List (String × ℚ)) :
    (parts.map Prod.snd).sum = sizeOn true parts - sizeOn false parts := by
  induction parts with
  | nil => simp [sizeOn]
  | cons contributor rest ih =>
    rw [map_cons, sum_cons, ih]
    by_cases hpos : 0 < contributor.2
    · have hsame : decide (0 < contributor.2) = true := decide_eq_true hpos
      rw [sizeOn_cons_same hsame, sizeOn_cons_other (by simp [hpos]), abs_of_pos hpos]
      ring
    · have hsame : decide (0 < contributor.2) = false := decide_eq_false hpos
      rw [sizeOn_cons_same hsame, sizeOn_cons_other (by simp [hpos]),
        abs_of_nonpos (not_lt.mp hpos)]
      ring

theorem keepResidual_all (hassign : 0 ≤ toAssign)
    (hle : toAssign ≤ sizeOn residualIsPositive parts) :
    (keepResidual residualIsPositive toAssign parts).2 = 0 ∧
      ((keepResidual residualIsPositive toAssign parts).1.map
        residual).sum = if residualIsPositive then toAssign else -toAssign := by
  induction parts generalizing toAssign with
  | nil =>
    have hzero : toAssign = 0 := le_antisymm hle hassign
    simp [keepResidual, hzero]
  | cons contributor rest ih =>
    obtain ⟨entityId, original⟩ := contributor
    rw [keepResidual]
    split
    next hside =>
      rw [sizeOn_cons_other hside] at hle
      obtain ⟨hleft, hsum⟩ := ih hassign hle
      simp only [map_cons, sum_cons, zero_add]
      exact ⟨hleft, hsum⟩
    next hside =>
      rw [not_not] at hside
      rw [sizeOn_cons_same hside] at hle
      have hnonneg : 0 ≤ toAssign - min |original| toAssign :=
        sub_nonneg.mpr (min_le_right _ _)
      -- what the contributor does not keep is left to the others of its side
      have hrest : toAssign - min |original| toAssign ≤
          sizeOn residualIsPositive rest := by
        rcases min_choice |original| toAssign with hmin | hmin
        · rw [hmin]
          linarith
        · rw [hmin, sub_self]
          exact sizeOn_nonneg _ _
      obtain ⟨hleft, hsum⟩ := ih hnonneg hrest
      simp only [map_cons, sum_cons]
      refine ⟨hleft, ?_⟩
      rw [hsum]
      by_cases hpos : 0 < original
      · have hpositive : residualIsPositive = true := by rw [← hside, decide_eq_true hpos]
        simp only [hpos, hpositive, if_true]
        ring
      · have hnegative : residualIsPositive = false := by rw [← hside, decide_eq_false hpos]
        simp only [hpos, hnegative, if_false, Bool.false_eq_true]
        ring

theorem shareKey_sum (hsum : groupResidual = (parts.map Prod.snd).sum) :
    ∃ shares, shareKey groupResidual parts = .ok shares ∧
      (shares.map residual).sum = groupResidual := by
  unfold shareKey
  split
  next hnone =>
    have hzero : groupResidual = 0 := by rw [hsum, hnone]; rfl
    exact ⟨[], if_pos hzero, hzero.symm⟩
  next =>
    split
    next hzero =>
      refine ⟨_, rfl, ?_⟩
      rw [hzero]
      simp [Function.comp_def]
    next hne =>
      have hsplit := hsum.trans (sum_eq_sizeOn parts)
      have hle : |groupResidual| ≤ sizeOn (0 < groupResidual) parts := by
        by_cases hpos : 0 < groupResidual
        · rw [decide_eq_true hpos, abs_of_pos hpos]
          have hother := sizeOn_nonneg false parts
          linarith
        · rw [decide_eq_false hpos, abs_of_nonpos (not_lt.mp hpos)]
          have hother := sizeOn_nonneg true parts
          linarith
      obtain ⟨hleft, hkept⟩ := keepResidual_all (abs_nonneg groupResidual) hle
      refine ⟨_, if_neg (not_not.mpr hleft), hkept.trans ?_⟩
      by_cases hpos : 0 < groupResidual
      · rw [if_pos (decide_eq_true hpos), abs_of_pos hpos]
      · rw [if_neg (by simpa using hpos), abs_of_nonpos (not_lt.mp hpos), neg_neg]

end Shares

/-! ## Over the participants -/

theorem sum_single {ids : List String} (hids : ids.Nodup) {id : String} (hid : id ∈ ids) (x : ℚ) :
    (ids.map fun other => if id = other then x else 0).sum = x := by
  induction ids with
  | nil => exact absurd hid not_mem_nil
  | cons first rest ih =>
    rw [nodup_cons] at hids
    rw [map_cons, sum_cons]
    by_cases hfirst : id = first
    · have hzero : (rest.map fun other => if id = other then x else 0) = rest.map fun _ => 0 := by
        refine map_congr_left fun other hother => if_neg fun heq => ?_
        exact hids.1 (by rw [← hfirst, heq]; exact hother)
      rw [if_pos hfirst, hzero]
      simp
    · rw [if_neg hfirst, zero_add]
      exact ih hids.2 ((mem_cons.mp hid).resolve_left hfirst)

theorem sum_find {ids : List String} (hids : ids.Nodup) (part : KeyShare → ℚ)
    {shares : List KeyShare} (hshares : (shares.map entityId).Nodup)
    (hsub : ∀ share ∈ shares, share.entityId ∈ ids) :
    (ids.map fun id => (shares.find? fun share => share.entityId = id).elim 0 part).sum =
      (shares.map part).sum := by
  induction shares with
  | nil => simp
  | cons share rest ih =>
    rw [map_cons, nodup_cons] at hshares
    have hrest := ih hshares.2 fun other hother => hsub other (mem_cons_of_mem _ hother)
    have hcons : (ids.map fun id =>
        ((share :: rest).find? fun share => share.entityId = id).elim 0 part) =
        ids.map fun id => (if share.entityId = id then part share else 0) +
          (rest.find? fun share => share.entityId = id).elim 0 part := by
      refine map_congr_left fun id _ => ?_
      by_cases hid : share.entityId = id
      · have hnone : rest.find? (fun share => share.entityId = id) = none := by
          refine find?_eq_none.mpr fun other hother heq => hshares.1 ?_
          rw [hid, ← of_decide_eq_true heq]
          exact mem_map_of_mem hother
        simp only [find?_cons, decide_eq_true hid, if_pos hid, hnone]
        exact (add_zero _).symm
      · simp only [find?_cons, decide_eq_false hid, if_neg hid, zero_add]
    rw [hcons, sum_map_add, sum_single hids (hsub share mem_cons_self), hrest,
      map_cons, sum_cons]

theorem sum_filter_ne_zero {α : Type*} (f : α → ℚ) (items : List α) :
    ((items.filter fun item => f item ≠ 0).map f).sum = (items.map f).sum := by
  induction items with
  | nil => rfl
  | cons item rest ih =>
    rw [filter_cons, map_cons, sum_cons, ← ih]
    by_cases hzero : f item = 0
    · simp [hzero]
    · simp [hzero]

def membersOf (group : CandidateGroup) (participants : List ParticipantState) :
    List ParticipantState :=
  participants.filter fun participant => participant.combo.row.id ∈ group.participantIds

structure GroupOf (group : CandidateGroup) (participants : List ParticipantState)
    (groupResiduals : SizeVector) : Prop where
  participantIds : group.participantIds.Nodup
  loaded : ∀ participantId ∈ group.participantIds,
    ∃ participant ∈ participants, participant.combo.row.id = participantId
  unique : (participants.map fun participant => participant.combo.row.id).Nodup
  uniqueLegs : ∀ member ∈ membersOf group participants, ∀ key,
    entryOf member.vector.vector key ≠ 0 → key ∈ group.uniqueLegs
  residual : ∀ key, residualOf groupResiduals key =
    ((membersOf group participants).map fun member => entryOf member.vector.vector key).sum

/-- The sizes of each key have their places among the same `precision` digits. -/
def ExactAt (precision : ℕ) (members : List ParticipantState) (groupResiduals : SizeVector) :
    Prop :=
  ∀ key, ∃ places, FitsIn precision places (residualOf groupResiduals key) ∧
    ∀ member ∈ members, FitsIn precision places (entryOf member.vector.vector key)

/-- The rows and the columns of an allocation add up, and its residuals are on one side. -/
structure Conserves (allocations : List ParticipantAllocation) (groupResiduals : SizeVector) :
    Prop where
  sum : ∀ allocation ∈ allocations, ∀ key, entryOf allocation.matchedVector key +
    entryOf allocation.residualVector key = entryOf allocation.participant.vector.vector key
  shrinks : ∀ allocation ∈ allocations, ∀ key,
    Shrinks (entryOf allocation.participant.vector.vector key)
        (entryOf allocation.matchedVector key) ∧
      Shrinks (entryOf allocation.participant.vector.vector key)
        (entryOf allocation.residualVector key)
  matched : ∀ key,
    (allocations.map fun allocation => entryOf allocation.matchedVector key).sum = 0
  residual : ∀ key, (allocations.map fun allocation => entryOf allocation.residualVector key).sum =
    residualOf groupResiduals key
  unopposed : ∀ left ∈ allocations, ∀ right ∈ allocations, ∀ key,
    0 ≤ entryOf left.residualVector key * entryOf right.residualVector key

theorem mapM_findParticipant {group : CandidateGroup} {participants : List ParticipantState}
    {residuals : SizeVector} (hgroup : GroupOf group participants residuals) :
    ∃ members, group.participantIds.mapM (findParticipant participants) = .ok members ∧
      members.map (fun member => member.combo.row.id) = group.participantIds ∧
      members.Perm (membersOf group participants) := by
  obtain ⟨members, hmembers⟩ := mapM_ok (f := findParticipant participants)
    fun participantId hparticipantId => by
      obtain ⟨participant, hparticipant, hid⟩ := hgroup.loaded participantId hparticipantId
      unfold findParticipant
      cases hfind : participants.find? fun other => other.combo.row.id = participantId with
      | none => exact absurd hid (by simpa using find?_eq_none.mp hfind participant hparticipant)
      | some found => exact ⟨found, rfl⟩
  have hmap := ids_of_mapM_findParticipant hmembers
  refine ⟨members, hmembers, hmap, ?_⟩
  have hnodup : members.Nodup := List.Nodup.of_map _ (hmap ▸ hgroup.participantIds)
  have hothers : (membersOf group participants).Nodup :=
    (List.Nodup.of_map _ hgroup.unique).filter _
  rw [perm_ext_iff_of_nodup hnodup hothers]
  intro participant
  unfold membersOf
  rw [mem_filter, decide_eq_true_eq]
  constructor
  · intro hmem
    obtain ⟨participantId, hid, hfind⟩ := mem_of_mapM hmembers hmem
    obtain ⟨hparticipant, heq⟩ := findParticipant_ok hfind
    exact ⟨hparticipant, heq ▸ hid⟩
  · intro hmem
    obtain ⟨found, hfound, hfind⟩ := exists_of_mapM hmembers hmem.2
    obtain ⟨hparticipant, heq⟩ := findParticipant_ok hfind
    rwa [← inj_on_of_nodup_map hgroup.unique hparticipant hmem.1 heq]

theorem Shrinks.rest {before after : ℚ} (h : Shrinks before after) :
    Shrinks before (before - after) := by
  rcases h with ⟨hafter, hle⟩ | ⟨hle, hafter⟩
  · exact .inl ⟨by linarith, by linarith⟩
  · exact .inr ⟨by linarith, by linarith⟩

/-- The shares of the keys of a group, as its residuals ask for them. -/
structure SharedOut (env : ClearingEnv) (uniqueLegs : List String) (members : List ParticipantState)
    (groupResiduals : SizeVector) (shares : List (String × List KeyShare)) : Prop where
  nodup : (shares.map Prod.fst).Nodup
  shared : ∀ key ∈ uniqueLegs, ∃ keyShares, shares.lookup key = some keyShares ∧
    shareKey (residualOf groupResiduals key) (contributorsOf env members key) = .ok keyShares ∧
    (keyShares.map residual).sum = residualOf groupResiduals key
  others : ∀ key ∉ uniqueLegs, shares.lookup key = none

section Allocation

variable {precision : ℕ} {env : ClearingEnv} {group : CandidateGroup}
  {participants members : List ParticipantState} {residuals : SizeVector}
  {shares : List (String × List KeyShare)}

/-- Each key is shared as with exact subtractions, and nothing of its residual is left over. -/
theorem shareKeyAt_members (hgroup : GroupOf group participants residuals)
    (hexact : ExactAt precision (membersOf group participants) residuals)
    (hperm : members.Perm (membersOf group participants)) (key : String) :
    ∃ keyShares,
      shareKeyAt precision (residualOf residuals key) (contributorsOf env members key) =
        .ok keyShares ∧
      shareKey (residualOf residuals key) (contributorsOf env members key) = .ok keyShares ∧
      (keyShares.map residual).sum = residualOf residuals key := by
  obtain ⟨places, hfit, hfits⟩ := hexact key
  have hcontributors := contributorsOf_perm env members key
  have heq : shareKeyAt precision (residualOf residuals key)
      (contributorsOf env members key) =
        shareKey (residualOf residuals key) (contributorsOf env members key) := by
    refine shareKeyAt_eq hfit fun contributor hcontributor => ?_
    obtain ⟨member, hmember, rfl⟩ := mem_map.mp (hcontributors.mem_iff.mp hcontributor)
    exact hfits member (hperm.mem_iff.mp (mem_of_mem_filter hmember))
  have hsum : residualOf residuals key =
      ((contributorsOf env members key).map Prod.snd).sum := by
    rw [hgroup.residual key, (hcontributors.map Prod.snd).sum_eq, map_map,
      ← (hperm.map _).sum_eq]
    exact (sum_filter_ne_zero _ _).symm
  obtain ⟨keyShares, hshare, hkept⟩ := shareKey_sum hsum
  exact ⟨keyShares, heq.trans hshare, hshare, hkept⟩

theorem shareEntry_ok {key : String} {entry : String × List KeyShare}
    (h : shareEntry precision env members residuals key = .ok entry) :
    entry.1 = key ∧
      shareKeyAt precision (residualOf residuals key) (contributorsOf env members key) =
        .ok entry.2 := by
  unfold shareEntry at h
  generalize shareKeyAt precision (residualOf residuals key)
    (contributorsOf env members key) = share at h ⊢
  cases share with
  | error message => cases h
  | ok keyShares =>
    cases h
    exact ⟨rfl, rfl⟩

theorem mapM_shareKeyAt (env : ClearingEnv) (hgroup : GroupOf group participants residuals)
    (hexact : ExactAt precision (membersOf group participants) residuals)
    (hperm : members.Perm (membersOf group participants)) :
    ∃ shares,
      (Js.sortWith env.localeCompare (group.uniqueLegs.foldl OrderedMap.addNew [])).mapM
          (shareEntry precision env members residuals) = .ok shares ∧
      SharedOut env group.uniqueLegs members residuals shares := by
  have hmem : ∀ key, key ∈ Js.sortWith env.localeCompare
      (group.uniqueLegs.foldl OrderedMap.addNew []) ↔ key ∈ group.uniqueLegs := by
    intro key
    rw [Js.mem_sortWith, OrderedMap.mem_foldl_addNew]
    simp
  have hkeysNodup : (Js.sortWith env.localeCompare
      (group.uniqueLegs.foldl OrderedMap.addNew [])).Nodup := by
    rw [(Js.sortWith_perm _ _).nodup_iff]
    exact OrderedMap.nodup_foldl_addNew _ nodup_nil
  generalize Js.sortWith env.localeCompare (group.uniqueLegs.foldl OrderedMap.addNew []) = keys
    at hmem hkeysNodup ⊢
  have hkey : ∀ key, ∃ keyShares,
      shareKeyAt precision (residualOf residuals key) (contributorsOf env members key) =
        .ok keyShares ∧
      shareKey (residualOf residuals key) (contributorsOf env members key) = .ok keyShares ∧
      (keyShares.map residual).sum = residualOf residuals key :=
    fun key => shareKeyAt_members hgroup hexact hperm key
  have hentry : ∀ key ∈ keys, ∃ entry,
      shareEntry precision env members residuals key = .ok entry := by
    intro key _
    obtain ⟨keyShares, hshare, -⟩ := hkey key
    exact ⟨(key, keyShares), by rw [shareEntry, hshare]; rfl⟩
  obtain ⟨shares, hshares⟩ := mapM_ok hentry
  have hkeys : shares.map Prod.fst = keys := by
    have heq : shares.map Prod.fst = keys.map id := by
      refine map_of_mapM hshares fun key _ share hshare => ?_
      exact (shareEntry_ok hshare).1
    rwa [map_id] at heq
  refine ⟨shares, hshares, hkeys ▸ hkeysNodup, fun key hin => ?_, fun key hout => ?_⟩
  · obtain ⟨share, hshare, hread⟩ := exists_of_mapM hshares ((hmem key).mpr hin)
    obtain ⟨hfirst, hsecond⟩ := shareEntry_ok hread
    obtain ⟨keyShares, hsame, hexactly, hkept⟩ := hkey key
    have hlookup := OrderedMap.lookup_of_mem (hkeys ▸ hkeysNodup) hshare
    rw [hsecond] at hsame
    rw [hfirst, Except.ok.inj hsame] at hlookup
    exact ⟨keyShares, hlookup, hexactly, hkept⟩
  · rw [lookup_eq_none_iff]
    intro entry hentry
    have hin : entry.1 ∈ keys := hkeys ▸ mem_map_of_mem hentry
    have hne : key ≠ entry.1 := fun heq => hout ((hmem key).mp (heq ▸ hin))
    simpa using hne

theorem SharedOut.entries (hgroup : GroupOf group participants residuals)
    (hids : (members.map fun member => member.combo.row.id).Nodup)
    (hperm : members.Perm (membersOf group participants))
    (hshared : SharedOut env group.uniqueLegs members residuals shares) (key : String) :
    (∀ member ∈ members, KeyShare.Splits
      ⟨member.combo.row.id, entryOf (sharesOf member.combo.row.id matched shares) key,
        entryOf (sharesOf member.combo.row.id residual shares) key⟩
      (entryOf member.vector.vector key) (residualOf residuals key)) ∧
    (members.map fun member =>
      entryOf (sharesOf member.combo.row.id residual shares) key).sum =
        residualOf residuals key := by
  have hread : ∀ entityId part, entryOf (sharesOf entityId part shares) key =
      ((shares.lookup key).bind fun keyShares =>
        keyShares.find? fun share => share.entityId = entityId).elim 0 part :=
    fun entityId part => entryOf_sharesOf hshared.nodup entityId part key
  simp only [hread]
  by_cases hin : key ∈ group.uniqueLegs
  · obtain ⟨keyShares, hlookup, hshare, hkept⟩ := hshared.shared key hin
    simp only [hlookup, Option.bind_some]
    refine ⟨fun member hmember => shareOf_splits hids hshare hmember, ?_⟩
    have hentityIds : keyShares.map entityId =
        (contributorsOf env members key).map Prod.fst := (shareKey_splits hshare).1
    have hcontributors : ((contributorsOf env members key).map Prod.fst).Perm
        ((members.filter fun member => entryOf member.vector.vector key ≠ 0).map
          fun member => member.combo.row.id) := by
      have hmap := (contributorsOf_perm env members key).map Prod.fst
      rwa [map_map] at hmap
    have hsub : ((members.filter fun member => entryOf member.vector.vector key ≠ 0).map
        fun member => member.combo.row.id).Sublist
          (members.map fun member => member.combo.row.id) :=
      filter_sublist.map _
    have hnodup : (keyShares.map entityId).Nodup := by
      rw [hentityIds, hcontributors.nodup_iff]
      exact hsub.nodup hids
    have hmember : ∀ share ∈ keyShares,
        share.entityId ∈ members.map fun member => member.combo.row.id := by
      intro share hmem
      have hid : share.entityId ∈ keyShares.map entityId := mem_map_of_mem hmem
      rw [hentityIds, hcontributors.mem_iff] at hid
      exact hsub.subset hid
    have hfind := sum_find hids residual hnodup hmember
    rw [map_map] at hfind
    exact hfind.trans hkept
  · -- a key of no leg is in no vector
    have hzero : ∀ member ∈ members, entryOf member.vector.vector key = 0 := by
      intro member hmember
      by_contra hne
      exact hin (hgroup.uniqueLegs member (hperm.mem_iff.mp hmember) key hne)
    have hresidual : residualOf residuals key = 0 := by
      rw [hgroup.residual key, ← (hperm.map _).sum_eq]
      refine sum_eq_zero fun x hx => ?_
      obtain ⟨member, hmember, rfl⟩ := mem_map.mp hx
      exact hzero member hmember
    simp only [hshared.others key hin, Option.bind_none, Option.elim_none]
    refine ⟨fun member hmember => ?_, by simp [hresidual]⟩
    rw [hzero member hmember]
    exact ⟨add_zero 0, .refl 0, fun _ => le_rfl, fun _ => le_rfl⟩

/-- **What a round leaves of each participant.** Where the subtractions are exact the allocation
of a group never throws, and it conserves every size. -/
theorem allocateParticipantResidualsAt_conserves
    (hgroup : GroupOf group participants groupResiduals)
    (hexact : ExactAt precision (membersOf group participants) groupResiduals) :
    ∃ allocations,
      allocateParticipantResidualsAt precision env group participants groupResiduals =
        .ok allocations ∧
      allocations.map (fun allocation => allocation.participant.combo.row.id) =
        group.participantIds ∧ Conserves allocations groupResiduals := by
  obtain ⟨members, hmembers, hmap, hperm⟩ := mapM_findParticipant hgroup
  have hids : (members.map fun member => member.combo.row.id).Nodup := hmap ▸ hgroup.participantIds
  obtain ⟨shares, hshares, hshared⟩ := mapM_shareKeyAt env hgroup hexact hperm
  have hentries := hshared.entries hgroup hids hperm
  have hsplits : ∀ member ∈ members, ∀ key, KeyShare.Splits _ _ _ :=
    fun member hmember key => (hentries key).1 member hmember
  refine ⟨members.map fun participant =>
    ⟨participant, sharesOf participant.combo.row.id matched shares,
      sharesOf participant.combo.row.id residual shares⟩, ?_, ?_, ?_⟩
  · unfold allocateParticipantResidualsAt
    rw [hmembers]
    show Except.bind (List.mapM (shareEntry precision env members groupResiduals) _) _ = _
    rw [hshares]
    rfl
  · rw [map_map]
    exact hmap
  · refine ⟨?_, ?_, ?_, ?_, ?_⟩
    · intro allocation hallocation key
      obtain ⟨member, hmember, rfl⟩ := mem_map.mp hallocation
      exact (hsplits member hmember key).sum
    · intro allocation hallocation key
      obtain ⟨member, hmember, rfl⟩ := mem_map.mp hallocation
      have hsplit := hsplits member hmember key
      refine ⟨?_, hsplit.shrinks⟩
      have hrest := hsplit.shrinks.rest
      rwa [← hsplit.sum, add_sub_cancel_right, hsplit.sum] at hrest
    · intro key
      -- the members' sizes add up to what they keep of them
      have hsizes : (members.map fun member => entryOf member.vector.vector key).sum =
          (members.map fun member =>
            entryOf (sharesOf member.combo.row.id matched shares) key).sum +
          (members.map fun member =>
            entryOf (sharesOf member.combo.row.id residual shares) key).sum := by
        rw [← sum_map_add]
        exact congrArg List.sum (map_congr_left fun member hmember =>
          (hsplits member hmember key).sum.symm)
      rw [(hentries key).2, (hperm.map _).sum_eq, ← hgroup.residual key] at hsizes
      rw [map_map]
      exact left_eq_add.mp (hsizes.trans (add_comm _ _))
    · intro key
      rw [map_map]
      exact (hentries key).2
    · intro left hleft right hright key
      obtain ⟨leftMember, hleftMember, rfl⟩ := mem_map.mp hleft
      obtain ⟨rightMember, hrightMember, rfl⟩ := mem_map.mp hright
      have hleftSplit := hsplits leftMember hleftMember key
      have hrightSplit := hsplits rightMember hrightMember key
      rcases le_total 0 (residualOf groupResiduals key) with hsign | hsign
      · exact mul_nonneg (hleftSplit.nonneg hsign) (hrightSplit.nonneg hsign)
      · exact mul_nonneg_of_nonpos_of_nonpos (hleftSplit.nonpos hsign) (hrightSplit.nonpos hsign)

end Allocation

/-! ## A size of more digits than are kept -/

def holder (id : String) (createdAt : ℤ) (size : ℚ) : ParticipantState where
  combo := ⟨⟨id, id, .OPEN, createdAt⟩, []⟩
  vector :=
    { entityId := id
      userId := id
      compatibilityBucket := "bucket"
      vector := [("market:yes", size)]
      legCount := 1
      grossAbsSize := |size|
      resolutionProfileId := none
      createdAt := createdAt }

/-- Two participants that cancel out, and a third. -/
def trio (size : ℚ) : List ParticipantState :=
  [holder "a" 0 (3 / 10), holder "b" 1 (-3 / 10), holder "c" 2 size]

def trioGroup : CandidateGroup where
  participantIds := ["a", "b", "c"]
  uniqueLegs := ["market:yes"]
  estimatedCompressionScore := 0
  residualAfterNetting := []
  exactnessScore := 0

def trioEnv : ClearingEnv := ⟨id, fun input => input.compatibilityBucket, compare⟩

theorem entryOf_holder (id : String) (createdAt : ℤ) (size : ℚ) (key : String) :
    entryOf (holder id createdAt size).vector.vector key =
      if key = "market:yes" then size else 0 := by
  simp only [holder, entryOf, OrderedMap.lookup_cons]
  split <;> rfl

theorem entryOf_trio {size : ℚ} {member : ParticipantState}
    (hmember : member ∈ membersOf trioGroup (trio size)) (key : String) :
    (key ≠ "market:yes" → entryOf member.vector.vector key = 0) ∧
      entryOf member.vector.vector "market:yes" ∈ [3 / 10, -3 / 10, size] := by
  have hin : member ∈ trio size := mem_of_mem_filter hmember
  simp only [trio, mem_cons, not_mem_nil, or_false] at hin
  rcases hin with rfl | rfl | rfl
  all_goals
    simp only [entryOf_holder, if_true]
    exact ⟨fun hkey => if_neg hkey, by simp⟩

theorem trio_groupOf (size : ℚ) : GroupOf trioGroup (trio size) [("market:yes", size)] where
  participantIds := by decide
  loaded := by simp [trioGroup, trio, holder]
  unique := by simp [trio, holder]
  uniqueLegs := by
    intro member hmember key hne
    by_cases hkey : key = "market:yes"
    · exact hkey ▸ mem_cons_self
    · exact absurd ((entryOf_trio hmember key).1 hkey) hne
  residual := by
    intro key
    have hmembers : membersOf trioGroup (trio size) = trio size := by
      simp [membersOf, trio, trioGroup, holder]
    rw [hmembers]
    simp only [trio, map_cons, map_nil, entryOf_holder, residualOf,
      reverse_singleton, OrderedMap.lookup_cons]
    split
    next => simp only [sum_cons, sum_nil, Option.getD_some]; ring
    next => simp

theorem trio_conserved : ∃ allocations,
    allocateParticipantResidualsAt DECIMAL_PRECISION trioEnv trioGroup (trio 10)
        [("market:yes", 10)] = .ok allocations ∧
      allocations.map (fun allocation => allocation.participant.combo.row.id) = ["a", "b", "c"] ∧
      Conserves allocations [("market:yes", 10)] := by
  refine allocateParticipantResidualsAt_conserves (trio_groupOf 10) fun key => ⟨1, ?_, ?_⟩
  · by_cases hkey : key = "market:yes"
    · exact ⟨100, by rw [hkey]; decide +kernel, by decide⟩
    · simp [residualOf, OrderedMap.lookup_cons, hkey, FitsIn.zero]
  · intro member hmember
    by_cases hkey : key = "market:yes"
    · have hentry := (entryOf_trio hmember key).2
      rw [hkey]
      generalize entryOf member.vector.vector "market:yes" = size at hentry ⊢
      simp only [mem_cons, not_mem_nil, or_false] at hentry
      rcases hentry with rfl | rfl | rfl
      · exact ⟨3, by decide +kernel, by decide⟩
      · exact ⟨-3, by decide +kernel, by decide⟩
      · exact ⟨100, by decide +kernel, by decide⟩
    · rw [(entryOf_trio hmember key).1 hkey]
      exact .zero

/-- Beside `10 ^ 20` the `0.3` that the oldest participant keeps is rounded away, and the third
keeps all it has. -/
theorem trio_overkept :
    GroupOf trioGroup (trio (10 ^ 20)) [("market:yes", 10 ^ 20)] ∧
      ∀ allocations, allocateParticipantResidualsAt DECIMAL_PRECISION trioEnv trioGroup
        (trio (10 ^ 20)) [("market:yes", 10 ^ 20)] = .ok allocations →
          ¬ Conserves allocations [("market:yes", 10 ^ 20)] := by
  refine ⟨trio_groupOf _, fun allocations hallocations hconserves => ?_⟩
  have hmatched : (allocateParticipantResidualsAt DECIMAL_PRECISION trioEnv trioGroup
      (trio (10 ^ 20)) [("market:yes", 10 ^ 20)]).map (fun allocations =>
        (allocations.map fun allocation => entryOf allocation.matchedVector "market:yes").sum) =
          .ok (-3 / 10) := by decide +kernel
  rw [hallocations] at hmatched
  have hsum := Except.ok.inj hmatched
  exact absurd ((hconserves.matched "market:yes").symm.trans hsum) (by decide +kernel)

end LotusRfq.Combo
