import LotusRfq.Combo.Candidates
import LotusRfq.Combo.Clearing

/-!
# LotusRfq — the leg updates of a clearing round

A participant's matched vector is spread over its legs. Each update takes some of one leg, on the
leg's own side and at the leg's own price, and the updates of an outcome add up to what was
matched of it.

* **`matchParticipant_taken`** — the updates of one participant;
* **`applyLegUpdates_netIn`** — what updates do to the net size of a combo.
-/

namespace LotusRfq.Combo

open Tables List

/-! ## Keys -/

theorem splitLegKey_ok {marketId outcomeId : String} (hmarket : ':' ∉ marketId.toList)
    (houtcome : ':' ∉ outcomeId.toList) {parts : String × String}
    (h : splitLegKey (marketId ++ ":" ++ outcomeId) = .ok parts) : parts = (marketId, outcomeId) := by
  have hsplit : (marketId ++ ":" ++ outcomeId).toList.splitOn ':' =
      [marketId.toList, outcomeId.toList] := by
    rw [String.toList_append, String.toList_append, append_assoc,
      show ":".toList ++ outcomeId.toList = ':' :: outcomeId.toList from rfl,
      splitOn_append_cons_self_of_not_mem hmarket, splitOn_eq_singleton houtcome]
  unfold splitLegKey at h
  rw [hsplit] at h
  simp only [map_cons, map_nil, String.ofList_toList] at h
  split at h
  next => cases h
  next => exact (Except.ok.inj h).symm

/-- What the tables guarantee: legs have distinct ids, and their outcomes are UUIDs, which have no
colon in them. -/
structure ClearingKeyed (db : ComboDb) : Prop where
  legIds : (db.legs.map LegRow.id).Nodup
  markets : ∀ leg ∈ db.legs, ':' ∉ leg.canonical_market_id.toList
  outcomes : ∀ leg ∈ db.legs, ':' ∉ leg.canonical_outcome_id.toList

/-! ## Taken from a leg -/

structure LegUpdate.TakenFrom (update : LegUpdate) (entityId : String) (leg : LegRow) : Prop where
  legId : leg.id = update.legId
  entityId : update.entityId = entityId
  marketId : leg.canonical_market_id = update.marketId
  outcomeId : leg.canonical_outcome_id = update.outcomeId
  side : leg.side = update.side
  priceHint : leg.price_hint = some update.priceHint
  pos : 0 < update.clearedSize

/-- What an update takes, a buy above zero. -/
def LegUpdate.signed (update : LegUpdate) : ℚ :=
  match update.side with
  | .buy => update.clearedSize
  | .sell => -update.clearedSize

def LegUpdate.key (update : LegUpdate) : String := update.marketId ++ ":" ++ update.outcomeId

variable {updates : List LegUpdate} {combo : LoadedCombo} {db : ComboDb}

theorem takeFromLegs_taken {entityId : String} {remainingToAllocate left : ℚ} {legs : List LegRow}
    (h : takeFromLegs entityId remainingToAllocate legs = .ok (updates, left)) :
    (∀ update ∈ updates, ∃ leg ∈ legs, update.TakenFrom entityId leg) ∧
      (updates.map LegUpdate.clearedSize).sum + left = remainingToAllocate := by
  induction legs generalizing remainingToAllocate updates left with
  | nil =>
    cases h
    exact ⟨fun update hupdate => absurd hupdate not_mem_nil, by simp⟩
  | cons leg rest ih =>
    rw [takeFromLegs] at h
    simp only at h
    split at h
    next hzero =>
      cases h
      exact ⟨fun update hupdate => absurd hupdate not_mem_nil, by simp [hzero]⟩
    next =>
      split at h
      next hpos =>
        split at h
        next => cases h
        next priceHint hhint =>
          obtain ⟨⟨others, left'⟩, hrest, h⟩ := bind_eq_ok.mp h
          cases h
          obtain ⟨htaken, hsum⟩ := ih hrest
          refine ⟨fun update hupdate => ?_, ?_⟩
          · rcases mem_cons.mp hupdate with rfl | hmem
            · exact ⟨leg, mem_cons_self, ⟨rfl, rfl, rfl, rfl, rfl, hhint, hpos⟩⟩
            · obtain ⟨other, hother, hfrom⟩ := htaken update hmem
              exact ⟨other, mem_cons_of_mem _ hother, hfrom⟩
          · rw [map_cons, sum_cons, add_assoc, hsum]
            exact add_sub_cancel _ _
      next =>
        obtain ⟨htaken, hsum⟩ := ih h
        refine ⟨fun update hupdate => ?_, hsum⟩
        obtain ⟨other, hother, hfrom⟩ := htaken update hupdate
        exact ⟨other, mem_cons_of_mem _ hother, hfrom⟩

/-- The updates of one matched entry: of legs of the outcome on its side, and all of it. -/
theorem allocateMatchedSizeToLegs_taken {env : ClearingEnv} {marketId outcomeId : String}
    {matchedSigned : ℚ}
    (h : allocateMatchedSizeToLegs env combo marketId outcomeId matchedSigned = .ok updates) :
    (∀ update ∈ updates, update.marketId = marketId ∧ update.outcomeId = outcomeId ∧
      ∃ leg ∈ combo.legs, update.TakenFrom combo.row.id leg) ∧
      (updates.map LegUpdate.signed).sum = matchedSigned := by
  unfold allocateMatchedSizeToLegs at h
  extract_lets side legs at h
  split at h
  next => cases h
  next =>
    obtain ⟨⟨taken, left⟩, htaken, h⟩ := bind_eq_ok.mp h
    simp only at h
    split at h
    next => cases h
    next hleft =>
      cases h
      rw [not_not] at hleft
      obtain ⟨hfrom, hsum⟩ := takeFromLegs_taken htaken
      have hlegs : ∀ leg ∈ legs, leg ∈ combo.legs ∧ leg.canonical_market_id = marketId ∧
          leg.canonical_outcome_id = outcomeId ∧ leg.side = side := by
        intro leg hleg
        simpa [legs, mem_filter] using hleg
      refine ⟨fun update hupdate => ?_, ?_⟩
      · obtain ⟨leg, hleg, htakenFrom⟩ := hfrom update hupdate
        obtain ⟨hmem, hmarket, houtcome, -⟩ := hlegs leg hleg
        exact ⟨htakenFrom.marketId ▸ hmarket, htakenFrom.outcomeId ▸ houtcome, leg, hmem,
          htakenFrom⟩
      · have hside : ∀ update ∈ updates, update.side = side := by
          intro update hupdate
          obtain ⟨leg, hleg, htakenFrom⟩ := hfrom update hupdate
          rw [← htakenFrom.side]
          exact (hlegs leg hleg).2.2.2
        rw [hleft, add_zero] at hsum
        by_cases hpos : 0 < matchedSigned
        · have hbuy : updates.map LegUpdate.signed = updates.map LegUpdate.clearedSize := by
            refine map_congr_left fun update hupdate => ?_
            rw [LegUpdate.signed, hside update hupdate]
            simp [side, hpos]
          rw [hbuy, hsum, abs_of_pos hpos]
        · have hsell : updates.map LegUpdate.signed =
              (updates.map LegUpdate.clearedSize).map Neg.neg := by
            rw [map_map]
            refine map_congr_left fun update hupdate => ?_
            rw [LegUpdate.signed, hside update hupdate]
            simp [side, hpos]
          rw [hsell, ← sum_neg, hsum, abs_of_nonpos (not_lt.mp hpos), neg_neg]

/-! ## One participant -/

def takenOf (updates : List LegUpdate) (entityId key : String) : ℚ :=
  (updates.map fun update =>
    if update.entityId = entityId ∧ update.key = key then update.signed else 0).sum

theorem takenOf_append (updates more : List LegUpdate) (entityId key : String) :
    takenOf (updates ++ more) entityId key =
      takenOf updates entityId key + takenOf more entityId key := by
  unfold takenOf
  rw [map_append, sum_append]

theorem takenOf_flatMap {α : Type*} (items : List α) (updates : α → List LegUpdate)
    (entityId key : String) : takenOf (items.flatMap updates) entityId key =
      (items.map fun item => takenOf (updates item) entityId key).sum := by
  induction items with
  | nil => rfl
  | cons item rest ih =>
    rw [flatMap_cons, takenOf_append, ih, map_cons, sum_cons]

theorem takenOf_same {entityId key : String}
    (h : ∀ update ∈ updates, update.entityId = entityId ∧ update.key = key)
    (entityId' key' : String) : takenOf updates entityId' key' =
      if entityId = entityId' ∧ key = key' then (updates.map LegUpdate.signed).sum else 0 := by
  unfold takenOf
  split
  next heq =>
    refine congrArg List.sum (map_congr_left fun update hupdate => ?_)
    rw [(h update hupdate).1, (h update hupdate).2, if_pos heq]
  next hne =>
    refine sum_eq_zero fun x hx => ?_
    obtain ⟨update, hupdate, rfl⟩ := mem_map.mp hx
    rw [(h update hupdate).1, (h update hupdate).2, if_neg hne]

/-- **The updates of one participant** are of its own legs, and take of every outcome what was
matched of it. -/
theorem matchParticipant_taken {env : ClearingEnv} {roundId participantRowId : String}
    {allocation : ParticipantAllocation} {matched : List RoundLegMatchRow × List LegUpdate}
    (hcolons : ∀ key ∈ keysOf allocation.matchedVector, ∃ marketId outcomeId : String,
      key = marketId ++ ":" ++ outcomeId ∧ ':' ∉ marketId.toList ∧ ':' ∉ outcomeId.toList)
    (hkeys : (keysOf allocation.matchedVector).Nodup)
    (h : matchParticipant env roundId participantRowId allocation = .ok matched) :
    (∀ update ∈ matched.2, ∃ leg ∈ allocation.participant.combo.legs,
      update.TakenFrom allocation.participant.combo.row.id leg) ∧
    ∀ entityId key, takenOf matched.2 entityId key =
      if allocation.participant.combo.row.id = entityId then
        entryOf allocation.matchedVector key else 0 := by
  obtain ⟨parts, hparts, h⟩ := bind_eq_ok.mp h
  cases h
  have hperm := Js.sortWith_perm (fun left right : String × ℚ => env.localeCompare left.1 right.1)
    allocation.matchedVector
  -- what one matched entry gives
  have hpart : ∀ entry ∈ Js.sortWith (fun left right : String × ℚ =>
      env.localeCompare left.1 right.1) allocation.matchedVector, ∀ part, (do
        let ids ← splitLegKey entry.1
        let updates ← allocateMatchedSizeToLegs env allocation.participant.combo ids.1 ids.2 entry.2
        return ((⟨roundId, ids.1, ids.2, participantRowId, entry.2, none⟩ : RoundLegMatchRow),
          updates)) = (.ok part : Except String _) →
      (∀ update ∈ part.2, update.key = entry.1 ∧ ∃ leg ∈ allocation.participant.combo.legs,
          update.TakenFrom allocation.participant.combo.row.id leg) ∧
      (part.2.map LegUpdate.signed).sum = entry.2 := by
    intro entry hentry part hread
    obtain ⟨parts, hsplit, hread⟩ := bind_eq_ok.mp hread
    obtain ⟨updates, hupdates, hread⟩ := bind_eq_ok.mp hread
    cases hread
    have hkey : entry.1 ∈ keysOf allocation.matchedVector :=
      mem_map_of_mem (hperm.mem_iff.mp hentry)
    obtain ⟨marketId, outcomeId, heq, hmarket, houtcome⟩ := hcolons entry.1 hkey
    rw [heq] at hsplit
    have hids := splitLegKey_ok hmarket houtcome hsplit
    obtain ⟨htaken, hsum⟩ := allocateMatchedSizeToLegs_taken hupdates
    refine ⟨fun update hupdate => ?_, hsum⟩
    obtain ⟨hmarketId, houtcomeId, hleg⟩ := htaken update hupdate
    rw [LegUpdate.key, hmarketId, houtcomeId, hids, heq]
    exact ⟨rfl, hleg⟩
  refine ⟨fun update hupdate => ?_, fun entityId key => ?_⟩
  · obtain ⟨part, hmem, hupdate⟩ := mem_flatMap.mp hupdate
    obtain ⟨entry, hentry, hread⟩ := mem_of_mapM hparts hmem
    exact ((hpart entry hentry part hread).1 update hupdate).2
  · have hsums : parts.map (fun part => takenOf part.2 entityId key) =
        (Js.sortWith (fun left right : String × ℚ => env.localeCompare left.1 right.1)
          allocation.matchedVector).map fun entry =>
            if allocation.participant.combo.row.id = entityId ∧ entry.1 = key then entry.2
            else 0 := by
      refine map_of_mapM hparts fun entry hentry part hread => ?_
      obtain ⟨hupdates, hsum⟩ := hpart entry hentry part hread
      rw [takenOf_same (fun update hupdate => ?_), hsum]
      obtain ⟨hkey, leg, -, htaken⟩ := hupdates update hupdate
      exact ⟨htaken.entityId, hkey⟩
    rw [takenOf_flatMap, hsums, (hperm.map _).sum_eq]
    by_cases hid : allocation.participant.combo.row.id = entityId
    · simp only [hid, true_and, if_true]
      rw [sum_map_ite_zero]
      exact sum_filter_eq_entryOf hkeys key
    · simp [hid]

/-! ## Net sizes -/

/-- What a combo has left of an outcome, read off the tables. -/
def netIn (db : ComboDb) (comboId key : String) : ℚ :=
  (db.legs.map fun leg =>
    if leg.combo_rfq_id = comboId ∧ legKey leg = key then signedSize leg else 0).sum

theorem netIn_loadCombo {comboId : String} (h : loadCombo db comboId = some combo) (key : String) :
    netSize combo key = netIn db comboId key := by
  have hperm : (selectLegs db comboId).Perm
      (db.legs.filter fun leg => leg.combo_rfq_id = comboId) := perm_insertionSort _ _
  unfold netSize netIn
  rw [(loadCombo_some h).2.2, ((hperm.filter _).map _).sum_eq, sum_map_ite_zero, filter_filter]
  simp only [Bool.decide_and, Bool.and_comm]

def LegUpdate.Known (update : LegUpdate) (legs : List LegRow) : Prop :=
  ∃ leg ∈ legs, leg.id = update.legId ∧ leg.combo_rfq_id = update.entityId ∧
    legKey leg = update.key ∧ leg.side = update.side

theorem LegUpdate.TakenFrom.known {update : LegUpdate} {comboId : String}
    (hload : loadCombo db comboId = some combo) {leg : LegRow} (hleg : leg ∈ combo.legs)
    (h : update.TakenFrom combo.row.id leg) : update.Known db.legs := by
  obtain ⟨-, hid, hlegs⟩ := loadCombo_some hload
  rw [hlegs, mem_selectLegs] at hleg
  refine ⟨leg, hleg.1, h.legId, ?_, ?_, h.side⟩
  · rw [hleg.2, h.entityId, hid]
  · rw [legKey, LegUpdate.key, h.marketId, h.outcomeId]

theorem updateLeg_netIn {db' : ComboDb} (hids : (db.legs.map LegRow.id).Nodup)
    {update : LegUpdate} (hknown : update.Known db.legs)
    (h : updateLeg db update.legId (fun remaining => remaining - update.clearedSize) = .ok db')
    (comboId key : String) : netIn db' comboId key = netIn db comboId key -
      if update.entityId = comboId ∧ update.key = key then update.signed else 0 := by
  obtain ⟨-, rfl⟩ := updateLeg_ok h
  obtain ⟨leg, hleg, hid, hcombo, hkey, hside⟩ := hknown
  unfold netIn
  rw [← hid, sum_update hids hleg]
  have hsigned : signedSize { leg with remaining_size := leg.remaining_size - update.clearedSize } =
      signedSize leg - update.signed := by
    unfold signedSize LegUpdate.signed
    rw [← hside]
    cases leg.side with
    | buy => rfl
    | sell => simp only; ring
  rw [hsigned, show legKey { leg with
    remaining_size := leg.remaining_size - update.clearedSize } = legKey leg from rfl, hcombo, hkey]
  split <;> ring

/-- **What updates do to the net sizes**: of every combo and outcome they take what they say. -/
theorem applyLegUpdates_netIn {db' : ComboDb} (hids : (db.legs.map LegRow.id).Nodup)
    (hknown : ∀ update ∈ updates, update.Known db.legs) (h : applyLegUpdates updates db = .ok db')
    (comboId key : String) :
    netIn db' comboId key = netIn db comboId key - takenOf updates comboId key := by
  induction updates generalizing db with
  | nil =>
    cases h
    simp [takenOf]
  | cons update rest ih =>
    unfold applyLegUpdates at h
    rw [foldlM_cons] at h
    obtain ⟨next, hnext, h⟩ := bind_eq_ok.mp h
    have hlegs := (updateLeg_ok hnext).2
    have hids' : (next.legs.map LegRow.id).Nodup := by
      rw [hlegs]
      refine (keys_update update.legId ?_ db.legs).symm ▸ hids
      exact fun _ => rfl
    have hknown' : ∀ other ∈ rest, other.Known next.legs := by
      intro other hother
      obtain ⟨leg, hleg, hid, hcombo, hkey, hside⟩ := hknown other (mem_cons_of_mem _ hother)
      rw [hlegs]
      -- the leg is there as before, or with the update taken off
      by_cases hupdated : leg.id = update.legId
      · exact ⟨_, mem_update.mpr (.inl ⟨leg, hleg, hupdated, rfl⟩), hid, hcombo, hkey, hside⟩
      · exact ⟨leg, mem_update.mpr (.inr ⟨hleg, hupdated⟩), hid, hcombo, hkey, hside⟩
    rw [ih hids' hknown' h, updateLeg_netIn hids (hknown update mem_cons_self) hnext]
    unfold takenOf
    rw [map_cons, sum_cons, sub_sub]

end LotusRfq.Combo
