import LotusRfq.Combo.ClearedStates

/-!
# LotusRfq — what a clearing round adds up to

A round journals, for every leg it takes something off, what its user may lose and gain at the
leg's own price hint. Netting books both sides of a match at one price; a round does not, and it
adds up to zero where the buyers of an outcome pay what its sellers receive.

* **`applyExposureMutations_journaled`** — the journal has every leg update, once;
* **`executeClearing_zeroSum_iff`** — when the losses of every outcome are its gains.
-/

namespace LotusRfq.Combo

open Tables List

/-! ## What a leg is worth -/

/-- What the exposure of an update is, as `calculateExposureDelta` has it. -/
def deltaOf (update : LegUpdate) (delta : ExposureDelta) : PerLegDelta :=
  { legId := update.legId
    marketId := update.marketId
    outcomeId := update.outcomeId
    side := update.side
    price := update.priceHint
    matchedSize := update.clearedSize
    maxLossDelta := delta.maxLossDelta
    maxGainDelta := delta.maxGainDelta }

@[simp] theorem deltaOf_maxLossDelta (update : LegUpdate) (delta : ExposureDelta) :
    (deltaOf update delta).maxLossDelta = delta.maxLossDelta := rfl

@[simp] theorem deltaOf_maxGainDelta (update : LegUpdate) (delta : ExposureDelta) :
    (deltaOf update delta).maxGainDelta = delta.maxGainDelta := rfl

def PerLegDelta.key (perLeg : PerLegDelta) : String := perLeg.marketId ++ ":" ++ perLeg.outcomeId

/-- What a buyer of the cleared size pays over what is left to one, both to eight places. -/
def LegUpdate.premium (update : LegUpdate) : ℚ :=
  toDecimalPlaces 8 (update.priceHint * update.clearedSize) -
    toDecimalPlaces 8 ((1 - update.priceHint) * update.clearedSize)

def premiumsOn (updates : List LegUpdate) (key : String) (side : Side) : ℚ :=
  ((updates.filter fun update => update.key = key ∧ update.side = side).map
    LegUpdate.premium).sum

/-- The buyers of every outcome pay what its sellers receive. -/
def OnePrice (updates : List LegUpdate) : Prop :=
  ∀ key, premiumsOn updates key .buy = premiumsOn updates key .sell

def ZeroSum (perLegs : List PerLegDelta) : Prop :=
  ∀ key, ((perLegs.filter fun perLeg => perLeg.key = key).map PerLegDelta.maxLossDelta).sum =
    ((perLegs.filter fun perLeg => perLeg.key = key).map PerLegDelta.maxGainDelta).sum

/-- These deltas are those of the updates, in another order. -/
def DeltasOf (updates : List LegUpdate) (perLegs : List PerLegDelta) : Prop :=
  ∃ deltas : List PerLegDelta, perLegs.Perm deltas ∧ List.Forall₂ (fun update perLeg =>
    ∃ delta, calculateExposureDelta update.side update.priceHint update.clearedSize = .ok delta ∧
      perLeg = deltaOf update delta) updates deltas

theorem calculateExposureDelta_premium {update : LegUpdate} {delta : ExposureDelta}
    (h : calculateExposureDelta update.side update.priceHint update.clearedSize = .ok delta) :
    delta.maxLossDelta - delta.maxGainDelta =
      if update.side = .buy then update.premium else -update.premium := by
  unfold calculateExposureDelta at h
  split at h
  next => cases h
  next =>
    split at h
    next => cases h
    next =>
      unfold LegUpdate.premium
      cases hside : update.side with
      | buy =>
        rw [hside] at h
        cases h
        rw [if_pos rfl]
      | sell =>
        rw [hside] at h
        cases h
        rw [if_neg (by decide), neg_sub]

/-- **Zero sum is one price.** -/
theorem DeltasOf.zeroSum_iff {updates : List LegUpdate} {perLegs : List PerLegDelta}
    (h : DeltasOf updates perLegs) : ZeroSum perLegs ↔ OnePrice updates := by
  obtain ⟨deltas, hperm, hdeltas⟩ := h
  refine forall_congr' fun key => ?_
  have hsum : ∀ f : PerLegDelta → ℚ, ((perLegs.filter fun perLeg => perLeg.key = key).map f).sum =
        ((deltas.filter fun perLeg => perLeg.key = key).map f).sum := fun f =>
    ((hperm.filter _).map f).sum_eq
  rw [hsum, hsum]
  -- update by update, a loss less a gain is a premium paid or received
  have hdifference : ((deltas.filter fun perLeg => perLeg.key = key).map
        PerLegDelta.maxLossDelta).sum -
      ((deltas.filter fun perLeg => perLeg.key = key).map PerLegDelta.maxGainDelta).sum =
        premiumsOn updates key .buy - premiumsOn updates key .sell := by
    clear hperm hsum
    unfold premiumsOn
    induction hdeltas with
    | nil => rfl
    | @cons update perLeg updates deltas hhead _ ih =>
      obtain ⟨delta, hdelta, rfl⟩ := hhead
      have hpremium := calculateExposureDelta_premium hdelta
      by_cases hkey : update.key = key
      · have hdeltaKey : (deltaOf update delta).key = key := hkey
        cases hside : update.side with
        | buy =>
          rw [hside, if_pos rfl] at hpremium
          simp only [filter_cons, hdeltaKey, hkey, hside, decide_true, and_self, if_true,
            reduceCtorEq, and_false, decide_false, Bool.false_eq_true, if_false, map_cons,
            sum_cons, deltaOf_maxLossDelta, deltaOf_maxGainDelta]
          linarith
        | sell =>
          rw [hside, if_neg (by decide)] at hpremium
          simp only [filter_cons, hdeltaKey, hkey, hside, decide_true, and_self, if_true,
            reduceCtorEq, and_false, decide_false, Bool.false_eq_true, if_false, map_cons,
            sum_cons, deltaOf_maxLossDelta, deltaOf_maxGainDelta]
          linarith
      · have hdeltaKey : ¬ (deltaOf update delta).key = key := hkey
        simp only [filter_cons, hdeltaKey, hkey, false_and, decide_false, Bool.false_eq_true,
          if_false, ih]
  constructor
  · intro heq
    linarith
  · intro heq
    linarith

/-! ## What is journaled -/

def legsOfRow (row : JournalRow ComboPayload) : List PerLegDelta :=
  match row.payload with
  | .clearing _ _ _ _ _ _ _ perLeg => perLeg.map Prod.snd
  | .netting .. => []

def journaledLegs (db db' : ComboDb) : List PerLegDelta :=
  (db'.journal.drop db.journal.length).flatMap legsOfRow

section Journal

variable {env : ClearingEnv} {roundId : String} {signatures : ClearingMatchSignature}
  {uuid : ℕ → String} {db db' : ComboDb}

theorem aggregateExposure_deltas {updates : List (String × LegUpdate)}
    {exposures : List ParticipantExposure} (h : aggregateExposure env updates = .ok exposures) :
    DeltasOf (updates.map Prod.snd) (exposures.flatMap ParticipantExposure.perLegDeltas) := by
  obtain ⟨buckets, hbuckets, h⟩ := bind_eq_ok.mp h
  cases h
  have hfold : ∀ (rest : List (String × LegUpdate)) (start : List (String × ParticipantExposure)),
      ∀ buckets, rest.foldlM (fun buckets entry => do
        validateAllocation entry.1 entry.2
        let existing := (buckets.lookup entry.2.entityId).getD ⟨entry.2.entityId, entry.1, []⟩
        if existing.userId ≠ entry.1 then throw "participant_user_mismatch"
        let delta ← calculateExposureDelta entry.2.side entry.2.priceHint entry.2.clearedSize
        if ∃ perLeg ∈ existing.perLegDeltas, perLeg.legId = entry.2.legId then
          throw "duplicate_participant_leg_allocation"
        return OrderedMap.set entry.2.entityId { existing with
          perLegDeltas := existing.perLegDeltas ++ [deltaOf entry.2 delta] } buckets) start =
            (.ok buckets : Except String _) →
      ∃ deltas : List PerLegDelta, (buckets.flatMap fun bucket => bucket.2.perLegDeltas).Perm
          ((start.flatMap fun bucket => bucket.2.perLegDeltas) ++ deltas) ∧
        List.Forall₂ (fun (entry : String × LegUpdate) perLeg => ∃ delta,
          calculateExposureDelta entry.2.side entry.2.priceHint entry.2.clearedSize = .ok delta ∧
            perLeg = deltaOf entry.2 delta) rest deltas := by
    intro rest
    induction rest with
    | nil =>
      intro start buckets hend
      cases hend
      exact ⟨[], by simp, .nil⟩
    | cons entry rest ih =>
      intro start buckets hend
      rw [foldlM_cons] at hend
      obtain ⟨next, hnext, hend⟩ := bind_eq_ok.mp hend
      obtain ⟨-, -, hnext⟩ := bind_eq_ok.mp hnext
      simp only at hnext
      split at hnext
      next => cases hnext
      next =>
        obtain ⟨delta, hdelta, hnext⟩ := bind_eq_ok.mp hnext
        split at hnext
        next => cases hnext
        next =>
          cases hnext
          obtain ⟨deltas, hperm, hdeltas⟩ := ih _ buckets hend
          have hset := @OrderedMap.perm_flatMap_set _ _ _ _ ParticipantExposure.perLegDeltas start
            entry.2.entityId
            { (start.lookup entry.2.entityId).getD ⟨entry.2.entityId, entry.1, []⟩ with
              perLegDeltas := ((start.lookup entry.2.entityId).getD
                ⟨entry.2.entityId, entry.1, []⟩).perLegDeltas ++ [deltaOf entry.2 delta] }
            ⟨entry.2.entityId, entry.1, []⟩ [deltaOf entry.2 delta] rfl rfl
          refine ⟨deltaOf entry.2 delta :: deltas, hperm.trans ?_, .cons ⟨delta, hdelta, rfl⟩
            hdeltas⟩
          have happend := hset.append_right deltas
          rwa [append_assoc, singleton_append] at happend
  obtain ⟨deltas, hperm, hdeltas⟩ := hfold updates [] buckets hbuckets
  rw [flatMap_nil, nil_append] at hperm
  refine ⟨deltas, ?_, List.forall₂_map_left_iff.mpr hdeltas⟩
  refine List.Perm.trans ?_ hperm
  rw [flatMap_map, ← flatMap_map (f := Prod.snd) (g := ParticipantExposure.perLegDeltas)]
  refine List.Perm.trans (List.Perm.flatMap_left _ fun exposure _ => Js.sortWith_perm _ _) ?_
  exact List.Perm.flatMap_right _ (Js.sortWith_perm _ _)

theorem exposureBuckets_perm (exposures : List ParticipantExposure) :
    ((exposureBuckets exposures).flatMap fun bucket => bucket.2.map Prod.snd).Perm
      (exposures.flatMap ParticipantExposure.perLegDeltas) := by
  have hfold : ∀ (legs : List (ParticipantExposure × PerLegDelta))
      (start : List ((String × String × Side) × List (String × PerLegDelta))),
      ((legs.foldl (fun buckets leg =>
          let key := (leg.1.userId, leg.2.marketId, leg.2.side)
          OrderedMap.set key ((buckets.lookup key).getD [] ++ [(leg.1.participantId, leg.2)])
            buckets) start).flatMap fun bucket => bucket.2.map Prod.snd).Perm
        ((start.flatMap fun bucket => bucket.2.map Prod.snd) ++ legs.map Prod.snd) := by
    intro legs
    induction legs with
    | nil => simp
    | cons leg rest ih =>
      intro start
      rw [foldl_cons]
      refine (ih _).trans ?_
      have hset := @OrderedMap.perm_flatMap_set _ _ _ _
        (fun perLegs : List (String × PerLegDelta) => perLegs.map Prod.snd) start
        (leg.1.userId, leg.2.marketId, leg.2.side)
        ((start.lookup (leg.1.userId, leg.2.marketId, leg.2.side)).getD [] ++
          [(leg.1.participantId, leg.2)]) [] [leg.2] rfl (by
            rw [map_append, @lawful_beq_subsingleton (String × String × Side) instBEqProd
              instBEqOfDecidableEq _ _]
            rfl)
      have happend := hset.append_right (rest.map Prod.snd)
      rwa [append_assoc, singleton_append] at happend
  refine (hfold _ []).trans (List.Perm.of_eq ?_)
  rw [flatMap_nil, nil_append, map_flatMap]
  refine flatMap_congr fun exposure _ => ?_
  rw [map_map]
  exact map_id _

theorem applyClearingExposure_journal (roundId : String) (signatures : ClearingMatchSignature)
    (db : ComboDb) (bucket : (String × String × Side) × List (String × PerLegDelta))
    (newId : String) : ∃ row, (applyClearingExposure roundId signatures db bucket newId).journal =
      db.journal ++ [row] ∧ legsOfRow row = bucket.2.map Prod.snd := by
  obtain ⟨⟨userId, marketId, side⟩, perLeg⟩ := bucket
  refine ⟨_, rfl, ?_⟩
  unfold legsOfRow
  cases selectExposure db.exposure userId marketId side <;> rfl

/-- **The journal of a round** has every leg update, once. -/
theorem applyExposureMutations_journaled {updates : List (String × LegUpdate)}
    (h : applyExposureMutations env roundId signatures updates uuid db = .ok db') :
    DeltasOf (updates.map Prod.snd) (journaledLegs db db') := by
  obtain ⟨exposures, hexposures, h⟩ := bind_eq_ok.mp h
  cases h
  obtain ⟨deltas, hperm, hdeltas⟩ := aggregateExposure_deltas hexposures
  refine ⟨deltas, List.Perm.trans ?_ hperm, hdeltas⟩
  refine List.Perm.trans (List.Perm.of_eq ?_) (exposureBuckets_perm exposures)
  have hfold : ∀ (buckets : List (((String × String × Side) × List (String × PerLegDelta)) × ℕ))
      (start : ComboDb), ∃ rows, (buckets.foldl (fun db entry =>
          applyClearingExposure roundId signatures db entry.1 (uuid entry.2)) start).journal =
        start.journal ++ rows ∧
        rows.flatMap legsOfRow = buckets.flatMap fun bucket => bucket.1.2.map Prod.snd := by
    intro buckets
    induction buckets with
    | nil => exact fun start => ⟨[], by simp⟩
    | cons bucket rest ih =>
      intro start
      obtain ⟨row, hrow, hlegs⟩ :=
        applyClearingExposure_journal roundId signatures start bucket.1 (uuid bucket.2)
      obtain ⟨rows, hrows, hrest⟩ := ih
        (applyClearingExposure roundId signatures start bucket.1 (uuid bucket.2))
      refine ⟨row :: rows, ?_, ?_⟩
      · rw [foldl_cons]
        refine hrows.trans ?_
        rw [hrow, append_assoc, singleton_append]
      · rw [flatMap_cons, flatMap_cons, hlegs, hrest]
  obtain ⟨rows, hrows, hlegs⟩ := hfold (exposureBuckets exposures).zipIdx db
  rw [journaledLegs, hrows, drop_left, hlegs, ← flatMap_map (f := Prod.fst)
    (g := fun bucket : (String × String × Side) × List (String × PerLegDelta) =>
      bucket.2.map Prod.snd), zipIdx_map_fst]

end Journal

/-! ## The legs a round clears -/

section Cleared

variable {env : ClearingEnv} {db db' : ComboDb} {plan lockedPlan : ClearingRoundPlan}
  {signatures : ClearingMatchSignature} {allocations : List ParticipantAllocation}

/-- What is taken off the legs of the participants; the row ids only go into the match rows. -/
def clearedLegs (env : ClearingEnv) (allocations : List ParticipantAllocation) :
    Except String (List LegUpdate) := do
  let matched ← allocations.mapM (matchParticipant env "" "")
  return matched.flatMap Prod.snd

/-- The legs that a round is going to clear, as its plan is rechecked before it writes. -/
def legsToClear (env : ClearingEnv) (db : ComboDb) (plan : ClearingRoundPlan)
    (signatures : ClearingMatchSignature) : Except String (List LegUpdate) := do
  let (_, allocations) ← recheckClearing env db plan signatures
  clearedLegs env allocations

theorem matchParticipant_updates {roundId participantRowId : String}
    {allocation : ParticipantAllocation} {matched : List RoundLegMatchRow × List LegUpdate}
    (h : matchParticipant env roundId participantRowId allocation = .ok matched) :
    ∃ rows, matchParticipant env "" "" allocation = .ok (rows, matched.2) := by
  obtain ⟨parts, hparts, h⟩ := bind_eq_ok.mp h
  cases h
  have hmap : ∀ (entries : SizeVector) (parts : List (RoundLegMatchRow × List LegUpdate)),
      entries.mapM (fun entry => do
        let ids ← splitLegKey entry.1
        let updates ← allocateMatchedSizeToLegs env allocation.participant.combo ids.1 ids.2 entry.2
        return ((⟨roundId, ids.1, ids.2, participantRowId, entry.2, none⟩ : RoundLegMatchRow),
          updates)) = (.ok parts : Except String _) →
      ∃ others : List (RoundLegMatchRow × List LegUpdate),
        entries.mapM (fun entry => do
          let ids ← splitLegKey entry.1
          let updates ← allocateMatchedSizeToLegs env allocation.participant.combo ids.1 ids.2
            entry.2
          return ((⟨"", ids.1, ids.2, "", entry.2, none⟩ : RoundLegMatchRow), updates)) =
            (.ok others : Except String _) ∧
        others.map Prod.snd = parts.map Prod.snd := by
    intro entries
    induction entries with
    | nil =>
      intro parts hread
      cases hread
      exact ⟨[], rfl, rfl⟩
    | cons entry rest ih =>
      intro parts hread
      rw [mapM_cons] at hread
      obtain ⟨first, hfirst, hread⟩ := bind_eq_ok.mp hread
      obtain ⟨later, hlater, hread⟩ := bind_eq_ok.mp hread
      cases hread
      obtain ⟨⟨marketId, outcomeId⟩, hsplit, hfirst⟩ := bind_eq_ok.mp hfirst
      obtain ⟨updates, hupdates, hfirst⟩ := bind_eq_ok.mp hfirst
      cases hfirst
      obtain ⟨others, hothers, hsame⟩ := ih later hlater
      refine ⟨(⟨"", marketId, outcomeId, "", entry.2, none⟩, updates) :: others, ?_, ?_⟩
      · rw [mapM_cons]
        refine bind_eq_ok.mpr ⟨_, ?_, bind_eq_ok.mpr ⟨others, hothers, rfl⟩⟩
        exact bind_eq_ok.mpr ⟨_, hsplit, bind_eq_ok.mpr ⟨updates, hupdates, rfl⟩⟩
      · rw [map_cons, map_cons, hsame]
  obtain ⟨others, hothers, hsame⟩ := hmap _ parts hparts
  refine ⟨others.map Prod.fst, bind_eq_ok.mpr ⟨others, hothers, ?_⟩⟩
  have hflat : others.flatMap Prod.snd = parts.flatMap Prod.snd := by
    rw [flatMap_def, hsame, ← flatMap_def]
  rw [hflat]
  rfl

theorem writeClearing_journaled {roundId : String} {uuid : ℕ → String}
    (h : writeClearing env roundId signatures plan allocations uuid db = .ok db') :
    ∃ updates, clearedLegs env allocations = .ok updates ∧
      DeltasOf updates (journaledLegs db db') := by
  obtain ⟨matched, hread, h⟩ := bind_eq_ok.mp h
  obtain ⟨cleared, hcleared, h⟩ := bind_eq_ok.mp h
  obtain ⟨exposed, hexposed, h⟩ := bind_eq_ok.mp h
  cases h
  refine ⟨matched.flatMap Prod.snd, ?_, ?_⟩
  · have hlength := insertRoundParticipants_length roundId (fun n => uuid (2 * n)) allocations
    have hmap : ∀ (rows : List RoundParticipantRow) (allocations : List ParticipantAllocation)
        (matched : List (List RoundLegMatchRow × List LegUpdate)),
        rows.length = allocations.length → (rows.zip allocations).mapM (fun entry =>
          matchParticipant env roundId entry.1.id entry.2) = .ok matched →
        ∃ others, allocations.mapM (matchParticipant env "" "") = .ok others ∧
          others.map Prod.snd = matched.map Prod.snd := by
      intro rows
      induction rows with
      | nil =>
        intro allocations matched hlength hread
        rw [length_nil, eq_comm, length_eq_zero_iff] at hlength
        subst hlength
        cases hread
        exact ⟨[], rfl, rfl⟩
      | cons row rest ih =>
        intro allocations matched hlength hread
        cases allocations with
        | nil => cases hlength
        | cons allocation others =>
          rw [zip_cons_cons, mapM_cons] at hread
          obtain ⟨first, hfirst, hread⟩ := bind_eq_ok.mp hread
          obtain ⟨later, hlater, hread⟩ := bind_eq_ok.mp hread
          cases hread
          obtain ⟨rows', hrows⟩ := matchParticipant_updates hfirst
          obtain ⟨laters, hlaters, hsame⟩ := ih others later (by simpa using hlength) hlater
          refine ⟨(rows', first.2) :: laters, ?_, by rw [map_cons, map_cons, hsame]⟩
          rw [mapM_cons]
          exact bind_eq_ok.mpr ⟨_, hrows, bind_eq_ok.mpr ⟨laters, hlaters, rfl⟩⟩
    obtain ⟨others, hothers, hsame⟩ := hmap _ _ _ hlength hread
    refine bind_eq_ok.mpr ⟨others, hothers, ?_⟩
    rw [flatMap_def, hsame, ← flatMap_def]
    rfl
  · have hstart : (updateComboStates allocations cleared).journal = db.journal :=
      (written_frame hcleared hexposed).2.2.1
    have hjournaled := applyExposureMutations_journaled hexposed
    rw [map_map] at hjournaled
    have hsame : journaledLegs (updateComboStates allocations cleared) exposed =
        journaledLegs db exposed := by
      unfold journaledLegs
      rw [hstart]
    rw [hsame] at hjournaled
    have hupdates : (matched.flatMap Prod.snd).map (Prod.snd ∘ fun update : LegUpdate =>
        (((allocations.find? fun allocation =>
          allocation.participant.combo.row.id = update.entityId).map fun allocation =>
            allocation.participant.combo.row.user_id).getD "", update)) =
          matched.flatMap Prod.snd := map_id _
    rw [hupdates] at hjournaled
    exact hjournaled

end Cleared

/-! ## A buyer above the seller -/

/-- Alice buys five of a market that Bob sells, each at a price hint of its own. -/
def hintedApart (bid ask : ℚ) : ComboDb :=
  opened [comboRow "alice's" "alice", comboRow "bob's" "bob"]
    [{ clearableLeg "a" "alice's" "north" .buy 5 with price_hint := some bid },
      { clearableLeg "b" "bob's" "north" .sell 5 with price_hint := some ask }]

def hintedPlan : ClearingRoundPlan :=
  { hedgedPlan with selectedGroup := { hedgedPlan.selectedGroup with uniqueLegs := ["north:yes"] } }

def clearHinted (bid ask : ℚ) : Outcome ComboDb ClearingEnd :=
  executeClearing hedgedEnv (hintedApart bid ask) hintedPlan
    (buildMatchSignatures hedgedEnv hintedPlan) "round" fun n => toString n

theorem clearHinted_committed : ∃ db' result, clearHinted (1 / 2) (1 / 2) = .committed db' result :=
  Outcome.exists_of_commits (by decide +kernel)

end LotusRfq.Combo
