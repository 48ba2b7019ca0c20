import LotusRfq.Combo.Groups

/-!
# LotusRfq — `MultiPartyClearingExecutor`: the clearing transaction

A round clears the opposing residuals of up to four combos at once. The transaction reads the
combos under their row locks and has the round recomputed: a plan that is no longer the best one
is thrown away. What a participant has matched of an outcome goes off its legs of the matching
side, and into the exposures of its user. The signature of the round keeps it from being applied
twice.

* **`executeClearing_committed`** — what a transaction that commits has taken off the legs.
-/

namespace LotusRfq.Combo

open Tables List

/-! ## Participants -/

structure ParticipantState where
  combo : LoadedCombo
  vector : ResidualVector
  deriving DecidableEq

/-- A participant as it was loaded: it must be clearable and have something left. -/
def toParticipant (participantId : String) : Option LoadedCombo → Except String ParticipantState
  | none => .error ("missing_clearing_participant:" ++ participantId)
  | some combo =>
    if ¬ isClearableState combo.row.state then
      .error ("invalid_clearing_participant_state:" ++ participantId)
    else (buildResidualVector combo).map fun vector => ⟨combo, vector⟩

def loadParticipants (db : ComboDb) (participantIds : List String) :
    Except String (List ParticipantState) :=
  participantIds.mapM fun participantId => toParticipant participantId (loadCombo db participantId)

/-! ## The round -/

structure ClearingRoundPlan where
  compatibilityBucket : String
  selectedGroup : CandidateGroup
  score : ClearingCompressionScore
  residuals : SizeVector
  participantLockOrder : List String
  deriving DecidableEq

structure ClearingMatchSignature where
  participantSetHash : String
  matchSignatureHash : String
  deriving DecidableEq

structure MatchSignatureInput where
  compatibilityBucket : String
  participantIds : List String
  uniqueLegs : List String
  residuals : SizeVector
  finalScore : ℚ
  postNetAbsResidual : ℚ
  deriving DecidableEq

/-- What the executor leans on: the two hashes and the comparison of strings. -/
structure ClearingEnv where
  hashParticipants : String → String
  hashMatch : MatchSignatureInput → String
  localeCompare : String → String → Ordering

/-- The round as it is recomputed from the participants; it has to be the plan's. -/
def revalidateRoundPlan (env : ClearingEnv) (roundPlan : ClearingRoundPlan)
    (participants : List ParticipantState) : Except String ClearingRoundPlan :=
  if ¬ (participants ≠ [] ∧ ∀ participant ∈ participants,
      participant.vector.compatibilityBucket = roundPlan.compatibilityBucket) then
    .error "compatibility_bucket_mismatch"
  else do
    let scored ← scoredGroups env.localeCompare DEFAULT_ENUMERATOR_CONFIG
      (participants.map ParticipantState.vector)
    match Js.sortWith (compareScores env.localeCompare) scored with
    | [] => .error "round_plan_invalidated"
    | (group, score) :: _ =>
      if group.participantIds ≠ roundPlan.selectedGroup.participantIds ∨
          group.uniqueLegs ≠ roundPlan.selectedGroup.uniqueLegs ∨
          group.residualAfterNetting ≠ roundPlan.residuals then
        .error "round_plan_invalidated"
      else
        .ok { roundPlan with
          selectedGroup := group
          score := score
          residuals := group.residualAfterNetting }

def buildMatchSignatures (env : ClearingEnv) (roundPlan : ClearingRoundPlan) :
    ClearingMatchSignature :=
  let sorted := Js.sortWith env.localeCompare roundPlan.selectedGroup.participantIds
  { participantSetHash := env.hashParticipants (String.intercalate "|" sorted)
    matchSignatureHash := env.hashMatch
      { compatibilityBucket := roundPlan.compatibilityBucket
        participantIds := sorted
        uniqueLegs := Js.sortWith env.localeCompare roundPlan.selectedGroup.uniqueLegs
        residuals := Js.sortWith (fun left right => env.localeCompare left.1 right.1)
          roundPlan.selectedGroup.residualAfterNetting
        finalScore := roundPlan.score.finalScore
        postNetAbsResidual := roundPlan.score.postNetAbsResidual } }

/-! ## What each participant has matched -/

/-- A participant's part of one outcome: what it has matched and what it keeps. -/
structure KeyShare where
  entityId : String
  matched : ℚ
  residual : ℚ

/-- The contributors of the residual's sign keep it, the oldest first; what is left over of it is
returned. -/
def keepResidual (residualIsPositive : Bool) : ℚ → List (String × ℚ) → List KeyShare × ℚ
  | residualToAssign, [] => ([], residualToAssign)
  | residualToAssign, (entityId, original) :: rest =>
    if decide (0 < original) ≠ residualIsPositive then
      let (shares, left) := keepResidual residualIsPositive residualToAssign rest
      (⟨entityId, original, 0⟩ :: shares, left)
    else
      let keepAmount := min |original| residualToAssign
      let signed (x : ℚ) : ℚ := if 0 < original then x else -x
      let (shares, left) := keepResidual residualIsPositive (residualToAssign - keepAmount) rest
      (⟨entityId, signed (|original| - keepAmount), signed keepAmount⟩ :: shares, left)

def shareKey (groupResidual : ℚ) (contributors : List (String × ℚ)) :
    Except String (List KeyShare) :=
  if contributors = [] then
    if groupResidual = 0 then .ok [] else .error "invalid_clearing_residual_signature"
  else if groupResidual = 0 then
    .ok (contributors.map fun (entityId, original) => ⟨entityId, original, 0⟩)
  else
    let (shares, left) := keepResidual (0 < groupResidual) |groupResidual| contributors
    if left ≠ 0 then .error "invalid_clearing_residual_signature" else .ok shares

/-- The participants of a group that have a size of an outcome, the oldest first. -/
def contributorsOf (env : ClearingEnv) (participants : List ParticipantState) (key : String) :
    List (String × ℚ) :=
  let contributors := participants.filter fun participant =>
    (participant.vector.vector.lookup key).getD 0 ≠ 0
  (Js.sortWith (fun left right : ParticipantState =>
      (compareOfLessAndEq left.combo.row.created_at right.combo.row.created_at).then
        (env.localeCompare left.combo.row.id right.combo.row.id)) contributors).map
    fun participant =>
      (participant.combo.row.id, (participant.vector.vector.lookup key).getD 0)

structure ParticipantAllocation where
  participant : ParticipantState
  matchedVector : SizeVector
  residualVector : SizeVector
  deriving DecidableEq

/-- A participant's entries of the outcomes, those that are zero left out. -/
def sharesOf (entityId : String) (part : KeyShare → ℚ)
    (shares : List (String × List KeyShare)) : SizeVector :=
  shares.filterMap fun (key, keyShares) =>
    match keyShares.find? fun share => share.entityId = entityId with
    | none => none
    | some share => if part share = 0 then none else some (key, part share)

def allocateParticipantResiduals (env : ClearingEnv) (group : CandidateGroup)
    (participants : List ParticipantState) (groupResiduals : SizeVector) :
    Except String (List ParticipantAllocation) := do
  let members ← group.participantIds.mapM fun participantId =>
    match participants.find? fun participant => participant.combo.row.id = participantId with
    | none => throw "participant_vector_mismatch"
    | some participant => return participant
  let keys := Js.sortWith env.localeCompare (group.uniqueLegs.foldl OrderedMap.addNew [])
  let shares ← keys.mapM fun key => do
    let keyShares ← shareKey ((groupResiduals.reverse.lookup key).getD 0)
      (contributorsOf env members key)
    return (key, keyShares)
  return members.map fun participant =>
    ⟨participant, sharesOf participant.combo.row.id KeyShare.matched shares,
      sharesOf participant.combo.row.id KeyShare.residual shares⟩

/-! ## Off the legs -/

structure LegUpdate where
  legId : String
  entityId : String
  marketId : String
  outcomeId : String
  side : Side
  clearedSize : ℚ
  priceHint : ℚ
  deriving DecidableEq

/-- `key.split(":")`, of which the first two parts are read. -/
def splitLegKey (key : String) : Except String (String × String) :=
  match (key.toList.splitOn ':').map String.ofList with
  | marketId :: outcomeId :: _ =>
    if marketId = "" ∨ outcomeId = "" then .error "invalid_clearing_leg_key"
    else .ok (marketId, outcomeId)
  | _ => .error "invalid_clearing_leg_key"

/-- The matched size over the legs in turn; what is left over of it is returned. -/
def takeFromLegs (entityId : String) : ℚ → List LegRow → Except String (List LegUpdate × ℚ)
  | remainingToAllocate, [] => .ok ([], remainingToAllocate)
  | remainingToAllocate, leg :: rest =>
    let cleared := min leg.remaining_size remainingToAllocate
    if remainingToAllocate = 0 then .ok ([], 0)
    else if 0 < cleared then
      match leg.price_hint with
      | none => .error "missing_clearing_leg_price_hint"
      | some priceHint => do
        let (updates, left) ← takeFromLegs entityId (remainingToAllocate - cleared) rest
        return (⟨leg.id, entityId, leg.canonical_market_id, leg.canonical_outcome_id, leg.side,
          cleared, priceHint⟩ :: updates, left)
    else takeFromLegs entityId remainingToAllocate rest

def allocateMatchedSizeToLegs (env : ClearingEnv) (combo : LoadedCombo)
    (marketId outcomeId : String) (matchedSigned : ℚ) : Except String (List LegUpdate) := do
  let side : Side := if 0 < matchedSigned then .buy else .sell
  let legs := Js.sortWith (fun left right => env.localeCompare left.id right.id)
    (combo.legs.filter fun leg => leg.canonical_market_id = marketId ∧
      leg.canonical_outcome_id = outcomeId ∧ leg.side = side)
  if legs = [] then throw "missing_clearing_leg_allocation"
  let (updates, left) ← takeFromLegs combo.row.id |matchedSigned| legs
  if left ≠ 0 then throw "unallocated_clearing_size"
  return updates

def insertRoundParticipants (roundId : String) (uuid : ℕ → String)
    (allocations : List ParticipantAllocation) : List RoundParticipantRow :=
  allocations.zipIdx.map fun (allocation, n) =>
    { id := uuid n
      clearing_round_id := roundId
      combo_or_order_id := allocation.participant.combo.row.id
      participant_user_id := allocation.participant.combo.row.user_id
      role := "MATCHED"
      original_remaining := allocation.participant.vector.vector
      matched_remaining := allocation.matchedVector }

def matchParticipant (env : ClearingEnv) (roundId participantRowId : String)
    (allocation : ParticipantAllocation) :
    Except String (List RoundLegMatchRow × List LegUpdate) := do
  let matched := Js.sortWith (fun left right => env.localeCompare left.1 right.1)
    allocation.matchedVector
  let parts ← matched.mapM fun (key, matchedSigned) => do
    let (marketId, outcomeId) ← splitLegKey key
    let updates ← allocateMatchedSizeToLegs env allocation.participant.combo marketId outcomeId
      matchedSigned
    return ((⟨roundId, marketId, outcomeId, participantRowId, matchedSigned, none⟩ :
      RoundLegMatchRow), updates)
  return (parts.map Prod.fst, parts.flatMap Prod.snd)

/-- The updates, each on the leg as the ones before have left it. -/
def applyLegUpdates (updates : List LegUpdate) (db : ComboDb) : Except String ComboDb :=
  updates.foldlM
    (fun db update => updateLeg db update.legId fun remaining => remaining - update.clearedSize) db

def deriveResidualStateFromVector (residualVector : SizeVector) : ComboState :=
  if ∃ entry ∈ residualVector, entry.2 ≠ 0 then .PARTIALLY_EXECUTED else .EXECUTED

def updateComboStates (allocations : List ParticipantAllocation) (db : ComboDb) : ComboDb :=
  allocations.foldl (fun db allocation => updateComboState db allocation.participant.combo.row.id
    (deriveResidualStateFromVector allocation.residualVector)) db

/-! ## Exposure -/

/-- `validateAllocation`; the user comes with the update. -/
def validateAllocation (userId : String) (update : LegUpdate) : Except String Unit :=
  if ¬ Js.hasText update.entityId then .error "participant_id_required"
  else if ¬ Js.hasText userId then .error "user_id_required"
  else if ¬ Js.hasText update.legId then .error "leg_id_required"
  else if ¬ (Js.hasText update.marketId ∧ Js.hasText update.outcomeId) then
    .error "market_outcome_required"
  else if update.clearedSize < 0 then .error "negative_matched_size"
  else if update.clearedSize = 0 then .error "invalid_matched_size"
  else .ok ()

structure ParticipantExposure where
  participantId : String
  userId : String
  perLegDeltas : List PerLegDelta

/-- `MultiPartyExposureAggregator.aggregate`: the deltas of each participant's legs. -/
def aggregateExposure (env : ClearingEnv) (updates : List (String × LegUpdate)) :
    Except String (List ParticipantExposure) := do
  let buckets : List (String × ParticipantExposure) ← updates.foldlM
    (fun buckets (userId, update) => do
      validateAllocation userId update
      let existing := (buckets.lookup update.entityId).getD ⟨update.entityId, userId, []⟩
      if existing.userId ≠ userId then throw "participant_user_mismatch"
      let delta ← calculateExposureDelta update.side update.priceHint update.clearedSize
      if ∃ perLeg ∈ existing.perLegDeltas, perLeg.legId = update.legId then
        throw "duplicate_participant_leg_allocation"
      return OrderedMap.set update.entityId { existing with
        perLegDeltas := existing.perLegDeltas ++ [
          { legId := update.legId
            marketId := update.marketId
            outcomeId := update.outcomeId
            side := update.side
            price := update.priceHint
            matchedSize := update.clearedSize
            maxLossDelta := delta.maxLossDelta
            maxGainDelta := delta.maxGainDelta }] } buckets) []
  let sorted := Js.sortWith
    (fun left right => env.localeCompare left.participantId right.participantId)
    (buckets.map Prod.snd)
  return sorted.map fun exposure => { exposure with
    perLegDeltas := Js.sortWith
      (fun left right => (env.localeCompare left.marketId right.marketId).then <|
        (env.localeCompare left.outcomeId right.outcomeId).then <|
        env.localeCompare left.legId right.legId) exposure.perLegDeltas }

def exposureBuckets (exposures : List ParticipantExposure) :
    List ((String × String × Side) × List (String × PerLegDelta)) :=
  (exposures.flatMap fun exposure =>
    exposure.perLegDeltas.map fun perLeg => (exposure, perLeg)).foldl
    (fun buckets (exposure, perLeg) =>
      let key := (exposure.userId, perLeg.marketId, perLeg.side)
      OrderedMap.set key ((buckets.lookup key).getD [] ++ [(exposure.participantId, perLeg)])
        buckets) []

def applyClearingExposure (roundId : String) (signatures : ClearingMatchSignature) (db : ComboDb)
    (bucket : (String × String × Side) × List (String × PerLegDelta)) (newId : String) : ComboDb :=
  let ((userId, marketId, side), perLeg) := bucket
  let grossDelta := (perLeg.map fun leg => leg.2.maxLossDelta).sum
  let netDelta := (perLeg.map fun leg => leg.2.maxGainDelta - leg.2.maxLossDelta).sum
  let (exposure, entry) := applyExposure db.exposure userId marketId side grossDelta netDelta newId
    "combo-multi-party-clearing" roundId
    (ComboPayload.clearing roundId signatures.participantSetHash signatures.matchSignatureHash
      marketId side grossDelta (perLeg.map fun leg => leg.2.maxGainDelta).sum perLeg)
  { db with exposure := exposure, journal := db.journal ++ [entry] }

def applyExposureMutations (env : ClearingEnv) (roundId : String)
    (signatures : ClearingMatchSignature) (updates : List (String × LegUpdate)) (uuid : ℕ → String)
    (db : ComboDb) : Except String ComboDb := do
  let exposures ← aggregateExposure env updates
  return (exposureBuckets exposures).zipIdx.foldl
    (fun db (bucket, n) => applyClearingExposure roundId signatures db bucket (uuid n)) db

/-! ## The transaction -/

structure ClearingApplied where
  clearingRoundId : String
  participants : List ParticipantAllocation

/-- What the transaction tells its caller when it does not throw. A conflict comes with the round
id to fall back on, if there is one. -/
inductive ClearingEnd where
  | applied (result : ClearingApplied)
  | conflict (fallback : Option String)

def insertClearingRound (db : ComboDb) (row : ClearingRoundRow) : Except String (Option ComboDb) :=
  if row.participant_count = 0 ∨ 4 < row.participant_count ∨ row.unique_leg_count = 0 ∨
      6 < row.unique_leg_count ∨ row.compression_score < 0 then
    .error "clearing_rounds: check constraint"
  else if ∃ round ∈ db.rounds, round.participant_set_hash = row.participant_set_hash ∧
      round.match_signature_hash = row.match_signature_hash then
    .ok none
  else if ∃ round ∈ db.rounds, round.id = row.id then .error "clearing_rounds: primary key"
  else .ok (some { db with rounds := db.rounds ++ [row] })

/-- The writes of a round that is new: participants, matches, legs, states, exposures, event.
`uuid n` is the row id of participant `n` for even places, of a new exposure row for odd ones. -/
def writeClearing (env : ClearingEnv) (roundId : String) (signatures : ClearingMatchSignature)
    (plan : ClearingRoundPlan) (allocations : List ParticipantAllocation) (uuid : ℕ → String)
    (db : ComboDb) : Except String ComboDb := do
  let participantRows := insertRoundParticipants roundId (fun n => uuid (2 * n)) allocations
  let matched ← (participantRows.zip allocations).mapM fun (row, allocation) =>
    matchParticipant env roundId row.id allocation
  let updates := matched.flatMap Prod.snd
  let db := { db with
    roundParticipants := db.roundParticipants ++ participantRows
    roundLegMatches := db.roundLegMatches ++ matched.flatMap Prod.fst }
  let db ← applyLegUpdates updates db
  let db := updateComboStates allocations db
  let userOf (entityId : String) : String :=
    ((allocations.find? fun allocation => allocation.participant.combo.row.id = entityId).map
      fun allocation => allocation.participant.combo.row.user_id).getD ""
  let db ← applyExposureMutations env roundId signatures
    (updates.map fun update => (userOf update.entityId, update)) (fun n => uuid (2 * n + 1)) db
  return { db with
    roundEvents := db.roundEvents ++ [
      { clearing_round_id := roundId
        event_type := "CLEARING_APPLIED"
        participantSetHash := signatures.participantSetHash
        matchSignatureHash := signatures.matchSignatureHash
        participantIds := plan.selectedGroup.participantIds
        uniqueLegs := plan.selectedGroup.uniqueLegs
        residuals := plan.residuals
        finalScore := plan.score.finalScore
        participants := allocations.map fun allocation =>
          ⟨allocation.participant.combo.row.id, allocation.participant.combo.row.user_id,
            allocation.matchedVector, allocation.residualVector⟩ }] }

def recheckClearing (env : ClearingEnv) (db : ComboDb) (plan : ClearingRoundPlan)
    (signatures : ClearingMatchSignature) :
    Except String (ClearingRoundPlan × List ParticipantAllocation) := do
  let participants ← loadParticipants db plan.participantLockOrder
  let lockedPlan ← revalidateRoundPlan env plan participants
  let allocations ← allocateParticipantResiduals env lockedPlan.selectedGroup participants
    lockedPlan.residuals
  if buildMatchSignatures env lockedPlan ≠ signatures then throw "round_plan_invalidated"
  return (lockedPlan, allocations)

/-- `executeTransaction`; `roundId` is the id of the new round. -/
def executeClearing (env : ClearingEnv) (db : ComboDb) (plan : ClearingRoundPlan)
    (signatures : ClearingMatchSignature) (roundId : String) (uuid : ℕ → String) :
    Outcome ComboDb ClearingEnd :=
  match recheckClearing env db plan signatures with
  | .error error => .aborted error
  | .ok (lockedPlan, allocations) =>
    match insertClearingRound db
      { id := roundId
        compatibility_bucket := plan.compatibilityBucket
        state := "MATCHED"
        participant_count := lockedPlan.selectedGroup.participantIds.length
        unique_leg_count := lockedPlan.selectedGroup.uniqueLegs.length
        compression_score := lockedPlan.score.finalScore
        participant_set_hash := signatures.participantSetHash
        match_signature_hash := signatures.matchSignatureHash } with
    | .error error => .aborted error
    | .ok none => .rolledBack (.conflict none)
    | .ok (some db) =>
      match registerExposureIdempotency db signatures.matchSignatureHash with
      | none => .rolledBack (.conflict (some roundId))
      | some db =>
        match writeClearing env roundId signatures lockedPlan allocations uuid db with
        | .error error => .aborted error
        | .ok db => .committed db (.applied ⟨roundId, allocations⟩)

/-! ## What a commit has taken off the legs -/

/-- Only legs of these combos have changed, their sizes not, and none is below zero that was
not. -/
structure ChangesOnly (participantIds : List String) (legs legs' : List LegRow) : Prop where
  ids : legs'.map LegRow.id = legs.map LegRow.id
  from_leg : ∀ leg' ∈ legs', ∃ leg ∈ legs, leg.id = leg'.id ∧ leg.size = leg'.size ∧
    leg.combo_rfq_id = leg'.combo_rfq_id ∧ (leg.combo_rfq_id ∉ participantIds → leg' = leg)
  nonneg : (∀ leg ∈ legs, 0 ≤ leg.remaining_size) → ∀ leg' ∈ legs', 0 ≤ leg'.remaining_size

theorem ChangesOnly.refl (participantIds : List String) (legs : List LegRow) :
    ChangesOnly participantIds legs legs :=
  ⟨rfl, fun leg hleg => ⟨leg, hleg, rfl, rfl, rfl, fun _ => rfl⟩, fun h => h⟩

variable {db db' : ComboDb} {updates : List LegUpdate} {update : LegUpdate} {env : ClearingEnv}
  {roundId : String} {signatures : ClearingMatchSignature} {plan : ClearingRoundPlan}
  {allocations : List ParticipantAllocation} {uuid : ℕ → String}

theorem ChangesOnly.updateLeg {participantIds : List String} {legs : List LegRow} {legId : String}
    {f : ℚ → ℚ} (hids : (legs.map LegRow.id).Nodup)
    (hleg : ∃ leg ∈ legs, leg.id = legId ∧ leg.combo_rfq_id ∈ participantIds)
    (h : ChangesOnly participantIds legs db.legs) (hupdate : Combo.updateLeg db legId f = .ok db') :
    ChangesOnly participantIds legs db'.legs := by
  obtain ⟨hcheck, rfl⟩ := updateLeg_ok hupdate
  obtain ⟨target, htarget, htargetId, htargetCombo⟩ := hleg
  refine ⟨?_, fun leg' hleg' => ?_, fun hnonneg leg' hleg' => ?_⟩
  · rw [← h.ids]
    refine map_update legId ?_ db.legs
    exact fun _ => rfl
  · rcases mem_update.mp hleg' with ⟨old, hold, hid, rfl⟩ | ⟨hold, -⟩
    · obtain ⟨leg, hmem, hlegId, hsize, hcombo, -⟩ := h.from_leg old hold
      refine ⟨leg, hmem, hlegId, hsize, hcombo, fun hnot => absurd ?_ hnot⟩
      rw [eq_of_key hids hmem htarget (hlegId.trans (hid.trans htargetId.symm))]
      exact htargetCombo
    · exact h.from_leg leg' hold
  · rcases mem_update.mp hleg' with ⟨old, hold, hid, rfl⟩ | ⟨hold, -⟩
    · exact hcheck old hold hid
    · exact h.nonneg hnonneg leg' hold

theorem takeFromLegs_mem {entityId : String} {remainingToAllocate left : ℚ} {legs : List LegRow}
    (h : takeFromLegs entityId remainingToAllocate legs = .ok (updates, left))
    (hupdate : update ∈ updates) : ∃ leg ∈ legs, leg.id = update.legId := by
  induction legs generalizing remainingToAllocate updates left with
  | nil =>
    cases h
    cases hupdate
  | cons leg rest ih =>
    rw [takeFromLegs] at h
    simp only at h
    split at h
    next =>
      cases h
      cases hupdate
    next =>
      split at h
      next =>
        split at h
        next => cases h
        next =>
          obtain ⟨⟨others, left'⟩, hrest, h⟩ := bind_eq_ok.mp h
          cases h
          rcases mem_cons.mp hupdate with rfl | hmem
          · exact ⟨leg, mem_cons_self, rfl⟩
          · obtain ⟨other, hother, heq⟩ := ih hrest hmem
            exact ⟨other, mem_cons_of_mem _ hother, heq⟩
      next =>
        obtain ⟨other, hother, heq⟩ := ih h hupdate
        exact ⟨other, mem_cons_of_mem _ hother, heq⟩

theorem allocateMatchedSizeToLegs_mem {combo : LoadedCombo} {marketId outcomeId : String}
    {matchedSigned : ℚ}
    (h : allocateMatchedSizeToLegs env combo marketId outcomeId matchedSigned = .ok updates)
    (hupdate : update ∈ updates) : ∃ leg ∈ combo.legs, leg.id = update.legId := by
  unfold allocateMatchedSizeToLegs at h
  extract_lets side legs at h
  split at h
  next => cases h
  next =>
    obtain ⟨⟨taken, left⟩, htaken, h⟩ := bind_eq_ok.mp h
    simp only at h
    split at h
    next => cases h
    next =>
      cases h
      obtain ⟨leg, hleg, heq⟩ := takeFromLegs_mem htaken hupdate
      exact ⟨leg, (mem_filter.mp (Js.mem_sortWith.mp hleg)).1, heq⟩

theorem matchParticipant_mem {participantRowId : String} {allocation : ParticipantAllocation}
    {matched : List RoundLegMatchRow × List LegUpdate}
    (h : matchParticipant env roundId participantRowId allocation = .ok matched)
    (hupdate : update ∈ matched.2) :
    ∃ leg ∈ allocation.participant.combo.legs, leg.id = update.legId := by
  obtain ⟨parts, hparts, h⟩ := bind_eq_ok.mp h
  cases h
  obtain ⟨part, hpart, hmem⟩ := mem_flatMap.mp hupdate
  obtain ⟨⟨key, matchedSigned⟩, -, hread⟩ := mem_of_mapM hparts hpart
  obtain ⟨⟨marketId, outcomeId⟩, -, hread⟩ := bind_eq_ok.mp hread
  obtain ⟨updates, hupdates, hread⟩ := bind_eq_ok.mp hread
  cases hread
  exact allocateMatchedSizeToLegs_mem hupdates hmem

/-- The allocations are of participants that were loaded, each under an id of the lock order. -/
theorem recheckClearing_loaded {lockedPlan : ClearingRoundPlan}
    (h : recheckClearing env db plan signatures = .ok (lockedPlan, allocations))
    {allocation : ParticipantAllocation} (hallocation : allocation ∈ allocations) :
    ∃ participantId ∈ plan.participantLockOrder,
      loadCombo db participantId = some allocation.participant.combo := by
  obtain ⟨participants, hparticipants, h⟩ := bind_eq_ok.mp h
  obtain ⟨revalidated, -, h⟩ := bind_eq_ok.mp h
  obtain ⟨allocated, hallocated, h⟩ := bind_eq_ok.mp h
  have heq : allocations = allocated := by
    simp only at h
    split at h
    next => cases h
    next => cases h; rfl
  rw [heq] at hallocation
  obtain ⟨members, hmembers, hallocated⟩ := bind_eq_ok.mp hallocated
  obtain ⟨shares, -, hallocated⟩ := bind_eq_ok.mp hallocated
  cases hallocated
  obtain ⟨participant, hmember, rfl⟩ := mem_map.mp hallocation
  obtain ⟨participantId, -, hfound⟩ := mem_of_mapM hmembers hmember
  split at hfound
  next => cases hfound
  next found hfind =>
    cases hfound
    obtain ⟨loadedId, hloadedId, hloaded⟩ :=
      mem_of_mapM hparticipants (mem_of_find?_eq_some hfind)
    refine ⟨loadedId, hloadedId, ?_⟩
    unfold toParticipant at hloaded
    split at hloaded
    next => cases hloaded
    next combo hcombo =>
      split at hloaded
      next => cases hloaded
      next =>
        rw [hcombo]
        cases hvector : buildResidualVector combo with
        | error error => simp [hvector, Except.map] at hloaded
        | ok vector =>
          simp only [hvector, Except.map, Except.ok.injEq] at hloaded
          rw [← hloaded]

/-! ### What each write leaves alone -/

theorem applyLegUpdates_frame (h : applyLegUpdates updates db = .ok db') :
    db' = { db with legs := db'.legs } := by
  refine foldlM_invariant (P := fun current => current = { db with legs := current.legs }) ?_ rfl h
  intro current update _ next hcurrent hupdate
  obtain ⟨-, rfl⟩ := updateLeg_ok hupdate
  rw [hcurrent]

theorem updateComboStates_frame (allocations : List ParticipantAllocation) (db : ComboDb) :
    updateComboStates allocations db =
      { db with combos := (updateComboStates allocations db).combos } := by
  induction allocations generalizing db with
  | nil => rfl
  | cons allocation rest ih => exact ih _

theorem applyExposureMutations_frame {updates : List (String × LegUpdate)}
    (h : applyExposureMutations env roundId signatures updates uuid db = .ok db') :
    db' = { db with exposure := db'.exposure, journal := db'.journal } := by
  obtain ⟨exposures, -, hmutated⟩ := bind_eq_ok.mp h
  clear h
  cases hmutated
  induction (exposureBuckets exposures).zipIdx generalizing db with
  | nil => rfl
  | cons bucket rest ih => exact ih

theorem insertClearingRound_frame {row : ClearingRoundRow}
    (h : insertClearingRound db row = .ok (some db')) :
    (∀ round ∈ db.rounds, ¬ (round.participant_set_hash = row.participant_set_hash ∧
      round.match_signature_hash = row.match_signature_hash)) ∧
      db' = { db with rounds := db.rounds ++ [row] } := by
  unfold insertClearingRound at h
  split at h
  next => cases h
  next =>
    split at h
    next => cases h
    next hnew =>
      split at h
      next => cases h
      next =>
        cases h
        exact ⟨fun round hround hsame => hnew ⟨round, hround, hsame⟩, rfl⟩

theorem registerExposureIdempotency_frame {hash : String}
    (h : registerExposureIdempotency db hash = some db') :
    db' = { db with exposureIdempotency := db'.exposureIdempotency } := by
  unfold registerExposureIdempotency at h
  split at h
  next => cases h
  next => cases h; rfl

theorem registered_frame {inserted registered : ComboDb} {row : ClearingRoundRow} {hash : String}
    (hinserted : insertClearingRound db row = .ok (some inserted))
    (hregistered : registerExposureIdempotency inserted hash = some registered) :
    registered.legs = db.legs ∧ registered.combos = db.combos ∧ registered.journal = db.journal ∧
      registered.rounds = db.rounds ++ [row] := by
  rw [registerExposureIdempotency_frame hregistered, (insertClearingRound_frame hinserted).2]
  exact ⟨rfl, rfl, rfl, rfl⟩

theorem written_frame {exposures : List (String × LegUpdate)} {start cleared exposed : ComboDb}
    (hcleared : applyLegUpdates updates start = .ok cleared)
    (hexposed : applyExposureMutations env roundId signatures exposures uuid (updateComboStates
      allocations cleared) = .ok exposed) :
    exposed.legs = cleared.legs ∧
      exposed.combos = (updateComboStates allocations cleared).combos ∧
      (updateComboStates allocations cleared).journal = start.journal ∧
      exposed.rounds = start.rounds ∧ cleared.combos = start.combos := by
  rw [applyExposureMutations_frame hexposed, updateComboStates_frame,
    applyLegUpdates_frame hcleared]
  exact ⟨rfl, rfl, rfl, rfl, rfl⟩

/-- The writes of a round change the legs by its leg updates only, and these are of legs of the
allocations. -/
theorem writeClearing_legs
    (h : writeClearing env roundId signatures plan allocations uuid db = .ok db') :
    ∃ updates start cleared, applyLegUpdates updates start = .ok cleared ∧
      start.legs = db.legs ∧ db'.legs = cleared.legs ∧
      ∀ update ∈ updates, ∃ allocation ∈ allocations,
        ∃ leg ∈ allocation.participant.combo.legs, leg.id = update.legId := by
  obtain ⟨matched, hmatched, h⟩ := bind_eq_ok.mp h
  obtain ⟨cleared, hcleared, h⟩ := bind_eq_ok.mp h
  obtain ⟨exposed, hexposed, h⟩ := bind_eq_ok.mp h
  cases h
  refine ⟨matched.flatMap Prod.snd, _, cleared, hcleared, rfl, ?_, fun update hupdate => ?_⟩
  · exact (written_frame hcleared hexposed).1
  · obtain ⟨part, hpart, hmem⟩ := mem_flatMap.mp hupdate
    obtain ⟨⟨row, allocation⟩, hzip, hread⟩ := mem_of_mapM hmatched hpart
    exact ⟨allocation, (of_mem_zip hzip).2, matchParticipant_mem hread hmem⟩

theorem executeClearing_ok {result : ClearingEnd}
    (h : executeClearing env db plan signatures roundId uuid = .committed db' result) :
    ∃ lockedPlan allocations inserted registered,
      recheckClearing env db plan signatures = .ok (lockedPlan, allocations) ∧
      insertClearingRound db
        { id := roundId
          compatibility_bucket := plan.compatibilityBucket
          state := "MATCHED"
          participant_count := lockedPlan.selectedGroup.participantIds.length
          unique_leg_count := lockedPlan.selectedGroup.uniqueLegs.length
          compression_score := lockedPlan.score.finalScore
          participant_set_hash := signatures.participantSetHash
          match_signature_hash := signatures.matchSignatureHash } = .ok (some inserted) ∧
      registerExposureIdempotency inserted signatures.matchSignatureHash = some registered ∧
      writeClearing env roundId signatures lockedPlan allocations uuid registered = .ok db' ∧
      result = .applied ⟨roundId, allocations⟩ := by
  unfold executeClearing at h
  split at h
  next => cases h
  next lockedPlan allocations hrecheck =>
    split at h
    next => cases h
    next => cases h
    next inserted hinserted =>
      split at h
      next => cases h
      next registered hregistered =>
        split at h
        next => cases h
        next written hwritten =>
          cases h
          exact ⟨lockedPlan, allocations, inserted, registered, hrecheck, hinserted, hregistered,
            hwritten, rfl⟩

/-- **What a commit has taken off the legs** are legs of the plan's participants, and none of them
is below zero. -/
theorem executeClearing_committed {result : ClearingEnd} (hids : (db.legs.map LegRow.id).Nodup)
    (h : executeClearing env db plan signatures roundId uuid = .committed db' result) :
    ChangesOnly plan.participantLockOrder db.legs db'.legs := by
  obtain ⟨lockedPlan, allocations, inserted, registered, hrecheck, hinserted, hregistered, hwritten,
    -⟩ := executeClearing_ok h
  obtain ⟨updates, start, cleared, hcleared, hstart, hend, hupdates⟩ := writeClearing_legs hwritten
  have hlegs : start.legs = db.legs := hstart.trans (registered_frame hinserted hregistered).1
  rw [hend]
  refine foldlM_invariant (P := fun current : ComboDb =>
    ChangesOnly plan.participantLockOrder db.legs current.legs) ?_ (hlegs ▸ .refl _ _) hcleared
  intro current update hupdate next hcurrent hstep
  -- the leg of the update is one of a participant that was loaded
  obtain ⟨allocation, hallocation, leg, hleg, hid⟩ := hupdates update hupdate
  obtain ⟨participantId, hparticipant, hloaded⟩ := recheckClearing_loaded hrecheck hallocation
  rw [(loadCombo_some hloaded).2.2, mem_selectLegs] at hleg
  exact hcurrent.updateLeg hids ⟨leg, hleg.1, hid, hleg.2 ▸ hparticipant⟩ hstep

end LotusRfq.Combo
