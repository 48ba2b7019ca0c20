import LotusRfq.Combo.Compatibility

/-!
# LotusRfq — one netting transaction of `MultiLegInternalNettingEngine`

The transaction on two combos: both are read under their row locks, checked and paired again,
and one size, the smallest that every pair has on both sides, goes off each leg of each pair,
into the pair's match row, into the group of the two combos and into both users' exposures. The
hash of what it is about to do keeps it from being done twice.

* **`executeNettingTransaction_committed`** — what a transaction that commits has written.
-/

namespace LotusRfq.Combo

/-! ## What is netted -/

structure MatchedPair where
  incomingLeg : LegRow
  candidateLeg : LegRow
  nettableSize : ℚ
  price : ℚ

def toCompatibilityInput (combo : LoadedCombo) : CompatibilityInput :=
  { id := combo.row.id
    userId := combo.row.user_id
    legs := (combo.legs.filter fun leg => 0 < leg.remaining_size).map fun leg =>
      { id := leg.id
        canonicalMarketId := leg.canonical_market_id
        canonicalOutcomeId := leg.canonical_outcome_id
        side := leg.side
        quantity := leg.remaining_size
        priceHint := leg.price_hint } }

/-- The one resolution profile of the legs with something left, if any names one. -/
def resolveComboResolutionProfileId (combo : LoadedCombo) : Except String (Option String) :=
  let values := (combo.legs.filter fun leg => 0 < leg.remaining_size).filterMap fun leg =>
    leg.metadata.bind (·.resolution_profile_id)
  if ∃ value ∈ values, ¬ Js.hasText value then .error "invalid_resolution_profile_id"
  else
    match values.foldl OrderedMap.addNew [] with
    | [] => .ok none
    | [profileId] => .ok (some profileId)
    | _ => .error "ambiguous_resolution_profile_id"

/-- `isSafe` is the answer of the eligibility service, should it be asked. -/
def isResolutionEligible (eligibilityService : Bool) (incomingCombo candidateCombo : LoadedCombo)
    (pairs : List MatchedLegPair) (isSafe : Except String Bool) : Except String Bool :=
  if ¬ eligibilityService then .ok true
  else if pairs = [] then .ok false
  else do
    let incomingProfileId ← resolveComboResolutionProfileId incomingCombo
    let candidateProfileId ← resolveComboResolutionProfileId candidateCombo
    match incomingProfileId, candidateProfileId with
    | some incoming, some candidate => if incoming = candidate then return true else isSafe
    | _, _ => return false

def resolveAuthoritativeMatchedPairs (incomingCombo candidateCombo : LoadedCombo) :
    List MatchedLegPair → Except String (List MatchedPair)
  | [] => .ok []
  | pair :: rest =>
    match incomingCombo.legs.find? fun leg => leg.id = pair.incomingLegId,
      candidateCombo.legs.find? fun leg => leg.id = pair.candidateLegId with
    | some incomingLeg, some candidateLeg =>
      match incomingLeg.price_hint, candidateLeg.price_hint with
      | some _, some price =>
        (resolveAuthoritativeMatchedPairs incomingCombo candidateCombo rest).map fun pairs =>
          ⟨incomingLeg, candidateLeg, min incomingLeg.remaining_size candidateLeg.remaining_size,
            price⟩ :: pairs
      | _, _ => .error "Price hint missing for matched combo leg pair."
    | _, _ => .error "Matched leg pair missing during authoritative combo reload."

structure NettingAttemptSnapshot where
  incomingComboId : String
  candidateComboId : String
  matchedLegPairs : List SnapshotPair
  maxNettableSize : ℚ
  deriving DecidableEq

/-- The parts of the runtime the transaction leans on: the hash of a snapshot, the comparison of
strings, and whether there is an eligibility service. -/
structure NettingEnv where
  hash : NettingAttemptSnapshot → String
  localeCompare : String → String → Ordering
  eligibilityService : Bool

def buildAttemptSnapshot (env : NettingEnv) (incomingComboId candidateComboId : String)
    (matchedPairs : List MatchedPair) (nettableSize : ℚ) : NettingAttemptSnapshot :=
  { incomingComboId := incomingComboId
    candidateComboId := candidateComboId
    matchedLegPairs := Js.sortWith
      (fun left right => env.localeCompare (left.incomingLegId ++ ":" ++ left.candidateLegId)
        (right.incomingLegId ++ ":" ++ right.candidateLegId))
      (matchedPairs.map fun pair => ⟨pair.incomingLeg.id, pair.candidateLeg.id, nettableSize⟩)
    maxNettableSize := nettableSize }

/-! ## Writes -/

def registerNettingAttempt (db : ComboDb) (attemptId incomingComboId matchedComboId : String) :
    Option ComboDb :=
  if ∃ attempt ∈ db.attempts, attempt.attempt_id = attemptId then none
  else some { db with
    attempts := db.attempts ++ [⟨attemptId, incomingComboId, matchedComboId, none, "APPLIED"⟩] }

def markNettingAttemptGroup (db : ComboDb) (attemptId nettingGroupId : String) : ComboDb :=
  { db with
    attempts := Tables.update NettingAttemptRow.attempt_id attemptId
      (fun attempt => { attempt with netting_group_id := some nettingGroupId }) db.attempts }

/-- `uq_combo_netting_group_pair`. -/
def NettingGroupRow.pair (group : NettingGroupRow) : String × String :=
  (group.incoming_combo_id, group.matched_combo_id)

/-- The group of the two combos, with this size added, and its id. -/
def upsertNettingGroup (db : ComboDb) (incomingComboId candidateComboId : String)
    (matchedSize : ℚ) (newId : String) : Except String (ComboDb × String) :=
  let row : NettingGroupRow := ⟨newId, incomingComboId, candidateComboId, "MATCHED", matchedSize⟩
  let groups := Tables.upsert NettingGroupRow.pair row (fun group => { group with
    matched_size := group.matched_size + matchedSize
    state := "MATCHED" }) db.groups
  if matchedSize ≤ 0 ∨ incomingComboId = candidateComboId then
    .error "combo_netting_groups: check constraint"
  else if Tables.select NettingGroupRow.pair row.pair db.groups = none ∧
      ∃ group ∈ db.groups, group.id = newId then
    .error "combo_netting_groups: primary key"
  else
    match Tables.select NettingGroupRow.pair row.pair groups with
    | none => .error "Failed to upsert combo netting group."
    | some group => .ok ({ db with groups := groups }, group.id)

/-- `uq_combo_netting_match_leg_pair`. -/
def MatchLegRow.pair (row : MatchLegRow) : String × String × String :=
  (row.netting_group_id, row.incoming_leg_id, row.matched_leg_id)

open NettingGroupRow (pair)

def matchLegOf (nettingGroupId : String) (pair : MatchedPair) (matchedSize : ℚ) : MatchLegRow :=
  { netting_group_id := nettingGroupId
    incoming_leg_id := pair.incomingLeg.id
    matched_leg_id := pair.candidateLeg.id
    market_id := pair.incomingLeg.canonical_market_id
    outcome_id := pair.incomingLeg.canonical_outcome_id
    matched_size := matchedSize
    price := pair.price }

def upsertMatchedLeg (db : ComboDb) (row : MatchLegRow) : Except String ComboDb :=
  if row.matched_size ≤ 0 ∨ row.price < 0 ∨ row.incoming_leg_id = row.matched_leg_id then
    .error "combo_netting_match_legs: check constraint"
  else
    .ok { db with
      matchLegs := Tables.upsert MatchLegRow.pair row (fun old => { old with
        matched_size := old.matched_size + row.matched_size
        price := row.price }) db.matchLegs }

/-- The size goes off both legs of every pair, as they were read, and into its match row. -/
def netPairs (nettingGroupId : String) (nettableSize : ℚ) :
    List MatchedPair → ComboDb → Except String ComboDb
  | [], db => .ok db
  | pair :: rest, db => do
    let db ← upsertMatchedLeg db (matchLegOf nettingGroupId pair nettableSize)
    let db ← updateLeg db pair.incomingLeg.id
      fun _ => pair.incomingLeg.remaining_size - nettableSize
    let db ← updateLeg db pair.candidateLeg.id
      fun _ => pair.candidateLeg.remaining_size - nettableSize
    netPairs nettingGroupId nettableSize rest db

/-! ## Exposure -/

structure UserExposureAggregate where
  maxLossDelta : ℚ
  maxGainDelta : ℚ
  perLeg : List PerLegDelta

def perLegDelta (pair : MatchedPair) (leg : LegRow) (matchedSize : ℚ) :
    Except String PerLegDelta := do
  let delta ← calculateExposureDelta leg.side pair.price matchedSize
  return { legId := leg.id
           marketId := pair.incomingLeg.canonical_market_id
           outcomeId := pair.incomingLeg.canonical_outcome_id
           side := leg.side
           price := pair.price
           matchedSize := matchedSize
           maxLossDelta := delta.maxLossDelta
           maxGainDelta := delta.maxGainDelta }

def aggregateOf (perLeg : List PerLegDelta) : UserExposureAggregate :=
  { maxLossDelta := toDecimalPlaces 8 (perLeg.map PerLegDelta.maxLossDelta).sum
    maxGainDelta := toDecimalPlaces 8 (perLeg.map PerLegDelta.maxGainDelta).sum
    perLeg := perLeg }

def aggregateNettingExposureDeltas (matchedPairs : List MatchedPair) (nettableSize : ℚ) :
    Except String (UserExposureAggregate × UserExposureAggregate) := do
  let perLeg ← matchedPairs.mapM fun pair => do
    let incomingDelta ← perLegDelta pair pair.incomingLeg nettableSize
    let candidateDelta ← perLegDelta pair pair.candidateLeg nettableSize
    return (incomingDelta, candidateDelta)
  return (aggregateOf (perLeg.map Prod.fst), aggregateOf (perLeg.map Prod.snd))

structure ExposureBucket where
  userId : String
  userRole : UserRole
  marketId : String
  side : Side
  perLeg : List PerLegDelta

/-- The legs of one user by market and side, in the order in which these first come. -/
def groupExposureAggregateByMarketAndSide (userId : String) (userRole : UserRole)
    (aggregate : UserExposureAggregate) : List ExposureBucket :=
  let grouped : List ((String × Side) × List PerLegDelta) := aggregate.perLeg.foldl
    (fun grouped leg => OrderedMap.set (leg.marketId, leg.side)
      ((grouped.lookup (leg.marketId, leg.side)).getD [] ++ [leg]) grouped) []
  grouped.map fun ((marketId, side), perLeg) => ⟨userId, userRole, marketId, side, perLeg⟩

structure NettingIds where
  nettingGroupId : String
  attemptId : String
  incomingComboId : String
  matchedComboId : String

def applyExposureGroup (ids : NettingIds)
    (aggregates : UserExposureAggregate × UserExposureAggregate) (db : ComboDb) (bucket : ExposureBucket) (newId : String) : ComboDb :=
  let grossDelta := (bucket.perLeg.map PerLegDelta.maxLossDelta).sum
  let netDelta := (bucket.perLeg.map fun leg => leg.maxGainDelta - leg.maxLossDelta).sum
  let aggregate := match bucket.userRole with
    | .userA => aggregates.1
    | .userB => aggregates.2
  let (exposure, entry) := applyExposure db.exposure bucket.userId bucket.marketId bucket.side
    grossDelta netDelta newId "combo-internal-net" ids.nettingGroupId
    (ComboPayload.netting ids.incomingComboId ids.matchedComboId ids.attemptId bucket.userRole
      bucket.marketId bucket.side aggregate.maxLossDelta aggregate.maxGainDelta grossDelta
      (bucket.perLeg.map PerLegDelta.maxGainDelta).sum bucket.perLeg)
  { db with exposure := exposure, journal := db.journal ++ [entry] }

def applyExposureAggregates (ids : NettingIds) (incomingUserId candidateUserId : String)
    (aggregates : UserExposureAggregate × UserExposureAggregate) (uuid : ℕ → String)
    (db : ComboDb) : ComboDb :=
  (groupExposureAggregateByMarketAndSide incomingUserId .userA aggregates.1 ++
    groupExposureAggregateByMarketAndSide candidateUserId .userB aggregates.2).zipIdx.foldl
      (fun db (bucket, n) => applyExposureGroup ids aggregates db bucket (uuid n)) db

/-! ## The transaction -/

def comboRemaining (legs : List LegRow) : ℚ := (legs.map LegRow.remaining_size).sum

def deriveComboState (legs : List LegRow) : ComboState :=
  if ∃ leg ∈ legs, 0 < leg.remaining_size then .PARTIALLY_EXECUTED else .EXECUTED

structure ResidualComboLeg where
  id : String
  canonicalMarketId : String
  canonicalOutcomeId : String
  side : Side
  remainingSize : ℚ
  priceHint : Option ℚ
  metadata : Option LegMetadata

def toResidualLegs (legs : List LegRow) : List ResidualComboLeg :=
  (legs.filter fun leg => 0 < leg.remaining_size).map fun leg =>
    { id := leg.id
      canonicalMarketId := leg.canonical_market_id
      canonicalOutcomeId := leg.canonical_outcome_id
      side := leg.side
      remainingSize := leg.remaining_size
      priceHint := leg.price_hint
      metadata := leg.metadata }

structure NettingTransactionResult where
  nettingGroupId : String
  nettedSize : ℚ
  eventsWritten : ℕ
  incomingResidualLegs : List ResidualComboLeg
  exhaustedComboIds : List String

def insertNettingEvent (db : ComboDb) (event : NettingEventRow) : ComboDb :=
  { db with events := db.events ++ [event] }

/-- The writes of a transaction that has found its pairs and its size; `uuid 0` is the id of a new
group, the others those of new exposure rows. -/
def writeNetting (env : NettingEnv) (db : ComboDb) (incoming candidate : LoadedCombo)
    (matchedPairs : List MatchedPair) (nettableSize : ℚ) (uuid : ℕ → String) :
    Tables.Outcome ComboDb (Option NettingTransactionResult) :=
  let snapshot := buildAttemptSnapshot env incoming.row.id candidate.row.id matchedPairs
    nettableSize
  let attemptId := env.hash snapshot
  match registerNettingAttempt db attemptId incoming.row.id candidate.row.id with
  | none => .rolledBack none
  | some db =>
    match upsertNettingGroup db incoming.row.id candidate.row.id nettableSize (uuid 0) with
    | .error error => .aborted error
    | .ok (db, nettingGroupId) =>
      match registerExposureIdempotency (markNettingAttemptGroup db attemptId nettingGroupId)
        attemptId with
      | none => .rolledBack none
      | some db =>
        let booked : Except String ComboDb := do
          let db ← netPairs nettingGroupId nettableSize matchedPairs db
          let aggregates ← aggregateNettingExposureDeltas matchedPairs nettableSize
          return applyExposureAggregates
            ⟨nettingGroupId, attemptId, incoming.row.id, candidate.row.id⟩ incoming.row.user_id
            candidate.row.user_id aggregates (fun n => uuid (n + 1)) db
        match booked with
        | .error error => .aborted error
        | .ok db =>
          match loadCombo db incoming.row.id, loadCombo db candidate.row.id with
          | some refreshedIncoming, some refreshedCandidate =>
            let db := updateComboState db incoming.row.id (deriveComboState refreshedIncoming.legs)
            let db := updateComboState db candidate.row.id
              (deriveComboState refreshedCandidate.legs)
            let db := insertNettingEvent db ⟨nettingGroupId, "NETTING_APPLIED",
              incoming.row.id, candidate.row.id, snapshot.matchedLegPairs, nettableSize,
              attemptId⟩
            .committed db (some
              { nettingGroupId := nettingGroupId
                nettedSize := nettableSize
                eventsWritten := 1
                incomingResidualLegs := toResidualLegs refreshedIncoming.legs
                exhaustedComboIds :=
                  (if comboRemaining refreshedIncoming.legs = 0 then [incoming.row.id] else []) ++
                    if comboRemaining refreshedCandidate.legs = 0 then [candidate.row.id] else [] })
          | _, _ => .aborted "Combo disappeared during netting transaction."

def executeNettingTransaction (env : NettingEnv) (db : ComboDb)
    (incomingComboId candidateComboId : String) (isSafe : Except String Bool) (uuid : ℕ → String) :
    Tables.Outcome ComboDb (Option NettingTransactionResult) :=
  match loadCombo db incomingComboId, loadCombo db candidateComboId with
  | some incoming, some candidate =>
    if ¬ (isNettableState incoming.row.state ∧ isNettableState candidate.row.state) then
      .rolledBack none
    else
      match evaluate (toCompatibilityInput incoming) (toCompatibilityInput candidate) with
      | .error error => .aborted error
      | .ok (.incompatible _) => .rolledBack none
      | .ok (.compatible pairs _) =>
        match isResolutionEligible env.eligibilityService incoming candidate pairs isSafe with
        | .error error => .aborted error
        | .ok false => .rolledBack none
        | .ok true =>
          match resolveAuthoritativeMatchedPairs incoming candidate pairs with
          | .error error => .aborted error
          | .ok matchedPairs =>
            match (matchedPairs.map MatchedPair.nettableSize).min? with
            | none => .rolledBack none
            | some nettableSize =>
              if nettableSize ≤ 0 then .rolledBack none
              else writeNetting env db incoming candidate matchedPairs nettableSize uuid
  | _, _ => .rolledBack none

/-! ## What a commit has written -/

section

variable {db db' : ComboDb} {nettingGroupId : String} {nettableSize : ℚ}

theorem upsertMatchedLeg_ok {row : MatchLegRow} (h : upsertMatchedLeg db row = .ok db') :
    row.incoming_leg_id ≠ row.matched_leg_id ∧ db' = { db with
        matchLegs := Tables.upsert MatchLegRow.pair row (fun old => { old with
          matched_size := old.matched_size + row.matched_size
          price := row.price }) db.matchLegs } := by
  unfold upsertMatchedLeg at h
  split at h
  next => cases h
  next hchecks =>
    cases h
    push Not at hchecks
    exact ⟨hchecks.2.2, rfl⟩

theorem netPairs_frame {pairs : List MatchedPair}
    (h : netPairs nettingGroupId nettableSize pairs db = .ok db') :
    db' = { db with legs := db'.legs, matchLegs := db'.matchLegs } := by
  induction pairs generalizing db with
  | nil => cases h; rfl
  | cons pair rest ih =>
    obtain ⟨db₁, hmatch, h⟩ := Tables.bind_eq_ok.mp h
    obtain ⟨db₂, hincoming, h⟩ := Tables.bind_eq_ok.mp h
    obtain ⟨db₃, hcandidate, h⟩ := Tables.bind_eq_ok.mp h
    rw [ih h, (updateLeg_ok hcandidate).2, (updateLeg_ok hincoming).2,
      (upsertMatchedLeg_ok hmatch).2]

theorem applyExposureAggregates_frame (ids : NettingIds) (incomingUserId candidateUserId : String)
    (aggregates : UserExposureAggregate × UserExposureAggregate) (uuid : ℕ → String)
    (db : ComboDb) :
    ∃ exposure journal, applyExposureAggregates ids incomingUserId candidateUserId aggregates uuid
      db = { db with exposure := exposure, journal := journal } := by
  unfold applyExposureAggregates
  generalize (groupExposureAggregateByMarketAndSide incomingUserId .userA aggregates.1 ++
    groupExposureAggregateByMarketAndSide candidateUserId .userB aggregates.2).zipIdx = buckets
  induction buckets generalizing db with
  | nil => exact ⟨db.exposure, db.journal, rfl⟩
  | cons bucket rest ih =>
    obtain ⟨exposure, journal, heq⟩ :=
      ih (applyExposureGroup ids aggregates db bucket.1 (uuid bucket.2))
    exact ⟨exposure, journal, by rw [List.foldl_cons, heq]; rfl⟩

theorem upsertNettingGroup_ok {incomingComboId candidateComboId newId : String}
    (h : upsertNettingGroup db incomingComboId candidateComboId nettableSize newId =
      .ok (db', nettingGroupId)) :
    incomingComboId ≠ candidateComboId ∧
      (Tables.select pair (incomingComboId, candidateComboId) db.groups = none →
        ∀ group ∈ db.groups, group.id ≠ newId) ∧
      (Tables.select pair (incomingComboId, candidateComboId) db'.groups).map
        NettingGroupRow.id = some nettingGroupId ∧
      db' = { db with
        groups := Tables.upsert pair
          ⟨newId, incomingComboId, candidateComboId, "MATCHED", nettableSize⟩
          (fun group => { group with
            matched_size := group.matched_size + nettableSize
            state := "MATCHED" }) db.groups } := by
  unfold upsertNettingGroup at h
  simp only at h
  split at h
  next => cases h
  next hchecks =>
    split at h
    next => cases h
    next hkey =>
      split at h
      next => cases h
      next group hselect =>
        cases h
        push Not at hchecks hkey
        exact ⟨hchecks.2, hkey, congrArg (Option.map NettingGroupRow.id) hselect, rfl⟩

end

/-- The tables after a netting of `matchedPairs`, and the group it is recorded in. -/
structure NettingWritten (db db' : ComboDb) (incoming candidate : LoadedCombo)
    (matchedPairs : List MatchedPair) (nettableSize : ℚ) (nettingGroupId newId : String) :
    Prop where
  distinct : incoming.row.id ≠ candidate.row.id
  new_group : Tables.select pair (incoming.row.id, candidate.row.id) db.groups =
    none → ∀ group ∈ db.groups, group.id ≠ newId
  group : (Tables.select pair (incoming.row.id, candidate.row.id) db'.groups).map
    NettingGroupRow.id = some nettingGroupId
  groups : db'.groups = Tables.upsert pair
    ⟨newId, incoming.row.id, candidate.row.id, "MATCHED", nettableSize⟩
    (fun group => { group with
      matched_size := group.matched_size + nettableSize
      state := "MATCHED" }) db.groups
  pairs : ∃ before after, before.legs = db.legs ∧ before.matchLegs = db.matchLegs ∧
    netPairs nettingGroupId nettableSize matchedPairs before = .ok after ∧
    db'.legs = after.legs ∧ db'.matchLegs = after.matchLegs
  combos : db'.combos =
    Tables.update ComboRow.id candidate.row.id
      (fun row => { row with state := deriveComboState (selectLegs db' candidate.row.id) })
      (Tables.update ComboRow.id incoming.row.id
        (fun row => { row with state := deriveComboState (selectLegs db' incoming.row.id) })
        db.combos)
  events : ∃ event, db'.events = db.events ++ [event] ∧
    event.netting_group_id = nettingGroupId ∧ event.payload.matchedSize = nettableSize ∧
    event.payload.matchedLegPairs.length = matchedPairs.length

/-- What a transaction hashes that has read these pairs and this size. -/
def attemptIdOf (env : NettingEnv) (incoming candidate : LoadedCombo)
    (matchedPairs : List MatchedPair) (nettableSize : ℚ) : String :=
  env.hash (buildAttemptSnapshot env incoming.row.id candidate.row.id matchedPairs nettableSize)

structure AttemptRegistered (db db' : ComboDb) (attemptId : String) : Prop where
  fresh : attemptId ∉ db.attempts.map NettingAttemptRow.attempt_id
  ids : db'.attempts.map NettingAttemptRow.attempt_id =
    db.attempts.map NettingAttemptRow.attempt_id ++ [attemptId]
  uuids : db'.exposureIdempotency = db.exposureIdempotency ++ [hashToUuid attemptId]

theorem writeNetting_committed {env : NettingEnv} {db db' : ComboDb}
    {incoming candidate : LoadedCombo} {matchedPairs : List MatchedPair} {nettableSize : ℚ}
    {uuid : ℕ → String} {value : Option NettingTransactionResult}
    (h : writeNetting env db incoming candidate matchedPairs nettableSize uuid =
      .committed db' value) :
    AttemptRegistered db db' (attemptIdOf env incoming candidate matchedPairs nettableSize) ∧
      ∃ nettingGroupId, NettingWritten db db' incoming candidate matchedPairs nettableSize
        nettingGroupId (uuid 0) := by
  unfold writeNetting at h
  simp only at h
  split at h
  next => cases h
  next db₁ hattempt =>
    split at h
    next => cases h
    next db₂ nettingGroupId hgroup =>
      split at h
      next => cases h
      next db₃ hidempotency =>
        split at h
        next => cases h
        next db₅ hbooked =>
          obtain ⟨db₄, hpairs, hbooked⟩ := Tables.bind_eq_ok.mp hbooked
          obtain ⟨aggregates, -, hbooked⟩ := Tables.bind_eq_ok.mp hbooked
          simp only [pure, Except.pure, Except.ok.injEq] at hbooked
          obtain ⟨exposure, journal, hexposure⟩ := applyExposureAggregates_frame _
            incoming.row.user_id candidate.row.user_id aggregates (fun n => uuid (n + 1)) db₄
          rw [hexposure] at hbooked
          split at h
          next refreshedIncoming refreshedCandidate hincoming hcandidate =>
            cases h
            have h₁ : attemptIdOf env incoming candidate matchedPairs nettableSize ∉
                db.attempts.map NettingAttemptRow.attempt_id ∧
                db₁ = { db with attempts := db.attempts ++
                  [⟨attemptIdOf env incoming candidate matchedPairs nettableSize,
                    incoming.row.id, candidate.row.id, none, "APPLIED"⟩] } := by
              unfold registerNettingAttempt at hattempt
              split at hattempt <;> cases hattempt
              next hnew => exact ⟨fun hmem => hnew (List.mem_map.mp hmem), rfl⟩
            obtain ⟨hfresh, h₁⟩ := h₁
            have h₃ : db₃ = { db₂ with
                attempts := (markNettingAttemptGroup db₂
                  (attemptIdOf env incoming candidate matchedPairs nettableSize)
                  nettingGroupId).attempts
                exposureIdempotency := db₂.exposureIdempotency ++
                  [hashToUuid (attemptIdOf env incoming candidate matchedPairs nettableSize)] } := by
              unfold registerExposureIdempotency at hidempotency
              split at hidempotency <;> cases hidempotency
              rfl
            obtain ⟨hdistinct, hnew, hselect, h₂⟩ := upsertNettingGroup_ok hgroup
            have h₄ := netPairs_frame hpairs
            have hgroups₁ : db₁.groups = db.groups := by rw [h₁]
            have hgroups : db₅.groups = db₂.groups := by rw [← hbooked, h₄, h₃]
            have hcombos : db₅.combos = db.combos := by rw [← hbooked, h₄, h₃, h₂, h₁]
            have hevents : db₅.events = db.events := by rw [← hbooked, h₄, h₃, h₂, h₁]
            have hlegs : db₅.legs = db₄.legs := by rw [← hbooked]
            have hkeys := Tables.keys_update
              (attemptIdOf env incoming candidate matchedPairs nettableSize)
              (fun attempt : NettingAttemptRow => show
                { attempt with netting_group_id := some nettingGroupId }.attempt_id =
                  attempt.attempt_id from rfl) db₂.attempts
            refine ⟨⟨hfresh, ?_, ?_⟩, nettingGroupId, hdistinct, hgroups₁ ▸ hnew, ?_, ?_, ?_, ?_, ?_⟩
            · show db₅.attempts.map _ = _
              rw [← hbooked, h₄, h₃, markNettingAttemptGroup, hkeys, h₂, h₁]
              exact List.map_append
            · show db₅.exposureIdempotency = _
              rw [← hbooked, h₄, h₃, h₂, h₁]
            · rw [← hselect, ← hgroups]
              rfl
            · show db₅.groups = _
              rw [hgroups, h₂, hgroups₁]
            · refine ⟨db₃, db₄, ?_, ?_, hpairs, hlegs, ?_⟩
              · rw [h₃, h₂, h₁]
              · rw [h₃, h₂, h₁]
              · show db₅.matchLegs = _
                rw [← hbooked]
            · show Tables.update _ _ _ (Tables.update _ _ _ db₅.combos) = _
              rw [hcombos, (loadCombo_some hincoming).2.2, (loadCombo_some hcandidate).2.2]
              rfl
            · refine ⟨_, congrArg (· ++ [_]) hevents, rfl, rfl, ?_⟩
              show (Js.sortWith _ _).length = _
              rw [(Js.sortWith_perm _ _).length_eq, List.length_map]
          next => cases h

/-- What a transaction has read and checked before it writes. -/
structure NettingChecked (db : ComboDb) (incomingComboId candidateComboId : String)
    (incoming candidate : LoadedCombo) (matchedPairs : List MatchedPair) (nettableSize : ℚ) :
    Prop where
  loaded_incoming : loadCombo db incomingComboId = some incoming
  loaded_candidate : loadCombo db candidateComboId = some candidate
  states : isNettableState incoming.row.state ∧ isNettableState candidate.row.state
  pairs : ∃ pairs maxNettableSize,
    evaluate (toCompatibilityInput incoming) (toCompatibilityInput candidate) =
      .ok (.compatible pairs maxNettableSize) ∧
    resolveAuthoritativeMatchedPairs incoming candidate pairs = .ok matchedPairs
  size : (matchedPairs.map MatchedPair.nettableSize).min? = some nettableSize
  positive : 0 < nettableSize

theorem executeNettingTransaction_writes {env : NettingEnv} {db db' : ComboDb}
    {incomingComboId candidateComboId : String} {isSafe : Except String Bool} {uuid : ℕ → String}
    {value : Option NettingTransactionResult}
    (h : executeNettingTransaction env db incomingComboId candidateComboId isSafe uuid =
      .committed db' value) :
    ∃ incoming candidate matchedPairs nettableSize,
      NettingChecked db incomingComboId candidateComboId incoming candidate matchedPairs
        nettableSize ∧
      writeNetting env db incoming candidate matchedPairs nettableSize uuid =
        .committed db' value := by
  unfold executeNettingTransaction at h
  split at h
  next incoming candidate hincoming hcandidate =>
    split at h
    next => cases h
    next hstates =>
      split at h
      next => cases h
      next => cases h
      next pairs maxNettableSize hevaluate =>
        split at h
        next => cases h
        next => cases h
        next =>
          split at h
          next => cases h
          next matchedPairs hresolve =>
            split at h
            next => cases h
            next nettableSize hsize =>
              split at h
              next => cases h
              next hpositive =>
                exact ⟨incoming, candidate, matchedPairs, nettableSize,
                  ⟨hincoming, hcandidate, not_not.mp hstates,
                    ⟨pairs, maxNettableSize, hevaluate, hresolve⟩, hsize, not_le.mp hpositive⟩, h⟩
  next => cases h

/-- **A committed netting** has checked its pairs and written their size. -/
theorem executeNettingTransaction_committed {env : NettingEnv} {db db' : ComboDb}
    {incomingComboId candidateComboId : String} {isSafe : Except String Bool} {uuid : ℕ → String}
    {value : Option NettingTransactionResult}
    (h : executeNettingTransaction env db incomingComboId candidateComboId isSafe uuid =
      .committed db' value) :
    ∃ incoming candidate matchedPairs nettableSize nettingGroupId,
      NettingChecked db incomingComboId candidateComboId incoming candidate matchedPairs
        nettableSize ∧
      NettingWritten db db' incoming candidate matchedPairs nettableSize nettingGroupId
        (uuid 0) := by
  obtain ⟨incoming, candidate, matchedPairs, nettableSize, hchecked, hwrites⟩ :=
    executeNettingTransaction_writes h
  obtain ⟨-, nettingGroupId, hwritten⟩ := writeNetting_committed hwrites
  exact ⟨incoming, candidate, matchedPairs, nettableSize, nettingGroupId, hchecked, hwritten⟩

end LotusRfq.Combo
