import LotusRfq.Common.Exposure
import LotusRfq.Common.Js

/-!
# LotusRfq — the tables of the combo engine

A combo and its legs; what internal netting and multi-party clearing record of a match; and the
exposure rows both move. The engines share the reads and writes of legs and combos given here.
-/

namespace LotusRfq.Combo

inductive ComboState where
  | OPEN
  | ACCEPTED
  | EXECUTED
  | PARTIALLY_EXECUTED
  | FAILED
  | EXPIRED
  deriving DecidableEq

/-- The keys of a leg's metadata that are read. A value that is not a string is written as the
empty string; of the last four, so is one that is missing. -/
structure LegMetadata where
  resolution_profile_id : Option String
  resolutionUniverse : String
  expiryClass : String
  settlementModel : String
  resolutionRuleClass : String
  deriving DecidableEq

/-- A row of `combo_rfqs`. -/
structure ComboRow where
  id : String
  user_id : String
  state : ComboState
  created_at : ℤ
  deriving DecidableEq

/-- A row of `combo_legs`. -/
structure LegRow where
  id : String
  combo_rfq_id : String
  canonical_market_id : String
  canonical_outcome_id : String
  side : Side
  size : ℚ
  remaining_size : ℚ
  price_hint : Option ℚ
  metadata : Option LegMetadata
  deriving DecidableEq

structure LoadedCombo where
  row : ComboRow
  legs : List LegRow
  deriving DecidableEq

/-! ## What netting records -/

/-- A row of `combo_netting_groups`. -/
structure NettingGroupRow where
  id : String
  incoming_combo_id : String
  matched_combo_id : String
  state : String
  matched_size : ℚ

/-- A row of `combo_netting_match_legs`. -/
structure MatchLegRow where
  netting_group_id : String
  incoming_leg_id : String
  matched_leg_id : String
  market_id : String
  outcome_id : String
  matched_size : ℚ
  price : ℚ

structure NettingAttemptRow where
  attempt_id : String
  incoming_combo_id : String
  matched_combo_id : String
  netting_group_id : Option String
  status : String

structure SnapshotPair where
  incomingLegId : String
  candidateLegId : String
  matchedSize : ℚ
  deriving DecidableEq

structure NettingEventPayload where
  incomingComboId : String
  matchedComboId : String
  matchedLegPairs : List SnapshotPair
  matchedSize : ℚ
  attemptId : String

structure NettingEventRow where
  netting_group_id : String
  event_type : String
  payload : NettingEventPayload

/-! ## What clearing records -/

/-- Signed sizes by `market:outcome`, a buy above zero. -/
abbrev SizeVector := List (String × ℚ)

structure ClearingRoundRow where
  id : String
  compatibility_bucket : String
  state : String
  participant_count : ℕ
  unique_leg_count : ℕ
  compression_score : ℚ
  participant_set_hash : String
  match_signature_hash : String

structure RoundParticipantRow where
  id : String
  clearing_round_id : String
  combo_or_order_id : String
  participant_user_id : String
  role : String
  original_remaining : SizeVector
  matched_remaining : SizeVector

structure RoundLegMatchRow where
  clearing_round_id : String
  market_id : String
  outcome_id : String
  participant_id : String
  signed_matched_size : ℚ
  price : Option ℚ

structure ClearingEventParticipant where
  entityId : String
  userId : String
  matchedRemaining : SizeVector
  residualRemaining : SizeVector

structure ClearingEventRow where
  clearing_round_id : String
  event_type : String
  participantSetHash : String
  matchSignatureHash : String
  participantIds : List String
  uniqueLegs : List String
  residuals : SizeVector
  finalScore : ℚ
  participants : List ClearingEventParticipant

/-! ## Exposure -/

/-- One leg of a match as it counts for a user's exposure. -/
structure PerLegDelta where
  legId : String
  marketId : String
  outcomeId : String
  side : Side
  price : ℚ
  matchedSize : ℚ
  maxLossDelta : ℚ
  maxGainDelta : ℚ

inductive UserRole where
  | userA
  | userB

/-- The payload of a journal row, by the engine that wrote it. -/
inductive ComboPayload where
  | netting (incomingComboId matchedComboId attemptId : String) (userRole : UserRole)
      (marketId : String) (side : Side) (aggregateMaxLossDelta aggregateMaxGainDelta : ℚ)
      (groupedMaxLossDelta groupedMaxGainDelta : ℚ) (perLeg : List PerLegDelta)
  | clearing (clearingRoundId participantSetHash matchSignatureHash : String)
      (marketId : String) (side : Side) (groupedMaxLossDelta groupedMaxGainDelta : ℚ)
      (perLeg : List (String × PerLegDelta))

structure ComboDb where
  combos : List ComboRow
  legs : List LegRow
  groups : List NettingGroupRow
  matchLegs : List MatchLegRow
  attempts : List NettingAttemptRow
  events : List NettingEventRow
  rounds : List ClearingRoundRow
  roundParticipants : List RoundParticipantRow
  roundLegMatches : List RoundLegMatchRow
  roundEvents : List ClearingEventRow
  exposureIdempotency : List String
  exposure : List ExposureRow
  journal : List (JournalRow ComboPayload)

/-! ## Reads and writes -/

def selectLegs (db : ComboDb) (comboId : String) : List LegRow :=
  (db.legs.filter fun leg => leg.combo_rfq_id = comboId).insertionSort fun left right =>
    left.id ≤ right.id

/-- `loadCombo`, and within a transaction `loadComboForUpdate`. -/
def loadCombo (db : ComboDb) (comboId : String) : Option LoadedCombo :=
  (Tables.select ComboRow.id comboId db.combos).map fun row => ⟨row, selectLegs db comboId⟩

/-- Rewrite the remaining size of a leg, which a check of the table keeps from going below
zero. -/
def updateLeg (db : ComboDb) (legId : String) (f : ℚ → ℚ) : Except String ComboDb :=
  if ∃ leg ∈ db.legs, leg.id = legId ∧ f leg.remaining_size < 0 then
    .error "combo_legs: chk_combo_legs_remaining_size_non_negative"
  else
    .ok { db with
      legs := Tables.update LegRow.id legId
        (fun leg => { leg with remaining_size := f leg.remaining_size }) db.legs }

def updateComboState (db : ComboDb) (comboId : String) (state : ComboState) : ComboDb :=
  { db with
    combos := Tables.update ComboRow.id comboId (fun row => { row with state := state }) db.combos }

/-- `attemptIdToUuid` and `hashToUuid`. -/
def hashToUuid (hash : String) : String :=
  let hex := (hash.toList.filter (· ≠ '-')).take 32
  let padded := hex ++ List.replicate (32 - hex.length) '0'
  let part (start stop : ℕ) : String := String.ofList ((padded.take stop).drop start)
  part 0 8 ++ "-" ++ part 8 12 ++ "-" ++ part 12 16 ++ "-" ++ part 16 20 ++ "-" ++ part 20 32

def registerExposureIdempotency (db : ComboDb) (hash : String) : Option ComboDb :=
  if hashToUuid hash ∈ db.exposureIdempotency then none
  else some { db with exposureIdempotency := db.exposureIdempotency ++ [hashToUuid hash] }

/-- The netting engine nets, and the clearing executor clears, combos in these states. -/
def isNettableState (state : ComboState) : Bool :=
  state = .OPEN ∨ state = .PARTIALLY_EXECUTED ∨ state = .ACCEPTED

def isClearableState (state : ComboState) : Bool :=
  state = .OPEN ∨ state = .ACCEPTED ∨ state = .PARTIALLY_EXECUTED

section

variable {db db' : ComboDb} {comboId legId : String}

theorem mem_selectLegs {leg : LegRow} :
    leg ∈ selectLegs db comboId ↔ leg ∈ db.legs ∧ leg.combo_rfq_id = comboId := by
  simp [selectLegs, List.mem_insertionSort]

theorem loadCombo_some {combo : LoadedCombo} (h : loadCombo db comboId = some combo) :
    combo.row ∈ db.combos ∧ combo.row.id = comboId ∧ combo.legs = selectLegs db comboId := by
  obtain ⟨row, hselect, rfl⟩ := Option.map_eq_some_iff.mp h
  obtain ⟨hmem, hid⟩ := Tables.mem_of_select hselect
  exact ⟨hmem, hid, rfl⟩

theorem updateLeg_ok {f : ℚ → ℚ} (h : updateLeg db legId f = .ok db') :
    (∀ leg ∈ db.legs, leg.id = legId → 0 ≤ f leg.remaining_size) ∧ db' = { db with
        legs := Tables.update LegRow.id legId
          (fun leg => { leg with remaining_size := f leg.remaining_size }) db.legs } := by
  unfold updateLeg at h
  split at h
  next => cases h
  next hcheck =>
    cases h
    push Not at hcheck
    exact ⟨hcheck, rfl⟩

end

end LotusRfq.Combo
