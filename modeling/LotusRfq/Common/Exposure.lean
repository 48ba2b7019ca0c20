import Mathlib.Data.Rat.Floor
import LotusRfq.Lib.Tables

/-!
# LotusRfq — risk exposure of prediction market contracts

Contracts settle at 1 or at 0. A buyer may lose what it pays and gain the rest; a seller the
other way round. Both are rounded to eight decimal places, and the two sides of a match round
the same products: **`calculateExposureDelta_opposite`**. A user's exposure to one side of a
market is a row of `exposure`, and every change of a row is a row of `exposure_journal`.
-/

namespace LotusRfq

open List

inductive Side where
  | buy
  | sell
  deriving DecidableEq

def Side.opposite : Side → Side
  | .buy => .sell
  | .sell => .buy

/-- `toDecimalPlaces`, rounding half away from zero. -/
def toDecimalPlaces (dp : ℕ) (x : ℚ) : ℚ :=
  if 0 ≤ x then ⌊x * 10 ^ dp + 1 / 2⌋ / 10 ^ dp else -(⌊-x * 10 ^ dp + 1 / 2⌋ / 10 ^ dp)

structure ExposureDelta where
  maxLossDelta : ℚ
  maxGainDelta : ℚ

def calculateExposureDelta (side : Side) (price size : ℚ) : Except String ExposureDelta :=
  if price < 0 ∨ 1 < price then
    .error "price must be within [0, 1] for prediction markets"
  else if size < 0 then
    .error "size must be greater than or equal to 0"
  else
    match side with
    | .buy => .ok
        { maxLossDelta := toDecimalPlaces 8 (price * size)
          maxGainDelta := toDecimalPlaces 8 ((1 - price) * size) }
    | .sell => .ok
        { maxLossDelta := toDecimalPlaces 8 ((1 - price) * size)
          maxGainDelta := toDecimalPlaces 8 (price * size) }

/-- **Zero sum.** What one side of a match may lose is what the other may gain, after rounding. -/
theorem calculateExposureDelta_opposite {side : Side} {price size : ℚ} {delta : ExposureDelta}
    (h : calculateExposureDelta side price size = .ok delta) :
    calculateExposureDelta side.opposite price size =
      .ok ⟨delta.maxGainDelta, delta.maxLossDelta⟩ := by
  unfold calculateExposureDelta at h ⊢
  split at h
  next => cases h
  next hprice =>
    rw [if_neg hprice]
    split at h
    next => cases h
    next hsize =>
      rw [if_neg hsize]
      cases side <;> cases h <;> rfl

/-! ## The tables -/

structure ExposureRow where
  id : String
  user_id : String
  canonical_market_id : String
  side : Side
  gross_notional : ℚ
  net_notional : ℚ

/-- A row of `exposure_journal`; the services differ in its payload. -/
structure JournalRow (π : Type) where
  exposure_id : String
  change : ℚ
  prev_gross : ℚ
  prev_net : ℚ
  new_gross : ℚ
  new_net : ℚ
  source : String
  reference_id : String
  payload : π

def selectExposure (exposure : List ExposureRow) (userId marketId : String) (side : Side) :
    Option ExposureRow :=
  exposure.find? fun row =>
    row.user_id = userId ∧ row.canonical_market_id = marketId ∧ row.side = side

/-- Add to a user's exposure to one side of a market, in a new row when there is none, and say so
in the journal. -/
def applyExposure {π : Type} (exposure : List ExposureRow) (userId marketId : String) (side : Side)
    (grossDelta netDelta : ℚ) (newId source referenceId : String) (payload : π) :
    List ExposureRow × JournalRow π :=
  let existing := selectExposure exposure userId marketId side
  let prevGross := (existing.map (·.gross_notional)).getD 0
  let prevNet := (existing.map (·.net_notional)).getD 0
  let entry (exposureId : String) : JournalRow π :=
    { exposure_id := exposureId
      change := netDelta
      prev_gross := prevGross
      prev_net := prevNet
      new_gross := prevGross + grossDelta
      new_net := prevNet + netDelta
      source := source
      reference_id := referenceId
      payload := payload }
  match existing with
  | none =>
    (exposure ++ [⟨newId, userId, marketId, side, prevGross + grossDelta, prevNet + netDelta⟩],
      entry newId)
  | some row =>
    (Tables.update ExposureRow.id row.id
      (fun row => { row with
        gross_notional := prevGross + grossDelta
        net_notional := prevNet + netDelta }) exposure,
      entry row.id)

section applyExposure

variable {π : Type} (exposure : List ExposureRow) (userId marketId : String) (side : Side)
  (grossDelta netDelta : ℚ) (newId source referenceId : String) (payload : π)

@[simp] theorem applyExposure_change :
    (applyExposure exposure userId marketId side grossDelta netDelta newId source referenceId
      payload).2.change = netDelta := by
  unfold applyExposure
  simp only
  split <;> rfl

@[simp] theorem applyExposure_source :
    (applyExposure exposure userId marketId side grossDelta netDelta newId source referenceId
      payload).2.source = source := by
  unfold applyExposure
  simp only
  split <;> rfl

@[simp] theorem applyExposure_referenceId :
    (applyExposure exposure userId marketId side grossDelta netDelta newId source referenceId
      payload).2.reference_id = referenceId := by
  unfold applyExposure
  simp only
  split <;> rfl

@[simp] theorem applyExposure_payload :
    (applyExposure exposure userId marketId side grossDelta netDelta newId source referenceId
      payload).2.payload = payload := by
  unfold applyExposure
  simp only
  split <;> rfl

end applyExposure

/-- A user's gross exposure over all markets and sides. -/
def totalGross (exposure : List ExposureRow) (userId : String) : ℚ :=
  (exposure.map fun row => if row.user_id = userId then row.gross_notional else 0).sum

section totals

variable {π : Type} {exposure : List ExposureRow} {userId marketId : String} {side : Side}
  {grossDelta netDelta : ℚ} {newId source referenceId : String} {payload : π}

theorem mem_of_selectExposure {row : ExposureRow}
    (h : selectExposure exposure userId marketId side = some row) :
    row ∈ exposure ∧ row.user_id = userId := by
  unfold selectExposure at h
  have hfound := find?_some h
  rw [decide_eq_true_eq] at hfound
  exact ⟨mem_of_find?_eq_some h, hfound.1⟩

theorem applyExposure_ids (hids : (exposure.map ExposureRow.id).Nodup)
    (hfresh : newId ∉ exposure.map ExposureRow.id) :
    ((applyExposure exposure userId marketId side grossDelta netDelta newId source referenceId
      payload).1.map ExposureRow.id).Nodup := by
  unfold applyExposure
  simp only
  split
  next =>
    rw [map_append, map_singleton]
    exact hids.append (nodup_singleton _) (by simpa using hfresh)
  next row _ =>
    dsimp only
    rw [Tables.keys_update row.id (by intro row; rfl) exposure]
    exact hids

theorem applyExposure_totalGross (hids : (exposure.map ExposureRow.id).Nodup) (other : String) :
    totalGross (applyExposure exposure userId marketId side grossDelta netDelta newId source
      referenceId payload).1 other =
        totalGross exposure other + if userId = other then grossDelta else 0 := by
  unfold applyExposure totalGross
  simp only
  split
  next hnone =>
    rw [hnone, map_append, sum_append, map_singleton, sum_singleton]
    simp
  next row hselect =>
    obtain ⟨hrow, huser⟩ := mem_of_selectExposure hselect
    dsimp only
    rw [hselect, Tables.sum_update hids hrow]
    simp only [Option.map_some, Option.getD_some, huser]
    split
    · ring
    · ring

end totals

end LotusRfq
