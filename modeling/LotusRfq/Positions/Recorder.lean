import LotusRfq.Lib.OrderedMap
import LotusRfq.Lib.RowLocks
import Mathlib.Algebra.Order.Ring.Rat

/-!
# LotusRfq — recorded positions

`recordFilledLeg` applies the fill of an order to the user's position: a transaction inserts the
application of the order, or selects it for update, and applies what the fill has grown by.
`applySettlementDelta` is one statement. A number that may be missing or malformed in its text is an
`Option ℚ`; decimals are exact.
-/

namespace LotusRfq.Positions

open RowLocks Transitions

inductive TradeSide where
  | buy
  | sell
  deriving DecidableEq

/-- The fill state of an order, as it is reported and stored with the application. -/
structure FillState where
  filledSize : Option ℚ
  averagePrice : ℚ
  offchainFilled : Bool

structure RouteLeg where
  side : TradeSide
  marketId : String
  outcomeId : String
  venue : String
  size : Option ℚ
  price : ℚ
  deriving DecidableEq

structure LegKey where
  executionId : String
  userId : String
  legIndex : ℕ
  deriving DecidableEq

/-- `uq_signed_trade_position_application`. -/
structure ApplicationKey where
  leg : LegKey
  venueOrderId : String
  deriving DecidableEq

/-- `uq_user_execution_positions`. -/
structure PositionKey where
  userId : String
  venue : String
  marketId : String
  outcomeId : String
  deriving DecidableEq

structure Position where
  verifiedSize : ℚ
  averageEntryPrice : ℚ
  sellableSize : ℚ

/-- The input of `recordFilledLeg`. -/
structure FilledLeg where
  key : ApplicationKey
  routeLeg : RouteLeg
  fillState : FillState

/-- The input of `applySettlementDelta`. -/
structure SettlementDelta where
  userId : String
  venue : String
  marketId : String
  outcomeId : String
  side : TradeSide
  size : Option ℚ
  averagePrice : ℚ

/-- A size that was applied to a position, for an order or by a settlement. -/
structure AppliedSize where
  position : PositionKey
  application : Option ApplicationKey
  side : TradeSide
  size : ℚ

structure PositionTables where
  applications : List (ApplicationKey × FillState)
  positions : List (PositionKey × Position)
  applied : List AppliedSize

def positionSizeFromFill (fillState : FillState) (fallbackSize : Option ℚ) : Option ℚ :=
  match fillState.filledSize with
  | some parsed =>
    if 0 < parsed then some parsed
    else if fillState.offchainFilled then fallbackSize else some 0
  | none => if fillState.offchainFilled then fallbackSize else some 0

def FilledLeg.fillSize (input : FilledLeg) : Option ℚ :=
  positionSizeFromFill input.fillState input.routeLeg.size

def averagePriceOf (fillState : FillState) (routeLeg : RouteLeg) : ℚ :=
  if 0 < fillState.averagePrice then fillState.averagePrice else routeLeg.price

def RouteLeg.position (routeLeg : RouteLeg) (userId : String) : PositionKey :=
  ⟨userId, routeLeg.venue.toUpper, routeLeg.marketId, routeLeg.outcomeId⟩

def SettlementDelta.position (delta : SettlementDelta) : PositionKey :=
  ⟨delta.userId, delta.venue.toUpper, delta.marketId, delta.outcomeId⟩

def signedSize (side : TradeSide) (size : ℚ) : ℚ :=
  match side with
  | .buy => size
  | .sell => -size

/-- `INSERT INTO user_execution_positions … ON CONFLICT … DO UPDATE`. -/
def upsertPosition (key : PositionKey) (signedSize price : ℚ)
    (positions : List (PositionKey × Position)) : List (PositionKey × Position) :=
  OrderedMap.set key
    (match positions.lookup key with
      | none => ⟨max signedSize 0, price, max signedSize 0⟩
      | some row => {
          verifiedSize := max (row.verifiedSize + signedSize) 0
          averageEntryPrice := if 0 < signedSize then price else row.averageEntryPrice
          sellableSize := max (row.sellableSize + signedSize) 0 })
    positions

def applySize (applied : AppliedSize) (price : ℚ) (tables : PositionTables) : PositionTables :=
  { tables with
    positions := upsertPosition applied.position (signedSize applied.side applied.size) price
      tables.positions
    applied := tables.applied ++ [applied] }

/-- The size of the application that was `seen`, of a leg of the size `fallbackSize`. -/
def previousFillSize (seen : Option FillState) (fallbackSize : Option ℚ) : Option ℚ :=
  match seen with
  | none => some 0
  | some fillState => positionSizeFromFill fillState fallbackSize

def deltaFillSize (input : FilledLeg) (seen : Option FillState) : Option ℚ := do
  let nextFillSize ← input.fillSize
  let previousFillSize ← previousFillSize seen input.routeLeg.size
  return max 0 (nextFillSize - previousFillSize)

/-- The transaction of `recordFilledLeg` once it holds the application. -/
def recordFilledLeg (input : FilledLeg) (seen : Option FillState) (tables : PositionTables) :
    PositionTables :=
  match deltaFillSize input seen with
  | none => tables
  | some delta =>
    if delta ≤ 0 then tables
    else
      applySize ⟨input.routeLeg.position input.key.leg.userId, some input.key, input.routeLeg.side,
          delta⟩
        (averagePriceOf input.fillState input.routeLeg)
        { tables with
          applications := OrderedMap.set input.key input.fillState tables.applications }

/-- The statement of `applySettlementDelta`, for a size that is positive. -/
def applySettlementDelta (delta : SettlementDelta) (tables : PositionTables) : PositionTables :=
  applySize ⟨delta.position, none, delta.side, delta.size.getD 0⟩ delta.averagePrice tables

/-- An `INSERT … ON CONFLICT DO NOTHING` on the application, else a `SELECT … FOR UPDATE`. -/
def database : Database PositionTables FilledLeg SettlementDelta FillState ApplicationKey where
  key input := input.key
  find key tables := tables.applications.lookup key
  write := recordFilledLeg
  post := applySettlementDelta

abbrev RecorderSystem : Type := System PositionTables FilledLeg SettlementDelta FillState

abbrev RecorderAction : Type := Action FilledLeg SettlementDelta

def isPositive (size : Option ℚ) : Bool := size.any fun size => 0 < size

/-- `recordFilledLeg` returns at once when there is nothing to record, and `applySettlementDelta`
throws. -/
def recorderStep (s : RecorderSystem) (action : RecorderAction) : Option RecorderSystem :=
  match action with
  | .start input => if isPositive input.fillSize then step database s (.start input) else some s
  | .post delta => if isPositive delta.size then step database s (.post delta) else some s
  | action => step database s action

end LotusRfq.Positions
