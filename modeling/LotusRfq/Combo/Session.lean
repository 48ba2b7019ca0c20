import LotusRfq.Combo.AttemptNet

/-!
# LotusRfq — combo sessions and the execution plan of a residual

A session is a combo as the repository reads it. What internal netting and clearing leave of it is
a session of its own, and the plan that is handed to the router has a step for each of its legs.

* **`buildExecutionPlan_steps`** — the steps are the legs, each with what the session says remains.
-/

namespace LotusRfq.Combo

inductive AcceptancePolicy where
  | ALL_OR_NONE
  | PARTIAL_ALLOWED
  | BEST_EFFORT

structure ComboLeg where
  id : String
  comboSessionId : String
  canonicalMarketId : String
  canonicalOutcomeId : String
  side : Side
  quantity : ℚ
  remainingSize : Option ℚ
  priceHint : Option ℚ
  metadata : Option LegMetadata
  deriving DecidableEq

structure ComboRFQSession where
  id : String
  userId : String
  acceptancePolicy : AcceptancePolicy
  state : ComboState
  legs : List ComboLeg

/-- `leg.remainingSize ?? leg.quantity`. -/
def ComboLeg.remaining (leg : ComboLeg) : ℚ := leg.remainingSize.getD leg.quantity

def toSessionLeg (leg : LegRow) : ComboLeg :=
  { id := leg.id
    comboSessionId := leg.combo_rfq_id
    canonicalMarketId := leg.canonical_market_id
    canonicalOutcomeId := leg.canonical_outcome_id
    side := leg.side
    quantity := leg.size
    remainingSize := some leg.remaining_size
    priceHint := leg.price_hint
    metadata := leg.metadata }

/-- `getSession`; the acceptance policy of a combo does not change. -/
def getSession (acceptancePolicy : String → AcceptancePolicy) (db : ComboDb) (sessionId : String) :
    Option ComboRFQSession :=
  (loadCombo db sessionId).map fun combo =>
    { id := combo.row.id
      userId := combo.row.user_id
      acceptancePolicy := acceptancePolicy combo.row.id
      state := combo.row.state
      legs := combo.legs.map toSessionLeg }

def toInternalNettingInput (session : ComboRFQSession) : MultiLegInternalNettingInput :=
  { id := session.id
    userId := session.userId
    legs := session.legs.map fun leg =>
      { id := leg.id
        canonicalMarketId := leg.canonicalMarketId
        canonicalOutcomeId := leg.canonicalOutcomeId
        side := leg.side
        remainingSize := leg.remaining
        priceHint := leg.priceHint
        metadata := none } }

def zeroNettingResult (session : ComboRFQSession) : MultiLegInternalNettingResult :=
  { nettedSize := 0
    residualLegs := (toInternalNettingInput session).legs
    residualRemaining := true
    nettingGroupIds := []
    eventsWritten := 0 }

/-- The legs of the session with what the netting result says remains of them; a leg it does not
name has nothing left. -/
def applyResidualLegsToSession (session : ComboRFQSession) (residualLegs : List ResidualComboLeg) :
    ComboRFQSession :=
  { session with
    legs := (session.legs.map fun leg =>
      let residual := residualLegs.reverse.find? fun residual => residual.id = leg.id
      { leg with
        remainingSize := some ((residual.map ResidualComboLeg.remainingSize).getD 0)
        priceHint := (residual.bind ResidualComboLeg.priceHint).or leg.priceHint }).filter
      fun leg => 0 < leg.remaining }

def sessionToResidualOnly (session : ComboRFQSession) : ComboRFQSession :=
  { session with legs := session.legs.filter fun leg => 0 < leg.remaining }

/-! ## The execution plan -/

structure PerLegPrice where
  legId : String
  price : ℚ
  size : ℚ
  deriving DecidableEq

/-- A quote; `connector` is that of its raw payload, if it names one. -/
structure ComboQuote where
  id : String
  lpId : String
  isComboQuote : Bool
  perLegPrices : List PerLegPrice
  effectiveCost : ℚ
  connector : Option String

inductive UnwindStrategy where
  | REVERT_FILL
  | HOLD_POSITION
  | MARKET_SELL

structure ExecutionStep where
  id : String
  legId : String
  targetSize : ℚ
  price : ℚ
  lpId : String
  connector : String
  clientOrderId : String
  idempotencyKey : String
  timeoutMs : ℕ
  maxRetries : ℕ
  backoffMs : ℕ
  unwindStrategy : UnwindStrategy
  originalQuantity : ℚ
  residualQuantity : Option ℚ

structure ExecutionPlan where
  id : String
  comboSessionId : String
  reservationToken : String
  policy : AcceptancePolicy
  steps : List ExecutionStep
  totalCostBasis : ℚ
  status : String

def unwindStrategyOf : AcceptancePolicy → UnwindStrategy
  | .ALL_OR_NONE => .REVERT_FILL
  | .BEST_EFFORT => .HOLD_POSITION
  | .PARTIAL_ALLOWED => .MARKET_SELL

def canUseCompositeRouting (quote : ComboQuote) : Bool :=
  quote.isComboQuote && quote.connector.isSome

def stepPrice (quote : ComboQuote) (leg : ComboLeg) : Except String ℚ :=
  if canUseCompositeRouting quote then .ok 0
  else
    match quote.perLegPrices.find? fun price => price.legId = leg.id with
    | none => .error ("Missing leg pricing for " ++ leg.id ++ " in non-composite routing")
    | some explicitPricing => .ok explicitPricing.price

/-- The step of a leg; `uuid` gives its three ids. -/
def buildStep (quote : ComboQuote) (policy : AcceptancePolicy) (uuid : ℕ → String)
    (leg : ComboLeg) (n : ℕ) : Except String ExecutionStep := do
  let price ← stepPrice quote leg
  return { id := uuid (3 * n + 1)
           legId := leg.id
           targetSize := leg.remaining
           price := price
           lpId := quote.lpId
           connector := quote.connector.getD "DEFAULT_SOR"
           clientOrderId := uuid (3 * n + 2)
           idempotencyKey := uuid (3 * n + 3)
           timeoutMs := 5000
           maxRetries := if canUseCompositeRouting quote then 0 else 2
           backoffMs := 250
           unwindStrategy := unwindStrategyOf policy
           originalQuantity := leg.quantity
           residualQuantity := leg.remainingSize }

/-- `ExecutionPlanBuilder.buildExecutionPlan`, up to where the plan is saved. -/
def buildExecutionPlan (combo : ComboRFQSession) (quote : ComboQuote) (reservationToken : String)
    (uuid : ℕ → String) : Except String ExecutionPlan := do
  let steps ← (combo.legs.filter fun leg => 0 < leg.remaining).zipIdx.mapM fun (leg, n) =>
    buildStep quote combo.acceptancePolicy uuid leg n
  return { id := uuid 0
           comboSessionId := combo.id
           reservationToken := reservationToken
           policy := combo.acceptancePolicy
           steps := steps
           totalCostBasis := quote.effectiveCost
           status := "DRAFT" }

theorem buildStep_routes {quote : ComboQuote} {policy : AcceptancePolicy} {uuid : ℕ → String}
    {leg : ComboLeg} {n : ℕ} {step : ExecutionStep}
    (h : buildStep quote policy uuid leg n = .ok step) :
    (step.legId, step.targetSize) = (leg.id, leg.remaining) := by
  obtain ⟨price, -, h⟩ := Tables.bind_eq_ok.mp h
  cases h
  rfl

/-- **The steps of a plan** are the legs with something left, in order, each with what is left. -/
theorem buildExecutionPlan_steps {combo : ComboRFQSession} {quote : ComboQuote}
    {reservationToken : String} {uuid : ℕ → String} {plan : ExecutionPlan}
    (h : buildExecutionPlan combo quote reservationToken uuid = .ok plan) :
    plan.steps.map (fun step => (step.legId, step.targetSize)) =
      (combo.legs.filter fun leg => 0 < leg.remaining).map fun leg => (leg.id, leg.remaining) := by
  obtain ⟨steps, hsteps, h⟩ := Tables.bind_eq_ok.mp h
  cases h
  show steps.map (fun step => (step.legId, step.targetSize)) = _
  have hread : steps.map (fun step => (step.legId, step.targetSize)) =
      (combo.legs.filter fun leg => 0 < leg.remaining).zipIdx.map fun item =>
        (item.1.id, item.1.remaining) :=
    Tables.map_of_mapM hsteps fun _ _ _ hstep => buildStep_routes hstep
  rw [hread]
  conv_rhs => rw [← List.zipIdx_map_fst 0 (combo.legs.filter _), List.map_map]
  rfl

end LotusRfq.Combo
