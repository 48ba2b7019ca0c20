import LotusRfq.Sor.LegAllocations

/-!
# LotusRfq — the tables of a routing plan

What `PlanRunner` shares with every other runner of the same plan: the plan row, its steps, the
candidates of its legs, the history, the Redis locks of the steps. `executions`, `exposures` and
`planUpdates` are the calls that leave the database, in the order in which they were made: to the
execution router, to the risk engine, and the writes of the plan's state, each with the step rows
as they were at that moment.
-/

namespace LotusRfq.Sor

open LotusRfq.Js

inductive LiquiditySource where
  | LP
  | VENUE
  | INTERNAL_CROSS
  | INTERNAL_NETTING
  | INTERNAL_CLEARING
  deriving DecidableEq

inductive RoutingPlanStatus where
  | DRAFT
  | RESERVED
  | RUNNING
  | COMPLETED
  | FAILED
  | UNWOUND
  deriving DecidableEq

inductive PlanStepStatus where
  | PENDING
  | EXECUTING
  | FILLED
  | FAILED
  | SKIPPED
  | UNWOUND
  deriving DecidableEq

/-- The `result` column of a step: what the runner writes there, or an earlier value, of which it
reads the executed price. -/
inductive StepResult where
  | filled (execution_ref : Option String) (provider_id : String)
      (reservation_token : Option String)
  | failed (reason : String) (attempts : ℕ)
  | fallback (source_step_id fallback_candidate_id : String)
  | other (executed_price : Option String)
  deriving DecidableEq

/-- A row of `routing_plans`; of its metadata only the flag the runner sets. -/
structure PersistedRoutingPlan where
  id : String
  acceptance_policy : SORAcceptancePolicy
  reservation_token : Option String
  state : RoutingPlanStatus
  metadataPartial : Bool

structure PersistedRouteStep where
  id : String
  leg_id : String
  step_index : ℤ
  provider_type : LiquiditySource
  provider_id : String
  target_size : ℚ
  client_order_id : String
  idempotency_key : String
  state : PlanStepStatus
  result : Option StepResult
  deriving DecidableEq

structure PersistedRouteCandidate where
  id : String
  leg_id : String
  provider_type : LiquiditySource
  provider_id : String
  quoted_price : ℚ

structure RFQSession where
  taker_id : String
  canonical_market_id : String
  side : String

/-- The caller's plan, as far as the runner passes it on. -/
structure ExecutionPlan where
  id : String
  rfqId : String

/-- What `executeStep` of the execution router is called with. -/
structure PlanStep where
  id : String
  stepIndex : ℤ
  providerType : LiquiditySource
  providerId : String
  targetSize : ℚ
  roundedSize : ℚ
  targetPrice : ℚ
  idempotencyKey : String
  state : PlanStepStatus
  leg_id : String
  client_order_id : String
  deriving DecidableEq

/-- The rows of `route_history`, one constructor for each event type. -/
inductive RouteEvent where
  | ROUTE_RUN_CONTEXT (rfq_id : String) (reservation_token : Option String)
  | ROUTE_RUN_STARTED (rfq_id : String)
  | ROUTE_RUN_FAILED (rfq_id : String)
  | ROUTE_RUN_COMPLETED (rfq_id : String)
  | ROUTE_RUN_PARTIAL (rfq_id : String)
  | ROUTE_UNWIND_STARTED (rfq_id reason : String)
  | ROUTE_UNWIND_REQUIRED (rfq_id reason : String)
  | ROUTE_UNWIND_COMPLETED (rfq_id mode : String)
  | ROUTE_STEP_LOCK_SKIPPED (step_id provider_id : String)
  | ROUTE_STEP_FILLED (step_id provider_id : String)
  | ROUTE_STEP_FAILED (step_id provider_id reason : String)
  | ROUTE_STEP_FALLBACK_CREATED (step_id fallback_step_id leg_id : String)

/-- The argument of `updateExposureAfterExecution`. -/
structure ExposureUpdate where
  id : String
  executionId : String
  planId : String
  rfqId : String
  sessionId : String
  reservationToken : Option String
  takerId : String
  canonicalMarketId : String
  side : String
  executedQuantity : ℚ
  executedPrice : String
  providerId : String
  legId : String
  quantity : ℚ
  isInternal : Bool

/-- A call to the execution router, the plan step it was made for, and what the runner saw. -/
structure Execution where
  runner : ℕ
  origin : String
  step : PlanStep
  ok : Bool

/-- A write of the plan's state, and the step rows when it was made. -/
structure PlanUpdate where
  state : RoutingPlanStatus
  metadataPartial : Bool
  steps : List PersistedRouteStep
  deriving DecidableEq

structure PlanStore where
  plan : PersistedRoutingPlan
  steps : List PersistedRouteStep
  candidates : List PersistedRouteCandidate
  sessions : List (String × RFQSession)
  history : List RouteEvent
  locks : String → Option String
  executions : List Execution
  exposures : List ExposureUpdate
  planUpdates : List PlanUpdate

/-- `TERMINAL_STEP_STATES`. -/
def PlanStepStatus.terminal (state : PlanStepStatus) : Bool :=
  state = .FILLED ∨ state = .SKIPPED ∨ state = .UNWOUND

/-- `TERMINAL_PLAN_STATES`. -/
def RoutingPlanStatus.terminal (state : RoutingPlanStatus) : Bool :=
  state = .COMPLETED ∨ state = .FAILED ∨ state = .UNWOUND

def toPlanStep (step : PersistedRouteStep) : PlanStep :=
  { id := step.id
    stepIndex := step.step_index
    providerType := step.provider_type
    providerId := step.provider_id
    targetSize := step.target_size
    roundedSize := step.target_size
    targetPrice := 0
    idempotencyKey := step.idempotency_key
    state := step.state
    leg_id := step.leg_id
    client_order_id := step.client_order_id }

/-- The price of the exposure update: the stored one when it is a string, else `"1"`. -/
def executedPrice (result : Option StepResult) : String :=
  match result with
  | some (.other (some executed_price)) => executed_price
  | _ => "1"

namespace PlanStore

/-! ## Queries -/

def loadPlan (store : PlanStore) (planId : String) : Option PersistedRoutingPlan :=
  if store.plan.id = planId then some store.plan else none

def loadPlanSteps (store : PlanStore) : List PersistedRouteStep :=
  sortWith (fun a b => compare a.step_index b.step_index) store.steps

def getStepById (store : PlanStore) (stepId : String) : Option PersistedRouteStep :=
  store.steps.find? (·.id = stepId)

def loadCandidatesByLeg (store : PlanStore) (legId : String) : List PersistedRouteCandidate :=
  sortWith (fun a b => compare a.quoted_price b.quoted_price)
    (store.candidates.filter (·.leg_id = legId))

def loadRFQSession (store : PlanStore) (sessionId : String) : Option RFQSession :=
  store.sessions.lookup sessionId

def loadNextStepIndex (store : PlanStore) : ℤ :=
  ((store.steps.map (·.step_index)).max?).getD (-1) + 1

/-- The rows `markStepExecuting` would update. -/
def executable (store : PlanStore) (stepId : String) : Bool :=
  store.steps.any fun step => step.id = stepId ∧ (step.state = .PENDING ∨ step.state = .FAILED)

/-! ## Updates -/

def insertRouteHistory (store : PlanStore) (event : RouteEvent) : PlanStore :=
  { store with history := store.history ++ [event] }

/-- `UPDATE route_steps … WHERE id = stepId`. -/
def updateStep (store : PlanStore) (stepId : String)
    (f : PersistedRouteStep → PersistedRouteStep) : PlanStore :=
  { store with steps := store.steps.map fun step => if step.id = stepId then f step else step }

def markStepExecuting (store : PlanStore) (stepId : String) : PlanStore :=
  store.updateStep stepId fun step =>
    if step.state = .PENDING ∨ step.state = .FAILED then { step with state := .EXECUTING } else step

def markStepFilled (store : PlanStore) (stepId : String) (payload : StepResult) : PlanStore :=
  store.updateStep stepId fun step => { step with state := .FILLED, result := some payload }

def markStepFailed (store : PlanStore) (stepId : String) (payload : StepResult) : PlanStore :=
  store.updateStep stepId fun step => { step with state := .FAILED, result := some payload }

def insertStep (store : PlanStore) (step : PersistedRouteStep) : PlanStore :=
  { store with steps := store.steps ++ [step] }

/-- `metadata || patch`: a patch without the flag leaves it as it is. -/
def updatePlanState (store : PlanStore) (state : RoutingPlanStatus) (metadataPartial : Bool) :
    PlanStore :=
  { store with
    plan := { store.plan with state := state, metadataPartial := store.plan.metadataPartial || metadataPartial }
    planUpdates := store.planUpdates ++ [⟨state, metadataPartial, store.steps⟩] }

def setLock (store : PlanStore) (stepId : String) (lockToken : Option String) : PlanStore :=
  { store with locks := fun id => if id = stepId then lockToken else store.locks id }

def recordExecution (store : PlanStore) (execution : Execution) : PlanStore :=
  { store with executions := store.executions ++ [execution] }

def recordExposure (store : PlanStore) (exposure : ExposureUpdate) : PlanStore :=
  { store with exposures := store.exposures ++ [exposure] }

end PlanStore

end LotusRfq.Sor
