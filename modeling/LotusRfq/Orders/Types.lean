import LotusRfq.Lib.Processes

/-!
# LotusRfq — execution orders and their repository

One order of the execution order orchestrator. `updateOrder` is a read, a write of the whole row and
another read; `startSubmit` is a compare-and-set on the state. Next to the row, the orchestrator
remembers whether it has a submit in flight.
-/

namespace LotusRfq.Orders

open Processes

inductive ExecutionOrderState where
  | READY_TO_PLACE
  | NEEDS_SIGNATURE
  | NEEDS_VENUE_SETUP
  | WAITING_FOR_VENUE_READY
  | BLOCKED_ACTION_REQUIRED
  | SUBMITTING
  | SUBMITTED
  | FILLED
  | FAILED
  | EXPIRED
  deriving DecidableEq

inductive ExecutionOrderPrimaryAction where
  | PLACE_ORDER
  | SIGN
  | ENABLE_VENUE
  | NONE
  deriving DecidableEq

structure ExecutionOrderBlocker where
  code : String
  message : String
  venue : Option String
  actionable : Bool

/-- A row of `execution_orders_v1`; the times are in milliseconds. -/
structure ExecutionOrderRecord where
  quoteId : Option String
  executionId : Option String
  state : ExecutionOrderState
  primaryAction : ExecutionOrderPrimaryAction
  blockers : List ExecutionOrderBlocker
  lastError : Option String
  nextPollAt : Option ℕ
  createdAt : ℕ
  updatedAt : ℕ

def isTerminalOrPendingSubmit (state : ExecutionOrderState) : Bool :=
  state ∈ [ExecutionOrderState.SUBMITTING, .SUBMITTED, .FILLED, .FAILED, .EXPIRED]

def primaryActionForState : ExecutionOrderState → ExecutionOrderPrimaryAction
  | .READY_TO_PLACE => .PLACE_ORDER
  | .NEEDS_SIGNATURE => .SIGN
  | .NEEDS_VENUE_SETUP => .ENABLE_VENUE
  | _ => .NONE

/-- `nextPollAtForState` at the time `now`. -/
def nextPollAtForState (now : ℕ) (state : ExecutionOrderState) : Option ℕ :=
  if state = .SUBMITTING ∨ state = .SUBMITTED ∨ state = .WAITING_FOR_VENUE_READY then
    some (now + 2000)
  else none

/-! ## What the operations ask for -/

/-- Requests of one order's operations. A write carries the state of the order that the operation
had in hand when it decided on the write. -/
inductive OrderRequest where
  | findOrder
  | saveOrder (seen : ExecutionOrderState) (order : ExecutionOrderRecord)
  | startSubmit (allowedStates : List ExecutionOrderState)
  /-- `submitInFlight`: unless a submit is in flight, note one and call
  `SignedTradeBundleService.submit`. -/
  | beginSubmit
  | endSubmit
  | clock
  | elapse (milliseconds : ℕ)

abbrev OrderRequest.Answer : OrderRequest → Type
  | .findOrder => ExecutionOrderRecord
  | .saveOrder _ _ => Unit
  | .startSubmit _ => Option ExecutionOrderRecord
  | .beginSubmit => Bool
  | .endSubmit => Unit
  | .clock => ℕ
  | .elapse _ => Unit

/-- The order, the time, and how often its submit was started and called. -/
structure OrderState where
  row : ExecutionOrderRecord
  now : ℕ
  submitInFlight : Bool
  started : ℕ
  submitted : ℕ

/-- `saveOrder` on a row that is there: the execution id is kept where the new row has none. -/
def saved (order row : ExecutionOrderRecord) : ExecutionOrderRecord :=
  { order with executionId := order.executionId.or row.executionId, createdAt := row.createdAt }

def handle : (request : OrderRequest) → OrderState → request.Answer × OrderState
  | .findOrder, s => (s.row, s)
  | .saveOrder _ order, s => ((), { s with row := saved order s.row })
  | .startSubmit allowedStates, s =>
    if s.row.state ∈ allowedStates then
      let submitting := { s.row with
        state := .SUBMITTING
        primaryAction := .NONE
        nextPollAt := some (s.now + 2000)
        updatedAt := s.now }
      (some submitting, { s with row := submitting, started := s.started + 1 })
    else (none, s)
  | .beginSubmit, s =>
    if s.submitInFlight then (false, s)
    else (true, { s with submitInFlight := true, submitted := s.submitted + 1 })
  | .endSubmit, s => ((), { s with submitInFlight := false })
  | .clock, s => (s.now, s)
  | .elapse milliseconds, s => ((), { s with now := s.now + milliseconds })

abbrev OrderCode : Type → Type := Code OrderRequest OrderRequest.Answer

def findOrder : OrderCode ExecutionOrderRecord := request OrderRequest.findOrder

def startSubmit (allowedStates : List ExecutionOrderState) :
    OrderCode (Option ExecutionOrderRecord) :=
  request (OrderRequest.startSubmit allowedStates)

/-- `Date.now()`. -/
def clock : OrderCode ℕ := request OrderRequest.clock

/-- What `updateOrder` is given to change; `lastError` and `executionId` are not always part of
it. -/
structure OrderPatch where
  state : ExecutionOrderState
  primaryAction : ExecutionOrderPrimaryAction
  blockers : List ExecutionOrderBlocker
  nextPollAt : Option ℕ
  lastError : Option (Option String)
  executionId : Option String

def OrderPatch.apply (patch : OrderPatch) (now : ℕ) (current : ExecutionOrderRecord) :
    ExecutionOrderRecord :=
  { current with
    state := patch.state
    primaryAction := patch.primaryAction
    blockers := patch.blockers
    nextPollAt := patch.nextPollAt
    lastError := patch.lastError.getD current.lastError
    executionId := patch.executionId.or current.executionId
    updatedAt := now }

/-- `updateOrder` for an operation that has `order` in hand. -/
def updateOrder (order : ExecutionOrderRecord) (patch : OrderPatch) :
    OrderCode ExecutionOrderRecord := do
  let current ← findOrder
  let now ← clock
  request (OrderRequest.saveOrder order.state (patch.apply now current))
  findOrder

end LotusRfq.Orders
