import LotusRfq.Bundles.Types
import LotusRfq.Orders.Types

/-!
# LotusRfq — `ExecutionOrderOrchestrator` on one order

`place` and `submitSignatures` check the order and start its submit, which goes on in the background;
`status` refreshes, recovers or expires it. What the quote, the readiness and the bundle services
answer comes with the operation. An operation that throws asks for nothing more.
-/

namespace LotusRfq.Orders

open Bundles (BundleStatus)
open Processes

/-! ## Answers of the other services -/

/-- What is read of the result of `submit`, or of the stored status of an execution: the first
failure of its legs, and the blockers made of them. -/
structure BundleReport where
  executionId : String
  status : BundleStatus
  failure : Option String
  blockers : List ExecutionOrderBlocker

/-- What `submit` threw, as `normalizeSubmitError` has it. -/
structure SubmitError where
  code : String
  message : String

structure ExecutableTradeQuote where
  quoteRequiresSignature : Bool

/-- What `classifyReadiness` comes to. -/
inductive ReadinessState where
  | BLOCKED_ACTION_REQUIRED
  | WAITING_FOR_VENUE_READY
  | NEEDS_VENUE_SETUP
  | READY_TO_PLACE
  deriving DecidableEq

def ReadinessState.orderState : ReadinessState → ExecutionOrderState
  | .BLOCKED_ACTION_REQUIRED => .BLOCKED_ACTION_REQUIRED
  | .WAITING_FOR_VENUE_READY => .WAITING_FOR_VENUE_READY
  | .NEEDS_VENUE_SETUP => .NEEDS_VENUE_SETUP
  | .READY_TO_PLACE => .READY_TO_PLACE

structure StatusAnswers where
  quote : Option ExecutableTradeQuote
  executionStatus : Option BundleReport

/-- What `place` and `submitSignatures` are answered: the quote, what blocks it, the readiness and
its blockers, what becomes of the submit, and the answers to `status` where that is called. -/
structure PlaceAnswers where
  quote : Option ExecutableTradeQuote
  sellGuard : List ExecutionOrderBlocker
  fokBlocker : Option ExecutionOrderBlocker
  readiness : ReadinessState
  readinessBlockers : List ExecutionOrderBlocker
  submit : Except SubmitError BundleReport
  status : StatusAnswers

/-! ## Changes to the order -/

def blockOrder (order : ExecutionOrderRecord) (blockers : List ExecutionOrderBlocker) :
    OrderCode Unit := do
  let _ ← updateOrder order {
    state := .BLOCKED_ACTION_REQUIRED
    primaryAction := .NONE
    blockers
    nextPollAt := none
    lastError := some (blockers.head?.map (·.message))
    executionId := none }

def expireOrder (order : ExecutionOrderRecord) : OrderCode Unit := do
  let _ ← updateOrder order {
    state := .EXPIRED
    primaryAction := .NONE
    blockers := [⟨"QUOTE_EXPIRED",
      "Quote expired before execution. Refresh route and retry.", none, false⟩]
    nextPollAt := none
    lastError := none
    executionId := none }

def interruptedSubmitBlocker : ExecutionOrderBlocker :=
  ⟨"EXECUTION_ORDER_SUBMIT_INTERRUPTED",
    "Order submit was interrupted before the venue received it. Refresh route and place again.",
    none, true⟩

def SUBMIT_START_INTERRUPTED_AFTER_MS : ℕ := 30000
def FAILED_EXECUTION_RECONCILE_WINDOW_MS : ℕ := 120000
def FAILED_EXECUTION_RECONCILE_POLL_MS : ℕ := 15000

def recoverInterruptedSubmit (order : ExecutionOrderRecord) :
    OrderCode (Option ExecutionOrderRecord) := do
  if order.state ≠ .SUBMITTING ∨ order.executionId.isSome then return none
  else
    let now ← clock
    if now - order.updatedAt < SUBMIT_START_INTERRUPTED_AFTER_MS then return none
    else
      let updated ← updateOrder order {
        state := .FAILED
        primaryAction := .NONE
        blockers := [interruptedSubmitBlocker]
        nextPollAt := none
        lastError := some (some interruptedSubmitBlocker.message)
        executionId := none }
      return some updated

def clearTerminalFillNoise (order : ExecutionOrderRecord) : OrderCode ExecutionOrderRecord :=
  if order.lastError = none ∧ order.blockers = [] ∧ order.nextPollAt = none ∧
      order.primaryAction = .NONE then return order
  else updateOrder order {
    state := .FILLED
    primaryAction := .NONE
    blockers := []
    nextPollAt := none
    lastError := some none
    executionId := none }

/-! ## Reports of the bundle service -/

def stateFromSubmitResult (status : BundleStatus) : ExecutionOrderState :=
  if status = .FAILED then .FAILED else .SUBMITTED

def stateFromSignedStatus : BundleStatus → ExecutionOrderState
  | .FAILED => .FAILED
  | .FILLED => .FILLED
  | _ => .SUBMITTED

def nextPollAtForSubmitResult (now : ℕ) (result : BundleReport) : Option ℕ :=
  if result.status = .FAILED ∧ result.executionId ≠ "" then
    some (now + FAILED_EXECUTION_RECONCILE_POLL_MS)
  else nextPollAtForState now (stateFromSubmitResult result.status)

def nextPollAtForSignedStatus (now : ℕ) (order : ExecutionOrderRecord) (status : BundleReport) :
    Option ℕ :=
  if status.status = .FAILED ∧ status.executionId ≠ "" ∧
      now - order.createdAt < FAILED_EXECUTION_RECONCILE_WINDOW_MS then
    some (now + FAILED_EXECUTION_RECONCILE_POLL_MS)
  else nextPollAtForState now (stateFromSignedStatus status.status)

/-- What `updateFromSubmitResult` and `updateFromSignedStatus` do alike: an order that is filled
stays so, in the state that was read. -/
def updateFromReport (state : ExecutionOrderState) (nextPollAt : ℕ → Option ℕ)
    (report : BundleReport) : OrderCode Unit := do
  let latest ← findOrder
  if latest.state = .FILLED ∧ state ≠ .FILLED then
    let _ ← clearTerminalFillNoise latest
  else
    let now ← clock
    let _ ← updateOrder latest {
      state
      primaryAction := primaryActionForState state
      blockers := if report.status = .FAILED then report.blockers else []
      nextPollAt := nextPollAt now
      lastError := some (if report.status = .FAILED then report.failure else none)
      executionId := some report.executionId }

def updateFromSubmitResult (result : BundleReport) : OrderCode Unit :=
  updateFromReport (stateFromSubmitResult result.status)
    (fun now => nextPollAtForSubmitResult now result) result

def updateFromSignedStatus (order : ExecutionOrderRecord) (status : BundleReport) :
    OrderCode Unit :=
  updateFromReport (stateFromSignedStatus status.status)
    (fun now => nextPollAtForSignedStatus now order status) status

/-! ## Operations -/

/-- `loadFreshQuote`, given what the route service has for the quote. -/
def loadFreshQuote (order : ExecutionOrderRecord) (quote : Option ExecutableTradeQuote) :
    Option ExecutableTradeQuote :=
  if order.quoteId.isNone then none else quote

/-- `signedTradeBundleService` is there or not. -/
structure OrchestratorConfig where
  signedTradeBundleService : Bool

def status (config : OrchestratorConfig) (answers : StatusAnswers) : OrderCode Unit := do
  let order ← findOrder
  match ← recoverInterruptedSubmit order with
  | some _ => return ()
  | none =>
    let currentOrder ←
      (if order.state = .FILLED then clearTerminalFillNoise order else pure order :
        OrderCode ExecutionOrderRecord)
    if (loadFreshQuote currentOrder answers.quote).isNone ∧ currentOrder.state ∉
        [ExecutionOrderState.SUBMITTING, .SUBMITTED, .FILLED, .FAILED] then
      expireOrder currentOrder
    else if config.signedTradeBundleService ∧
        (currentOrder.executionId.or currentOrder.quoteId).isSome then
      match answers.executionStatus with
      | some status => updateFromSignedStatus currentOrder status
      | none => return ()
    else return ()

/-- The order fails, whatever has become of it meanwhile. -/
def failSubmit (submitting : ExecutionOrderRecord) (error : SubmitError) : OrderCode Unit := do
  let _ ← updateOrder submitting {
    state := .FAILED
    primaryAction := .NONE
    blockers := [⟨error.code, error.message, none, false⟩]
    nextPollAt := none
    lastError := some (some error.message)
    executionId := none }

/-- `runSubmitInBackground` once `submit` has answered. -/
def runSubmitInBackground (submitting : ExecutionOrderRecord)
    (result : Except SubmitError BundleReport) : OrderCode Unit :=
  match result with
  | .ok result => updateFromSubmitResult result
  | .error error => failSubmit submitting error

def submitOrderAsync (config : OrchestratorConfig) (answers : PlaceAnswers)
    (allowedStates : List ExecutionOrderState) : OrderCode Unit := do
  if !config.signedTradeBundleService then return ()
  else
    match ← startSubmit allowedStates with
    | none => status config answers.status
    | some submitting =>
      if ← request OrderRequest.beginSubmit then
        runSubmitInBackground submitting answers.submit
        request OrderRequest.endSubmit

def place (config : OrchestratorConfig) (answers : PlaceAnswers) : OrderCode Unit := do
  let order ← findOrder
  if isTerminalOrPendingSubmit order.state then status config answers.status
  else
    match loadFreshQuote order answers.quote with
    | none => expireOrder order
    | some quote =>
      if answers.sellGuard ≠ [] then blockOrder order answers.sellGuard
      else
        match answers.fokBlocker with
        | some blocker => blockOrder order [blocker]
        | none =>
          if !config.signedTradeBundleService then return ()
          else if answers.readiness ≠ .READY_TO_PLACE then
            let now ← clock
            let state := answers.readiness.orderState
            let _ ← updateOrder order {
              state
              primaryAction := primaryActionForState state
              blockers := answers.readinessBlockers
              nextPollAt := nextPollAtForState now state
              lastError := none
              executionId := none }
          else if quote.quoteRequiresSignature then
            let _ ← updateOrder order {
              state := .NEEDS_SIGNATURE
              primaryAction := .SIGN
              blockers := []
              nextPollAt := none
              lastError := none
              executionId := none }
          else submitOrderAsync config answers [.READY_TO_PLACE]

/-- The checks of the signed payloads against the route end as a blocker or not at all. -/
def submitSignatures (config : OrchestratorConfig) (answers : PlaceAnswers) : OrderCode Unit := do
  let order ← findOrder
  if order.state ≠ .NEEDS_SIGNATURE then
    if isTerminalOrPendingSubmit order.state then status config answers.status else return ()
  else
    match loadFreshQuote order answers.quote with
    | none => expireOrder order
    | some _ =>
      if answers.sellGuard ≠ [] then blockOrder order answers.sellGuard
      else
        match answers.fokBlocker with
        | some blocker => blockOrder order [blocker]
        | none => submitOrderAsync config answers [.NEEDS_SIGNATURE]

/-! ## Side by side -/

inductive OrderOperation where
  | place (answers : PlaceAnswers)
  | submitSignatures (answers : PlaceAnswers)
  | status (answers : StatusAnswers)
  /-- Time passes. -/
  | elapse (milliseconds : ℕ)

def OrderOperation.code (config : OrchestratorConfig) : OrderOperation → OrderCode Unit
  | .place answers => Orders.place config answers
  | .submitSignatures answers => Orders.submitSignatures config answers
  | .status answers => Orders.status config answers
  | .elapse milliseconds => request (OrderRequest.elapse milliseconds)

abbrev OrderSystem : Type := System OrderState OrderRequest OrderRequest.Answer

def orderStep (config : OrchestratorConfig) :
    OrderSystem → Action OrderOperation → Option OrderSystem :=
  step (OrderOperation.code config) handle

end LotusRfq.Orders
