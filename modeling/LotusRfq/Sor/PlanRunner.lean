import LotusRfq.Lib.Calls
import LotusRfq.Lib.Transitions
import LotusRfq.Sor.PlanStore

/-!
# LotusRfq — `PlanRunner`

Any number of `run` calls on one plan. A call is a process of its own: its code between two
`await`s is one action, and every awaited call takes effect, or fails, or both, when the action
that completes it is taken (`Calls.Awaited`). A worker of `runWithConcurrency` is a process too; it goes on when the
run it belongs to has been rejected, and stops only with a crash.

* **`chainStep`** — a worker on one plan step and its fallbacks (`executeStepWithFallback`,
  `executeSingleStep`, `createFallbackStep`);
* **`resolvePlanResult`** — the calls by which a run classifies the plan, and what it returns;
* **`act`** — one action of the whole system.
-/

namespace LotusRfq.Sor

open LotusRfq.Js

/-- `config.concurrency` and `config.retry.maxRetries`; the delays are real time. -/
structure PlanRunnerConfig where
  concurrency : ℤ
  maxRetries : ℤ

/-- What `executeStep` of the execution router resolves to. -/
structure ExecuteStepResult where
  ok : Bool
  executionRef : Option String
  error : Option String

/-- How an awaited call ends; only the execution router answers. -/
abbrev Reply := Calls.Reply ExecuteStepResult

abbrev Awaited (β : Type) := Calls.Awaited PlanStore β

/-! ## A worker on one step -/

/-- The awaited calls after an execution that is observed as ok. -/
inductive SuccessCall where
  | loadPlan
  | markStepFilled (reservation_token : Option String)
  | riskLoadPlan
  | riskLoadRFQSession (reservation_token : Option String)
  | updateExposure (reservation_token : Option String) (session : RFQSession)
  | insertRouteHistory

inductive StepAttemptStatus where
  | FILLED
  | FAILED
  | SKIPPED
  deriving DecidableEq

/-- How control leaves the `try` of `executeSingleStep`. An exception may leave the row
`EXECUTING`: `left` names it. -/
inductive StepExit where
  | result (status : StepAttemptStatus)
  | threw (left : Option String)

inductive StepPhase where
  | locking
  | lockSkipped
  | refreshing
  | marking (refreshed : PersistedRouteStep)
  | executing (refreshed : PersistedRouteStep) (attempt : ℕ) (transientErrors : List String)
  | succeeding (refreshed : PersistedRouteStep) (attempt : ℕ) (transientErrors : List String)
      (executionRef : Option String) (next : SuccessCall)
  | failing (refreshed : PersistedRouteStep) (transientErrors : List String)
  | failed (refreshed : PersistedRouteStep) (failureReason : String)
  | releasing (exit : StepExit)
  | loadingCandidates
  | loadingNextIndex (fallback : PersistedRouteCandidate)
  | insertingFallback (fallback : PersistedRouteCandidate) (nextStepIndex : ℤ)
  | fallbackCreated (fallback : PersistedRouteStep)

/-- A call of `executeStepWithFallback`: the step it was made for, the step it has come to. -/
structure Chain where
  origin : String
  currentStep : PersistedRouteStep
  attemptedProviders : List String
  phase : StepPhase

inductive Worker where
  | idle
  | busy (chain : Chain)
  | rejected (left : Option String)
  | finished

def Chain.goTo (chain : Chain) (phase : StepPhase) : Worker := .busy { chain with phase := phase }

def PlanRunnerConfig.maxAttempts (config : PlanRunnerConfig) : ℤ := config.maxRetries + 1

/-- The next turn of the attempt loop, or the way out of it. -/
def nextAttempt (config : PlanRunnerConfig) (refreshed : PersistedRouteStep) (attempt : ℕ)
    (transientErrors : List String) : StepPhase :=
  if attempt < config.maxAttempts then .executing refreshed (attempt + 1) transientErrors
  else .failing refreshed transientErrors

def failureReason (transientErrors : List String) : String :=
  transientErrors.getLast?.getD "execution_failed"

/-- The first candidate of the leg, by price, whose provider was not attempted. -/
def findFallback (store : PlanStore) (chain : Chain) : Option PersistedRouteCandidate :=
  (store.loadCandidatesByLeg chain.currentStep.leg_id).find? fun candidate =>
    candidate.provider_id ∉ chain.attemptedProviders

def fallbackStep (chain : Chain) (fallback : PersistedRouteCandidate) (nextStepIndex : ℤ)
    (randomUUID : ℕ → String) : PersistedRouteStep :=
  { id := randomUUID 0
    leg_id := chain.currentStep.leg_id
    step_index := nextStepIndex
    provider_type := fallback.provider_type
    provider_id := fallback.provider_id
    target_size := chain.currentStep.target_size
    client_order_id := randomUUID 2
    idempotency_key := randomUUID 1
    state := .PENDING
    result := none }

def exposureUpdate (plan : ExecutionPlan) (step : PersistedRouteStep)
    (reservation_token : Option String) (session : RFQSession) : ExposureUpdate :=
  { id := step.id
    executionId := step.id
    planId := plan.id
    rfqId := plan.rfqId
    sessionId := plan.rfqId
    reservationToken := reservation_token
    takerId := session.taker_id
    canonicalMarketId := session.canonical_market_id
    side := session.side
    executedQuantity := step.target_size
    executedPrice := executedPrice step.result
    providerId := step.provider_id
    legId := step.leg_id
    quantity := step.target_size
    isInternal := step.provider_type = .INTERNAL_CROSS }

/-- A call of the success path. What it throws counts as a failed attempt. -/
def successCall (config : PlanRunnerConfig) (plan : ExecutionPlan) (store : PlanStore)
    (chain : Chain) (refreshed : PersistedRouteStep) (attempt : ℕ) (transientErrors : List String)
    (executionRef : Option String) (next : SuccessCall) : Awaited Worker :=
  let goOn (next : SuccessCall) : Worker :=
    chain.goTo (.succeeding refreshed attempt transientErrors executionRef next)
  let caught (_ : Bool) (error : String) : Worker :=
    chain.goTo (nextAttempt config refreshed attempt (transientErrors ++ [error]))
  match next with
  | .loadPlan =>
    { effect := store
      onReturn := match store.loadPlan plan.id with
        | some persistedPlan => goOn (.markStepFilled persistedPlan.reservation_token)
        | none => caught false ("Routing plan " ++ plan.id ++ " not found.")
      onThrow := caught }
  | .markStepFilled reservation_token =>
    { effect := store.markStepFilled refreshed.id
        (.filled executionRef refreshed.provider_id reservation_token)
      onReturn := goOn .riskLoadPlan
      onThrow := caught }
  | .riskLoadPlan =>
    { effect := store
      onReturn := match store.loadPlan plan.id with
        | some persistedPlan => goOn (.riskLoadRFQSession persistedPlan.reservation_token)
        | none => caught false ("Routing plan " ++ plan.id ++ " not found.")
      onThrow := caught }
  | .riskLoadRFQSession reservation_token =>
    { effect := store
      onReturn := match store.loadRFQSession plan.rfqId with
        | some session => goOn (.updateExposure reservation_token session)
        | none => caught false ("RFQ session " ++ plan.rfqId ++ " not found for risk update.")
      onThrow := caught }
  | .updateExposure reservation_token session =>
    { effect := store.recordExposure (exposureUpdate plan refreshed reservation_token session)
      onReturn := goOn .insertRouteHistory
      onThrow := caught }
  | .insertRouteHistory =>
    { effect := store.insertRouteHistory (.ROUTE_STEP_FILLED refreshed.id refreshed.provider_id)
      onReturn := chain.goTo (.releasing (.result .FILLED))
      onThrow := caught }

/-- What the worker awaits, the execution router apart. -/
def chainCall (config : PlanRunnerConfig) (plan : ExecutionPlan) (store : PlanStore)
    (chain : Chain) (randomUUID : ℕ → String) : Option (Awaited Worker) :=
  let step := chain.currentStep
  let reject (_ : Bool) (_ : String) : Worker := .rejected none
  match chain.phase with
  | .locking =>
    some <| match store.locks step.id with
      | none => ⟨store.setLock step.id (some (randomUUID 0)), chain.goTo .refreshing, reject⟩
      | some _ => ⟨store, chain.goTo .lockSkipped, reject⟩
  | .lockSkipped =>
    some ⟨store.insertRouteHistory (.ROUTE_STEP_LOCK_SKIPPED step.id step.provider_id),
      .idle, reject⟩
  | .refreshing =>
    some
      { effect := store
        onReturn := match store.getStepById step.id with
          | none => chain.goTo (.releasing (.result .SKIPPED))
          | some refreshed =>
            if refreshed.state.terminal then chain.goTo (.releasing (.result .SKIPPED))
            else chain.goTo (.marking refreshed)
        onThrow := fun _ _ => chain.goTo (.releasing (.threw none)) }
  | .marking refreshed =>
    let transitioned := store.executable refreshed.id
    some
      { effect := store.markStepExecuting refreshed.id
        onReturn :=
          if transitioned then chain.goTo (nextAttempt config refreshed 0 [])
          else chain.goTo (.releasing (.result .SKIPPED))
        onThrow := fun applied _ => chain.goTo (.releasing (.threw
          (if applied ∧ transitioned then some refreshed.id else none))) }
  | .executing _ _ _ => none
  | .succeeding refreshed attempt transientErrors executionRef next =>
    some (successCall config plan store chain refreshed attempt transientErrors executionRef next)
  | .failing refreshed transientErrors =>
    let reason := failureReason transientErrors
    some
      { effect := store.markStepFailed refreshed.id (.failed reason transientErrors.length)
        onReturn := chain.goTo (.failed refreshed reason)
        onThrow := fun applied _ =>
          chain.goTo (.releasing (.threw (if applied then none else some refreshed.id))) }
  | .failed refreshed reason =>
    some
      { effect := store.insertRouteHistory
          (.ROUTE_STEP_FAILED refreshed.id refreshed.provider_id reason)
        onReturn := chain.goTo (.releasing (.result .FAILED))
        onThrow := fun _ _ => chain.goTo (.releasing (.threw none)) }
  | .releasing (.result status) =>
    some ⟨store.setLock step.id none,
      if status = .FAILED then chain.goTo .loadingCandidates else .idle, reject⟩
  | .releasing (.threw left) =>
    some ⟨store.setLock step.id none, .rejected left, fun _ _ => .rejected left⟩
  | .loadingCandidates =>
    some
      { effect := store
        onReturn := match findFallback store chain with
          | none => .idle
          | some fallback => chain.goTo (.loadingNextIndex fallback)
        onThrow := reject }
  | .loadingNextIndex fallback =>
    some ⟨store, chain.goTo (.insertingFallback fallback store.loadNextStepIndex), reject⟩
  | .insertingFallback fallback nextStepIndex =>
    let inserted := fallbackStep chain fallback nextStepIndex randomUUID
    -- the primary key refuses an id that exists
    some <|
      if (store.getStepById inserted.id).isSome then ⟨store, .rejected none, reject⟩
      else ⟨store.insertStep inserted, chain.goTo (.fallbackCreated inserted), reject⟩
  | .fallbackCreated fallback =>
    some
      { effect := store.insertRouteHistory
          (.ROUTE_STEP_FALLBACK_CREATED step.id fallback.id step.leg_id)
        onReturn := .busy
          { chain with
            currentStep := fallback
            attemptedProviders := chain.attemptedProviders ++ [fallback.provider_id]
            phase := .locking }
        onThrow := reject }

/-- The execution router answers: it resolves, it throws, or `withTimeout` gives it up. -/
def observeExecution (config : PlanRunnerConfig) (runner : ℕ) (store : PlanStore) (chain : Chain)
    (refreshed : PersistedRouteStep) (attempt : ℕ) (transientErrors : List String) :
    Reply → Option (PlanStore × Worker)
  | .answered ⟨true, executionRef, _⟩ =>
    some (store.recordExecution ⟨runner, chain.origin, toPlanStep refreshed, true⟩,
      chain.goTo (.succeeding refreshed attempt transientErrors executionRef .loadPlan))
  | .answered ⟨false, _, error⟩ =>
    some (store.recordExecution ⟨runner, chain.origin, toPlanStep refreshed, false⟩,
      chain.goTo (nextAttempt config refreshed attempt
        (transientErrors ++ [error.getD "execution_failed"])))
  | .lost error | .refused error =>
    some (store.recordExecution ⟨runner, chain.origin, toPlanStep refreshed, false⟩,
      chain.goTo (nextAttempt config refreshed attempt (transientErrors ++ [error])))
  | .done => none

/-- A worker on a step goes on, up to the next awaited call. -/
def chainStep (config : PlanRunnerConfig) (plan : ExecutionPlan) (runner : ℕ) (store : PlanStore)
    (chain : Chain) (randomUUID : ℕ → String) (reply : Reply) : Option (PlanStore × Worker) :=
  match chain.phase with
  | .executing refreshed attempt transientErrors =>
    observeExecution config runner store chain refreshed attempt transientErrors reply
  | _ => (chainCall config plan store chain randomUUID).bind (·.settle store reply)

/-! ## A run -/

inductive PlanResultStatus where
  | COMPLETED
  | PARTIAL
  | FAILED
  | UNWOUND
  deriving DecidableEq

structure PlanExecutionResult where
  planId : String
  rfqId : String
  status : PlanResultStatus
  failureReason : Option String

/-- A database call of `resolvePlanResult`. -/
inductive PlanCall where
  | insertRouteHistory (event : RouteEvent)
  | updatePlanState (state : RoutingPlanStatus) (metadataPartial : Bool)

def PlanCall.apply (store : PlanStore) : PlanCall → PlanStore
  | .insertRouteHistory event => store.insertRouteHistory event
  | .updatePlanState state metadataPartial => store.updatePlanState state metadataPartial

def countState (state : PlanStepStatus) (steps : List PersistedRouteStep) : ℕ :=
  (steps.filter (·.state = state)).length

def legIds (steps : List PersistedRouteStep) : List String := (steps.map (·.leg_id)).dedup

def legsCovered (steps : List PersistedRouteStep) : Bool :=
  0 < (legIds steps).length ∧
    (legIds steps).length = (legIds (steps.filter (·.state = .FILLED))).length

def finalizeOrUnwind (plan : ExecutionPlan) (reason : String) :
    List PlanCall × PlanExecutionResult :=
  ([.insertRouteHistory (.ROUTE_UNWIND_STARTED plan.rfqId reason),
    .insertRouteHistory (.ROUTE_UNWIND_REQUIRED plan.rfqId reason),
    .updatePlanState .UNWOUND false,
    .insertRouteHistory (.ROUTE_UNWIND_COMPLETED plan.rfqId "operator_intervention")],
   ⟨plan.id, plan.rfqId, .UNWOUND, some reason⟩)

/-- The calls it makes, in order, and the result it returns after them. -/
def resolvePlanResult (plan : ExecutionPlan) (policy : SORAcceptancePolicy)
    (steps : List PersistedRouteStep) : List PlanCall × PlanExecutionResult :=
  let filled := countState .FILLED steps
  let failed := countState .FAILED steps
  if policy = .ALL_OR_NONE ∧ (legsCovered steps = false ∨ 0 < failed) then
    finalizeOrUnwind plan "persistent_step_failure"
  else if 0 < failed ∧ filled = 0 then
    ([.updatePlanState .FAILED false, .insertRouteHistory (.ROUTE_RUN_FAILED plan.rfqId)],
     ⟨plan.id, plan.rfqId, .FAILED, some "all_steps_failed"⟩)
  else if legsCovered steps = true then
    ([.updatePlanState .COMPLETED false, .insertRouteHistory (.ROUTE_RUN_COMPLETED plan.rfqId)],
     ⟨plan.id, plan.rfqId, .COMPLETED, none⟩)
  else if 0 < failed ∧ 0 < filled then
    ([.updatePlanState .COMPLETED true, .insertRouteHistory (.ROUTE_RUN_PARTIAL plan.rfqId)],
     ⟨plan.id, plan.rfqId, .PARTIAL, none⟩)
  else
    ([.updatePlanState .COMPLETED false, .insertRouteHistory (.ROUTE_RUN_COMPLETED plan.rfqId)],
     ⟨plan.id, plan.rfqId, .COMPLETED, none⟩)

def mapPlanStateToResult (persistedPlan : PersistedRoutingPlan) (rfqId : String) :
    PlanExecutionResult :=
  match persistedPlan.state with
  | .COMPLETED => ⟨persistedPlan.id, rfqId, .COMPLETED, none⟩
  | .UNWOUND => ⟨persistedPlan.id, rfqId, .UNWOUND, none⟩
  | _ => ⟨persistedPlan.id, rfqId, .FAILED, none⟩

/-- Where a run is. `finalizing` counts the calls of `resolvePlanResult` it has made. -/
inductive RunPhase where
  | absent
  | loadingPlan
  | insertingContext (persistedPlan : PersistedRoutingPlan)
  | markingRunning (persistedPlan : PersistedRoutingPlan)
  | insertingStarted (persistedPlan : PersistedRoutingPlan)
  | loadingSteps (persistedPlan : PersistedRoutingPlan)
  | working (persistedPlan : PersistedRoutingPlan)
  | finalizing (persistedPlan : PersistedRoutingPlan) (finalSteps : List PersistedRouteStep)
      (made : ℕ)
  | returned (result : PlanExecutionResult)
  | rejected

/-- A call of `run`: `queue` holds the items its workers have not taken yet. -/
structure Runner where
  plan : ExecutionPlan
  phase : RunPhase
  queue : List PersistedRouteStep
  workerCount : ℕ
  workers : ℕ → Worker
  crashed : Bool

/-- The workers `runWithConcurrency` starts for some items. -/
def workersFor (config : PlanRunnerConfig) (items : List PersistedRouteStep) : ℕ :=
  if items = [] then 0 else (max 1 (min config.concurrency items.length)).toNat

def Worker.isRejected : Worker → Bool
  | .rejected _ => true
  | _ => false

def Worker.isFinished : Worker → Bool
  | .finished => true
  | _ => false

/-- What a run awaits, its workers apart; `none` when it is over. -/
def runnerCall (config : PlanRunnerConfig) (store : PlanStore) (runner : Runner) :
    Option (Awaited Runner) :=
  let goTo (phase : RunPhase) : Runner := { runner with phase := phase }
  let reject (_ : Bool) (_ : String) : Runner := goTo .rejected
  match runner.phase with
  | .absent | .returned _ | .rejected => none
  | .loadingPlan =>
    some
      { effect := store
        onReturn := match store.loadPlan runner.plan.id with
          | none => goTo .rejected
          | some persistedPlan =>
            if persistedPlan.state.terminal then
              goTo (.returned (mapPlanStateToResult persistedPlan runner.plan.rfqId))
            else goTo (.insertingContext persistedPlan)
        onThrow := reject }
  | .insertingContext persistedPlan =>
    some ⟨store.insertRouteHistory
        (.ROUTE_RUN_CONTEXT runner.plan.rfqId persistedPlan.reservation_token),
      goTo (.markingRunning persistedPlan), reject⟩
  | .markingRunning persistedPlan =>
    some ⟨store.updatePlanState .RUNNING false, goTo (.insertingStarted persistedPlan), reject⟩
  | .insertingStarted persistedPlan =>
    some ⟨store.insertRouteHistory (.ROUTE_RUN_STARTED runner.plan.rfqId),
      goTo (.loadingSteps persistedPlan), reject⟩
  | .loadingSteps persistedPlan =>
    let executableSteps := store.loadPlanSteps.filter fun step => !step.state.terminal
    some
      { effect := store
        onReturn :=
          { runner with
            phase := .working persistedPlan
            queue := executableSteps
            workerCount := workersFor config executableSteps }
        onThrow := reject }
  | .working persistedPlan =>
    some ⟨store, goTo (.finalizing persistedPlan store.loadPlanSteps 0), reject⟩
  | .finalizing persistedPlan finalSteps made =>
    ((resolvePlanResult runner.plan persistedPlan.acceptance_policy finalSteps).1[made]?).map
      fun planCall =>
        ⟨planCall.apply store, goTo (.finalizing persistedPlan finalSteps (made + 1)), reject⟩

/-- `run` goes on, up to the next awaited call. `Promise.all` waits for every worker, and is
rejected with the first. -/
def runnerStep (config : PlanRunnerConfig) (store : PlanStore) (runner : Runner) (reply : Reply) :
    Option (PlanStore × Runner) :=
  let settled := (runnerCall config store runner).bind (·.settle store reply)
  match runner.phase with
  | .working _ =>
    if ∃ w < runner.workerCount, (runner.workers w).isRejected then
      some (store, { runner with phase := .rejected })
    else if ∀ w < runner.workerCount, (runner.workers w).isFinished then settled
    else none
  | .finalizing persistedPlan finalSteps made =>
    let (calls, result) :=
      resolvePlanResult runner.plan persistedPlan.acceptance_policy finalSteps
    if calls.length ≤ made then some (store, { runner with phase := .returned result })
    else settled
  | _ => settled

/-- A worker takes its next item, or waits for the call it is in. -/
def workerStep (config : PlanRunnerConfig) (r : ℕ) (store : PlanStore) (runner : Runner) (w : ℕ)
    (randomUUID : ℕ → String) (reply : Reply) : Option (PlanStore × Runner) :=
  let goTo (worker : Worker) : Runner :=
    { runner with workers := Function.update runner.workers w worker }
  match runner.workers w with
  | .idle =>
    if w < runner.workerCount then
      match runner.queue with
      | [] => some (store, goTo .finished)
      | step :: queue =>
        some (store, { goTo (.busy ⟨step.id, step, [step.provider_id], .locking⟩) with
          queue := queue })
    else none
  | .busy chain =>
    (chainStep config runner.plan r store chain randomUUID reply).map fun (store', worker) =>
      (store', goTo worker)
  | .rejected _ | .finished => none

/-! ## The system -/

structure System where
  store : PlanStore
  runners : ℕ → Runner

/-- A run is started, goes on, one of its workers goes on, its process dies; a lock expires. -/
inductive Action where
  | start (r : ℕ) (plan : ExecutionPlan)
  | runner (r : ℕ) (reply : Reply)
  | worker (r w : ℕ) (randomUUID : ℕ → String) (reply : Reply)
  | crash (r : ℕ)
  | expire (stepId : String)

def System.set (sys : System) (r : ℕ) (store : PlanStore) (runner : Runner) : System :=
  ⟨store, Function.update sys.runners r runner⟩

def act (config : PlanRunnerConfig) (sys : System) : Action → Option System
  | .start r plan =>
    match (sys.runners r).phase with
    | .absent =>
      some (sys.set r sys.store { sys.runners r with phase := .loadingPlan, plan := plan })
    | _ => none
  | .runner r reply =>
    if (sys.runners r).crashed then none
    else (runnerStep config sys.store (sys.runners r) reply).map fun (store, runner) =>
      sys.set r store runner
  | .worker r w randomUUID reply =>
    if (sys.runners r).crashed then none
    else (workerStep config r sys.store (sys.runners r) w randomUUID reply).map
      fun (store, runner) => sys.set r store runner
  | .crash r => some (sys.set r sys.store { sys.runners r with crashed := true })
  | .expire stepId => some { sys with store := sys.store.setLock stepId none }

def Runner.absent : Runner :=
  { plan := ⟨"", ""⟩
    phase := .absent
    queue := []
    workerCount := 0
    workers := fun _ => .idle
    crashed := false }

end LotusRfq.Sor
