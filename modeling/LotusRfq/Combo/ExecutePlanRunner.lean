import LotusRfq.Combo.Session

/-!
# LotusRfq — `ExecutePlanRunner.runPlan`

The runs of one plan, side by side, over the rows of its fills. A run reads which legs are filled,
executes the steps of the others all at once, and writes what came of them once every one has
resolved. A step resolves when its trade settles or when its timer fires; a trade whose timer has
fired is not cancelled, and settles later.

* **`ExecutionPlan.writesOf`** — what a run writes, by the policy and by the legs that failed;
* **`runnerStep`** — one action of the runs, the trades and the timers.
-/

namespace LotusRfq.Combo

open Calls

inductive TradeStatus where
  | FILLED
  | REJECTED
  deriving DecidableEq

inductive PlanRunStatus where
  | COMPLETED
  | PARTIAL
  | FAILED
  deriving DecidableEq

/-- A call of `executeTrade`: how it has settled (`none` inside where it threw), and what the promise
around it has resolved with. -/
structure Trade where
  run : ℕ
  step : ExecutionStep
  outcome : Option (Option TradeStatus)
  result : Option TradeStatus

structure FillRow where
  legId : String
  quantity : ℚ
  price : ℚ

/-- A call that a run awaits once the steps have resolved. -/
inductive PlanWrite where
  | recordFill (legId : String) (quantity price : ℚ)
  | updateExposureAfterExecution (reservationToken marketId side : String) (size : ℚ)
  | recordFailure (legId reason : String)
  deriving DecidableEq

inductive PlanRunPhase where
  | reading
  | executing
  | writing (write : PlanWrite) (later : List PlanWrite) (status : PlanRunStatus)
  | returned (status : PlanRunStatus)
  | thrown
  deriving DecidableEq

/-- The fills that are recorded, the trades that were dispatched, and the runs. -/
structure RunnerSystem where
  fills : List FillRow
  trades : List Trade
  runs : List PlanRunPhase

inductive RunnerAction where
  | start
  | read (i : ℕ)
  /-- The fills cannot be read. -/
  | fail (i : ℕ)
  /-- A trade returns, or throws. -/
  | settle (k : ℕ) (outcome : Option TradeStatus)
  | timeout (k : ℕ)
  /-- Every step of a run has resolved. -/
  | evaluate (i : ℕ)
  | write (i : ℕ) (reply : Reply Unit)

def RunnerSystem.getFilledSteps (s : RunnerSystem) : List String := s.fills.map (·.legId)

def RunnerSystem.stepsToExecute (s : RunnerSystem) (plan : ExecutionPlan) : List ExecutionStep :=
  plan.steps.filter fun step => step.legId ∉ s.getFilledSteps

def RunnerSystem.tradesOf (s : RunnerSystem) (i : ℕ) : List Trade :=
  s.trades.filter fun trade => trade.run = i

/-- `executeStepWithTimeout`. -/
def dispatch (i : ℕ) (step : ExecutionStep) : Trade := ⟨i, step, none, none⟩

/-- The promise around a trade resolves once: what comes after its timer is not looked at. -/
def Trade.settle (trade : Trade) (outcome : Option TradeStatus) : Trade :=
  { trade with
    outcome := some outcome
    result := some (trade.result.getD (outcome.getD .REJECTED)) }

def ExecutionPlan.commitExposure (plan : ExecutionPlan) (filledLegIds : List String) :
    List PlanWrite :=
  filledLegIds.flatMap fun legId =>
    (plan.steps.find? fun step => step.legId = legId).toList.flatMap fun step =>
      [.recordFill step.legId step.targetSize step.price,
        .updateExposureAfterExecution plan.reservationToken "generic-market-id-ref" "buy"
          step.targetSize]

/-- What a run writes and returns. Under `ALL_OR_NONE` nothing is written of the legs that were
filled beside one that failed. -/
def ExecutionPlan.writesOf (plan : ExecutionPlan) (successes failures : List String) :
    List PlanWrite × PlanRunStatus :=
  match plan.policy with
  | .ALL_OR_NONE =>
    if failures ≠ [] then
      (failures.map (.recordFailure · "ALL_OR_NONE constraint breached"), .FAILED)
    else (plan.commitExposure successes, .COMPLETED)
  | .PARTIAL_ALLOWED | .BEST_EFFORT =>
    (plan.commitExposure successes ++ failures.map (.recordFailure · "BEST_EFFORT failure"),
      if failures = [] then .COMPLETED else if successes ≠ [] then .PARTIAL else .FAILED)

def PlanRunPhase.ofWrites (status : PlanRunStatus) : List PlanWrite → PlanRunPhase
  | [] => .returned status
  | write :: later => .writing write later status

/-- What the results of a run's steps come to. -/
def ExecutionPlan.evaluate (plan : ExecutionPlan) (trades : List Trade) : PlanRunPhase :=
  let successes := trades.filter fun trade => trade.result = some .FILLED
  let failures := trades.filter fun trade => trade.result ≠ some .FILLED
  let (writes, status) :=
    plan.writesOf (successes.map (·.step.legId)) (failures.map (·.step.legId))
  .ofWrites status writes

/-- Only the rows of the fills are read again. -/
def PlanWrite.effect : PlanWrite → List FillRow → List FillRow
  | .recordFill legId quantity price, fills => fills ++ [⟨legId, quantity, price⟩]
  | .updateExposureAfterExecution _ _ _ _, fills => fills
  | .recordFailure _ _, fills => fills

def RunnerSystem.move (s : RunnerSystem) (i : ℕ) (phase : PlanRunPhase) : RunnerSystem :=
  { s with runs := s.runs.set i phase }

def runnerStep (plan : ExecutionPlan) (s : RunnerSystem) : RunnerAction → Option RunnerSystem
  | .start => some { s with runs := s.runs ++ [.reading] }
  | .read i =>
    match s.runs[i]? with
    | some .reading =>
      if s.stepsToExecute plan = [] ∧ plan.steps ≠ [] then some (s.move i (.returned .COMPLETED))
      else
        some { (s.move i .executing) with
          trades := s.trades ++ (s.stepsToExecute plan).map (dispatch i) }
    | _ => none
  | .fail i =>
    match s.runs[i]? with
    | some .reading => some (s.move i .thrown)
    | _ => none
  | .settle k outcome =>
    match s.trades[k]? with
    | some trade =>
      if trade.outcome = none then some { s with trades := s.trades.set k (trade.settle outcome) }
      else none
    | none => none
  | .timeout k =>
    match s.trades[k]? with
    | some trade =>
      if trade.result = none then
        some { s with trades := s.trades.set k { trade with result := some .REJECTED } }
      else none
    | none => none
  | .evaluate i =>
    match s.runs[i]? with
    | some .executing =>
      if (s.tradesOf i).all fun trade => trade.result.isSome then
        some (s.move i (plan.evaluate (s.tradesOf i)))
      else none
    | _ => none
  | .write i reply =>
    match s.runs[i]? with
    | some (.writing write later status) =>
      let awaited : Awaited (List FillRow) PlanRunPhase :=
        ⟨write.effect s.fills, .ofWrites status later, fun _ _ => .thrown⟩
      (awaited.settle s.fills reply).map fun (fills, phase) =>
        { (s.move i phase) with fills := fills }
    | _ => none

end LotusRfq.Combo
