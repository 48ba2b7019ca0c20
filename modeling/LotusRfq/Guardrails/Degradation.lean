import LotusRfq.Common.JsonValues
import LotusRfq.Lib.OrderedMap
import LotusRfq.Lib.Programs

/-!
# LotusRfq — guardrails and execution modes

A planner asks in which mode it may run: the mode of an override in force, or the one the guardrails
suggest, or `FULL_MODE`. The answer is written to the shard's row as well, where operators and the
auto-safety engine write too. Every statement is a request of its own.

* **`loadActiveControlPlaneOverrides_nil`** — nothing is loaded where no override is in force.
-/

namespace LotusRfq.Guardrails

open Js Processes

/-! ## Modes -/

inductive ExecutionMode where
  | FULL_MODE
  | DISABLE_PHASE2B
  | DISABLE_PHASE2A_AND_2B
  | DISABLE_INTERNAL_CROSS
  | SOR_ONLY
  | SAFE_FALLBACK
  deriving DecidableEq

inductive Engine where
  | SOR
  | INTERNAL_CROSS
  | NETTING_PHASE2A
  | CLEARING_PHASE2B
  deriving DecidableEq

def Engine.text : Engine → String
  | .SOR => "SOR"
  | .INTERNAL_CROSS => "INTERNAL_CROSS"
  | .NETTING_PHASE2A => "NETTING_PHASE2A"
  | .CLEARING_PHASE2B => "CLEARING_PHASE2B"

/-- `isExecutionMode`, with the mode. -/
def executionModeOf : Option Json → Option ExecutionMode
  | some (.string text) =>
    match text with
    | "FULL_MODE" => some .FULL_MODE
    | "DISABLE_PHASE2B" => some .DISABLE_PHASE2B
    | "DISABLE_PHASE2A_AND_2B" => some .DISABLE_PHASE2A_AND_2B
    | "DISABLE_INTERNAL_CROSS" => some .DISABLE_INTERNAL_CROSS
    | "SOR_ONLY" => some .SOR_ONLY
    | "SAFE_FALLBACK" => some .SAFE_FALLBACK
    | _ => none
  | _ => none

def shouldSkipEngine (engine : Engine) (mode : ExecutionMode) : Bool :=
  match engine with
  | .SOR => false
  | .NETTING_PHASE2A =>
    mode = .DISABLE_PHASE2A_AND_2B || mode = .SOR_ONLY || mode = .SAFE_FALLBACK
  | .CLEARING_PHASE2B =>
    mode = .DISABLE_PHASE2B || mode = .DISABLE_PHASE2A_AND_2B || mode = .SOR_ONLY ||
      mode = .SAFE_FALLBACK
  | .INTERNAL_CROSS => mode = .DISABLE_INTERNAL_CROSS || mode = .SAFE_FALLBACK

inductive ShardMode where
  | PAUSED
  | mode (mode : ExecutionMode)
  deriving DecidableEq

/-! ## The guardrail evaluator -/

inductive PlannerType where
  | SOR
  | NETTING_PHASE2A
  | CLEARING_PHASE2B

inductive GuardrailViolationType where
  | PLANNER_LATENCY_BUDGET_EXCEEDED
  | BUCKET_TOO_LARGE
  | GRAPH_TOO_DENSE
  | CANDIDATE_ENUMERATION_TOO_LARGE
  | LOCK_WAIT_TOO_HIGH
  | REPLAY_WRITE_FAILURE_RATE_TOO_HIGH
  deriving DecidableEq

def GuardrailViolationType.text : GuardrailViolationType → String
  | .PLANNER_LATENCY_BUDGET_EXCEEDED => "PLANNER_LATENCY_BUDGET_EXCEEDED"
  | .BUCKET_TOO_LARGE => "BUCKET_TOO_LARGE"
  | .GRAPH_TOO_DENSE => "GRAPH_TOO_DENSE"
  | .CANDIDATE_ENUMERATION_TOO_LARGE => "CANDIDATE_ENUMERATION_TOO_LARGE"
  | .LOCK_WAIT_TOO_HIGH => "LOCK_WAIT_TOO_HIGH"
  | .REPLAY_WRITE_FAILURE_RATE_TOO_HIGH => "REPLAY_WRITE_FAILURE_RATE_TOO_HIGH"

structure GuardrailViolation where
  type : GuardrailViolationType
  actual : ℚ
  threshold : ℚ
  deriving DecidableEq

structure PerformanceGuardrailConfig where
  maxSorPlanningLatencyMs : ℕ
  maxNettingPlanningLatencyMs : ℕ
  maxClearingPlanningLatencyMs : ℕ
  maxBucketEntityCount : ℕ
  maxGraphEdges : ℕ
  maxCandidateGroups : ℕ
  maxLockWaitMs : ℕ
  maxReplayWriteFailuresBeforeDegrade : ℕ

structure GuardrailRuntimeStats where
  plannerType : PlannerType
  plannerLatencyMs : ℚ
  bucketEntityCount : ℚ
  graphEdges : ℚ
  candidateGroups : ℚ
  lockWaitMs : ℚ
  replayWriteFailures : ℚ

structure GuardrailEvaluationResult where
  violated : Bool
  violations : List GuardrailViolation
  suggestedDegradation : Option ExecutionMode

def getPlannerLatencyThreshold (guardrails : PerformanceGuardrailConfig) : PlannerType → ℕ
  | .SOR => guardrails.maxSorPlanningLatencyMs
  | .NETTING_PHASE2A => guardrails.maxNettingPlanningLatencyMs
  | .CLEARING_PHASE2B => guardrails.maxClearingPlanningLatencyMs

def getDegradationForViolation (plannerType : PlannerType) (violation : GuardrailViolation) :
    ExecutionMode :=
  match violation.type with
  | .REPLAY_WRITE_FAILURE_RATE_TOO_HIGH => .SAFE_FALLBACK
  | .LOCK_WAIT_TOO_HIGH => .DISABLE_PHASE2A_AND_2B
  | .CANDIDATE_ENUMERATION_TOO_LARGE | .GRAPH_TOO_DENSE | .BUCKET_TOO_LARGE => .DISABLE_PHASE2B
  | .PLANNER_LATENCY_BUDGET_EXCEEDED =>
    match plannerType with
    | .SOR => .SOR_ONLY
    | .NETTING_PHASE2A => .DISABLE_PHASE2A_AND_2B
    | .CLEARING_PHASE2B => .DISABLE_PHASE2B

def DEGRADATION_PRECEDENCE : List ExecutionMode :=
  [.SAFE_FALLBACK, .DISABLE_PHASE2A_AND_2B, .DISABLE_PHASE2B, .SOR_ONLY]

def selectSuggestedDegradation (violations : List GuardrailViolation) (plannerType : PlannerType) :
    Option ExecutionMode :=
  let degradations := violations.map (getDegradationForViolation plannerType)
  DEGRADATION_PRECEDENCE.find? fun degradation => degradations.contains degradation

def violationOf (type : GuardrailViolationType) (actual : ℚ) (threshold : ℕ) :
    List GuardrailViolation :=
  if (threshold : ℚ) < actual then [⟨type, actual, threshold⟩] else []

/-- `GuardrailEvaluator.evaluate`; a negative statistic throws. -/
def evaluate (guardrails : PerformanceGuardrailConfig) (stats : GuardrailRuntimeStats) :
    Option GuardrailEvaluationResult :=
  if stats.plannerLatencyMs < 0 ∨ stats.bucketEntityCount < 0 ∨ stats.graphEdges < 0 ∨
      stats.candidateGroups < 0 ∨ stats.lockWaitMs < 0 ∨ stats.replayWriteFailures < 0 then none
  else
    let violations :=
      violationOf .PLANNER_LATENCY_BUDGET_EXCEEDED stats.plannerLatencyMs
        (getPlannerLatencyThreshold guardrails stats.plannerType) ++
      violationOf .BUCKET_TOO_LARGE stats.bucketEntityCount guardrails.maxBucketEntityCount ++
      violationOf .GRAPH_TOO_DENSE stats.graphEdges guardrails.maxGraphEdges ++
      violationOf .CANDIDATE_ENUMERATION_TOO_LARGE stats.candidateGroups
        guardrails.maxCandidateGroups ++
      violationOf .LOCK_WAIT_TOO_HIGH stats.lockWaitMs guardrails.maxLockWaitMs ++
      violationOf .REPLAY_WRITE_FAILURE_RATE_TOO_HIGH stats.replayWriteFailures
        guardrails.maxReplayWriteFailuresBeforeDegrade
    if violations = [] then some ⟨false, [], none⟩
    else some ⟨true, violations, selectSuggestedDegradation violations stats.plannerType⟩

/-! ## Overrides -/

inductive OverrideScopeType where
  | ENGINE
  | BUCKET
  | SHARD
  | MARKET
  deriving DecidableEq

inductive OverrideType where
  | EXECUTION_MODE
  | GUARDRAIL_ENFORCEMENT

/-- Times in milliseconds. -/
structure ControlPlaneOverride where
  id : String
  scopeType : OverrideScopeType
  scopeId : String
  overrideType : OverrideType
  payload : Json
  createdAt : ℤ
  expiresAt : Option ℤ

structure DegradationContext where
  shardId : String
  bucketId : Option String
  engine : Engine
  marketId : Option String

def OVERRIDE_SCOPE_PRECEDENCE : List OverrideScopeType := [.ENGINE, .BUCKET, .SHARD, .MARKET]

/-- The id that an override of a scope must have to be about the context. -/
def DegradationContext.scopeId (context : DegradationContext) : OverrideScopeType → Option String
  | .ENGINE => some context.engine.text
  | .BUCKET => context.bucketId
  | .SHARD => some context.shardId
  | .MARKET => context.marketId

/-- `expires_at IS NULL OR expires_at > NOW()`. -/
def ControlPlaneOverride.active (now : ℤ) (override : ControlPlaneOverride) : Bool :=
  override.expiresAt.all fun expiresAt => now < expiresAt

/-- The override's scope id is the context's. -/
def ControlPlaneOverride.matches (context : DegradationContext) (override : ControlPlaneOverride) :
    Bool :=
  context.scopeId override.scopeType = some override.scopeId

/-- An empty bucket or market id adds no clause. -/
def ControlPlaneOverride.inScope (context : DegradationContext) (override : ControlPlaneOverride) :
    Bool :=
  override.matches context &&
    (override.scopeType = .ENGINE || override.scopeType = .SHARD || override.scopeId ≠ "")

def loadActiveControlPlaneOverrides (now : ℤ) (overrides : List ControlPlaneOverride)
    (context : DegradationContext) : List ControlPlaneOverride :=
  overrides.filter fun override => override.active now && override.inScope context

/-- The latest first, and then the greatest id. -/
def compareOverrides (localeCompare : String → String → Ordering)
    (left right : ControlPlaneOverride) : Ordering :=
  (compare right.createdAt left.createdAt).then (localeCompare right.id left.id)

def selectScoped (localeCompare : String → String → Ordering)
    (overrides : List ControlPlaneOverride) (context : DegradationContext)
    (scopeType : OverrideScopeType) : Option ControlPlaneOverride :=
  (sortWith (compareOverrides localeCompare)
    (overrides.filter fun override => override.scopeType = scopeType)).find?
      fun override => override.matches context

def selectMatchingControlPlaneOverride (localeCompare : String → String → Ordering)
    (overrides : List ControlPlaneOverride) (context : DegradationContext) :
    Option ControlPlaneOverride :=
  OVERRIDE_SCOPE_PRECEDENCE.findSome? (selectScoped localeCompare overrides context)

theorem loadActiveControlPlaneOverrides_nil {now : ℤ} {overrides : List ControlPlaneOverride}
    {context : DegradationContext}
    (h : ∀ override ∈ overrides, override.active now = true → override.inScope context = false) :
    loadActiveControlPlaneOverrides now overrides context = [] := by
  refine List.filter_eq_nil_iff.mpr fun override hmem hboth => ?_
  obtain ⟨hactive, hscope⟩ := Bool.and_eq_true_iff.mp hboth
  exact Bool.false_ne_true ((h override hmem hactive).symm.trans hscope)

/-! ## The degradation manager -/

inductive DegradationManagerError where
  | invalid_context
  | malformed_override_payload
  | planner_shard_not_found
  | invalid_guardrail_input
  deriving DecidableEq

inductive ModeSource where
  | override
  | guardrail
  | default
  deriving DecidableEq

structure EffectiveExecutionModeResult where
  mode : ExecutionMode
  reason : String
  source : ModeSource
  matchedOverrideId : Option String
  violations : List GuardrailViolation
  deriving DecidableEq

def OverrideType.text : OverrideType → String
  | .EXECUTION_MODE => "EXECUTION_MODE"
  | .GUARDRAIL_ENFORCEMENT => "GUARDRAIL_ENFORCEMENT"

/-- The mode of a payload, and its reason, which is a text where there is one. -/
def parseOverridePayload (payload : Json) :
    Except DegradationManagerError (ExecutionMode × Option String) :=
  match executionModeOf (payload.get "mode") with
  | none => .error .malformed_override_payload
  | some mode =>
    match payload.get "reason" with
    | none => .ok (mode, none)
    | some (.string reason) => .ok (mode, some reason)
    | some _ => .error .malformed_override_payload

def buildOverrideResult (override : ControlPlaneOverride) :
    Except DegradationManagerError EffectiveExecutionModeResult := do
  let (mode, reason) ← parseOverridePayload override.payload
  return ⟨mode, reason.getD ("override:" ++ override.overrideType.text), .override,
    some override.id, []⟩

def guardrailMode (evaluation : Option GuardrailEvaluationResult) : Option ExecutionMode :=
  evaluation.bind fun evaluation =>
    if evaluation.violated then evaluation.suggestedDegradation else none

def buildGuardrailOrDefaultResult (evaluation : Option GuardrailEvaluationResult) :
    EffectiveExecutionModeResult :=
  let violations := (evaluation.map (·.violations)).getD []
  match guardrailMode evaluation with
  | some mode =>
    ⟨mode, ",".intercalate (violations.map (·.type.text)), .guardrail, none, violations⟩
  | none => ⟨.FULL_MODE, "no_override_or_guardrail_violation", .default, none, violations⟩

theorem buildGuardrailOrDefaultResult_mode (evaluation : Option GuardrailEvaluationResult) :
    (buildGuardrailOrDefaultResult evaluation).mode =
      (guardrailMode evaluation).getD .FULL_MODE := by
  unfold buildGuardrailOrDefaultResult
  cases guardrailMode evaluation <;> rfl

def resolveEffectiveMode (localeCompare : String → String → Ordering)
    (activeOverrides : List ControlPlaneOverride) (context : DegradationContext)
    (evaluation : Option GuardrailEvaluationResult) :
    Except DegradationManagerError EffectiveExecutionModeResult :=
  match selectMatchingControlPlaneOverride localeCompare activeOverrides context with
  | some override => buildOverrideResult override
  | none => .ok (buildGuardrailOrDefaultResult evaluation)

/-! ## Requests -/

structure ControlPlaneState where
  now : ℤ
  overrides : List ControlPlaneOverride
  /-- `planner_shard_state`. -/
  shards : List (String × ShardMode)
  /-- What the last explicit pause or degrade of a shard has set. -/
  actions : List (String × ShardMode)
  /-- The modes that planners were given, with their shard and what was set for it. -/
  returned : List (String × Option ShardMode × ExecutionMode)

inductive ControlPlaneRequest where
  | loadActiveOverrides (context : DegradationContext)
  | loadCurrentShardMode (shardId : String)
  | persistMode (shardId : String) (mode : ExecutionMode)
  | updateShardMode (shardId : String) (mode : ShardMode)
  | giveMode (shardId : String) (mode : ExecutionMode)
  | change (now : ℤ) (overrides : List ControlPlaneOverride)

@[reducible] def ControlPlaneRequest.Answer : ControlPlaneRequest → Type
  | .loadActiveOverrides _ => List ControlPlaneOverride
  | .loadCurrentShardMode _ => Option ShardMode
  | .persistMode _ _ | .updateShardMode _ _ => Bool
  | .giveMode _ _ | .change _ _ => Unit

/-- `UPDATE planner_shard_state SET mode = $2 WHERE shard_id = $1`. -/
def setShardMode (shardId : String) (mode : ShardMode) (shards : List (String × ShardMode)) :
    List (String × ShardMode) :=
  OrderedMap.modify shardId (fun _ => mode) shards

def perform : (e : ControlPlaneRequest) → ControlPlaneState → e.Answer × ControlPlaneState
  | .loadActiveOverrides context, s =>
    (loadActiveControlPlaneOverrides s.now s.overrides context, s)
  | .loadCurrentShardMode shardId, s => (s.shards.lookup shardId, s)
  | .persistMode shardId mode, s =>
    ((s.shards.lookup shardId).isSome,
      { s with shards := setShardMode shardId (.mode mode) s.shards })
  | .updateShardMode shardId mode, s =>
    if (s.shards.lookup shardId).isSome then
      (true, { s with
        shards := setShardMode shardId mode s.shards
        actions := OrderedMap.set shardId mode s.actions })
    else (false, s)
  | .giveMode shardId mode, s =>
    ((), { s with returned := s.returned ++ [(shardId, s.actions.lookup shardId, mode)] })
  | .change now overrides, s => ((), { s with now, overrides })

def handle (e : ControlPlaneRequest) (s : ControlPlaneState) :
    Except DegradationManagerError e.Answer × ControlPlaneState :=
  (.ok (perform e s).1, (perform e s).2)

abbrev ControlPlaneProgram (α : Type) : Type :=
  Program DegradationManagerError ControlPlaneRequest ControlPlaneRequest.Answer α

variable (localeCompare : String → String → Ordering)

def persistModeTransitionIfNeeded (context : DegradationContext)
    (result : EffectiveExecutionModeResult) : ControlPlaneProgram Unit := do
  let currentMode ← call (ControlPlaneRequest.loadCurrentShardMode context.shardId)
  match currentMode with
  | none => throw .planner_shard_not_found
  | some currentMode =>
    if currentMode = .mode result.mode then return ()
    else
      let updated ← call (ControlPlaneRequest.persistMode context.shardId result.mode)
      if updated then return () else throw .planner_shard_not_found

def getEffectiveExecutionMode (context : DegradationContext)
    (evaluation : Option GuardrailEvaluationResult) (persist : Bool) :
    ControlPlaneProgram EffectiveExecutionModeResult := do
  if !hasText context.shardId then throw .invalid_context
  else
    let activeOverrides ← call (ControlPlaneRequest.loadActiveOverrides context)
    match resolveEffectiveMode localeCompare activeOverrides context evaluation with
    | .error error => throw error
    | .ok result =>
      if persist then persistModeTransitionIfNeeded context result
      return result

/-! ### Planners -/

inductive GuardrailEnforcementMode where
  | ENFORCED
  | SHADOW
  deriving DecidableEq

structure EvaluatePlanningGuardrailsInput where
  guardrails : PerformanceGuardrailConfig
  stats : GuardrailRuntimeStats
  context : DegradationContext
  enforcementMode : GuardrailEnforcementMode

structure PlanningGuardrailDecision where
  effectiveMode : ExecutionMode
  guardrailEvaluation : GuardrailEvaluationResult
  skipCurrentEngine : Bool
  reason : String
  enforcementMode : GuardrailEnforcementMode
  shadowWouldDegrade : Bool

def evaluatePlanningGuardrails (input : EvaluatePlanningGuardrailsInput) :
    ControlPlaneProgram PlanningGuardrailDecision := do
  match evaluate input.guardrails input.stats with
  | none => throw .invalid_guardrail_input
  | some guardrailEvaluation =>
    let effective ← getEffectiveExecutionMode localeCompare input.context
      (some guardrailEvaluation) (input.enforcementMode ≠ .SHADOW)
    call (ControlPlaneRequest.giveMode input.context.shardId effective.mode)
    return {
      effectiveMode := effective.mode
      guardrailEvaluation
      skipCurrentEngine := input.enforcementMode = .ENFORCED &&
        shouldSkipEngine input.context.engine effective.mode
      reason := effective.reason
      enforcementMode := input.enforcementMode
      shadowWouldDegrade := input.enforcementMode = .SHADOW && (effective.mode ≠ .FULL_MODE) }

/-! ## Side by side -/

/-- A planning call, a safety action, or a change of the clock and the table of overrides. -/
inductive ControlPlaneOperation where
  | plan (input : EvaluatePlanningGuardrailsInput)
  | pauseShard (shardId : String)
  | degradeShard (shardId : String) (targetMode : ExecutionMode)
  | change (now : ℤ) (overrides : List ControlPlaneOverride)

def ControlPlaneOperation.code : ControlPlaneOperation →
    Code ControlPlaneRequest (fun e => Except DegradationManagerError e.Answer) Unit
  | .plan input => (evaluatePlanningGuardrails localeCompare input).run >>= fun _ => pure ()
  | .pauseShard shardId =>
    request (ControlPlaneRequest.updateShardMode shardId .PAUSED) >>= fun _ => pure ()
  | .degradeShard shardId targetMode =>
    request (ControlPlaneRequest.updateShardMode shardId (.mode targetMode)) >>= fun _ => pure ()
  | .change now overrides =>
    request (ControlPlaneRequest.change now overrides) >>= fun _ => pure ()

end LotusRfq.Guardrails
