import LotusRfq.Lib.Transitions
import LotusRfq.Sor.PlanStore

/-!
# LotusRfq — `PlanComposer.composePlan`

A call is a transaction: it selects the plan, inserts it with its candidates and steps, and commits.
An insert waits while another transaction has inserted the same plan and has not ended, and violates
the primary key once that has committed; then the plan is read again. A call returns the plan it has
composed, the row it has selected, or what it makes of the row it has read.
-/

namespace LotusRfq.Sor

open Transitions

/-! ## Identifiers -/

def slice (text : String) (first last : ℕ) : String :=
  String.ofList ((text.toList.drop first).take (last - first))

def hexDigits : List Char :=
  ['0', '1', '2', '3', '4', '5', '6', '7', '8', '9', 'a', 'b', 'c', 'd', 'e', 'f']

/-- The digit with the bits of the variant set. -/
def variantDigit (digit : String) : String :=
  String.ofList (((digit.toList.head?.map (hexDigits.idxOf ·)).bind fun value =>
    hexDigits[(value &&& 3) ||| 8]?).toList)

/-- `sha256` of the seeds, in the form of a UUID. -/
def deriveId (sha256 : String → String) (domain : String) (seeds : List String) : String :=
  let hex := sha256 (String.intercalate "|" (domain :: seeds))
  slice hex 0 8 ++ "-" ++ slice hex 8 12 ++ "-" ++ "4" ++ slice hex 13 16 ++ "-" ++
    variantDigit (slice hex 16 17) ++ slice hex 17 20 ++ "-" ++ slice hex 20 32

/-! ## Plans -/

structure ProvidedCandidate extends RouteCandidate where
  provider_type : LiquiditySource
  deriving DecidableEq

/-- A step that is composed; the column for its candidate is missing. -/
structure ComposedStep extends PlanStep where
  candidateId : String
  deriving DecidableEq

/-- A row of `routing_plans`, as it is returned by the database. -/
structure RoutingPlanRow where
  id : String
  rfq_id : String
  acceptance_policy : SORAcceptancePolicy

/-- What a caller reads of a value it was returned as an `ExecutionPlan`. -/
structure ReturnedPlan where
  id : String
  rfqId : Option String
  acceptancePolicy : Option SORAcceptancePolicy
  steps : Option (List ComposedStep)
  deriving DecidableEq

/-- The row itself: of the names of an `ExecutionPlan` it has only `id`. -/
def RoutingPlanRow.returned (row : RoutingPlanRow) : ReturnedPlan := ⟨row.id, none, none, none⟩

structure ComposeCall where
  rfqId : String
  idempotencyKey : String
  candidates : List ProvidedCandidate
  allocations : List SplitAllocation
  policy : SORAcceptancePolicy
  deriving DecidableEq

def planIdOf (sha256 : String → String) (call : ComposeCall) : String :=
  deriveId sha256 "plan" [call.rfqId, call.idempotencyKey]

/-- The step of an allocation; none where its candidate is not found, which throws. -/
def composeStep (sha256 : String → String) (planId : String) (candidates : List ProvidedCandidate)
    (alloc : SplitAllocation) (index : ℕ) : Option ComposedStep := do
  let candidate ← candidates.find? fun c => c.id = alloc.candidateId
  let stepId := deriveId sha256 "step" [planId, toString index]
  return {
    id := stepId
    stepIndex := index
    providerType := candidate.provider_type
    providerId := candidate.provider_id
    candidateId := candidate.id
    targetSize := alloc.targetSize
    roundedSize := alloc.roundedSize
    targetPrice := alloc.targetPrice
    idempotencyKey := stepId
    state := .PENDING
    leg_id := candidate.leg_id
    client_order_id := deriveId sha256 "clordid" [stepId] }

def generateDeterministicSteps (sha256 : String → String) (planId : String)
    (candidates : List ProvidedCandidate) (allocations : List SplitAllocation) :
    Option (List ComposedStep) :=
  allocations.zipIdx.mapM fun alloc => composeStep sha256 planId candidates alloc.1 alloc.2

def stepsOf (sha256 : String → String) (call : ComposeCall) : Option (List ComposedStep) :=
  generateDeterministicSteps sha256 (planIdOf sha256 call) call.candidates call.allocations

/-! ## Calls side by side -/

inductive ComposePhase where
  | selecting (call : ComposeCall)
  | inserting (call : ComposeCall)
  /-- The plan is inserted, and the transaction is open. -/
  | composing (call : ComposeCall)
  /-- A unique constraint was violated, and the transaction is rolled back. -/
  | reading (call : ComposeCall)
  | returned (call : ComposeCall) (plan : ReturnedPlan)
  | thrown
  deriving DecidableEq

structure ComposerSystem where
  plans : List RoutingPlanRow
  steps : List (String × PlanStep)
  phases : List ComposePhase

inductive ComposeAction where
  | start (call : ComposeCall)
  | select (i : ℕ)
  | insert (i : ℕ)
  | commit (i : ℕ)
  /-- A statement fails; a candidate or a step may violate a unique constraint. -/
  | fail (i : ℕ) (uniqueViolation : Bool)
  | read (i : ℕ)

def ComposerSystem.find (s : ComposerSystem) (planId : String) : Option RoutingPlanRow :=
  s.plans.find? fun row => row.id = planId

def ComposerSystem.persistedSteps (s : ComposerSystem) (planId : String) : List PlanStep :=
  (s.steps.filter fun step => step.1 = planId).map Prod.snd

/-- Some transaction has inserted the plan, and has not ended. -/
def isComposing (sha256 : String → String) (planId : String) (phases : List ComposePhase) : Bool :=
  phases.any fun phase =>
    match phase with
    | .composing call => planIdOf sha256 call = planId
    | _ => false

def ComposerSystem.move (s : ComposerSystem) (i : ℕ) (phase : ComposePhase) : ComposerSystem :=
  { s with phases := s.phases.set i phase }

def composerStep (sha256 : String → String) (s : ComposerSystem) :
    ComposeAction → Option ComposerSystem
  | .start call => some { s with phases := s.phases ++ [.selecting call] }
  | .select i =>
    match s.phases[i]? with
    | some (.selecting call) =>
      match s.find (planIdOf sha256 call) with
      | some row => some (s.move i (.returned call row.returned))
      | none => some (s.move i (.inserting call))
    | _ => none
  | .insert i =>
    match s.phases[i]? with
    | some (.inserting call) =>
      if isComposing sha256 (planIdOf sha256 call) s.phases then none
      else
        match s.find (planIdOf sha256 call) with
        | some _ => some (s.move i (.reading call))
        | none => some (s.move i (.composing call))
    | _ => none
  | .commit i =>
    match s.phases[i]? with
    | some (.composing call) =>
      match stepsOf sha256 call with
      | none => some (s.move i .thrown)
      | some steps =>
        let planId := planIdOf sha256 call
        some {
          plans := s.plans ++ [⟨planId, call.rfqId, call.policy⟩]
          steps := s.steps ++ steps.map fun step => (planId, step.toPlanStep)
          phases := s.phases.set i
            (.returned call ⟨planId, some call.rfqId, some call.policy, some steps⟩) }
    | _ => none
  | .fail i uniqueViolation =>
    match s.phases[i]? with
    | some (.composing call) =>
      some (s.move i (if uniqueViolation then .reading call else .thrown))
    | some (.selecting _) | some (.inserting _) | some (.reading _) => some (s.move i .thrown)
    | _ => none
  | .read i =>
    match s.phases[i]? with
    | some (.reading call) =>
      match s.find (planIdOf sha256 call) with
      | none => some (s.move i .thrown)
      | some plan =>
        match stepsOf sha256 call with
        | none => some (s.move i .thrown)
        | some steps =>
          some (s.move i (.returned call
            ⟨plan.id, some plan.rfq_id, some plan.acceptance_policy, some steps⟩))
    | _ => none

end LotusRfq.Sor
