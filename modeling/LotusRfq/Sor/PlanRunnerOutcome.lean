import Mathlib.Data.List.Dedup
import LotusRfq.Sor.PlanRunnerOnce

/-!
# LotusRfq — does the plan's state say what happened?

A run that finds a step locked, or executing, goes past it, and then classifies the plan by what
it reads. It may move the plan to `COMPLETED` while another run, or a worker left behind by a
rejected or a crashed one, has a step in its hands.

* **`chainStep_executing`** — a step is `EXECUTING` only in the hands of some worker;
* **`legsCovered_iff`** — the count of legs against the legs themselves;
* **`planUpdates_sound`** — where a run writes the plan's state only with no step in anyone's
  hands, with what it counted still so, and past the last branch of its classification, every
  state ever written agrees with the step rows.
-/

namespace LotusRfq.Sor

open LotusRfq.Js Transitions Calls List
open Awaited (settle_elim)

variable {config : PlanRunnerConfig} {plan : ExecutionPlan} {r : ℕ} {store store' : PlanStore}
  {chain : Chain} {worker : Worker} {randomUUID : ℕ → String} {reply : Reply}

/-! ## Steps in a worker's hands -/

/-- The step the worker has marked `EXECUTING` and not written the result of. -/
def Chain.held (chain : Chain) : Option String :=
  match chain.phase with
  | .executing refreshed _ _ | .failing refreshed _ => some refreshed.id
  | .succeeding refreshed _ _ _ .loadPlan => some refreshed.id
  | .succeeding refreshed _ _ _ (.markStepFilled _) => some refreshed.id
  | .releasing (.threw left) => left
  | _ => none

/-- A worker that was rejected in between leaves its step behind. -/
def Worker.held : Worker → Option String
  | .busy chain => chain.held
  | .rejected left => left
  | _ => none

@[simp] theorem held_goTo (phase : StepPhase) :
    (chain.goTo phase).held = ({ chain with phase := phase } : Chain).held := rfl

@[simp] theorem held_idle : Worker.idle.held = none := rfl

@[simp] theorem held_rejected (left : Option String) : (Worker.rejected left).held = left := rfl

theorem held_nextAttempt (refreshed : PersistedRouteStep) (attempt : ℕ)
    (transientErrors : List String) :
    (chain.goTo (nextAttempt config refreshed attempt transientErrors)).held =
      some refreshed.id := by
  unfold nextAttempt
  split <;> rfl

/-- What a worker makes of the rows: a row that is `EXECUTING` afterwards is in its hands, or it
was so before and not in them. -/
def Accounts (held : Option String) (store store' : PlanStore) (worker : Worker) : Prop :=
  ∀ step' ∈ store'.steps, step'.state = .EXECUTING → worker.held = some step'.id ∨
    held ≠ some step'.id ∧ ∃ step ∈ store.steps, step.id = step'.id ∧ step.state = .EXECUTING

theorem Accounts.of_steps {held : Option String} (hsteps : store'.steps = store.steps)
    (hheld : ∀ id, held = some id → worker.held = some id) : Accounts held store store' worker := by
  intro step' hmem hexecuting
  rw [hsteps] at hmem
  by_cases h : held = some step'.id
  · exact .inl (hheld _ h)
  · exact .inr ⟨h, step', hmem, rfl, hexecuting⟩

theorem Accounts.of_none (hsteps : store'.steps = store.steps) :
    Accounts none store store' worker :=
  .of_steps hsteps nofun

theorem Accounts.of_settled {f : PersistedRouteStep → PersistedRouteStep} {stepId : String}
    (hf : ∀ step, (f step).state ≠ .EXECUTING) :
    Accounts (some stepId) store (store.updateStep stepId f) worker := by
  intro step' hmem hexecuting
  obtain ⟨step, hstep, rfl⟩ := mem_map.mp hmem
  by_cases hid : step.id = stepId
  · rw [if_pos hid] at hexecuting
    exact absurd hexecuting (hf step)
  · rw [if_neg hid] at hexecuting ⊢
    refine .inr ⟨?_, step, hstep, rfl, hexecuting⟩
    rw [ne_eq, Option.some.injEq]
    exact Ne.symm hid

theorem Accounts.of_marking {stepId : String}
    (hheld : store.executable stepId = true → worker.held = some stepId) :
    Accounts none store (store.markStepExecuting stepId) worker := by
  intro step' hmem hexecuting
  obtain ⟨step, hstep, rfl⟩ := mem_map.mp hmem
  by_cases hid : step.id = stepId
  · rw [if_pos hid] at hexecuting ⊢
    by_cases hstate : step.state = .PENDING ∨ step.state = .FAILED
    · left
      simp only [if_pos hstate, hid]
      exact hheld (any_eq_true.mpr ⟨step, hstep, by simpa using ⟨hid, hstate⟩⟩)
    · simp only [if_neg hstate] at hexecuting ⊢
      exact .inr ⟨nofun, step, hstep, rfl, hexecuting⟩
  · rw [if_neg hid] at hexecuting ⊢
    exact .inr ⟨nofun, step, hstep, rfl, hexecuting⟩

theorem Accounts.of_insert {step : PersistedRouteStep} (hstep : step.state = .PENDING) :
    Accounts none store (store.insertStep step) worker := by
  intro step' hmem hexecuting
  rcases mem_append.mp hmem with hold | hnew
  · exact .inr ⟨nofun, step', hold, rfl, hexecuting⟩
  · rw [mem_singleton.mp hnew, hstep] at hexecuting
    cases hexecuting

theorem successCall_executing {refreshed : PersistedRouteStep} {attempt : ℕ}
    {transientErrors : List String} {executionRef : Option String} {next : SuccessCall}
    (hphase : chain.phase = .succeeding refreshed attempt transientErrors executionRef next)
    (h : (successCall config plan store chain refreshed attempt transientErrors executionRef
      next).settle store reply = some (store', worker)) :
    Accounts chain.held store store' worker := by
  have hcaught : ∀ error (id : String), some refreshed.id = some id →
      (chain.goTo (nextAttempt config refreshed attempt error)).held = some id :=
    fun error _ heq => (held_nextAttempt refreshed attempt error).trans heq
  cases next with
  | loadPlan =>
    rw [show chain.held = some refreshed.id by simp [Chain.held, hphase]]
    refine settle_elim (P := fun s next => Accounts (some refreshed.id) store s next) h
      (.of_steps rfl ?_) (fun _ => .of_steps rfl (hcaught _)) (fun _ => .of_steps rfl (hcaught _))
    intro id heq
    simp only [successCall]
    split
    · exact heq
    · exact hcaught _ id heq
  | markStepFilled reservation_token =>
    rw [show chain.held = some refreshed.id by simp [Chain.held, hphase]]
    exact settle_elim (P := fun s next => Accounts (some refreshed.id) store s next) h
      (.of_settled fun _ => by simp) (fun _ => .of_settled fun _ => by simp)
      (fun _ => .of_steps rfl (hcaught _))
  | riskLoadPlan | riskLoadRFQSession | updateExposure | insertRouteHistory =>
    rw [show chain.held = none by simp [Chain.held, hphase]]
    exact settle_elim (P := fun s next => Accounts none store s next) h
      (.of_none rfl) (fun _ => .of_none rfl) (fun _ => .of_none rfl)

/-- **Marked steps are in someone's hands.** What a worker's action does to the rows, and to what
the worker has in its hands. -/
theorem chainStep_executing
    (h : chainStep config plan r store chain randomUUID reply = some (store', worker)) :
    Accounts chain.held store store' worker := by
  rcases chainStep_cases h with ⟨refreshed, attempt, transientErrors, hphase, h⟩ | ⟨awaited, hcall, h⟩
  · rw [show chain.held = some refreshed.id by simp [Chain.held, hphase]]
    unfold observeExecution at h
    split at h <;> cases h
    case h_1 => exact .of_steps rfl fun _ heq => heq
    all_goals exact .of_steps rfl fun _ heq => (held_nextAttempt _ _ _).trans heq
  · unfold chainCall at hcall
    split at hcall <;> rename_i hphase <;> cases hcall
    case h_6.refl => exact successCall_executing hphase h
    case h_4.refl refreshed =>
      rw [show chain.held = none by simp [Chain.held, hphase]]
      refine settle_elim (P := fun s next => Accounts none store s next) h
        (.of_marking ?_) (fun _ => .of_marking ?_) (fun _ => .of_none rfl)
      · intro htransitioned
        simp only [htransitioned, if_true]
        exact held_nextAttempt _ _ _
      · intro htransitioned
        simp [htransitioned, Chain.held]
    case h_7.refl refreshed transientErrors =>
      rw [show chain.held = some refreshed.id by simp [Chain.held, hphase]]
      exact settle_elim (P := fun s next => Accounts (some refreshed.id) store s next) h
        (.of_settled fun _ => by simp) (fun _ => .of_settled fun _ => by simp)
        (fun _ => .of_steps rfl fun _ heq => heq)
    case h_10.refl left =>
      rw [show chain.held = left by simp [Chain.held, hphase]]
      exact settle_elim (P := fun s next => Accounts left store s next) h
        (.of_steps rfl fun _ heq => heq) (fun _ => .of_steps rfl fun _ heq => heq)
        (fun _ => .of_steps rfl fun _ heq => heq)
    case h_13.refl fallback nextStepIndex =>
      rw [show chain.held = none by simp [Chain.held, hphase]]
      split at h
      next =>
        exact settle_elim (P := fun s next => Accounts none store s next) h
          (.of_none rfl) (fun _ => .of_none rfl) (fun _ => .of_none rfl)
      next =>
        exact settle_elim (P := fun s next => Accounts none store s next) h
          (.of_insert rfl) (fun _ => .of_insert rfl) (fun _ => .of_none rfl)
    case h_1.refl =>
      rw [show chain.held = none by simp [Chain.held, hphase]]
      split at h <;>
        exact settle_elim (P := fun s next => Accounts none store s next) h
          (.of_none rfl) (fun _ => .of_none rfl) (fun _ => .of_none rfl)
    all_goals
      rw [show chain.held = none by simp [Chain.held, hphase]]
      exact settle_elim (P := fun s next => Accounts none store s next) h
        (.of_none rfl) (fun _ => .of_none rfl) (fun _ => .of_none rfl)

/-! ## The classification -/

def EveryLegFilled (steps : List PersistedRouteStep) : Prop :=
  ∀ step ∈ steps, ∃ step' ∈ steps, step'.leg_id = step.leg_id ∧ step'.state = .FILLED

variable {steps : List PersistedRouteStep} {runner : Runner} {sys : System}

theorem countState_pos {state : PlanStepStatus} :
    0 < countState state steps ↔ ∃ step ∈ steps, step.state = state := by
  simp [countState, length_pos_iff_exists_mem]

theorem mem_legIds {legId : String} :
    legId ∈ legIds steps ↔ ∃ step ∈ steps, step.leg_id = legId := by
  simp [legIds]

theorem legIds_filled_subset (steps : List PersistedRouteStep) :
    legIds (steps.filter (·.state = .FILLED)) ⊆ legIds steps := by
  intro legId hmem
  obtain ⟨step, hstep, heq⟩ := mem_legIds.mp hmem
  exact mem_legIds.mpr ⟨step, mem_of_mem_filter hstep, heq⟩

theorem legsCovered_iff : legsCovered steps = true ↔ steps ≠ [] ∧ EveryLegFilled steps := by
  have hsub := legIds_filled_subset steps
  have hsubperm := subperm_of_subset (nodup_dedup _) hsub
  have hpos : 0 < (legIds steps).length ↔ steps ≠ [] := by
    cases steps with
    | nil => simp [legIds]
    | cons step steps =>
      simp only [ne_eq, reduceCtorEq, not_false_eq_true, iff_true]
      exact length_pos_of_mem (mem_legIds.mpr ⟨step, mem_cons_self, rfl⟩)
  have hlength : (legIds steps).length = (legIds (steps.filter (·.state = .FILLED))).length ↔
      legIds steps ⊆ legIds (steps.filter (·.state = .FILLED)) := by
    constructor
    · intro heq
      exact (hsubperm.perm_of_length_le heq.le).symm.subset
    · intro hall
      exact le_antisymm (subperm_of_subset (nodup_dedup _) hall).length_le hsubperm.length_le
  rw [legsCovered, decide_eq_true_eq, hpos, hlength]
  refine and_congr_right fun _ => ⟨fun hall step hstep => ?_, fun hall legId hmem => ?_⟩
  · obtain ⟨step', hmem, heq⟩ := mem_legIds.mp (hall (mem_legIds.mpr ⟨step, hstep, rfl⟩))
    obtain ⟨hstep', hfilled⟩ := mem_filter.mp hmem
    exact ⟨step', hstep', heq, by simpa using hfilled⟩
  · obtain ⟨step, hstep, rfl⟩ := mem_legIds.mp hmem
    obtain ⟨step', hstep', heq, hfilled⟩ := hall step hstep
    exact mem_legIds.mpr ⟨step', mem_filter.mpr ⟨hstep', by simpa using hfilled⟩, heq⟩

/-- The state of a plan agrees with its step rows: complete when every leg is filled, partial when
some step but not every leg is, failed when nothing is, and unwound when all or none was asked for
and not all of it was filled. -/
def Agrees (policy : SORAcceptancePolicy) (state : RoutingPlanStatus) (metadataPartial : Bool)
    (steps : List PersistedRouteStep) : Prop :=
  match state, metadataPartial with
  | .COMPLETED, false => steps ≠ [] ∧ EveryLegFilled steps
  | .COMPLETED, true => (∃ step ∈ steps, step.state = .FILLED) ∧ ¬ EveryLegFilled steps
  | .FAILED, _ => ∀ step ∈ steps, step.state ≠ .FILLED
  | .UNWOUND, _ => policy = .ALL_OR_NONE ∧ ∃ step ∈ steps, step.state ≠ .FILLED
  | _, _ => True

/-- What a run counts of some rows is so of others. -/
structure SameCounts (steps steps' : List PersistedRouteStep) : Prop where
  filled : 0 < countState .FILLED steps ↔ 0 < countState .FILLED steps'
  failed : 0 < countState .FAILED steps ↔ 0 < countState .FAILED steps'
  covered : legsCovered steps = legsCovered steps'

/-- One of the branches of `resolvePlanResult` before the last applies. -/
def Decided (policy : SORAcceptancePolicy) (steps : List PersistedRouteStep) : Prop :=
  policy = .ALL_OR_NONE ∨ 0 < countState .FAILED steps ∨ legsCovered steps = true

theorem exists_not_filled (hne : steps ≠ [])
    (h : legsCovered steps = false ∨ 0 < countState .FAILED steps) :
    ∃ step ∈ steps, step.state ≠ .FILLED := by
  rcases h with huncovered | hfailed
  · by_contra hall
    push Not at hall
    have hcovered : legsCovered steps = true :=
      legsCovered_iff.mpr ⟨hne, fun step hstep => ⟨step, hstep, rfl, hall step hstep⟩⟩
    simp [hcovered] at huncovered
  · obtain ⟨step, hstep, hstate⟩ := countState_pos.mp hfailed
    exact ⟨step, hstep, by simp [hstate]⟩

/-- **The classification is right** about rows on which its counts hold, its last branch apart. -/
theorem resolvePlanResult_agrees {policy : SORAcceptancePolicy}
    {finalSteps : List PersistedRouteStep} {made : ℕ} {state : RoutingPlanStatus}
    {metadataPartial : Bool}
    (hcall : (resolvePlanResult plan policy finalSteps).1[made]? = some (.updatePlanState state
      metadataPartial)) (hsame : SameCounts finalSteps steps) (hne : steps ≠ [])
    (hdecided : Decided policy steps) : Agrees policy state metadataPartial steps := by
  have hmem := mem_of_getElem? hcall
  have hcovered : legsCovered steps = true → EveryLegFilled steps :=
    fun h => (legsCovered_iff.mp h).2
  unfold resolvePlanResult at hmem
  simp only [hsame.filled, hsame.failed, hsame.covered] at hmem
  split at hmem
  next hunwound =>
    obtain ⟨rfl, rfl⟩ : state = .UNWOUND ∧ metadataPartial = false := by
      simpa [finalizeOrUnwind] using hmem
    exact ⟨hunwound.1, exists_not_filled hne hunwound.2⟩
  next hnotunwound =>
    split at hmem
    next hfailed =>
      obtain ⟨rfl, rfl⟩ : state = .FAILED ∧ metadataPartial = false := by simpa using hmem
      intro step hstep hstate
      have hpos := hsame.filled.mpr (countState_pos.mpr ⟨step, hstep, hstate⟩)
      omega
    next hnotfailed =>
      split at hmem
      next hall =>
        obtain ⟨rfl, rfl⟩ : state = .COMPLETED ∧ metadataPartial = false := by simpa using hmem
        exact ⟨hne, hcovered hall⟩
      next hnotall =>
        split at hmem
        next hpartial =>
          obtain ⟨rfl, rfl⟩ : state = .COMPLETED ∧ metadataPartial = true := by simpa using hmem
          exact ⟨countState_pos.mp hpartial.2, fun h => hnotall (legsCovered_iff.mpr ⟨hne, h⟩)⟩
        next hnotpartial =>
          -- the last branch: nothing failed, yet some leg is not filled
          have hlast : ¬ Decided policy steps := by
            rintro (hpolicy | hfailed | hall)
            · exact hnotunwound ⟨hpolicy, .inl (by simpa using hnotall)⟩
            · have hfilled := hsame.filled
              have hfailed' := hsame.failed
              omega
            · exact hnotall hall
          exact absurd hdecided hlast

/-! ## The writes of the plan's state -/

/-- The plan is moved to a final state only with none of its steps executing, and to the state
that agrees with them. -/
def PlanUpdate.Sound (policy : SORAcceptancePolicy) (update : PlanUpdate) : Prop :=
  update.state.terminal = true →
    (∀ step ∈ update.steps, step.state ≠ .EXECUTING) ∧
      Agrees policy update.state update.metadataPartial update.steps

/-- `P` holds of the plan row the run has read, if it has read it. -/
def RunPhase.Ensures (P : PersistedRoutingPlan → Prop) : RunPhase → Prop
  | .insertingContext persistedPlan | .markingRunning persistedPlan
  | .insertingStarted persistedPlan | .loadingSteps persistedPlan | .working persistedPlan
  | .finalizing persistedPlan _ _ => P persistedPlan
  | _ => True

/-- The final state the run is about to write, with the rows it was chosen for. -/
def Runner.aboutToMove (runner : Runner) (finalSteps : List PersistedRouteStep) : Prop :=
  ∃ persistedPlan made state metadataPartial,
    runner.phase = .finalizing persistedPlan finalSteps made ∧
    (resolvePlanResult runner.plan persistedPlan.acceptance_policy finalSteps).1[made]? =
      some (.updatePlanState state metadataPartial)

/-- The run moves the plan to a final state only when no worker of any run has a step in its
hands, when what it counted is still so, and when the last branch of its classification is not
the one it takes. -/
def Settled (sys : System) : Action → Prop
  | .runner r _ => ∀ finalSteps, (sys.runners r).aboutToMove finalSteps →
      (∀ r' w, ((sys.runners r').workers w).held = none) ∧
      SameCounts finalSteps sys.store.steps ∧ sys.store.steps ≠ [] ∧
      Decided sys.store.plan.acceptance_policy sys.store.steps
  | _ => True

/-- A step is executing only in someone's hands, every run works with the plan's policy, and every
write of the plan's state is sound. -/
structure OutcomeInv (sys : System) : Prop where
  executing : ∀ step ∈ sys.store.steps, step.state = .EXECUTING →
    ∃ r w, ((sys.runners r).workers w).held = some step.id
  policy : ∀ r, (sys.runners r).phase.Ensures fun persistedPlan =>
    persistedPlan.acceptance_policy = sys.store.plan.acceptance_policy
  sound : ∀ update ∈ sys.store.planUpdates, update.Sound sys.store.plan.acceptance_policy

theorem chainStep_plan
    (h : chainStep config plan r store chain randomUUID reply = some (store', worker)) :
    store'.plan = store.plan ∧ store'.planUpdates = store.planUpdates := by
  rcases chainStep_cases h with ⟨refreshed, attempt, transientErrors, -, h⟩ | ⟨awaited, hcall, h⟩
  · unfold observeExecution at h
    split at h <;> cases h <;> exact ⟨rfl, rfl⟩
  · have hkeeps := chainCall_keepsTables hcall
    exact settle_elim
      (P := fun s _ => s.plan = store.plan ∧ s.planUpdates = store.planUpdates) h
      ⟨hkeeps.plan, hkeeps.planUpdates⟩ (fun _ => ⟨hkeeps.plan, hkeeps.planUpdates⟩)
      (fun _ => ⟨rfl, rfl⟩)

/-- The plan row keeps its policy, and a write of its state that is not sound is one the run was
about to make. -/
structure KeepsPlan (runner : Runner) (store store' : PlanStore) : Prop where
  policy : store'.plan.acceptance_policy = store.plan.acceptance_policy
  updates : ∀ update ∈ store'.planUpdates, update ∈ store.planUpdates ∨
    update.state.terminal = false ∨ ∃ finalSteps persistedPlan made,
      runner.phase = .finalizing persistedPlan finalSteps made ∧
      (resolvePlanResult runner.plan persistedPlan.acceptance_policy finalSteps).1[made]? =
        some (.updatePlanState update.state update.metadataPartial) ∧
      update.steps = store.steps

theorem KeepsPlan.of_eq (hpolicy : store'.plan.acceptance_policy = store.plan.acceptance_policy)
    (hupdates : store'.planUpdates = store.planUpdates) : KeepsPlan runner store store' :=
  ⟨hpolicy, fun _ hmem => .inl (hupdates ▸ hmem)⟩

theorem runnerCall_keepsPlan {awaited : Awaited Runner}
    (h : runnerCall config store runner = some awaited) :
    KeepsPlan runner store awaited.effect := by
  unfold runnerCall at h
  split at h
  case h_10 persistedPlan finalSteps made hphase =>
    obtain ⟨planCall, hcall, rfl⟩ := Option.map_eq_some_iff.mp h
    cases planCall with
    | insertRouteHistory event => exact .of_eq rfl rfl
    | updatePlanState state metadataPartial =>
      refine ⟨rfl, fun update hmem => ?_⟩
      rcases mem_append.mp hmem with hold | hnew
      · exact .inl hold
      · rw [mem_singleton.mp hnew]
        exact .inr (.inr ⟨finalSteps, persistedPlan, made, hphase, hcall, rfl⟩)
  all_goals cases h
  case h_6.refl =>
    refine ⟨rfl, fun update hmem => ?_⟩
    rcases mem_append.mp hmem with hold | hnew
    · exact .inl hold
    · rw [mem_singleton.mp hnew]
      exact .inr (.inl rfl)
  all_goals exact .of_eq rfl rfl

theorem runnerCall_next {awaited : Awaited Runner} {P : PersistedRoutingPlan → Prop}
    (hP : P store.plan) (h : runnerCall config store runner = some awaited)
    (hrunner : runner.phase.Ensures P) :
    (awaited.onReturn.workers = runner.workers ∧ awaited.onReturn.phase.Ensures P) ∧
      ∀ applied error, (awaited.onThrow applied error).workers = runner.workers ∧
        (awaited.onThrow applied error).phase.Ensures P := by
  unfold runnerCall at h
  split at h <;> rename_i hphase
  case h_10 =>
    rw [hphase] at hrunner
    obtain ⟨planCall, -, rfl⟩ := Option.map_eq_some_iff.mp h
    exact ⟨⟨rfl, hrunner⟩, fun _ _ => ⟨rfl, trivial⟩⟩
  all_goals cases h
  all_goals
    rw [hphase] at hrunner
    refine ⟨?_, fun _ _ => ⟨rfl, trivial⟩⟩
  case h_4.refl =>
    cases hload : store.loadPlan runner.plan.id with
    | none => exact ⟨rfl, trivial⟩
    | some persistedPlan =>
      obtain rfl : store.plan = persistedPlan := by
        unfold PlanStore.loadPlan at hload
        split at hload <;> cases hload
        rfl
      simp only
      split
      · exact ⟨rfl, trivial⟩
      · exact ⟨rfl, hP⟩
  all_goals exact ⟨rfl, hrunner⟩

theorem runnerStep_outcome {runner' : Runner} {P : PersistedRoutingPlan → Prop}
    (hP : P store.plan) (h : runnerStep config store runner reply = some (store', runner'))
    (hrunner : runner.phase.Ensures P) :
    KeepsPlan runner store store' ∧ store'.steps = store.steps ∧
      runner'.workers = runner.workers ∧ runner'.phase.Ensures P := by
  rcases runnerStep_cases h with ⟨rfl, phase, hover, rfl⟩ | ⟨awaited, hcall, h⟩
  · refine ⟨.of_eq rfl rfl, rfl, rfl, ?_⟩
    cases phase with
    | returned result => trivial
    | rejected => trivial
    | _ => exact hover.elim
  · have hkeeps := runnerCall_keepsPlan hcall
    have hsteps := (runnerCall_keepsSteps hcall).steps
    obtain ⟨hreturn, hthrow⟩ := runnerCall_next hP hcall hrunner
    exact settle_elim (P := fun s next => KeepsPlan runner store s ∧
        s.steps = store.steps ∧ next.workers = runner.workers ∧ next.phase.Ensures P) h
      ⟨hkeeps, hsteps, hreturn⟩ (fun _ => ⟨hkeeps, hsteps, hthrow _ _⟩)
      (fun _ => ⟨.of_eq rfl rfl, rfl, hthrow _ _⟩)

theorem workerStep_outcome {runner' : Runner} {w : ℕ}
    (h : workerStep config r store runner w randomUUID reply = some (store', runner')) :
    store'.plan = store.plan ∧ store'.planUpdates = store.planUpdates ∧
      runner'.phase = runner.phase ∧ ∃ worker,
        runner'.workers = Function.update runner.workers w worker ∧
          Accounts (runner.workers w).held store store' worker := by
  unfold workerStep at h
  simp only at h
  split at h
  next hidle =>
    split at h
    next =>
      rw [hidle]
      split at h <;> cases h
      next => exact ⟨rfl, rfl, rfl, .finished, rfl, .of_none rfl⟩
      next => exact ⟨rfl, rfl, rfl, .busy _, rfl, .of_none rfl⟩
    next => cases h
  next chain hbusy =>
    obtain ⟨⟨store₁, worker⟩, hstep, heq⟩ := Option.map_eq_some_iff.mp h
    cases heq
    obtain ⟨hplan, hupdates⟩ := chainStep_plan hstep
    exact ⟨hplan, hupdates, rfl, worker, rfl, hbusy ▸ chainStep_executing hstep⟩
  all_goals cases h

theorem OutcomeInv.set (h : OutcomeInv sys) (hsteps : store'.steps = sys.store.steps)
    (hworkers : runner.workers = (sys.runners r).workers)
    (hpolicy : store'.plan.acceptance_policy = sys.store.plan.acceptance_policy)
    (hphase : runner.phase.Ensures fun persistedPlan => persistedPlan.acceptance_policy =
      sys.store.plan.acceptance_policy)
    (hsound : ∀ update ∈ store'.planUpdates, update.Sound sys.store.plan.acceptance_policy) :
    OutcomeInv (sys.set r store' runner) := by
  refine ⟨?_, ?_, hpolicy ▸ hsound⟩
  · intro step hmem hexecuting
    obtain ⟨r', w, hheld⟩ := h.executing step (hsteps ▸ hmem) hexecuting
    refine ⟨r', w, ?_⟩
    by_cases hr : r' = r
    · subst hr
      simpa [System.set, hworkers] using hheld
    · simpa [System.set, Function.update_of_ne hr] using hheld
  · intro r'
    simp only [System.set, hpolicy]
    by_cases hr : r' = r
    · subst hr
      simpa using hphase
    · simpa [Function.update_of_ne hr] using h.policy r'

/-- **Step lemma.** Every settled action keeps the invariant. -/
theorem act_outcome {sys' : System} {action : Action} (h : OutcomeInv sys)
    (hsettled : Settled sys action) (hact : act config sys action = some sys') :
    OutcomeInv sys' := by
  cases action with
  | start r plan =>
    simp only [act] at hact
    split at hact <;> cases hact
    exact h.set rfl rfl rfl trivial h.sound
  | runner r reply =>
    simp only [act] at hact
    split at hact
    next => cases hact
    next =>
      obtain ⟨⟨store, runner⟩, hstep, rfl⟩ := Option.map_eq_some_iff.mp hact
      obtain ⟨hkeeps, hsteps, hworkers, hphase⟩ := runnerStep_outcome
        (P := fun persistedPlan =>
          persistedPlan.acceptance_policy = sys.store.plan.acceptance_policy)
        rfl hstep (h.policy r)
      refine h.set hsteps hworkers hkeeps.policy hphase fun update hmem hterminal => ?_
      rcases hkeeps.updates update hmem with
        hold | hrunning | ⟨finalSteps, persistedPlan, made, hfinal, hcall, hrows⟩
      · exact h.sound update hold hterminal
      · simp [hrunning] at hterminal
      · obtain ⟨hnone, hsame, hne, hdecided⟩ :=
          hsettled finalSteps ⟨persistedPlan, made, _, _, hfinal, hcall⟩
        have hpolicy : persistedPlan.acceptance_policy = sys.store.plan.acceptance_policy := by
          simpa [hfinal, RunPhase.Ensures] using h.policy r
        rw [hpolicy] at hcall
        rw [hrows]
        refine ⟨fun step hstep hexecuting => ?_,
          resolvePlanResult_agrees hcall hsame hne hdecided⟩
        obtain ⟨r', w, hheld⟩ := h.executing step hstep hexecuting
        simp [hnone r' w] at hheld
  | worker r w randomUUID reply =>
    simp only [act] at hact
    split at hact
    next => cases hact
    next =>
      obtain ⟨⟨store, runner⟩, hstep, rfl⟩ := Option.map_eq_some_iff.mp hact
      obtain ⟨hplan, hupdates, hphase, worker, hworkers, haccounts⟩ := workerStep_outcome hstep
      refine ⟨?_, ?_, ?_⟩
      · intro step' hmem hexecuting
        rcases haccounts step' hmem hexecuting with
          hheld | ⟨hnot, step, hstep', hid, hexecuting'⟩
        · exact ⟨r, w, by simpa [System.set, hworkers] using hheld⟩
        · -- another worker has it: this one did not, before
          obtain ⟨r', w', hheld⟩ := h.executing step hstep' hexecuting'
          rw [hid] at hheld
          refine ⟨r', w', ?_⟩
          by_cases hr : r' = r
          · subst hr
            have hw : w' ≠ w := by
              rintro rfl
              exact hnot hheld
            simpa [System.set, hworkers, Function.update_of_ne hw] using hheld
          · simpa [System.set, Function.update_of_ne hr] using hheld
      · intro r'
        simp only [System.set, hplan]
        by_cases hr : r' = r
        · subst hr
          simpa [hphase] using h.policy r'
        · simpa [Function.update_of_ne hr] using h.policy r'
      · simpa [System.set, hplan, hupdates] using h.sound
  | crash r =>
    cases hact
    exact h.set rfl rfl rfl (h.policy r) h.sound
  | expire stepId =>
    cases hact
    exact ⟨h.executing, h.policy, h.sound⟩

/-- Before any run of the plan: nothing is executing, and its state was not written. -/
structure NotExecuting (sys : System) : Prop where
  steps : ∀ step ∈ sys.store.steps, step.state ≠ .EXECUTING
  planUpdates : sys.store.planUpdates = []
  runners : ∀ r, sys.runners r = Runner.absent

theorem NotExecuting.outcome (h : NotExecuting sys) : OutcomeInv sys := by
  refine ⟨fun step hmem hexecuting => absurd hexecuting (h.steps step hmem), fun r => ?_, ?_⟩
  · rw [h.runners r]
    trivial
  · simp [h.planUpdates]

/-- **The plan's state agrees with its steps.** However the runs of a plan interleave, fail, crash
and restart, every final state ever written was written with no step executing, and agrees with
the steps, provided that every such write is settled. -/
theorem planUpdates_sound (config : PlanRunnerConfig) {init sys : System}
    (hinit : NotExecuting init) (hrun : Run (act config) Settled init sys) :
    ∀ update ∈ sys.store.planUpdates, update.Sound sys.store.plan.acceptance_policy :=
  (hrun.invariant hinit.outcome fun _ _ _ h hsettled hact => act_outcome h hsettled hact).sound

/-! ## Two runs of a plan with one step -/

/-- The run has read its steps for the last time. -/
def classifying (sys : System) : Action → Bool
  | .runner r _ =>
    match (sys.runners r).phase with
    | .finalizing _ _ _ => true
    | _ => false
  | _ => false

theorem settled_of_not_classifying (sys : System) (action : Action)
    (h : classifying sys action = false) : Settled sys action := by
  cases action with
  | runner r reply =>
    rintro finalSteps ⟨persistedPlan, made, state, metadataPartial, hphase, -⟩
    simp [classifying, hphase] at h
  | _ => trivial

theorem oneStepSystem_notExecuting : NotExecuting oneStepSystem :=
  ⟨by simp [oneStepSystem, oneStep], rfl, fun _ => rfl⟩

theorem oneStep_completed : ∃ sys, Run (act ⟨4, 2⟩) Settled oneStepSystem sys ∧
      (sys.store.planUpdates.map (·.state)) = [.RUNNING, .COMPLETED] ∧
      ∀ update ∈ sys.store.planUpdates, update.Sound sys.store.plan.acceptance_policy := by
  have hplayed : Run (act ⟨4, 2⟩) (fun s action => classifying s action = false) oneStepSystem _ :=
    Run.of_play (startRun 0 ++ firstWorker 0 (takeStep ++ [.answered ⟨true, none, none⟩] ++
      List.replicate 8 .done) ++ [.runner 0 .done]) rfl
  have hrun := Run.tail (hplayed.mono settled_of_not_classifying) (.runner 0 .done) (by
    rintro finalSteps ⟨persistedPlan, made, state, metadataPartial, hphase, -⟩
    cases hphase
    refine ⟨?_, ⟨Iff.rfl, Iff.rfl, rfl⟩, by decide, .inr (.inr (by decide))⟩
    intro r w
    cases r with
    | zero => cases w <;> rfl
    | succ r => rfl) rfl
  exact ⟨_, hrun, rfl, planUpdates_sound ⟨4, 2⟩ oneStepSystem_notExecuting hrun⟩

/-- The second run finds the step locked, goes past it, counts nothing failed and completes the
plan while the first is still executing its only step. -/
theorem overlappingRuns_completed :
    ¬ ∀ (config : PlanRunnerConfig) (init sys : System), NotExecuting init →
      Reaches (act config) init sys →
        ∀ update ∈ sys.store.planUpdates, update.Sound sys.store.plan.acceptance_policy := by
  intro h
  have hrun : Reaches (act ⟨4, 2⟩) oneStepSystem _ :=
    Run.of_play (startRun 0 ++ firstWorker 0 takeStep ++ startRun 1 ++
      firstWorker 1 (List.replicate 4 .done) ++ List.replicate 2 (.runner 1 .done)) rfl
  have hsound := h _ _ _ oneStepSystem_notExecuting hrun
    ⟨.COMPLETED, false, [{ oneStep with state := .EXECUTING }]⟩ (by decide)
  exact (hsound rfl).1 _ (mem_singleton.mpr rfl) rfl

end LotusRfq.Sor
