import LotusRfq.Sor.PlanRunner

/-!
# LotusRfq — is a plan step executed once?

The calls that book an execution stand in the `try` block whose `catch` drives the retries. An
exception among them, after an execution that was observed as ok, executes the step again, or a
fallback for it. Where no such exception comes with an attempt or a fallback left, every run
executes each of its steps at most once, whatever fails elsewhere, however the runs interleave
and wherever they crash.

* **`chainStep_executions`** — what a worker's action adds to the executions;
* **`chainStep_spent`** — a worker that has executed its step does not come back to the router;
* **`executedOnce_of_booked`** — the bound, along every run of the system.
-/

namespace LotusRfq.Sor

open LotusRfq.Js Transitions Calls List

/-! ## Reading an action -/

/-- `P` holds of the chain the worker is busy with, if it is busy. -/
def Worker.Ensures (P : Chain → Prop) : Worker → Prop
  | .busy chain => P chain
  | _ => True

section Ensures

variable (P : Chain → Prop) (chain : Chain)

end Ensures

variable {config : PlanRunnerConfig} {plan : ExecutionPlan} {r : ℕ} {store store' : PlanStore}
  {chain : Chain} {worker : Worker} {randomUUID : ℕ → String} {reply : Reply}

/-- The tables no worker writes, and the log of the execution router. -/
structure KeepsTables (store store' : PlanStore) : Prop where
  plan : store'.plan = store.plan
  planUpdates : store'.planUpdates = store.planUpdates
  candidates : store'.candidates = store.candidates
  executions : store'.executions = store.executions

variable {awaited : Awaited Worker} {phase : RunPhase} {runner runner' : Runner} {sys : System}

theorem chainCall_keepsTables (h : chainCall config plan store chain randomUUID = some awaited) :
    KeepsTables store awaited.effect := by
  unfold chainCall at h
  split at h <;> cases h
  case h_1 => split <;> exact ⟨rfl, rfl, rfl, rfl⟩
  case h_6 next _ => cases next <;> exact ⟨rfl, rfl, rfl, rfl⟩
  case h_13 => split <;> exact ⟨rfl, rfl, rfl, rfl⟩
  all_goals exact ⟨rfl, rfl, rfl, rfl⟩

theorem chainCall_origin (h : chainCall config plan store chain randomUUID = some awaited) :
    awaited.onReturn.Ensures (·.origin = chain.origin) ∧
      ∀ applied error, (awaited.onThrow applied error).Ensures (·.origin = chain.origin) := by
  unfold chainCall at h
  split at h <;> cases h
  case h_6 next _ =>
    cases next <;> refine ⟨?_, fun _ _ => rfl⟩ <;> simp only [successCall] <;>
      first | rfl | (split <;> rfl)
  all_goals
    constructor
    · repeat' split
      all_goals first | rfl | trivial
    · intro _ _
      repeat' split
      all_goals first | rfl | trivial

/-! ## Step ids -/

variable (stepId : String)

theorem updateStep_ids (f : PersistedRouteStep → PersistedRouteStep)
    (hf : ∀ step, (f step).id = step.id) :
    (store.updateStep stepId f).steps.map (·.id) = store.steps.map (·.id) := by
  simp only [PlanStore.updateStep, map_map]
  refine map_congr_left fun step _ => ?_
  simp only [Function.comp_apply]
  split
  · exact hf step
  · rfl

theorem markStepExecuting_ids :
    (store.markStepExecuting stepId).steps.map (·.id) = store.steps.map (·.id) :=
  updateStep_ids stepId _ fun step => by split <;> rfl

theorem markStepFilled_ids (payload : StepResult) :
    (store.markStepFilled stepId payload).steps.map (·.id) = store.steps.map (·.id) :=
  updateStep_ids stepId _ fun _ => rfl

theorem markStepFailed_ids (payload : StepResult) :
    (store.markStepFailed stepId payload).steps.map (·.id) = store.steps.map (·.id) :=
  updateStep_ids stepId _ fun _ => rfl

theorem insertStep_ids_nodup (step : PersistedRouteStep)
    (hnodup : (store.steps.map (·.id)).Nodup) (hnew : store.getStepById step.id = none) :
    ((store.insertStep step).steps.map (·.id)).Nodup := by
  simp only [PlanStore.insertStep, map_append, map_cons, map_nil]
  refine List.Nodup.append hnodup (nodup_singleton _) ?_
  simp only [disjoint_singleton, mem_map, not_exists, not_and]
  intro other hmem heq
  simpa [heq] using find?_eq_none.mp hnew other hmem

theorem chainCall_ids (h : chainCall config plan store chain randomUUID = some awaited)
    (hnodup : (store.steps.map (·.id)).Nodup) : (awaited.effect.steps.map (·.id)).Nodup := by
  unfold chainCall at h
  split at h <;> cases h
  case h_1 => split <;> exact hnodup
  case h_4 => exact (markStepExecuting_ids _).symm ▸ hnodup
  case h_6 next _ =>
    cases next
    case markStepFilled => exact (markStepFilled_ids _ _).symm ▸ hnodup
    all_goals exact hnodup
  case h_7 => exact (markStepFailed_ids _ _).symm ▸ hnodup
  case h_13 =>
    split
    next => exact hnodup
    next hnew => exact insertStep_ids_nodup _ hnodup (by simpa using hnew)
  all_goals exact hnodup

/-! ## Executions on behalf of a plan step -/

/-- The executions a run made for a plan step, its fallbacks included, and observed as ok. -/
def okExecutions (store : PlanStore) (r : ℕ) (origin : String) : ℕ :=
  store.executions.countP fun execution =>
    execution.runner = r ∧ execution.origin = origin ∧ execution.ok

theorem okExecutions_append {execution : Execution}
    (h : store'.executions = store.executions ++ [execution]) (r : ℕ) (origin : String) :
    okExecutions store' r origin = okExecutions store r origin +
      if execution.runner = r ∧ execution.origin = origin ∧ execution.ok then 1 else 0 := by
  simp [okExecutions, h, countP_append, countP_singleton]

theorem okExecutions_congr (h : store'.executions = store.executions) (r : ℕ) (origin : String) :
    okExecutions store' r origin = okExecutions store r origin := by
  rw [okExecutions, h, okExecutions]

/-- The worker will not call the router again: its step is executed, or on its way out, or no
fallback is left for it. -/
def Chain.spent (store : PlanStore) (chain : Chain) : Prop :=
  match chain.phase with
  | .succeeding _ _ _ _ _ | .releasing (.threw _) => True
  | .failing _ _ | .failed _ _ | .releasing (.result .FAILED) | .loadingCandidates =>
    findFallback store chain = none
  | .releasing (.result _) => True
  | _ => False

/-- The call of the success path returns: it neither throws nor misses its row. -/
def SuccessCall.returns (plan : ExecutionPlan) (store : PlanStore) (next : SuccessCall) :
    Reply → Bool
  | .done =>
    match next with
    | .loadPlan | .riskLoadPlan => (store.loadPlan plan.id).isSome
    | .riskLoadRFQSession _ => (store.loadRFQSession plan.rfqId).isSome
    | _ => true
  | _ => false

/-- A call that books an execution fails only with no attempt and no fallback left. -/
def Chain.booked (config : PlanRunnerConfig) (plan : ExecutionPlan) (store : PlanStore)
    (chain : Chain) (reply : Reply) : Bool :=
  match chain.phase with
  | .succeeding _ attempt _ _ next =>
    next.returns plan store reply ||
      (config.maxAttempts ≤ attempt && (findFallback store chain).isNone)
  | _ => true

theorem findFallback_congr (h : store'.candidates = store.candidates) (chain : Chain) :
    findFallback store' chain = findFallback store chain := by
  rw [findFallback, PlanStore.loadCandidatesByLeg, h, findFallback, PlanStore.loadCandidatesByLeg]

theorem spent_congr (h : store'.candidates = store.candidates) (chain : Chain) :
    chain.spent store' ↔ chain.spent store := by
  unfold Chain.spent
  rw [findFallback_congr h]

theorem spent_nextAttempt {refreshed : PersistedRouteStep} {attempt : ℕ}
    {transientErrors : List String} (hattempts : config.maxAttempts ≤ attempt)
    (hfallback : findFallback store chain = none) :
    ({ chain with phase := nextAttempt config refreshed attempt transientErrors } : Chain).spent
      store := by
  rw [nextAttempt, if_neg (not_lt.mpr hattempts)]
  exact hfallback

/-- The success path stays on the success path, or the guard lets its failure lead out. -/
theorem successCall_spent {refreshed : PersistedRouteStep} {attempt : ℕ}
    {transientErrors : List String} {executionRef : Option String} {next : SuccessCall}
    (hbooked : next.returns plan store reply = true ∨
      config.maxAttempts ≤ attempt ∧ findFallback store chain = none)
    (h : (successCall config plan store chain refreshed attempt transientErrors executionRef
      next).settle store reply = some (store', worker)) : worker.Ensures (·.spent store) := by
  have hthrow : ∀ error, (config.maxAttempts ≤ attempt ∧ findFallback store chain = none) →
      ({ chain with phase := nextAttempt config refreshed attempt error } : Chain).spent store :=
    fun _ hout => spent_nextAttempt hout.1 hout.2
  cases reply with
  | done =>
    cases next <;> cases h <;> simp only [SuccessCall.returns] at hbooked <;>
      simp only [successCall]
    case loadPlan.refl | riskLoadPlan.refl =>
      cases hplan : store.loadPlan plan.id with
      | some persistedPlan => trivial
      | none => exact hthrow _ (by simpa [hplan] using hbooked)
    case riskLoadRFQSession.refl =>
      cases hsession : store.loadRFQSession plan.rfqId with
      | some session => trivial
      | none => exact hthrow _ (by simpa [hsession] using hbooked)
    all_goals trivial
  | lost error =>
    cases next <;> cases h <;> exact hthrow _ (by simpa [SuccessCall.returns] using hbooked)
  | refused error =>
    cases next <;> cases h <;> exact hthrow _ (by simpa [SuccessCall.returns] using hbooked)
  | answered => cases h

section

variable (h : chainStep config plan r store chain randomUUID reply = some (store', worker))

include h

theorem chainStep_cases :
    (∃ refreshed attempt transientErrors,
      chain.phase = .executing refreshed attempt transientErrors ∧
      observeExecution config r store chain refreshed attempt transientErrors reply =
        some (store', worker)) ∨
    ∃ awaited, chainCall config plan store chain randomUUID = some awaited ∧
      awaited.settle store reply = some (store', worker) := by
  unfold chainStep at h
  split at h
  next refreshed attempt transientErrors hphase =>
    exact .inl ⟨refreshed, attempt, transientErrors, hphase, h⟩
  next => exact .inr (Option.bind_eq_some_iff.mp h)

/-- Nothing but the answer of the router adds to its log, and an ok spends the worker. -/
theorem chainStep_executions :
    store'.executions = store.executions ∨
      ∃ execution, store'.executions = store.executions ++ [execution] ∧
        execution.runner = r ∧ execution.origin = chain.origin ∧ ¬ chain.spent store ∧
        (execution.ok = true → worker.Ensures (·.spent store')) := by
  rcases chainStep_cases h with ⟨refreshed, attempt, transientErrors, hphase, h⟩ | ⟨awaited, hcall, h⟩
  · right
    have hspent : ¬ chain.spent store := by simp [Chain.spent, hphase]
    unfold observeExecution at h
    split at h <;> cases h
    case h_1 => exact ⟨_, rfl, rfl, rfl, hspent, fun _ => trivial⟩
    all_goals exact ⟨_, rfl, rfl, rfl, hspent, fun hok => by simp at hok⟩
  · left
    have heffect := (chainCall_keepsTables hcall).executions
    exact Awaited.settle_elim (P := fun s _ => s.executions = store.executions) h
      heffect (fun _ => heffect) (fun _ => rfl)

theorem chainStep_candidates : store'.candidates = store.candidates := by
  rcases chainStep_cases h with ⟨refreshed, attempt, transientErrors, -, h⟩ | ⟨awaited, hcall, h⟩
  · unfold observeExecution at h
    split at h <;> cases h <;> rfl
  · have heffect := (chainCall_keepsTables hcall).candidates
    exact Awaited.settle_elim (P := fun s _ => s.candidates = store.candidates) h
      heffect (fun _ => heffect) (fun _ => rfl)

theorem chainStep_ids (hnodup : (store.steps.map (·.id)).Nodup) :
    (store'.steps.map (·.id)).Nodup := by
  rcases chainStep_cases h with ⟨refreshed, attempt, transientErrors, -, h⟩ | ⟨awaited, hcall, h⟩
  · unfold observeExecution at h
    split at h <;> cases h <;> exact hnodup
  · have heffect := chainCall_ids hcall hnodup
    exact Awaited.settle_elim (P := fun s _ => (s.steps.map (·.id)).Nodup) h
      heffect (fun _ => heffect) (fun _ => hnodup)

theorem chainStep_origin : worker.Ensures (·.origin = chain.origin) := by
  rcases chainStep_cases h with ⟨refreshed, attempt, transientErrors, -, h⟩ | ⟨awaited, hcall, h⟩
  · unfold observeExecution at h
    split at h <;> cases h <;> rfl
  · obtain ⟨hreturn, hthrow⟩ := chainCall_origin hcall
    exact Awaited.settle_elim (P := fun _ next => next.Ensures (·.origin = chain.origin)) h
      hreturn (fun _ => hthrow _ _) (fun _ => hthrow _ _)

/-- **A spent worker stays spent**, as long as what it books is booked. -/
theorem chainStep_spent (hbooked : chain.booked config plan store reply = true)
    (hspent : chain.spent store) : worker.Ensures (·.spent store') := by
  have hcandidates := chainStep_candidates h
  suffices hensures : worker.Ensures (·.spent store) by
    cases worker with
    | busy chain' => exact (spent_congr hcandidates chain').mpr hensures
    | _ => trivial
  rcases chainStep_cases h with ⟨refreshed, attempt, transientErrors, hphase, -⟩ | ⟨awaited, hcall, h⟩
  · simp [Chain.spent, hphase] at hspent
  · unfold chainCall at hcall
    simp only [Chain.spent] at hspent
    simp only [Chain.booked] at hbooked
    split at hcall <;> rename_i hphase <;> simp only [hphase] at hspent hbooked <;> cases hcall
    case h_6.refl =>
      exact successCall_spent (by simpa using hbooked) h
    case h_7.refl | h_8.refl =>
      exact Awaited.settle_elim (P := fun _ next => next.Ensures (·.spent store)) h
        hspent (fun _ => trivial) (fun _ => trivial)
    case h_9.refl status =>
      refine Awaited.settle_elim (P := fun _ next => next.Ensures (·.spent store)) h
        ?_ (fun _ => trivial) (fun _ => trivial)
      split
      next hfailed =>
        subst hfailed
        exact hspent
      next => trivial
    case h_10.refl =>
      exact Awaited.settle_elim (P := fun _ next => next.Ensures (·.spent store)) h
        trivial (fun _ => trivial) (fun _ => trivial)
    case h_11.refl =>
      refine Awaited.settle_elim (P := fun _ next => next.Ensures (·.spent store)) h
        ?_ (fun _ => trivial) (fun _ => trivial)
      rw [hspent]
      trivial

end

/-! ## One run -/

def RunPhase.early : RunPhase → Prop
  | .absent | .loadingPlan | .insertingContext _ | .markingRunning _ | .insertingStarted _
  | .loadingSteps _ => True
  | _ => False

def RunPhase.over : RunPhase → Prop
  | .returned _ | .rejected => True
  | _ => False

theorem RunPhase.over.not_early (h : phase.over) : ¬ phase.early := by
  cases phase <;> first | exact fun hearly => hearly | exact h.elim

/-- What a run has executed so far: nothing for the steps in its queue, nothing for the step of a
worker that is not spent, and at most once for each step. Its workers are on different steps. -/
structure RunnerOnce (store : PlanStore) (r : ℕ) (runner : Runner) : Prop where
  early : runner.phase.early → runner.workerCount = 0 ∧ (∀ w, runner.workers w = .idle) ∧
    ∀ origin, okExecutions store r origin = 0
  queue_nodup : (runner.queue.map (·.id)).Nodup
  queue_new : ∀ step ∈ runner.queue, okExecutions store r step.id = 0 ∧
    ∀ w chain, runner.workers w = .busy chain → chain.origin ≠ step.id
  distinct : ∀ w w' chain chain', runner.workers w = .busy chain →
    runner.workers w' = .busy chain' → chain.origin = chain'.origin → w = w'
  unspent : ∀ w chain, runner.workers w = .busy chain → ¬ chain.spent store →
    okExecutions store r chain.origin = 0
  once : ∀ origin, okExecutions store r origin ≤ 1

section

variable {runner : Runner} (h : RunnerOnce store r runner)

include h

theorem RunnerOnce.of_store
    (hcount : ∀ origin, okExecutions store' r origin = okExecutions store r origin)
    (hcandidates : store'.candidates = store.candidates) : RunnerOnce store' r runner := by
  constructor
  · intro hearly
    obtain ⟨hworkers, hidle, hnone⟩ := h.early hearly
    exact ⟨hworkers, hidle, fun origin => (hcount origin).trans (hnone origin)⟩
  · exact h.queue_nodup
  · exact fun step hstep => ⟨hcount _ ▸ (h.queue_new step hstep).1, (h.queue_new step hstep).2⟩
  · exact h.distinct
  · exact fun w chain hbusy hspent =>
      hcount _ ▸ h.unspent w chain hbusy (mt (spent_congr hcandidates chain).mpr hspent)
  · exact fun origin => hcount _ ▸ h.once origin

theorem RunnerOnce.of_phase (hphase : phase.early → runner.phase.early) :
    RunnerOnce store r { runner with phase := phase } :=
  ⟨fun hearly => h.early (hphase hearly), h.queue_nodup, h.queue_new, h.distinct, h.unspent,
    h.once⟩

theorem RunnerOnce.of_loadSteps (hearly : runner.phase.early) {queue : List PersistedRouteStep}
    (hnodup : (queue.map (·.id)).Nodup) (hphase : ¬ phase.early) (workerCount : ℕ) :
    RunnerOnce store r { runner with phase, queue, workerCount } := by
  obtain ⟨-, hidle, hnone⟩ := h.early hearly
  refine ⟨fun hearly' => absurd hearly' hphase, hnodup, fun step _ => ⟨hnone _, ?_⟩, ?_, ?_, h.once⟩
  · intro w chain hbusy
    simp [hidle w] at hbusy
  · intro w w' chain chain' hbusy
    simp [hidle w] at hbusy
  · intro w chain hbusy
    simp [hidle w] at hbusy

theorem RunnerOnce.of_claim (hlate : ¬ runner.phase.early) {step : PersistedRouteStep}
    {queue : List PersistedRouteStep} (hqueue : runner.queue = step :: queue) (w : ℕ)
    {chain : Chain} (horigin : chain.origin = step.id) :
    RunnerOnce store r { runner with
      queue := queue
      workers := Function.update runner.workers w (.busy chain) } := by
  have hnodup := h.queue_nodup
  rw [hqueue, map_cons, nodup_cons] at hnodup
  obtain ⟨hnone, hother⟩ := h.queue_new step (by simp [hqueue])
  -- a worker other than `w` is where it was, and not on the claimed step
  have hbefore : ∀ w' chain', w' ≠ w →
      Function.update runner.workers w (.busy chain) w' = .busy chain' →
        runner.workers w' = .busy chain' ∧ chain'.origin ≠ chain.origin := by
    intro w' chain' hne hbusy
    rw [Function.update_of_ne hne] at hbusy
    exact ⟨hbusy, horigin ▸ hother w' chain' hbusy⟩
  have hself : ∀ chain', Function.update runner.workers w (.busy chain) w = .busy chain' →
      chain = chain' := by
    intro chain' hbusy
    simpa using hbusy
  refine ⟨fun hearly => absurd hearly hlate, hnodup.2, ?_, ?_, ?_, h.once⟩
  · intro step' hstep'
    have hmem : step' ∈ runner.queue := by simp [hqueue, hstep']
    refine ⟨(h.queue_new step' hmem).1, fun w' chain' hbusy => ?_⟩
    by_cases hw : w' = w
    · subst hw
      rw [← hself chain' hbusy, horigin]
      intro heq
      exact hnodup.1 (mem_map.mpr ⟨step', hstep', heq.symm⟩)
    · exact (h.queue_new step' hmem).2 w' chain' (hbefore w' chain' hw hbusy).1
  · intro w₁ w₂ chain₁ chain₂ h₁ h₂ heq
    by_cases hw₁ : w₁ = w <;> by_cases hw₂ : w₂ = w
    · rw [hw₁, hw₂]
    · subst hw₁
      exact absurd (hself chain₁ h₁ ▸ heq.symm) (hbefore w₂ chain₂ hw₂ h₂).2
    · subst hw₂
      exact absurd (hself chain₂ h₂ ▸ heq) (hbefore w₁ chain₁ hw₁ h₁).2
    · exact h.distinct w₁ w₂ chain₁ chain₂ (hbefore w₁ chain₁ hw₁ h₁).1
        (hbefore w₂ chain₂ hw₂ h₂).1 heq
  · intro w' chain' hbusy hspent
    by_cases hw : w' = w
    · subst hw
      rw [← hself chain' hbusy, horigin]
      exact hnone
    · exact h.unspent w' chain' (hbefore w' chain' hw hbusy).1 hspent

theorem RunnerOnce.of_finished (hlate : ¬ runner.phase.early) (w : ℕ) :
    RunnerOnce store r { runner with workers := Function.update runner.workers w .finished } := by
  have hbefore : ∀ w' chain, Function.update runner.workers w .finished w' = .busy chain →
      runner.workers w' = .busy chain := by
    intro w' chain hbusy
    by_cases hw : w' = w
    · subst hw
      simp at hbusy
    · rwa [Function.update_of_ne hw] at hbusy
  refine ⟨fun hearly => absurd hearly hlate, h.queue_nodup, ?_, ?_, ?_, h.once⟩
  · intro step hstep
    obtain ⟨hnone, hother⟩ := h.queue_new step hstep
    exact ⟨hnone, fun w' chain hbusy => hother w' chain (hbefore w' chain hbusy)⟩
  · intro w₁ w₂ chain₁ chain₂ h₁ h₂
    exact h.distinct w₁ w₂ chain₁ chain₂ (hbefore w₁ chain₁ h₁) (hbefore w₂ chain₂ h₂)
  · intro w' chain hbusy
    exact h.unspent w' chain (hbefore w' chain hbusy)

theorem RunnerOnce.of_chainStep {w : ℕ} (hbusy : runner.workers w = .busy chain)
    (hstep : chainStep config plan r store chain randomUUID reply = some (store', worker))
    (hbooked : chain.booked config plan store reply = true) :
    RunnerOnce store' r { runner with workers := Function.update runner.workers w worker } := by
  have hcandidates := chainStep_candidates hstep
  have horigin := chainStep_origin hstep
  have hlate : ¬ runner.phase.early := by
    intro hearly
    simp [(h.early hearly).2.1 w] at hbusy
  -- only the chain's own step is counted further, and then the worker is spent
  have hcount : ∀ origin, origin ≠ chain.origin →
      okExecutions store' r origin = okExecutions store r origin := by
    intro origin hne
    rcases chainStep_executions hstep with heq | ⟨execution, heq, -, hfor, -⟩
    · exact okExecutions_congr heq r origin
    · simp [okExecutions_append heq, hfor, hne.symm]
  have hown : okExecutions store' r chain.origin = okExecutions store r chain.origin ∨
      ¬ chain.spent store ∧ okExecutions store' r chain.origin = 1 ∧
        worker.Ensures (·.spent store') := by
    rcases chainStep_executions hstep with heq | ⟨execution, heq, hrunner, hfor, hspent, hok⟩
    · exact .inl (okExecutions_congr heq r chain.origin)
    · cases hobserved : execution.ok with
      | true =>
        have hnone := h.unspent w chain hbusy hspent
        exact .inr ⟨hspent, by simp [okExecutions_append heq, hnone, hrunner, hfor, hobserved],
          hok hobserved⟩
      | false =>
        exact .inl (by simp [okExecutions_append heq, hobserved])
  -- every worker of the new run is on a step an old worker was on
  have hbefore : ∀ w' chain', Function.update runner.workers w worker w' = .busy chain' →
      ∃ chain₀, runner.workers w' = .busy chain₀ ∧ chain'.origin = chain₀.origin ∧
        (w' ≠ w → chain' = chain₀) := by
    intro w' chain' hbusy'
    by_cases hw : w' = w
    · subst hw
      rw [Function.update_self] at hbusy'
      subst hbusy'
      exact ⟨chain, hbusy, horigin, fun hne => absurd rfl hne⟩
    · rw [Function.update_of_ne hw] at hbusy'
      exact ⟨chain', hbusy', rfl, fun _ => rfl⟩
  refine ⟨fun hearly => absurd hearly hlate, h.queue_nodup, ?_, ?_, ?_, ?_⟩
  · intro step hmem
    obtain ⟨hnone, hother⟩ := h.queue_new step hmem
    refine ⟨(hcount _ (hother w chain hbusy).symm).trans hnone, fun w' chain' hbusy' => ?_⟩
    obtain ⟨chain₀, hbusy₀, heq, -⟩ := hbefore w' chain' hbusy'
    exact heq ▸ hother w' chain₀ hbusy₀
  · intro w₁ w₂ chain₁ chain₂ h₁ h₂ heq
    obtain ⟨chain₁', hbusy₁, heq₁, -⟩ := hbefore w₁ chain₁ h₁
    obtain ⟨chain₂', hbusy₂, heq₂, -⟩ := hbefore w₂ chain₂ h₂
    exact h.distinct w₁ w₂ chain₁' chain₂' hbusy₁ hbusy₂ (heq₁ ▸ heq₂ ▸ heq)
  · intro w' chain' hbusy' hspent
    by_cases hw : w' = w
    · subst hw
      simp only [Function.update_self] at hbusy'
      subst hbusy'
      have hunspent : ¬ chain.spent store :=
        fun hs => hspent (chainStep_spent hstep hbooked hs)
      rw [show chain'.origin = chain.origin from horigin]
      rcases hown with heq | ⟨-, -, hspent'⟩
      · exact heq.trans (h.unspent w' chain hbusy hunspent)
      · exact absurd hspent' hspent
    · obtain ⟨chain₀, hbusy₀, -, hsame⟩ := hbefore w' chain' hbusy'
      obtain rfl := hsame hw
      have hne : chain'.origin ≠ chain.origin :=
        fun heq => hw (h.distinct w' w chain' chain hbusy₀ hbusy heq)
      exact (hcount _ hne).trans
        (h.unspent w' chain' hbusy₀ (mt (spent_congr hcandidates chain').mpr hspent))
  · intro origin
    by_cases heq : origin = chain.origin
    · subst heq
      rcases hown with hsame | ⟨-, hone, -⟩
      · exact hsame ▸ h.once chain.origin
      · exact hone.le
    · exact hcount origin heq ▸ h.once origin

end

/-- `run` writes no step and calls no router. -/
structure KeepsSteps (store store' : PlanStore) : Prop where
  steps : store'.steps = store.steps
  candidates : store'.candidates = store.candidates
  executions : store'.executions = store.executions

theorem runnerCall_keepsSteps {awaited : Awaited Runner}
    (h : runnerCall config store runner = some awaited) : KeepsSteps store awaited.effect := by
  unfold runnerCall at h
  split at h
  case h_10 =>
    obtain ⟨planCall, -, rfl⟩ := Option.map_eq_some_iff.mp h
    cases planCall <;> exact ⟨rfl, rfl, rfl⟩
  all_goals cases h
  all_goals exact ⟨rfl, rfl, rfl⟩

theorem loadPlanSteps_ids_nodup (hnodup : (store.steps.map (·.id)).Nodup)
    (p : PersistedRouteStep → Bool) : ((store.loadPlanSteps.filter p).map (·.id)).Nodup := by
  have hperm : (store.loadPlanSteps.map (·.id)).Perm (store.steps.map (·.id)) :=
    (sortWith_perm _ _).map _
  exact (hperm.nodup_iff.mpr hnodup).sublist (filter_sublist.map _)

theorem runnerCall_once {awaited : Awaited Runner}
    (h : runnerCall config store runner = some awaited) (hnodup : (store.steps.map (·.id)).Nodup)
    (hrunner : RunnerOnce store r runner) :
    RunnerOnce store r awaited.onReturn ∧
      ∀ applied error, RunnerOnce store r (awaited.onThrow applied error) := by
  unfold runnerCall at h
  split at h
  case h_10 =>
    obtain ⟨planCall, -, rfl⟩ := Option.map_eq_some_iff.mp h
    exact ⟨hrunner.of_phase (fun hearly => hearly.elim),
      fun _ _ => hrunner.of_phase (fun hearly => hearly.elim)⟩
  all_goals cases h
  all_goals refine ⟨?_, fun _ _ => hrunner.of_phase (fun hearly => hearly.elim)⟩
  case h_4.refl hphase =>
    split
    · exact hrunner.of_phase (fun hearly => hearly.elim)
    · split
      · exact hrunner.of_phase (fun hearly => hearly.elim)
      · exact hrunner.of_phase (fun _ => by simp [RunPhase.early, hphase])
  case h_8.refl hphase =>
    exact hrunner.of_loadSteps (by simp [RunPhase.early, hphase])
      (loadPlanSteps_ids_nodup hnodup _) (by simp [RunPhase.early]) _
  case h_9.refl => exact hrunner.of_phase (fun hearly => hearly.elim)
  all_goals
    rename_i hphase
    exact hrunner.of_phase (fun _ => by simp [RunPhase.early, hphase])

theorem runnerStep_cases (h : runnerStep config store runner reply = some (store', runner')) :
    (store' = store ∧ ∃ phase : RunPhase, phase.over ∧ runner' = { runner with phase := phase }) ∨
      ∃ awaited, runnerCall config store runner = some awaited ∧
        awaited.settle store reply = some (store', runner') := by
  unfold runnerStep at h
  simp only at h
  split at h
  · split at h
    · cases h
      exact .inl ⟨rfl, .rejected, trivial, rfl⟩
    · split at h
      · exact .inr (Option.bind_eq_some_iff.mp h)
      · cases h
  · split at h
    · cases h
      exact .inl ⟨rfl, .returned _, trivial, rfl⟩
    · exact .inr (Option.bind_eq_some_iff.mp h)
  · exact .inr (Option.bind_eq_some_iff.mp h)

theorem runnerStep_once (h : runnerStep config store runner reply = some (store', runner'))
    (hnodup : (store.steps.map (·.id)).Nodup) (hrunner : RunnerOnce store r runner) :
    KeepsSteps store store' ∧ RunnerOnce store' r runner' := by
  rcases runnerStep_cases h with ⟨rfl, phase, hover, rfl⟩ | ⟨awaited, hcall, h⟩
  · exact ⟨⟨rfl, rfl, rfl⟩, hrunner.of_phase (fun hearly => absurd hearly hover.not_early)⟩
  · have hkeeps := runnerCall_keepsSteps hcall
    obtain ⟨hreturn, hthrow⟩ := runnerCall_once hcall hnodup hrunner
    have hafter : ∀ {next : Runner}, RunnerOnce store r next → RunnerOnce awaited.effect r next :=
      fun hnext => hnext.of_store (okExecutions_congr hkeeps.executions r) hkeeps.candidates
    exact Awaited.settle_elim
      (P := fun s next => KeepsSteps store s ∧ RunnerOnce s r next) h
      ⟨hkeeps, hafter hreturn⟩ (fun _ => ⟨hkeeps, hafter (hthrow _ _)⟩)
      (fun _ => ⟨⟨rfl, rfl, rfl⟩, hthrow _ _⟩)

theorem workerStep_once {w : ℕ}
    (h : workerStep config r store runner w randomUUID reply = some (store', runner'))
    (hbooked : ∀ chain, runner.workers w = .busy chain → chain.booked config runner.plan store
      reply = true) (hnodup : (store.steps.map (·.id)).Nodup)
    (hrunner : RunnerOnce store r runner) :
    (store'.steps.map (·.id)).Nodup ∧ store'.candidates = store.candidates ∧
      (∀ r' origin, r' ≠ r → okExecutions store' r' origin = okExecutions store r' origin) ∧
      RunnerOnce store' r runner' := by
  unfold workerStep at h
  simp only at h
  split at h
  next =>
    split at h
    next hw =>
      have hlate : ¬ runner.phase.early := fun hearly => by simp [(hrunner.early hearly).1] at hw
      split at h <;> cases h
      next => exact ⟨hnodup, rfl, fun _ _ _ => rfl, hrunner.of_finished hlate w⟩
      next hqueue => exact ⟨hnodup, rfl, fun _ _ _ => rfl, hrunner.of_claim hlate hqueue w rfl⟩
    next => cases h
  next chain hbusy =>
    obtain ⟨⟨store₁, worker⟩, hstep, heq⟩ := Option.map_eq_some_iff.mp h
    cases heq
    refine ⟨chainStep_ids hstep hnodup, chainStep_candidates hstep, ?_,
      hrunner.of_chainStep hbusy hstep (hbooked chain hbusy)⟩
    intro r' origin hne
    rcases chainStep_executions hstep with heq | ⟨execution, heq, hr, -⟩
    · exact okExecutions_congr heq r' origin
    · simp [okExecutions_append heq, hr, hne.symm]
  all_goals cases h

/-! ## The system -/

/-- The step ids are a key, and every run has executed each of its steps at most once. -/
structure OnceInv (sys : System) : Prop where
  ids : (sys.store.steps.map (·.id)).Nodup
  runners : ∀ r, RunnerOnce sys.store r (sys.runners r)

def booked (config : PlanRunnerConfig) (sys : System) : Action → Bool
  | .worker r w _ reply =>
    match (sys.runners r).workers w with
    | .busy chain => chain.booked config (sys.runners r).plan sys.store reply
    | _ => true
  | _ => true

/-- One run takes an action: the others are where they were, and count what they counted. -/
theorem OnceInv.set (h : OnceInv sys) (hids : (store'.steps.map (·.id)).Nodup)
    (hcandidates : store'.candidates = sys.store.candidates)
    (hothers : ∀ r' origin, r' ≠ r → okExecutions store' r' origin = okExecutions sys.store r'
      origin) (hrunner : RunnerOnce store' r runner) : OnceInv (sys.set r store' runner) := by
  refine ⟨hids, fun r' => ?_⟩
  by_cases hr : r' = r
  · subst hr
    simpa [System.set] using hrunner
  · simpa [System.set, Function.update_of_ne hr] using
      (h.runners r').of_store (fun origin => hothers r' origin hr) hcandidates

/-- **Step lemma.** Every action that books what it should keeps the invariant. -/
theorem act_once {sys' : System} {action : Action} (h : OnceInv sys)
    (hbooked : booked config sys action = true) (hact : act config sys action = some sys') :
    OnceInv sys' := by
  cases action with
  | start r plan =>
    simp only [act] at hact
    split at hact <;> cases hact
    next hphase =>
      have hrunner := h.runners r
      refine h.set h.ids rfl (fun _ _ _ => rfl) ⟨fun _ => hrunner.early ?_, hrunner.queue_nodup,
        hrunner.queue_new, hrunner.distinct, hrunner.unspent, hrunner.once⟩
      simp [RunPhase.early, hphase]
  | runner r reply =>
    simp only [act] at hact
    split at hact
    next => cases hact
    next =>
      obtain ⟨⟨store, runner⟩, hstep, rfl⟩ := Option.map_eq_some_iff.mp hact
      obtain ⟨hkeeps, hrunner⟩ := runnerStep_once hstep h.ids (h.runners r)
      exact h.set (hkeeps.steps ▸ h.ids) hkeeps.candidates
        (fun r' origin _ => okExecutions_congr hkeeps.executions r' origin) hrunner
  | worker r w randomUUID reply =>
    simp only [act] at hact
    split at hact
    next => cases hact
    next =>
      obtain ⟨⟨store, runner⟩, hstep, rfl⟩ := Option.map_eq_some_iff.mp hact
      have hchain : ∀ chain, (sys.runners r).workers w = .busy chain →
          chain.booked config (sys.runners r).plan sys.store reply = true := by
        intro chain hbusy
        simpa [booked, hbusy] using hbooked
      obtain ⟨hids, hcandidates, hothers, hrunner⟩ :=
        workerStep_once hstep hchain h.ids (h.runners r)
      exact h.set hids hcandidates hothers hrunner
  | crash r =>
    cases hact
    have hrunner := h.runners r
    exact h.set h.ids rfl (fun _ _ _ => rfl) ⟨hrunner.early, hrunner.queue_nodup,
      hrunner.queue_new, hrunner.distinct, hrunner.unspent, hrunner.once⟩
  | expire stepId =>
    cases hact
    exact ⟨h.ids, fun r => (h.runners r).of_store (fun _ => rfl) rfl⟩

/-- Before any run of the plan: its steps have their key, and nothing was executed. -/
structure Unstarted (sys : System) : Prop where
  ids : (sys.store.steps.map (·.id)).Nodup
  executions : sys.store.executions = []
  runners : ∀ r, sys.runners r = Runner.absent

theorem Unstarted.once (h : Unstarted sys) : OnceInv sys := by
  have hnone : ∀ r origin, okExecutions sys.store r origin = 0 := by
    simp [okExecutions, h.executions]
  refine ⟨h.ids, fun r => ?_⟩
  rw [h.runners r]
  refine ⟨fun _ => ⟨rfl, fun _ => rfl, hnone r⟩, nodup_nil, ?_, ?_, ?_, ?_⟩
  · intro step hstep
    simp [Runner.absent] at hstep
  · intro w w' chain chain' hbusy
    simp [Runner.absent] at hbusy
  · intro w chain hbusy
    simp [Runner.absent] at hbusy
  · exact fun origin => (hnone r origin).le.trans zero_le_one

/-- **At most one execution.** However the runs of a plan interleave, fail, crash and restart,
each run executes each of its plan steps at most once, fallbacks included, provided that a call
between an ok and the end of the success path fails only with no attempt and no fallback left. -/
theorem executedOnce_of_booked (config : PlanRunnerConfig) {init sys : System}
    (hinit : Unstarted init)
    (hrun : Run (act config) (fun s action => booked config s action = true) init sys)
    (r : ℕ) (origin : String) : okExecutions sys.store r origin ≤ 1 :=
  (hrun.invariant hinit.once fun _ _ _ h hbooked hact => act_once h hbooked hact).runners r
    |>.once origin

/-! ## A plan with one step -/

def oneStep : PersistedRouteStep :=
  { id := "step"
    leg_id := "leg"
    step_index := 0
    provider_type := .LP
    provider_id := "lp"
    target_size := 5
    client_order_id := "order"
    idempotency_key := "key"
    state := .PENDING
    result := none }

def oneStepSystem : System :=
  { store :=
      { plan := ⟨"plan", .BEST_EFFORT, some "token", .RESERVED, false⟩
        steps := [oneStep]
        candidates := []
        sessions := [("rfq", ⟨"taker", "market", "buy"⟩)]
        history := []
        locks := fun _ => none
        executions := []
        exposures := []
        planUpdates := [] }
    runners := fun _ => .absent }

theorem oneStepSystem_unstarted : Unstarted oneStepSystem :=
  ⟨by simp [oneStepSystem], rfl, fun _ => rfl⟩

/-- Run `r` is started and reads its steps. -/
def startRun (r : ℕ) : List Action :=
  .start r ⟨"plan", "rfq"⟩ :: List.replicate 5 (.runner r .done)

/-- The first worker of run `r` has these calls answered in turn. -/
def firstWorker (r : ℕ) (replies : List Reply) : List Action :=
  replies.map fun reply => .worker r 0 (fun _ => "uuid") reply

/-- The worker takes its step, locks it, reads it and marks it. -/
def takeStep : List Reply := List.replicate 4 .done

/-- One failed attempt and one good one, and everything after it is booked. -/
theorem oneStep_executedOnce :
    ∃ sys, Run (act ⟨4, 2⟩) (fun s action => booked ⟨4, 2⟩ s action = true) oneStepSystem sys ∧
      okExecutions sys.store 0 "step" = 1 ∧ ∀ r origin, okExecutions sys.store r origin ≤ 1 := by
  have hrun : Run (act ⟨4, 2⟩) (fun s action => booked ⟨4, 2⟩ s action = true) oneStepSystem _ :=
    Run.of_play (startRun 0 ++ firstWorker 0 (takeStep ++
      [.refused "step_timeout", .answered ⟨true, none, none⟩] ++ List.replicate 7 .done)) rfl
  exact ⟨_, hrun, by decide, executedOnce_of_booked ⟨4, 2⟩ oneStepSystem_unstarted hrun⟩

/-- The router says ok, the row is not written, and the retry executes the step again. -/
theorem oneStep_executedTwice :
    ¬ ∀ (config : PlanRunnerConfig) (init sys : System), Unstarted init →
      Reaches (act config) init sys → ∀ r origin, okExecutions sys.store r origin ≤ 1 := by
  intro h
  have hrun : Reaches (act ⟨4, 2⟩) oneStepSystem _ :=
    Run.of_play (startRun 0 ++ firstWorker 0 (takeStep ++ [.answered ⟨true, none, none⟩, .done,
      .refused "connection lost", .answered ⟨true, none, none⟩])) rfl
  exact absurd (h _ _ _ oneStepSystem_unstarted hrun 0 "step") (by decide)

end LotusRfq.Sor
