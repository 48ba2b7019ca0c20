import LotusRfq.Lib.RowLocks
import LotusRfq.Sor.PlanComposer

/-!
# LotusRfq — the plan that a composed plan is returned as

A plan that is composed is returned as it is persisted. A row that is selected is returned as it is,
without the fields of a plan; a row that is read is given the steps that the caller would have
composed.

* **`PlansSound.step`** — a plan is inserted once, and its steps with it;
* **`idempotent_step_iff`** — what one step returns;
* **`composePlan_idempotent_iff`** — along any actions.
-/

namespace LotusRfq.Sor

open RowLocks Transitions List

variable {sha256 : String → String} {s t : ComposerSystem}

def IsPersisted (s : ComposerSystem) (plan : ReturnedPlan) : Prop :=
  ∃ row ∈ s.find plan.id, plan.rfqId = some row.rfq_id ∧
    plan.acceptancePolicy = some row.acceptance_policy ∧
    plan.steps.map (·.map (·.toPlanStep)) = some (s.persistedSteps plan.id)

/-- Every call that has returned has returned the plan that is persisted for it. -/
def Idempotent (sha256 : String → String) (s : ComposerSystem) : Prop :=
  ∀ (i : ℕ) (call : ComposeCall) (plan : ReturnedPlan),
    s.phases[i]? = some (.returned call plan) →
      plan.id = planIdOf sha256 call ∧ IsPersisted s plan

/-- No call finds its plan, and one that reads it would have composed the same steps. -/
def ComposesAnew (sha256 : String → String) (s : ComposerSystem) : ComposeAction → Prop
  | .select i =>
    match s.phases[i]? with
    | some (.selecting call) => s.find (planIdOf sha256 call) = none
    | _ => True
  | .read i =>
    match s.phases[i]? with
    | some (.reading call) => (s.find (planIdOf sha256 call)).isSome →
        ∀ steps ∈ stepsOf sha256 call,
          steps.map (·.toPlanStep) = s.persistedSteps (planIdOf sha256 call)
    | _ => True
  | _ => True

instance (sha256 : String → String) (s : ComposerSystem) (action : ComposeAction) :
    Decidable (ComposesAnew sha256 s action) := by
  unfold ComposesAnew
  split
  · split <;> infer_instance
  · split <;> infer_instance
  · infer_instance

variable {i : ℕ} {call : ComposeCall} {planId : String} {action : ComposeAction}

theorem composesAnew_select (hat : s.phases[i]? = some (.selecting call)) :
    ComposesAnew sha256 s (.select i) ↔ s.find (planIdOf sha256 call) = none := by
  simp only [ComposesAnew, hat]

theorem composesAnew_read (hat : s.phases[i]? = some (.reading call)) :
    ComposesAnew sha256 s (.read i) ↔ ((s.find (planIdOf sha256 call)).isSome →
      ∀ steps ∈ stepsOf sha256 call,
        steps.map (·.toPlanStep) = s.persistedSteps (planIdOf sha256 call)) := by
  simp only [ComposesAnew, hat]

/-- A plan that is being inserted is inserted by one call, and is not there yet; steps belong to plans
that are there. -/
structure PlansSound (sha256 : String → String) (s : ComposerSystem) : Prop where
  alone : ∀ {i j : ℕ} {call call' : ComposeCall}, s.phases[i]? = some (.composing call) →
    s.phases[j]? = some (.composing call') → planIdOf sha256 call = planIdOf sha256 call' → i = j
  absent : ∀ {i : ℕ} {call : ComposeCall}, s.phases[i]? = some (.composing call) →
    s.find (planIdOf sha256 call) = none
  steps : ∀ step ∈ s.steps, (s.find step.1).isSome = true

theorem not_composing {phases : List ComposePhase} (h : ¬ isComposing sha256 planId phases = true)
    (hat : phases[i]? = some (.composing call)) : planIdOf sha256 call ≠ planId := by
  intro heq
  refine h (any_eq_true.mpr ⟨_, mem_of_getElem? hat, ?_⟩)
  simpa using heq

/-! ## Commits -/

def ComposerSystem.commit (s : ComposerSystem) (row : RoutingPlanRow) (steps : List ComposedStep)
    (phases : List ComposePhase) : ComposerSystem where
  plans := s.plans ++ [row]
  steps := s.steps ++ steps.map fun step => (row.id, step.toPlanStep)
  phases := phases

section Commit

variable {row : RoutingPlanRow} {steps : List ComposedStep} {phases : List ComposePhase}

theorem find_commit_self (row : RoutingPlanRow) (habsent : s.find row.id = none) :
    (s.commit row steps phases).find row.id = some row := by
  have hnone : s.plans.find? (fun row' => row'.id = row.id) = none := habsent
  show (s.plans ++ [row]).find? _ = _
  rw [find?_append, hnone, Option.none_or, find?_cons]
  simp

theorem find_commit_of_some {row' : RoutingPlanRow} (h : s.find planId = some row') :
    (s.commit row steps phases).find planId = some row' := by
  have hsome : s.plans.find? (fun row' => row'.id = planId) = some row' := h
  show (s.plans ++ [row]).find? _ = _
  rw [find?_append, hsome]
  rfl

theorem find_commit_of_ne (row : RoutingPlanRow) (hne : planId ≠ row.id)
    (h : s.find planId = none) : (s.commit row steps phases).find planId = none := by
  have hnone : s.plans.find? (fun row' => row'.id = planId) = none := h
  show (s.plans ++ [row]).find? _ = _
  rw [find?_append, hnone, Option.none_or, find?_cons]
  simp [hne.symm]

theorem persistedSteps_commit_self (row : RoutingPlanRow)
    (hs : ∀ step ∈ s.steps, (s.find step.1).isSome = true) (habsent : s.find row.id = none) :
    (s.commit row steps phases).persistedSteps row.id = steps.map (·.toPlanStep) := by
  have hbefore : s.steps.filter (fun step => step.1 = row.id) = [] := by
    refine filter_eq_nil_iff.mpr fun step hmem heq => ?_
    have hsome := hs step hmem
    rw [of_decide_eq_true heq, habsent] at hsome
    cases hsome
  show ((s.steps ++ steps.map fun step => (row.id, step.toPlanStep)).filter _).map Prod.snd = _
  rw [filter_append, hbefore, nil_append, filter_eq_self.mpr, map_map]
  · rfl
  · intro step hmem
    obtain ⟨composed, -, rfl⟩ := mem_map.mp hmem
    exact decide_eq_true rfl

theorem persistedSteps_commit_of_ne (hne : planId ≠ row.id) :
    (s.commit row steps phases).persistedSteps planId = s.persistedSteps planId := by
  have hnew : (steps.map fun step => (row.id, step.toPlanStep)).filter
      (fun step => step.1 = planId) = [] := by
    refine filter_eq_nil_iff.mpr fun step hmem heq => ?_
    obtain ⟨composed, -, rfl⟩ := mem_map.mp hmem
    exact hne (of_decide_eq_true heq).symm
  show ((s.steps ++ steps.map fun step => (row.id, step.toPlanStep)).filter _).map Prod.snd = _
  rw [filter_append, hnew, append_nil]
  rfl

theorem IsPersisted.commit {plan : ReturnedPlan} (h : IsPersisted s plan) (row : RoutingPlanRow)
    (habsent : s.find row.id = none) : IsPersisted (s.commit row steps phases) plan := by
  obtain ⟨found, hfound, hrfq, hpolicy, hsteps⟩ := h
  have hne : plan.id ≠ row.id := by
    intro heq
    rw [heq, habsent] at hfound
    cases hfound
  refine ⟨found, find_commit_of_some hfound, hrfq, hpolicy, ?_⟩
  rw [persistedSteps_commit_of_ne hne]
  exact hsteps

end Commit

/-! ## One step -/

/-- **What a step does**: a call moves on, or commits. -/
theorem composerStep_cases (h : composerStep sha256 s action = some t) :
    (∃ call, action = .start call ∧ t = { s with phases := s.phases ++ [.selecting call] }) ∨
    (∃ i call steps, action = .commit i ∧ s.phases[i]? = some (.composing call) ∧
      stepsOf sha256 call = some steps ∧
      t = s.commit ⟨planIdOf sha256 call, call.rfqId, call.policy⟩ steps (s.phases.set i
        (.returned call ⟨planIdOf sha256 call, some call.rfqId, some call.policy, some steps⟩))) ∨
    ∃ (i : ℕ) (old new : ComposePhase), s.phases[i]? = some old ∧ t = s.move i new ∧
      (∀ call, new = .composing call → s.find (planIdOf sha256 call) = none ∧
        isComposing sha256 (planIdOf sha256 call) s.phases = false) ∧
      (((∀ call plan, new ≠ .returned call plan) ∧ ComposesAnew sha256 s action) ∨
        (∃ call row, action = .select i ∧ old = .selecting call ∧
          s.find (planIdOf sha256 call) = some row ∧ new = .returned call row.returned) ∨
        ∃ call row steps, action = .read i ∧ old = .reading call ∧
          s.find (planIdOf sha256 call) = some row ∧ stepsOf sha256 call = some steps ∧
          new = .returned call ⟨row.id, some row.rfq_id, some row.acceptance_policy, some steps⟩) := by
  cases action with
  | start call =>
    cases h
    exact .inl ⟨call, rfl, rfl⟩
  | select i =>
    simp only [composerStep] at h
    split at h
    next call hat =>
      split at h
      next row hfound =>
        cases h
        exact .inr (.inr ⟨i, _, _, hat, rfl, by rintro _ ⟨⟩,
          .inr (.inl ⟨call, row, rfl, rfl, hfound, rfl⟩)⟩)
      next hnone =>
        cases h
        exact .inr (.inr ⟨i, _, _, hat, rfl, by rintro _ ⟨⟩,
          .inl ⟨by rintro _ _ ⟨⟩, (composesAnew_select hat).mpr hnone⟩⟩)
    next => cases h
  | insert i =>
    simp only [composerStep] at h
    split at h
    next call hat =>
      split at h
      next => cases h
      next hfree =>
        split at h
        next row hfound =>
          cases h
          exact .inr (.inr ⟨i, _, _, hat, rfl, by rintro _ ⟨⟩, .inl ⟨by rintro _ _ ⟨⟩, trivial⟩⟩)
        next hnone =>
          cases h
          refine .inr (.inr ⟨i, _, _, hat, rfl, ?_, .inl ⟨by rintro _ _ ⟨⟩, trivial⟩⟩)
          rintro call' ⟨⟩
          exact ⟨hnone, Bool.eq_false_iff.mpr hfree⟩
    next => cases h
  | commit i =>
    simp only [composerStep] at h
    split at h
    next call hat =>
      split at h
      next hnone =>
        cases h
        exact .inr (.inr ⟨i, _, _, hat, rfl, by rintro _ ⟨⟩, .inl ⟨by rintro _ _ ⟨⟩, trivial⟩⟩)
      next steps hsteps =>
        cases h
        exact .inr (.inl ⟨i, call, steps, rfl, hat, hsteps, rfl⟩)
    next => cases h
  | fail i uniqueViolation =>
    simp only [composerStep] at h
    split at h
    next call hat =>
      cases h
      refine .inr (.inr ⟨i, _, _, hat, rfl, ?_, .inl ⟨?_, trivial⟩⟩)
      · intro call' heq
        split at heq <;> cases heq
      · intro call' plan heq
        split at heq <;> cases heq
    next call hat =>
      cases h
      exact .inr (.inr ⟨i, _, _, hat, rfl, by rintro _ ⟨⟩, .inl ⟨by rintro _ _ ⟨⟩, trivial⟩⟩)
    next call hat =>
      cases h
      exact .inr (.inr ⟨i, _, _, hat, rfl, by rintro _ ⟨⟩, .inl ⟨by rintro _ _ ⟨⟩, trivial⟩⟩)
    next call hat =>
      cases h
      exact .inr (.inr ⟨i, _, _, hat, rfl, by rintro _ ⟨⟩, .inl ⟨by rintro _ _ ⟨⟩, trivial⟩⟩)
    next => cases h
  | read i =>
    simp only [composerStep] at h
    split at h
    next call hat =>
      -- where nothing is returned, the guard asks for nothing
      split at h
      next hnone =>
        cases h
        refine .inr (.inr ⟨i, _, _, hat, rfl, by rintro _ ⟨⟩,
          .inl ⟨by rintro _ _ ⟨⟩, (composesAnew_read hat).mpr fun hsome => ?_⟩⟩)
        rw [hnone] at hsome
        cases hsome
      next row hfound =>
        split at h
        next hnone =>
          cases h
          refine .inr (.inr ⟨i, _, _, hat, rfl, by rintro _ ⟨⟩,
            .inl ⟨by rintro _ _ ⟨⟩, (composesAnew_read hat).mpr fun _ steps hsteps => ?_⟩⟩)
          rw [hnone] at hsteps
          cases hsteps
        next steps hsteps =>
          cases h
          exact .inr (.inr ⟨i, _, _, hat, rfl, by rintro _ ⟨⟩,
            .inr (.inr ⟨call, row, steps, rfl, rfl, hfound, hsteps, rfl⟩)⟩)
    next => cases h

theorem id_of_find {row : RoutingPlanRow} (h : s.find planId = some row) : row.id = planId :=
  of_decide_eq_true (find?_some (p := fun row : RoutingPlanRow => decide (row.id = planId)) h)

theorem PlansSound.move (hs : PlansSound sha256 s) {new : ComposePhase}
    (hnew : ∀ call, new = .composing call → s.find (planIdOf sha256 call) = none ∧ isComposing
      sha256 (planIdOf sha256 call) s.phases = false) :
    PlansSound sha256 (s.move i new) where
  alone hat hat' hid := by
    rcases getElem?_set_cases hat with ⟨rfl, heq⟩ | ⟨-, hold⟩
    · rcases getElem?_set_cases hat' with ⟨rfl, -⟩ | ⟨-, hold'⟩
      · rfl
      · have hfree := Bool.eq_false_iff.mp (hnew _ heq.symm).2
        exact absurd hid.symm (not_composing hfree hold')
    · rcases getElem?_set_cases hat' with ⟨rfl, heq'⟩ | ⟨-, hold'⟩
      · have hfree := Bool.eq_false_iff.mp (hnew _ heq'.symm).2
        exact absurd hid (not_composing hfree hold)
      · exact hs.alone hold hold' hid
  absent hat := by
    rcases getElem?_set_cases hat with ⟨-, heq⟩ | ⟨-, hold⟩
    · exact (hnew _ heq.symm).1
    · exact hs.absent hold
  steps := hs.steps

theorem PlansSound.commit (hs : PlansSound sha256 s) (hat : s.phases[i]? = some (.composing call))
    (steps : List ComposedStep) (plan : ReturnedPlan) :
    PlansSound sha256 (s.commit ⟨planIdOf sha256 call, call.rfqId, call.policy⟩ steps
      (s.phases.set i (.returned call plan))) where
  alone hat' hat'' hid := by
    rcases getElem?_set_cases hat' with ⟨-, ⟨⟩⟩ | ⟨-, hold⟩
    rcases getElem?_set_cases hat'' with ⟨-, ⟨⟩⟩ | ⟨-, hold'⟩
    exact hs.alone hold hold' hid
  absent hat' := by
    rcases getElem?_set_cases hat' with ⟨-, ⟨⟩⟩ | ⟨hne, hold⟩
    exact find_commit_of_ne ⟨planIdOf sha256 call, call.rfqId, call.policy⟩
      (fun hid => hne (hs.alone hat hold hid.symm)) (hs.absent hold)
  steps step hmem := by
    rcases mem_append.mp hmem with hold | hnew
    · obtain ⟨row, hrow⟩ := Option.isSome_iff_exists.mp (hs.steps step hold)
      rw [find_commit_of_some hrow]
      rfl
    · obtain ⟨composed, -, rfl⟩ := mem_map.mp hnew
      rw [find_commit_self ⟨planIdOf sha256 call, call.rfqId, call.policy⟩ (hs.absent hat)]
      rfl

/-- **One step** keeps the plans and the steps together. -/
theorem PlansSound.step (hs : PlansSound sha256 s) (h : composerStep sha256 s action = some t) :
    PlansSound sha256 t := by
  rcases composerStep_cases h with ⟨call, rfl, rfl⟩ | ⟨i, call, steps, rfl, hat, -, rfl⟩ |
    ⟨i, old, new, -, rfl, hnew, -⟩
  · have hold : ∀ {i : ℕ} {call' : ComposeCall},
        (s.phases ++ [.selecting call])[i]? = some (.composing call') →
          s.phases[i]? = some (.composing call') := by
      intro i call' hat
      rw [getElem?_append] at hat
      split at hat
      · exact hat
      · exact absurd (mem_singleton.mp (mem_of_getElem? hat)) ComposePhase.noConfusion
    exact ⟨fun hat hat' => hs.alone (hold hat) (hold hat'), fun hat => hs.absent (hold hat),
      hs.steps⟩
  · exact hs.commit hat steps _
  · exact hs.move hnew

theorem idempotent_move_iff (hidempotent : Idempotent sha256 s) {old new : ComposePhase}
    (hat : s.phases[i]? = some old) : Idempotent sha256 (s.move i new) ↔
      ∀ call plan, new = .returned call plan →
        plan.id = planIdOf sha256 call ∧ IsPersisted s plan := by
  have hset : (s.phases.set i new)[i]? = some new := by
    obtain ⟨hi, -⟩ := List.getElem?_eq_some_iff.mp hat
    rw [List.getElem?_set_self hi]
  constructor
  · rintro h call plan rfl
    exact h i call plan hset
  · intro h j call plan hat'
    rcases getElem?_set_cases hat' with ⟨-, heq⟩ | ⟨-, hold⟩
    · exact h call plan heq.symm
    · exact hidempotent j call plan hold

theorem idempotent_commit (hs : PlansSound sha256 s) (hidempotent : Idempotent sha256 s)
    (hat : s.phases[i]? = some (.composing call)) (steps : List ComposedStep) :
    Idempotent sha256 (s.commit ⟨planIdOf sha256 call, call.rfqId, call.policy⟩ steps
      (s.phases.set i (.returned call
        ⟨planIdOf sha256 call, some call.rfqId, some call.policy, some steps⟩))) := by
  have habsent := hs.absent hat
  intro j call' plan hat'
  rcases getElem?_set_cases hat' with ⟨-, heq⟩ | ⟨-, hold⟩
  · cases heq
    refine ⟨rfl, _, find_commit_self ⟨planIdOf sha256 call, call.rfqId, call.policy⟩ habsent, rfl,
      rfl, ?_⟩
    exact congrArg some (persistedSteps_commit_self
      ⟨planIdOf sha256 call, call.rfqId, call.policy⟩ hs.steps habsent).symm
  · obtain ⟨hid, hpersisted⟩ := hidempotent j call' plan hold
    exact ⟨hid, hpersisted.commit ⟨planIdOf sha256 call, call.rfqId, call.policy⟩ habsent⟩

/-- **One step** returns what is persisted, unless it finds a plan or recomposes it otherwise. -/
theorem idempotent_step_iff (hs : PlansSound sha256 s) (hidempotent : Idempotent sha256 s)
    (h : composerStep sha256 s action = some t) :
    Idempotent sha256 t ↔ ComposesAnew sha256 s action := by
  rcases composerStep_cases h with ⟨call, rfl, rfl⟩ | ⟨i, call, steps, rfl, hat, -, rfl⟩ |
    ⟨i, old, new, hat, rfl, -, hnew⟩
  · refine iff_of_true (fun j call' plan hat => ?_) trivial
    rw [getElem?_append] at hat
    split at hat
    · exact hidempotent j call' plan hat
    · exact absurd (mem_singleton.mp (mem_of_getElem? hat)) ComposePhase.noConfusion
  · exact iff_of_true (idempotent_commit hs hidempotent hat steps) trivial
  · rw [idempotent_move_iff hidempotent hat]
    rcases hnew with ⟨hnone, hguard⟩ | ⟨call, row, rfl, rfl, hfound, rfl⟩ |
      ⟨call, row, steps, rfl, rfl, hfound, hsteps, rfl⟩
    · exact iff_of_true (fun call plan heq => absurd heq (hnone call plan)) hguard
    · -- a row is no plan
      refine iff_of_false (fun hpersisted => ?_) fun hguard => ?_
      · obtain ⟨-, found, -, hrfq, -⟩ := hpersisted call row.returned rfl
        cases hrfq
      · have hnone := (composesAnew_select hat).mp hguard
        rw [hfound] at hnone
        cases hnone
    · have hid := id_of_find hfound
      rw [composesAnew_read hat]
      constructor
      · intro hpersisted _ steps' hsteps'
        obtain ⟨-, -, -, -, -, hsame⟩ := hpersisted call _ rfl
        rw [hsteps] at hsteps'
        cases hsteps'
        rw [← hid]
        exact Option.some.inj hsame
      · intro hguard call' plan heq
        cases heq
        have hsame := hguard (by rw [hfound]; rfl) steps hsteps
        refine ⟨hid, row, ?_, rfl, rfl, ?_⟩
        · rw [hid]
          exact hfound
        · rw [hid]
          exact congrArg some hsame

structure Uncomposed (s : ComposerSystem) : Prop where
  plans : s.plans = []
  steps : s.steps = []
  phases : s.phases = []

/-- **Idempotence**: along any actions, every call that has returned has returned the plan that is
persisted exactly when no call finds its plan, and every call that reads it after a unique violation
would have composed the steps that are persisted. -/
theorem composePlan_idempotent_iff (sha256 : String → String) {s : ComposerSystem}
    (hs : Uncomposed s) (actions : List ComposeAction) :
    EachStep (composerStep sha256) (fun _ _ t => Idempotent sha256 t) actions s ↔
      EachStep (composerStep sha256) (fun s action _ => ComposesAnew sha256 s action)
        actions s := by
  refine eachStep_iff (P := fun s => PlansSound sha256 s ∧ Idempotent sha256 s)
    (fun s action t h hstep hidempotent => ⟨h.1.step hstep, hidempotent⟩)
    (fun s action t h hstep => idempotent_step_iff h.1 h.2 hstep) ⟨⟨?_, ?_, ?_⟩, ?_⟩
  · intro i j call call' hat
    rw [hs.phases] at hat
    cases hat
  · intro i call hat
    rw [hs.phases] at hat
    cases hat
  · intro step hmem
    rw [hs.steps] at hmem
    cases hmem
  · intro i call plan hat
    rw [hs.phases] at hat
    cases hat

/-! ### Composed twice -/

def uncomposed : ComposerSystem := ⟨[], [], []⟩

theorem uncomposed_uncomposed : Uncomposed uncomposed := ⟨rfl, rfl, rfl⟩

def tenAt (providerId : String) : ComposeCall where
  rfqId := "rfq-1"
  idempotencyKey := "key-1"
  candidates := [⟨⟨"candidate-1", "leg-1", providerId, 10, none⟩, .LP⟩]
  allocations := [⟨"candidate-1", providerId, 10, 10, 1 / 2⟩]
  policy := .ALL_OR_NONE

/-- A call that finds the plan of an earlier one. -/
def composedAgain : List ComposeAction :=
  [.start (tenAt "lp-1"), .select 0, .insert 0, .commit 0, .start (tenAt "lp-1"), .select 1]

/-- Two calls that have both found no plan. -/
def composedAtOnce : List ComposeAction :=
  [.start (tenAt "lp-1"), .start (tenAt "lp-1"), .select 0, .select 1, .insert 0, .commit 0,
    .insert 1, .read 1]

/-- The second call is returned a row without the fields of a plan. -/
theorem composedAgain_row : ∃ t, Reaches (composerStep id) uncomposed t ∧
    t.phases[1]? = some (.returned (tenAt "lp-1")
      ⟨planIdOf id (tenAt "lp-1"), none, none, none⟩) ∧ ¬ Idempotent id t := by
  have hplay : (play (composerStep id) (fun _ _ => True) composedAgain uncomposed).isSome := by
    decide +kernel
  have hrow : ((play (composerStep id) (fun _ _ => True) composedAgain uncomposed).get
      hplay).phases[1]? = some (.returned (tenAt "lp-1")
        ⟨planIdOf id (tenAt "lp-1"), none, none, none⟩) := by
    decide +kernel +revert
  refine ⟨_, Run.of_isSome _ hplay, hrow, fun h => ?_⟩
  obtain ⟨-, row, -, hrfq, -⟩ := h 1 _ _ hrow
  cases hrfq

/-- Both calls are returned the plan of the first. -/
theorem composePlan_idempotent_iff_atOnce : Uncomposed uncomposed ∧
    EachStep (composerStep id) (fun _ _ t => Idempotent id t) composedAtOnce uncomposed :=
  ⟨uncomposed_uncomposed, (composePlan_idempotent_iff id uncomposed_uncomposed
    composedAtOnce).mpr (eachStep_of_play (by decide +kernel))⟩

end LotusRfq.Sor
