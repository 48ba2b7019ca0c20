import LotusRfq.Execution.LegOutcome

/-!
# LotusRfq — the loop over the legs

One leg does what its answers come to (`handleLeg_passes`, `handleLeg_stops`), and so does the
loop: it gets through when it goes on past every leg.
-/

namespace LotusRfq.Execution

open Attempts List

variable {deps : OrchestratorDeps} {request : ExecutionRequestV0} {answers : LegAnswers}
  {run : ExecutionRun} {before after : List ExecutionLegV0} {leg : ExecutionLegV0}

/-! ## One leg -/

variable {index : ℕ}

theorem submitLeg_ok {leg' : ExecutionLegV0}
    (h : (go (submitLeg answers index leg) run).1 = .ok leg') :
    ∃ prepared submitted submittedId, answers.prepareOrder = .ok prepared ∧
      answers.submitOrder = .ok submitted ∧ answers.audit .ORDER_SUBMITTED = .ok submittedId ∧
      leg' = submittedLeg leg submitted := by
  unfold submitLeg at h
  cases hprepare : answers.prepareOrder with
  | error error => simp [hprepare] at h
  | ok prepared =>
    cases hsubmit : answers.submitOrder with
    | error error => simp [hprepare, hsubmit] at h
    | ok submitted =>
      cases haudit : answers.audit .ORDER_SUBMITTED with
      | error error => simp [hprepare, hsubmit, haudit] at h
      | ok submittedId =>
        refine ⟨prepared, submitted, submittedId, rfl, rfl, rfl, ?_⟩
        simp only [hprepare, hsubmit, haudit, go_bind, go_await, go_setLeg, go_writeAudit, go_get,
          go_ite, go_transitionTo, go_pure] at h
        split at h
        · split at h <;> simp_all
        · simp_all

theorem fillReceived_ok {returned : Unit}
    (h : (go (fillReceived answers index) run).1 = .ok returned) :
    ∃ filledId, answers.audit .FILL_RECEIVED = .ok filledId := by
  cases haudit : answers.audit .FILL_RECEIVED with
  | error error => simp [fillReceived, haudit] at h
  | ok filledId => exact ⟨filledId, rfl⟩

theorem partialFill_ne_next : (go (partialFill answers index) run).1 ≠ .ok .next := by
  simp only [partialFill, go_bind, go_setLeg, go_writeAudit, go_get, go_ite, go_transitionTo,
    go_pure]
  cases answers.audit .PARTIAL_FILL_RECEIVED <;> (repeat' split) <;> simp_all

theorem checkSettlement_throws (request : ExecutionRequestV0) (index : ℕ)
    (fill : VenueFillState) (run : ExecutionRun)
    (h : ¬ ((answers.audit .SETTLEMENT_CHECK_STARTED).isOk ∧
      (verify deps leg answers.fetchSettlementState).isOk)) :
    ∃ error, go (checkSettlement deps request answers index leg fill) run =
      (.error error, (go (writeAudit (answers.audit .SETTLEMENT_CHECK_STARTED)) run).2) := by
  unfold checkSettlement
  cases haudit : answers.audit .SETTLEMENT_CHECK_STARTED with
  | error error => exact ⟨error, by simp⟩
  | ok auditId =>
    cases hverify : verify deps leg answers.fetchSettlementState with
    | error error => exact ⟨error, by simp⟩
    | ok settlement => exact absurd ⟨isOk_iff.mpr ⟨_, haudit⟩, isOk_iff.mpr ⟨_, hverify⟩⟩ h

/-- The loop does not go on, and the leg is left with this settlement status. -/
def Stops (books : ExecutionRun) (before after : List ExecutionLegV0)
    (settlementStatus : SettlementStatusV0) (code : Code LegEnd) (run : ExecutionRun) : Prop :=
  (go code run).1 ≠ .ok .next ∧ LegHas books before after settlementStatus (go code run).2

variable {books : ExecutionRun} {settlementStatus : SettlementStatusV0}

theorem check_stops {current : ExecutionLegV0} {fill : VenueFillState}
    (hkept : LegHas books before after settlementStatus run)
    (h : ¬ ((answers.audit .SETTLEMENT_CHECK_STARTED).isOk ∧
      (verify deps current answers.fetchSettlementState).isOk)) :
    Stops books before after settlementStatus (do
      let ghost ← checkSettlement deps request answers before.length current fill
      afterCheck request answers before.length ghost) run := by
  obtain ⟨error, hgo⟩ := checkSettlement_throws request before.length fill run h
  unfold Stops
  rw [go_bind_error hgo]
  exact ⟨by simp, keeps_writeAudit run hkept⟩

/-- A leg that does not come to its settlement check ends the loop with the status it had. -/
theorem tryLeg_stops (hlegs : run.legs = before ++ leg :: after) (hbetween : Between run.state)
    (hcheck : legCheck deps request leg answers = none) :
    Stops run before after leg.settlementStatus
      (tryLeg deps request answers before.length leg) run := by
  have hstart : LegHas run before after leg.settlementStatus run :=
    ⟨hbetween.ne_completed, leg, ⟨hlegs, rfl, rfl⟩, rfl⟩
  have hkept : LegHas run before after leg.settlementStatus
      (go (submitLeg answers before.length leg) run).2 := keeps_submitLeg run hstart
  unfold tryLeg Stops
  rcases hsubmitted : go (submitLeg answers before.length leg) run with ⟨error | current, run₁⟩
  · rw [hsubmitted] at hkept
    rw [go_bind_error hsubmitted]
    exact ⟨by simp, hkept⟩
  rw [hsubmitted] at hkept
  rw [go_bind_ok hsubmitted]
  obtain ⟨prepared, submitted, submittedId, hprepare, hsubmit, haudit, rfl⟩ :=
    submitLeg_ok (congrArg Prod.fst hsubmitted)
  cases hfill : answers.fetchFillState with
  | error error =>
    rw [go_bind_error go_await]
    exact ⟨by simp, hkept⟩
  | ok fill =>
    rw [go_bind_ok go_await]
    by_cases hpartial : fill.status = .PARTIAL_FILL
    · rw [if_pos hpartial]
      exact ⟨partialFill_ne_next, keeps_partialFill run₁ hkept⟩
    rw [if_neg hpartial]
    simp only [legCheck, hprepare, hsubmit, haudit, hfill, hpartial, false_or] at hcheck
    by_cases hfilled : fill.status = .FILLED
    · simp only [hfilled, if_true, true_and] at hcheck ⊢
      have hreceived : LegHas run before after leg.settlementStatus
          (go (fillReceived answers before.length) run₁).2 := keeps_fillReceived run₁ hkept
      rcases hgo : go (fillReceived answers before.length) run₁ with ⟨error | _, run₂⟩
      · rw [hgo] at hreceived
        rw [go_bind_error hgo]
        exact ⟨by simp, hreceived⟩
      rw [hgo] at hreceived
      rw [go_bind_ok hgo]
      refine check_stops hreceived fun ⟨hchecked, hverify⟩ => ?_
      obtain ⟨checkId, hchecked⟩ := isOk_iff.mp hchecked
      obtain ⟨settlement, hverify⟩ := isOk_iff.mp hverify
      obtain ⟨filledId, hfilledId⟩ := fillReceived_ok (congrArg Prod.fst hgo)
      rw [hchecked, hverify, hfilledId] at hcheck
      cases hcheck
    · simp only [hfilled, if_false, false_and] at hcheck ⊢
      refine check_stops hkept fun ⟨hchecked, hverify⟩ => ?_
      obtain ⟨checkId, hchecked⟩ := isOk_iff.mp hchecked
      obtain ⟨settlement, hverify⟩ := isOk_iff.mp hverify
      rw [hchecked, hverify] at hcheck
      cases hcheck

def statusAfter (deps : OrchestratorDeps) (request : ExecutionRequestV0) (leg : ExecutionLegV0)
    (answers : LegAnswers) : SettlementStatusV0 :=
  ((legCheck deps request leg answers).map (·.ghost.settlementStatus)).getD leg.settlementStatus

theorem handleLeg_passes {next : ExecutionStateV0} (hlegs : run.legs = before ++ leg :: after)
    (hbetween : Between run.state)
    (hpasses : legPasses deps request leg answers run.state = some next) :
    ∃ check run', legCheck deps request leg answers = some check ∧
      go (handleLeg deps request answers before.length leg) run = (.ok .next, run') ∧
      AtLeg run before after check.settledLeg run' ∧ run'.state = next ∧
      run'.settlementEvidenceByLegId =
        run.settlementEvidenceByLegId ++ [(leg.executionLegId, check.evidence)] := by
  obtain ⟨check, hcheck, hpass⟩ := Option.bind_eq_some_iff.mp hpasses
  obtain ⟨run₁, current, hgo₁, hat₁, hstatus, hsettled, hstate₁, hevidence₁⟩ :=
    tryLeg_go hlegs hcheck hbetween
  obtain ⟨run₂, hgo₂, hat₂, hstate₂, hevidence₂⟩ :=
    afterCheck_go hat₁.legs hstatus hsettled hstate₁ hpass
  refine ⟨check, run₂, hcheck, ?_, ⟨hat₂.legs, ?_, ?_⟩, hstate₂, ?_⟩
  · rw [handleLeg, go_tryCatch, hgo₁, hgo₂]
  · rw [hat₂.ledger, hat₁.ledger]
  · rw [hat₂.positions, hat₁.positions]
  · rw [hevidence₂, hevidence₁]

theorem handleLeg_stops (hlegs : run.legs = before ++ leg :: after) (hbetween : Between run.state)
    (hpasses : legPasses deps request leg answers run.state = none) :
    Stops run before after (statusAfter deps request leg answers)
      (handleLeg deps request answers before.length leg) run := by
  have htry : Stops run before after (statusAfter deps request leg answers)
      (tryLeg deps request answers before.length leg) run := by
    unfold statusAfter
    cases hcheck : legCheck deps request leg answers with
    | none => exact tryLeg_stops hlegs hbetween hcheck
    | some check =>
      rw [legPasses, hcheck, Option.bind_some] at hpasses
      obtain ⟨run₁, current, hgo₁, hat₁, hstatus, -, hstate₁, -⟩ := tryLeg_go hlegs hcheck hbetween
      have hkept : LegHas run before after check.ghost.settlementStatus run₁ :=
        ⟨by rw [hstate₁]; exact (between_stateAfterFill hbetween).ne_completed,
          current, hat₁, congrArg ExecutionLegV0.settlementStatus hstatus⟩
      unfold Stops
      rw [hgo₁]
      exact ⟨afterCheck_ne_next hstate₁ hpasses, keeps_afterCheck run₁ hkept⟩
  unfold Stops
  rw [handleLeg, go_tryCatch]
  rcases hgo : go (tryLeg deps request answers before.length leg) run with ⟨error | ending, run₁⟩
  · rw [Stops, hgo] at htry
    exact ⟨catchLeg_ne_next, keeps_catchLeg run₁ htry.2⟩
  · rw [Stops, hgo] at htry
    exact htry

/-! ## The loop -/

/-- The state the loop ends in, if it gets through. -/
def loopPasses (deps : OrchestratorDeps) (request : ExecutionRequestV0) :
    ExecutionStateV0 → List (ExecutionLegV0 × LegAnswers) → Option ExecutionStateV0
  | state, [] => some state
  | state, (leg, answers) :: legs =>
    match legPasses deps request leg answers state with
    | some next => loopPasses deps request next legs
    | none => none

def statusesAfter (deps : OrchestratorDeps) (request : ExecutionRequestV0) :
    ExecutionStateV0 → List (ExecutionLegV0 × LegAnswers) → List SettlementStatusV0
  | _, [] => []
  | state, (leg, answers) :: legs =>
    statusAfter deps request leg answers ::
      match legPasses deps request leg answers state with
      | some next => statusesAfter deps request next legs
      | none => legs.map fun (leg, _) => leg.settlementStatus

/-- The leg as the loop leaves it when it goes on past it. -/
def legAfter (deps : OrchestratorDeps) (request : ExecutionRequestV0)
    (entry : ExecutionLegV0 × LegAnswers) : ExecutionLegV0 :=
  ((legCheck deps request entry.1 entry.2).map (·.settledLeg)).getD entry.1

/-- The settlement evidence of a leg the loop goes on past. -/
def evidenceAfter (deps : OrchestratorDeps) (request : ExecutionRequestV0)
    (entry : ExecutionLegV0 × LegAnswers) : ExecutionLegId × JsRecord :=
  (entry.1.executionLegId, ((legCheck deps request entry.1 entry.2).map (·.evidence)).getD [])

variable {legs : List (ExecutionLegV0 × LegAnswers)}

theorem between_legPasses {state next : ExecutionStateV0} (h : Between state)
    (hpasses : legPasses deps request leg answers state = some next) : Between next := by
  obtain ⟨check, -, hpass⟩ := Option.bind_eq_some_iff.mp hpasses
  unfold LegCheck.passes at hpass
  split at hpass
  · split at hpass
    · cases hpass; exact between_stateAfterFill h
    · cases hpass
  · split at hpass
    · cases hpass; exact .inr (.inr (.inr rfl))
    · cases hpass
  · cases hpass
  · cases hpass; exact between_stateAfterFill h

theorem between_loopPasses {state final : ExecutionStateV0} (h : Between state)
    (hpasses : loopPasses deps request state legs = some final) : Between final := by
  induction legs generalizing state with
  | nil => cases hpasses; exact h
  | cons entry legs ih =>
    rw [loopPasses] at hpasses
    split at hpasses
    next next hpass => exact ih (between_legPasses h hpass) hpasses
    next => cases hpasses

theorem handleLegs_cons_stop
    (h : (go (handleLeg deps request answers index leg) run).1 ≠ .ok .next) :
    go (handleLegs deps request index ((leg, answers) :: legs)) run =
      go (handleLeg deps request answers index leg) run := by
  rw [handleLegs]
  rcases hgo : go (handleLeg deps request answers index leg) run with ⟨error | ending, run₁⟩
  · rw [go_bind_error hgo]
  · rw [hgo] at h
    rw [go_bind_ok hgo]
    cases ending with
    | next => exact absurd rfl h
    | finish => rfl

theorem handleLegs_passes {final : ExecutionStateV0}
    (hlegs : run.legs = before ++ legs.map (·.1)) (hbetween : Between run.state)
    (hpasses : loopPasses deps request run.state legs = some final) :
    ∃ run', go (handleLegs deps request before.length legs) run = (.ok .next, run') ∧
      run'.legs = before ++ legs.map (legAfter deps request) ∧ run'.state = final ∧
      run'.settlementEvidenceByLegId =
        run.settlementEvidenceByLegId ++ legs.map (evidenceAfter deps request) ∧
      run'.ledger = run.ledger ∧ run'.positions = run.positions := by
  induction legs generalizing run before with
  | nil =>
    cases hpasses
    exact ⟨run, rfl, hlegs, rfl, by simp, rfl, rfl⟩
  | cons entry legs ih =>
    obtain ⟨leg, answers⟩ := entry
    rw [loopPasses] at hpasses
    split at hpasses
    next next hpass =>
      obtain ⟨check, run₁, hcheck, hgo₁, hat₁, hstate₁, hevidence₁⟩ :=
        handleLeg_passes hlegs hbetween hpass
      have hlegs₁ : run₁.legs = (before ++ [check.settledLeg]) ++ legs.map (·.1) := by
        rw [hat₁.legs, append_assoc, singleton_append]
      obtain ⟨run₂, hgo₂, hlegs₂, hstate₂, hevidence₂, hledger₂, hpositions₂⟩ :=
        ih hlegs₁ (hstate₁ ▸ between_legPasses hbetween hpass) (hstate₁ ▸ hpasses)
      refine ⟨run₂, ?_, ?_, hstate₂, ?_, by rw [hledger₂, hat₁.ledger],
        by rw [hpositions₂, hat₁.positions]⟩
      · rw [length_append, length_singleton] at hgo₂
        rw [handleLegs, go_bind_ok hgo₁, hgo₂]
      · simp [hlegs₂, legAfter, hcheck]
      · simp [hevidence₂, hevidence₁, evidenceAfter, hcheck]
    next => cases hpasses

theorem handleLegs_ne_next (hlegs : run.legs = before ++ legs.map (·.1))
    (hbetween : Between run.state) (hpasses : loopPasses deps request run.state legs = none) :
    (go (handleLegs deps request before.length legs) run).1 ≠ .ok .next := by
  induction legs generalizing run before with
  | nil => cases hpasses
  | cons entry legs ih =>
    obtain ⟨leg, answers⟩ := entry
    rw [loopPasses] at hpasses
    split at hpasses
    next next hpass =>
      obtain ⟨check, run₁, hcheck, hgo₁, hat₁, hstate₁, -⟩ := handleLeg_passes hlegs hbetween hpass
      have hlegs₁ : run₁.legs = (before ++ [check.settledLeg]) ++ legs.map (·.1) := by
        rw [hat₁.legs, append_assoc, singleton_append]
      have hrest := ih hlegs₁ (hstate₁ ▸ between_legPasses hbetween hpass) (hstate₁ ▸ hpasses)
      rw [length_append, length_singleton] at hrest
      rw [handleLegs, go_bind_ok hgo₁]
      exact hrest
    next hpass =>
      have hstops := handleLeg_stops hlegs hbetween hpass
      rw [handleLegs_cons_stop hstops.1]
      exact hstops.1

/-- However the loop ends, it leaves these settlement statuses and writes nothing else. -/
theorem handleLegs_elim (deps : OrchestratorDeps) (request : ExecutionRequestV0)
    (hlegs : run.legs = before ++ legs.map (·.1)) (hbetween : Between run.state) :
    (go (handleLegs deps request before.length legs) run).2.legs.map (·.settlementStatus) =
        before.map (·.settlementStatus) ++ statusesAfter deps request run.state legs ∧
      (go (handleLegs deps request before.length legs) run).2.ledger = run.ledger ∧
      (go (handleLegs deps request before.length legs) run).2.positions = run.positions ∧
      (go (handleLegs deps request before.length legs) run).2.state ≠ .COMPLETED := by
  induction legs generalizing run before with
  | nil => exact ⟨by simp [handleLegs, hlegs, statusesAfter], rfl, rfl, hbetween.ne_completed⟩
  | cons entry legs ih =>
    obtain ⟨leg, answers⟩ := entry
    rw [statusesAfter]
    cases hpass : legPasses deps request leg answers run.state with
    | some next =>
      obtain ⟨check, run₁, hcheck, hgo₁, hat₁, hstate₁, -⟩ := handleLeg_passes hlegs hbetween hpass
      have hlegs₁ : run₁.legs = (before ++ [check.settledLeg]) ++ legs.map (·.1) := by
        rw [hat₁.legs, append_assoc, singleton_append]
      obtain ⟨hstatuses, hledger, hpositions, hopen⟩ :=
        ih hlegs₁ (hstate₁ ▸ between_legPasses hbetween hpass)
      rw [length_append, length_singleton] at hstatuses hledger hpositions hopen
      rw [handleLegs, go_bind_ok hgo₁]
      refine ⟨?_, by rw [hledger, hat₁.ledger], by rw [hpositions, hat₁.positions], hopen⟩
      rw [hstatuses, hstate₁]
      simp [statusAfter, hcheck, LegCheck.settledLeg]
    | none =>
      have hstops := handleLeg_stops hlegs hbetween hpass
      obtain ⟨hopen, stopped, hat, hstatus⟩ := hstops.2
      rw [handleLegs_cons_stop hstops.1]
      refine ⟨?_, hat.ledger, hat.positions, hopen⟩
      rw [hat.legs]
      simp [hstatus]

end LotusRfq.Execution
