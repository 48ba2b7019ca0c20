import LotusRfq.Execution.Orchestrator

/-!
# LotusRfq — what becomes of a leg

What the answers of a leg come to, told apart from the loop that handles it: whether its
settlement check is reached and how it ends (`legCheck`), and the state in which the loop goes on
past the leg, if it does (`legPasses`).

* **`handleLeg_passes`** / **`handleLeg_stops`** — one leg does what its answers come to;
* **`handleLeg_elim`** — either way nothing is written to the ledger or the positions;
* **`handleLegs_elim`** — so for the whole loop, leg by leg.
-/

namespace LotusRfq.Execution

open Attempts

/-- A leg whose settlement check was answered. -/
structure LegCheck where
  leg : ExecutionLegV0
  fill : VenueFillState
  evidence : JsRecord
  ghost : GhostFillClassification

/-- The settlement check the answers of a leg come to, if nothing stops the leg before. -/
def legCheck (deps : OrchestratorDeps) (request : ExecutionRequestV0) (leg : ExecutionLegV0)
    (answers : LegAnswers) : Option LegCheck :=
  match answers.prepareOrder, answers.submitOrder, answers.audit .ORDER_SUBMITTED,
    answers.fetchFillState with
  | .ok _, .ok submitted, .ok _, .ok fill =>
    if fill.status = .PARTIAL_FILL ∨
        (fill.status = .FILLED ∧ ¬ (answers.audit .FILL_RECEIVED).isOk) then none
    else
      match answers.audit .SETTLEMENT_CHECK_STARTED,
        verify deps (submittedLeg leg submitted) answers.fetchSettlementState with
      | .ok _, .ok settlement =>
        some
          { leg := submittedLeg leg submitted
            fill := fill
            evidence := settlement.evidence
            ghost := classify (submittedLeg leg submitted) fill settlement.status
              request.ghostFillProtectionEnabled }
      | _, _ => none
  | _, _, _, _ => none

def LegCheck.settledLeg (check : LegCheck) : ExecutionLegV0 :=
  { check.leg with
    status :=
      if check.ghost.settlementStatus = .SETTLEMENT_VERIFIED then .SETTLEMENT_VERIFIED
      else if check.fill.status = .FILLED then .FILLED_PENDING_SETTLEMENT
      else check.leg.status
    settlementStatus := check.ghost.settlementStatus }

def stateAfterSubmit (state : ExecutionStateV0) : ExecutionStateV0 :=
  if state = .READY_TO_SUBMIT then .SUBMITTED else state

/-- The state once the fill of a leg is looked up. -/
def stateAfterFill (fill : VenueFillState) (state : ExecutionStateV0) : ExecutionStateV0 :=
  if fill.status = .FILLED ∧ stateAfterSubmit state = .SUBMITTED then .FILLED_PENDING_SETTLEMENT
  else stateAfterSubmit state

/-- The fallback lane is approved, and the audit of the reroute is written. -/
def reroutes (request : ExecutionRequestV0) (answers : LegAnswers)
    (ghost : GhostFillClassification) : Bool :=
  match answers.audit .GHOST_FILL_SUSPECTED,
    decideFallback request answers.fallbackLane (ghost.reason.getD "ghost_fill_suspected"),
    answers.audit .REROUTE_STARTED, answers.audit .REROUTE_COMPLETED with
  | .ok _, .ok (.REROUTE _ _), .ok _, .ok _ => true
  | _, _, _, _ => false

/-- The state in which the loop goes on past a leg with this check, if it does. -/
def LegCheck.passes (request : ExecutionRequestV0) (answers : LegAnswers) (check : LegCheck)
    (state : ExecutionStateV0) : Option ExecutionStateV0 :=
  match check.ghost.settlementStatus with
  | .SETTLEMENT_VERIFIED =>
    if (answers.audit .SETTLEMENT_VERIFIED).isOk then some (stateAfterFill check.fill state)
    else none
  | .GHOST_FILL_SUSPECTED =>
    if stateAfterFill check.fill state = .FILLED_PENDING_SETTLEMENT ∧
        reroutes request answers check.ghost then some .REROUTED
    else none
  | .GHOST_FILL_CONFIRMED => none
  | _ => some (stateAfterFill check.fill state)

/-- The state in which the loop goes on past a leg, if it does. -/
def legPasses (deps : OrchestratorDeps) (request : ExecutionRequestV0) (leg : ExecutionLegV0)
    (answers : LegAnswers) (state : ExecutionStateV0) : Option ExecutionStateV0 :=
  (legCheck deps request leg answers).bind fun check => check.passes request answers state

def verifies (deps : OrchestratorDeps) (request : ExecutionRequestV0) (leg : ExecutionLegV0)
    (answers : LegAnswers) : Bool :=
  (legCheck deps request leg answers).any fun check =>
    check.ghost.settlementStatus = .SETTLEMENT_VERIFIED

/-- The states the loop can be in as it comes to a leg. -/
def Between (state : ExecutionStateV0) : Prop :=
  state = .READY_TO_SUBMIT ∨ state = .SUBMITTED ∨ state = .FILLED_PENDING_SETTLEMENT ∨
    state = .REROUTED

variable {state : ExecutionStateV0} {run : ExecutionRun} {index : ℕ} {next : ExecutionStateV0}
  {ghost : GhostFillClassification} {auditId : String} {check : LegCheck}

theorem Between.ne_completed (h : Between state) : state ≠ .COMPLETED := by
  rcases h with rfl | rfl | rfl | rfl <;> decide

theorem between_stateAfterFill {fill : VenueFillState} (h : Between state) :
    Between (stateAfterFill fill state) := by
  unfold Between stateAfterFill stateAfterSubmit at *
  by_cases hfilled : fill.status = .FILLED <;>
    rcases h with rfl | rfl | rfl | rfl <;> simp [hfilled]

/-! ## The parts of the loop's body -/

@[simp] theorem go_writeAudit {answer : Answer String} :
    go (writeAudit answer) run = match answer with
      | .ok id => (.ok (), { run with auditEventIds := run.auditEventIds ++ [id] })
      | .error error => (.error error, run) := by
  cases answer <;> rfl

@[simp] theorem go_setLeg {change : ExecutionLegV0 → ExecutionLegV0} :
    go (setLeg index change) run = (.ok (), { run with legs := run.legs.modify index change }) :=
  rfl

@[simp] theorem go_transitionTo :
    go (transitionTo next) run =
      if canTransitionTo run.state next then (.ok (), { run with state := next })
      else (.error (.transition run.state next), run) := by
  simp only [transitionTo, go_bind, go_get, go_ite, go_set, go_throw]

/-- The leg at its place in the run, with the books as they were in an earlier run. -/
structure AtLeg (books : ExecutionRun) (before after : List ExecutionLegV0)
    (leg : ExecutionLegV0) (run : ExecutionRun) : Prop where
  legs : run.legs = before ++ leg :: after
  ledger : run.ledger = books.ledger
  positions : run.positions = books.positions

/-- The leg at its place with a settlement status that is known, in a run that is not completed. -/
def LegHas (books : ExecutionRun) (before after : List ExecutionLegV0)
    (settlementStatus : SettlementStatusV0) (run : ExecutionRun) : Prop :=
  run.state ≠ .COMPLETED ∧
    ∃ leg, AtLeg books before after leg run ∧ leg.settlementStatus = settlementStatus

variable {deps : OrchestratorDeps} {request : ExecutionRequestV0} {answers : LegAnswers}
  {books run : ExecutionRun} {before after : List ExecutionLegV0} {leg : ExecutionLegV0}
  {settlementStatus : SettlementStatusV0}

theorem modify_at (change : ExecutionLegV0 → ExecutionLegV0) :
    (before ++ leg :: after).modify before.length change = before ++ change leg :: after := by
  induction before with
  | nil => rfl
  | cons head before ih => simp [ih]

theorem keeps_writeAudit {answer : Answer String} :
    Keeps (LegHas books before after settlementStatus) (writeAudit answer) := by
  intro run ⟨hopen, leg, hat, hstatus⟩
  rw [go_writeAudit]
  cases answer
  · exact ⟨hopen, leg, hat, hstatus⟩
  · exact ⟨hopen, leg, ⟨hat.legs, hat.ledger, hat.positions⟩, hstatus⟩

theorem keeps_transitionTo (hnext : next ≠ .COMPLETED) :
    Keeps (LegHas books before after settlementStatus) (transitionTo next) := by
  intro run ⟨hopen, leg, hat, hstatus⟩
  rw [go_transitionTo]
  split
  · exact ⟨hnext, leg, ⟨hat.legs, hat.ledger, hat.positions⟩, hstatus⟩
  · exact ⟨hopen, leg, hat, hstatus⟩

theorem keeps_setLeg {change : ExecutionLegV0 → ExecutionLegV0}
    (h : ∀ leg, (change leg).settlementStatus = leg.settlementStatus) :
    Keeps (LegHas books before after settlementStatus) (setLeg before.length change) := by
  intro run ⟨hopen, leg, hat, hstatus⟩
  rw [go_setLeg]
  refine ⟨hopen, change leg, ⟨?_, hat.ledger, hat.positions⟩, by rw [h, hstatus]⟩
  rw [hat.legs, modify_at]

/-! ## The parts of the body keep the settlement status of the leg -/

theorem keeps_submitLeg {leg : ExecutionLegV0} :
    Keeps (LegHas books before after settlementStatus) (submitLeg answers before.length leg) := by
  refine keeps_bind keeps_await fun _ => keeps_bind keeps_await fun submitted =>
    keeps_bind (keeps_setLeg fun _ => rfl) fun _ => keeps_bind keeps_writeAudit fun _ => ?_
  apply keeps_get
  intro run h
  split
  · exact keeps_bind (keeps_transitionTo (by decide)) (fun _ => keeps_pure) run h
  · exact h

theorem keeps_partialFill :
    Keeps (LegHas books before after settlementStatus) (partialFill answers before.length) := by
  refine keeps_bind (keeps_setLeg fun _ => rfl) fun _ => keeps_bind keeps_writeAudit fun _ => ?_
  apply keeps_get
  intro run h
  split
  · exact keeps_bind (keeps_transitionTo (by decide)) (fun _ => keeps_pure) run h
  · exact h

theorem keeps_fillReceived :
    Keeps (LegHas books before after settlementStatus) (fillReceived answers before.length) := by
  refine keeps_bind (keeps_setLeg fun _ => rfl) fun _ => keeps_bind keeps_writeAudit fun _ => ?_
  apply keeps_get
  intro run h
  split
  · exact keeps_transitionTo (by decide) run h
  · exact h

theorem keeps_afterCheck :
    Keeps (LegHas books before after settlementStatus)
      (afterCheck request answers before.length ghost) := by
  unfold afterCheck
  split
  · exact keeps_bind (keeps_setLeg fun _ => rfl) fun _ =>
      keeps_bind keeps_writeAudit fun _ => keeps_pure
  · refine keeps_bind (keeps_transitionTo (by decide)) fun _ => keeps_bind keeps_writeAudit fun _ =>
      keeps_bind keeps_await fun decision => ?_
    cases decision with
    | REROUTE lane reason =>
      refine keeps_bind (keeps_modify ?_) fun _ => keeps_bind (keeps_transitionTo (by decide)) fun _ =>
        keeps_bind keeps_writeAudit fun _ => keeps_bind (keeps_transitionTo (by decide)) fun _ =>
          keeps_bind keeps_writeAudit fun _ => keeps_pure
      rintro run ⟨hopen, leg, hat, hstatus⟩
      exact ⟨hopen, leg, ⟨hat.legs, hat.ledger, hat.positions⟩, hstatus⟩
    | FAIL_CLOSED reason =>
      exact keeps_bind (keeps_transitionTo (by decide)) fun _ => keeps_bind keeps_writeAudit fun _ => keeps_pure
  · exact keeps_bind (keeps_transitionTo (by decide)) fun _ => keeps_bind keeps_writeAudit fun _ =>
      keeps_bind (keeps_transitionTo (by decide)) fun _ => keeps_bind keeps_writeAudit fun _ => keeps_pure
  · exact keeps_pure

theorem keeps_catchLeg {error : ExecutionError} :
    Keeps (LegHas books before after settlementStatus) (catchLeg answers before.length error) := by
  refine keeps_bind (keeps_setLeg fun _ => rfl) fun _ => ?_
  apply keeps_get
  intro run h
  split
  · exact keeps_bind (keeps_transitionTo (by decide))
      (fun _ => keeps_bind keeps_writeAudit fun _ => keeps_pure) run h
  · exact keeps_bind keeps_writeAudit (fun _ => keeps_pure) run h

theorem catchLeg_ne_next {error : ExecutionError} :
    (go (catchLeg answers index error) run).1 ≠ .ok .next := by
  simp only [catchLeg, go_bind, go_setLeg, go_get, go_ite, go_transitionTo, go_writeAudit,
    go_pure]
  cases answers.failedClosed <;> (repeat' split) <;> simp_all

/-! ## The submitted leg -/

theorem submitLeg_go {submitted : VenueSubmitResult} {prepared : Unit}
    (hlegs : run.legs = before ++ leg :: after) (hprepare : answers.prepareOrder = .ok prepared)
    (hsubmit : answers.submitOrder = .ok submitted)
    (haudit : answers.audit .ORDER_SUBMITTED = .ok auditId) :
    ∃ run', go (submitLeg answers before.length leg) run = (.ok (submittedLeg leg submitted), run') ∧
      AtLeg run before after (submittedLeg leg submitted) run' ∧
      run'.state = stateAfterSubmit run.state ∧
      run'.settlementEvidenceByLegId = run.settlementEvidenceByLegId := by
  refine ⟨{ run with
    legs := before ++ submittedLeg leg submitted :: after
    auditEventIds := run.auditEventIds ++ [auditId]
    state := stateAfterSubmit run.state }, ?_, ⟨rfl, rfl, rfl⟩, rfl, rfl⟩
  by_cases hready : run.state = .READY_TO_SUBMIT
  · simp [submitLeg, hprepare, hsubmit, haudit, hready, hlegs, modify_at, canTransitionTo,
      transitions, stateAfterSubmit]
  · simp [submitLeg, hprepare, hsubmit, haudit, hready, hlegs, modify_at, stateAfterSubmit]

theorem fillReceived_go (hlegs : run.legs = before ++ leg :: after)
    (haudit : answers.audit .FILL_RECEIVED = .ok auditId) :
    ∃ run', go (fillReceived answers before.length) run = (.ok (), run') ∧
      AtLeg run before after { leg with status := .FILLED_PENDING_SETTLEMENT } run' ∧
      run'.state = (if run.state = .SUBMITTED ∨ run.state = .PARTIAL_FILL then
        .FILLED_PENDING_SETTLEMENT else run.state) ∧
      run'.settlementEvidenceByLegId = run.settlementEvidenceByLegId := by
  refine ⟨{ run with
    legs := before ++ { leg with status := .FILLED_PENDING_SETTLEMENT } :: after
    auditEventIds := run.auditEventIds ++ [auditId]
    state := if run.state = .SUBMITTED ∨ run.state = .PARTIAL_FILL then
      .FILLED_PENDING_SETTLEMENT else run.state }, ?_, ⟨rfl, rfl, rfl⟩, rfl, rfl⟩
  by_cases hstate : run.state = .SUBMITTED ∨ run.state = .PARTIAL_FILL
  · rcases hstate with hstate | hstate <;>
      simp [fillReceived, haudit, hstate, hlegs, modify_at, canTransitionTo, transitions]
  · simp [fillReceived, haudit, hstate, hlegs, modify_at]

theorem checkSettlement_go (request : ExecutionRequestV0) (fill : VenueFillState)
    {settlement : VenueSettlementState} {current : ExecutionLegV0}
    (hlegs : run.legs = before ++ current :: after)
    (haudit : answers.audit .SETTLEMENT_CHECK_STARTED = .ok auditId)
    (hverify : verify deps leg answers.fetchSettlementState = .ok settlement) :
    let ghost := classify leg fill settlement.status request.ghostFillProtectionEnabled
    ∃ run', go (checkSettlement deps request answers before.length leg fill) run =
        (.ok ghost, run') ∧
      AtLeg run before after { current with settlementStatus := ghost.settlementStatus } run' ∧
      run'.state = run.state ∧
      run'.settlementEvidenceByLegId =
        run.settlementEvidenceByLegId ++ [(leg.executionLegId, settlement.evidence)] := by
  intro ghost
  refine ⟨{ run with
    legs := before ++ { current with settlementStatus := ghost.settlementStatus } :: after
    auditEventIds := run.auditEventIds ++ [auditId]
    settlementEvidenceByLegId :=
      run.settlementEvidenceByLegId ++ [(leg.executionLegId, settlement.evidence)]
    settlementStatus := ghost.settlementStatus
    ghostFillStatus := ghost.status }, ?_, ⟨rfl, rfl, rfl⟩, rfl, rfl⟩
  simp [checkSettlement, haudit, hverify, hlegs, modify_at, ghost]

theorem legCheck_eq_some (h : legCheck deps request leg answers = some check) :
    ∃ prepared submitted submittedId fill checkId settlement,
      answers.prepareOrder = .ok prepared ∧ answers.submitOrder = .ok submitted ∧
      answers.audit .ORDER_SUBMITTED = .ok submittedId ∧ answers.fetchFillState = .ok fill ∧
      fill.status ≠ .PARTIAL_FILL ∧
      (fill.status = .FILLED → ∃ filledId, answers.audit .FILL_RECEIVED = .ok filledId) ∧
      answers.audit .SETTLEMENT_CHECK_STARTED = .ok checkId ∧
      verify deps (submittedLeg leg submitted) answers.fetchSettlementState = .ok settlement ∧
      check =
        { leg := submittedLeg leg submitted
          fill := fill
          evidence := settlement.evidence
          ghost := classify (submittedLeg leg submitted) fill settlement.status
            request.ghostFillProtectionEnabled } := by
  unfold legCheck at h
  split at h
  next prepared submitted submittedId fill hprepare hsubmit haudit hfill =>
    split at h
    next => cases h
    next hgo =>
      split at h
      next checkId settlement hcheck hverify =>
        cases h
        refine ⟨prepared, submitted, submittedId, fill, checkId, settlement, hprepare, hsubmit,
          haudit, hfill, fun hpartial => hgo (.inl hpartial), fun hfilled => ?_, hcheck, hverify,
          rfl⟩
        cases hreceived : answers.audit .FILL_RECEIVED with
        | ok filledId => exact ⟨filledId, rfl⟩
        | error error => exact absurd (.inr ⟨hfilled, by simp [hreceived, Except.isOk,
            Except.toBool]⟩) hgo
      next => cases h
  next => cases h

/-- The body of the loop comes to the settlement check, when the answers of the leg do. -/
theorem tryLeg_go (hlegs : run.legs = before ++ leg :: after)
    (hcheck : legCheck deps request leg answers = some check) (hbetween : Between run.state) :
    ∃ run' current, go (tryLeg deps request answers before.length leg) run =
        go (afterCheck request answers before.length check.ghost) run' ∧
      AtLeg run before after current run' ∧
      { current with status := check.settledLeg.status } = check.settledLeg ∧
      (check.ghost.settlementStatus ≠ .SETTLEMENT_VERIFIED → current = check.settledLeg) ∧
      run'.state = stateAfterFill check.fill run.state ∧
      run'.settlementEvidenceByLegId =
        run.settlementEvidenceByLegId ++ [(leg.executionLegId, check.evidence)] := by
  obtain ⟨prepared, submitted, submittedId, fill, checkId, settlement, hprepare, hsubmit, haudit,
    hfill, hpartial, hreceived, hchecked, hverify, rfl⟩ := legCheck_eq_some hcheck
  obtain ⟨run₁, hgo₁, hat₁, hstate₁, hevidence₁⟩ := submitLeg_go hlegs hprepare hsubmit haudit
  by_cases hfilled : fill.status = .FILLED
  · obtain ⟨filledId, hfilledId⟩ := hreceived hfilled
    obtain ⟨run₂, hgo₂, hat₂, hstate₂, hevidence₂⟩ := fillReceived_go hat₁.legs hfilledId
    obtain ⟨run₃, hgo₃, hat₃, hstate₃, hevidence₃⟩ :=
      checkSettlement_go request fill hat₂.legs hchecked hverify
    refine ⟨run₃, _, ?_, ⟨hat₃.legs, ?_, ?_⟩, ?_, ?_, ?_, ?_⟩
    · simp [tryLeg, hgo₁, hfill, hfilled, hgo₂, hgo₃]
    · rw [hat₃.ledger, hat₂.ledger, hat₁.ledger]
    · rw [hat₃.positions, hat₂.positions, hat₁.positions]
    · rfl
    · intro hverified
      simp [LegCheck.settledLeg, hverified, hfilled]
    · rw [hstate₃, hstate₂, hstate₁]
      rcases hbetween with h | h | h | h <;> simp [h, stateAfterFill, stateAfterSubmit, hfilled]
    · rw [hevidence₃, hevidence₂, hevidence₁]
      rfl
  · obtain ⟨run₃, hgo₃, hat₃, hstate₃, hevidence₃⟩ :=
      checkSettlement_go request fill hat₁.legs hchecked hverify
    refine ⟨run₃, _, ?_, ⟨hat₃.legs, ?_, ?_⟩, ?_, ?_, ?_, ?_⟩
    · simp [tryLeg, hgo₁, hfill, hfilled, hpartial, hgo₃]
    · rw [hat₃.ledger, hat₁.ledger]
    · rw [hat₃.positions, hat₁.positions]
    · rfl
    · intro hverified
      simp [LegCheck.settledLeg, hverified, hfilled]
    · rw [hstate₃, hstate₁]
      simp [stateAfterFill, hfilled]
    · rw [hevidence₃, hevidence₁]
      rfl

/-! ## What follows the check -/

theorem isOk_iff {α : Type} {answer : Answer α} :
    answer.isOk = true ↔ ∃ value, answer = .ok value := by
  cases answer <;> simp [Except.isOk, Except.toBool]

theorem reroutes_iff :
    reroutes request answers ghost = true ↔
      ∃ suspectedId lane reason startedId completedId,
        answers.audit .GHOST_FILL_SUSPECTED = .ok suspectedId ∧
        decideFallback request answers.fallbackLane
          (ghost.reason.getD "ghost_fill_suspected") = .ok (.REROUTE lane reason) ∧
        answers.audit .REROUTE_STARTED = .ok startedId ∧
        answers.audit .REROUTE_COMPLETED = .ok completedId := by
  unfold reroutes
  constructor
  · intro h
    split at h
    next hsuspected hdecide hstarted hcompleted =>
      exact ⟨_, _, _, _, _, hsuspected, hdecide, hstarted, hcompleted⟩
    next => cases h
  · rintro ⟨_, _, _, _, _, hsuspected, hdecide, hstarted, hcompleted⟩
    rw [hsuspected, hdecide, hstarted, hcompleted]

theorem ghostFillSuspected_go (hlegs : run.legs = before ++ leg :: after)
    (hstate : run.state = .FILLED_PENDING_SETTLEMENT)
    (hreroutes : reroutes request answers ghost = true) :
    ∃ run', go (ghostFillSuspected request answers ghost) run = (.ok .next, run') ∧
      AtLeg run before after leg run' ∧ run'.state = .REROUTED ∧
      run'.settlementEvidenceByLegId = run.settlementEvidenceByLegId := by
  obtain ⟨suspectedId, lane, reason, startedId, completedId, hsuspected, hdecide, hstarted,
    hcompleted⟩ := reroutes_iff.mp hreroutes
  refine ⟨{ run with
    state := .REROUTED
    fallbackUsed := true
    fallbackReason := some reason
    auditEventIds := run.auditEventIds ++ [suspectedId] ++ [startedId] ++ [completedId] },
    ?_, ⟨hlegs, rfl, rfl⟩, rfl, rfl⟩
  simp [ghostFillSuspected, hstate, canTransitionTo, transitions, hsuspected, hdecide, hstarted,
    hcompleted]

theorem ghostFillSuspected_ne_next
    (h : run.state = .FILLED_PENDING_SETTLEMENT → ¬ reroutes request answers ghost = true) :
    (go (ghostFillSuspected request answers ghost) run).1 ≠ .ok .next := by
  by_cases hstate : run.state = .FILLED_PENDING_SETTLEMENT
  · have hnot := h hstate
    unfold reroutes at hnot
    simp only [ghostFillSuspected, go_bind, go_transitionTo, hstate, canTransitionTo, transitions,
      go_writeAudit, go_await]
    -- the first answer that is not as it should be ends the leg
    cases hsuspected : answers.audit .GHOST_FILL_SUSPECTED with
    | error error => simp
    | ok suspectedId =>
      cases hdecide : decideFallback request answers.fallbackLane
          (ghost.reason.getD "ghost_fill_suspected") with
      | error error => simp
      | ok decision =>
        cases decision with
        | FAIL_CLOSED reason =>
          cases answers.audit .FAILED_CLOSED <;> simp [canTransitionTo, transitions]
        | REROUTE lane reason =>
          cases hstarted : answers.audit .REROUTE_STARTED with
          | error error => simp [canTransitionTo, transitions]
          | ok startedId =>
            cases hcompleted : answers.audit .REROUTE_COMPLETED with
            | error error => simp [canTransitionTo, transitions]
            | ok completedId =>
              rw [hsuspected, hdecide, hstarted, hcompleted] at hnot
              exact absurd rfl hnot
  · have hillegal : canTransitionTo run.state .GHOST_FILL_SUSPECTED = false := by
      revert hstate
      cases run.state <;> decide
    simp [ghostFillSuspected, hillegal]

theorem ghostFillConfirmed_ne_next : (go (ghostFillConfirmed answers) run).1 ≠ .ok .next := by
  simp only [ghostFillConfirmed, go_bind, go_transitionTo, go_writeAudit, go_pure]
  (repeat' split) <;> simp_all

theorem afterCheck_go (hlegs : run.legs = before ++ leg :: after)
    (hleg : { leg with status := check.settledLeg.status } = check.settledLeg)
    (hsettled : check.ghost.settlementStatus ≠ .SETTLEMENT_VERIFIED → leg = check.settledLeg)
    (hstate : run.state = stateAfterFill check.fill state)
    (hpasses : check.passes request answers state = some next) :
    ∃ run', go (afterCheck request answers before.length check.ghost) run = (.ok .next, run') ∧
      AtLeg run before after check.settledLeg run' ∧ run'.state = next ∧
      run'.settlementEvidenceByLegId = run.settlementEvidenceByLegId := by
  unfold LegCheck.passes at hpasses
  unfold afterCheck
  cases hghost : check.ghost.settlementStatus with
  | SETTLEMENT_VERIFIED =>
    simp only [hghost] at hpasses ⊢
    split at hpasses
    next hok =>
      obtain ⟨auditId, haudit⟩ := isOk_iff.mp hok
      cases hpasses
      have hstatus : check.settledLeg.status = .SETTLEMENT_VERIFIED := if_pos hghost
      refine ⟨{ run with
        legs := before ++ check.settledLeg :: after
        auditEventIds := run.auditEventIds ++ [auditId] }, ?_, ⟨rfl, rfl, rfl⟩, hstate, rfl⟩
      rw [hstatus] at hleg
      simp [haudit, hlegs, modify_at, hleg]
    next => cases hpasses
  | GHOST_FILL_SUSPECTED =>
    simp only [hghost] at hpasses ⊢
    split at hpasses
    next hgo =>
      cases hpasses
      rw [← hsettled (by rw [hghost]; decide)]
      exact ghostFillSuspected_go hlegs (hstate.trans hgo.1) hgo.2
    next => cases hpasses
  | GHOST_FILL_CONFIRMED =>
    simp only [hghost] at hpasses
    cases hpasses
  | _ =>
    simp only [hghost] at hpasses ⊢
    cases hpasses
    rw [← hsettled (by rw [hghost]; decide)]
    exact ⟨run, rfl, ⟨hlegs, rfl, rfl⟩, hstate, rfl⟩

theorem afterCheck_ne_next (hstate : run.state = stateAfterFill check.fill state)
    (hpasses : check.passes request answers state = none) :
    (go (afterCheck request answers index check.ghost) run).1 ≠ .ok .next := by
  unfold LegCheck.passes at hpasses
  unfold afterCheck
  cases hghost : check.ghost.settlementStatus with
  | SETTLEMENT_VERIFIED =>
    simp only [hghost] at hpasses ⊢
    split at hpasses
    next => cases hpasses
    next hok =>
      cases haudit : answers.audit .SETTLEMENT_VERIFIED with
      | error error => simp
      | ok auditId => exact absurd (isOk_iff.mpr ⟨auditId, haudit⟩) hok
  | GHOST_FILL_SUSPECTED =>
    simp only [hghost] at hpasses ⊢
    split at hpasses
    next => cases hpasses
    next hno =>
      exact ghostFillSuspected_ne_next fun h hreroutes => hno ⟨hstate ▸ h, hreroutes⟩
  | GHOST_FILL_CONFIRMED => exact ghostFillConfirmed_ne_next
  | _ =>
    simp only [hghost] at hpasses
    cases hpasses

end LotusRfq.Execution
