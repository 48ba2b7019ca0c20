import LotusRfq.Execution.LegLoop

/-!
# LotusRfq — before the first leg and after the last

Nothing is written to the ledger or to the positions before the loop, nor when some leg is not
settled. When every leg is, the writes follow one another, and what the first one that throws
leaves behind stays.

* **`preflightPhase_next`** / **`preflightPhase_stops`** — whether the legs are handled;
* **`complete_positions`** — the position deltas a settled execution leaves;
* **`complete_ok`** — when a settled execution is completed.
-/

namespace LotusRfq.Execution

open Attempts

variable {deps : OrchestratorDeps} {request : ExecutionRequestV0} {services : ServiceAnswers}
  {run : ExecutionRun}

/-! ## Before the first leg -/

/-- The legs are handled: nothing refuses the execution, and its audit is written. -/
def Started (deps : OrchestratorDeps) (request : ExecutionRequestV0) (services : ServiceAnswers) :
    Prop :=
  builderCodeMissing deps request = false ∧ services.preflight = .ok none ∧
    ∀ event ∈ [ExecutionAuditEventV0.EXECUTION_CREATED, .PREFLIGHT_STARTED, .PREFLIGHT_PASSED,
      .ROUTE_SELECTED, .LIQUIDITY_RESERVED], (services.audit event).isOk

/-- The books and the settlement statuses are those of an earlier run. -/
structure SameBooks (books run : ExecutionRun) : Prop where
  legs : run.legs = books.legs
  ledger : run.ledger = books.ledger
  positions : run.positions = books.positions

theorem preflightPhase_next (hstate : run.state = .CREATED)
    (hstarted : Started deps request services) :
    ∃ run', go (preflightPhase deps request services) run = (.ok .next, run') ∧
      SameBooks run run' ∧ run'.state = .READY_TO_SUBMIT ∧
      run'.settlementEvidenceByLegId = run.settlementEvidenceByLegId := by
  obtain ⟨hcode, hpreflight, haudit⟩ := hstarted
  obtain ⟨createdId, hcreated⟩ := isOk_iff.mp (haudit .EXECUTION_CREATED (by simp))
  obtain ⟨startedId, hstartedId⟩ := isOk_iff.mp (haudit .PREFLIGHT_STARTED (by simp))
  obtain ⟨passedId, hpassed⟩ := isOk_iff.mp (haudit .PREFLIGHT_PASSED (by simp))
  obtain ⟨routeId, hroute⟩ := isOk_iff.mp (haudit .ROUTE_SELECTED (by simp))
  obtain ⟨reservedId, hreserved⟩ := isOk_iff.mp (haudit .LIQUIDITY_RESERVED (by simp))
  refine ⟨{ run with
    state := .READY_TO_SUBMIT
    auditEventIds := run.auditEventIds ++ [createdId] ++ [startedId] ++ [passedId] ++ [routeId] ++
      [reservedId] }, ?_, ⟨rfl, rfl, rfl⟩, rfl, rfl⟩
  simp [preflightPhase, preflightRefusal, hstate, hcode, hpreflight, hcreated, hstartedId, hpassed,
    hroute, hreserved, canTransitionTo, transitions]

variable {books : ExecutionRun} {answer : Answer String} {next : ExecutionStateV0}
  {returned : Unit} {run' : ExecutionRun} {evidence : List (ExecutionLegId × JsRecord)}

theorem sameBooks_writeAudit : Keeps (SameBooks books) (writeAudit answer) := by
  intro run h
  rw [go_writeAudit]
  cases answer
  · exact h
  · exact ⟨h.legs, h.ledger, h.positions⟩

theorem sameBooks_transitionTo : Keeps (SameBooks books) (transitionTo next) := by
  intro run h
  rw [go_transitionTo]
  split
  · exact ⟨h.legs, h.ledger, h.positions⟩
  · exact h

def Unwritten (books run : ExecutionRun) : Prop := SameBooks books run ∧ run.state ≠ .COMPLETED

theorem unwritten_writeAudit : Keeps (Unwritten books) (writeAudit answer) := by
  intro run ⟨hbooks, hopen⟩
  refine ⟨sameBooks_writeAudit run hbooks, ?_⟩
  rw [go_writeAudit]
  cases answer <;> exact hopen

theorem unwritten_transitionTo (hnext : next ≠ .COMPLETED) :
    Keeps (Unwritten books) (transitionTo next) := by
  intro run ⟨hbooks, hopen⟩
  refine ⟨sameBooks_transitionTo run hbooks, ?_⟩
  rw [go_transitionTo]
  split
  · exact hnext
  · exact hopen

theorem unwritten_preflightPhase :
    Keeps (Unwritten books) (preflightPhase deps request services) := by
  refine keeps_bind unwritten_writeAudit fun _ =>
    keeps_bind (unwritten_transitionTo (by decide)) fun _ =>
      keeps_bind unwritten_writeAudit fun _ =>
        keeps_bind (keeps_ite keeps_pure keeps_await) fun refusal => ?_
  cases refusal with
  | some reason =>
    exact keeps_bind (unwritten_transitionTo (by decide)) fun _ =>
      keeps_bind unwritten_writeAudit fun _ =>
        keeps_bind (unwritten_transitionTo (by decide)) fun _ =>
          keeps_bind unwritten_writeAudit fun _ => keeps_pure
  | none =>
    exact keeps_bind (unwritten_transitionTo (by decide)) fun _ =>
      keeps_bind unwritten_writeAudit fun _ => keeps_bind unwritten_writeAudit fun _ =>
        keeps_bind unwritten_writeAudit fun _ => keeps_pure

theorem isOk_of_writeAudit (h : go (writeAudit answer) run = (.ok returned, run')) :
    answer.isOk = true := by
  cases answer with
  | ok id => rfl
  | error error =>
    rw [go_writeAudit] at h
    cases h

theorem started_of_next (h : (go (preflightPhase deps request services) run).1 = .ok .next) :
    Started deps request services := by
  obtain ⟨_, _, hcreated, h⟩ := ok_of_go_bind h
  obtain ⟨_, _, -, h⟩ := ok_of_go_bind h
  obtain ⟨_, _, hstarted, h⟩ := ok_of_go_bind h
  obtain ⟨refusal, run₃, hrefusal, h⟩ := ok_of_go_bind h
  cases refusal with
  | some reason =>
    obtain ⟨_, _, -, h⟩ := ok_of_go_bind h
    obtain ⟨_, _, -, h⟩ := ok_of_go_bind h
    obtain ⟨_, _, -, h⟩ := ok_of_go_bind h
    obtain ⟨_, _, -, h⟩ := ok_of_go_bind h
    cases h
  | none =>
    obtain ⟨_, _, -, h⟩ := ok_of_go_bind h
    obtain ⟨_, _, hpassed, h⟩ := ok_of_go_bind h
    obtain ⟨_, _, hroute, h⟩ := ok_of_go_bind h
    obtain ⟨_, _, hreserved, -⟩ := ok_of_go_bind h
    have hrefused : builderCodeMissing deps request = false ∧ services.preflight = .ok none := by
      rw [preflightRefusal, go_ite] at hrefusal
      split at hrefusal
      next => cases hrefusal
      next hcode =>
        rw [go_await] at hrefusal
        exact ⟨by simpa using hcode, congrArg Prod.fst hrefusal⟩
    refine ⟨hrefused.1, hrefused.2, ?_⟩
    simp only [List.forall_mem_cons]
    exact ⟨isOk_of_writeAudit hcreated, isOk_of_writeAudit hstarted, isOk_of_writeAudit hpassed,
      isOk_of_writeAudit hroute, isOk_of_writeAudit hreserved, by simp⟩

/-! ## After the last leg -/

theorem unwritten_failUnsettled : Keeps (Unwritten books) (failUnsettled services) := by
  apply keeps_get
  intro run h
  split
  · refine keeps_bind (unwritten_transitionTo (by decide))
      (fun _ => keeps_bind unwritten_writeAudit fun _ => ?_) run h
    exact keeps_get fun _ h => h
  · exact h

theorem state_of_transitionTo (h : go (transitionTo next) run = (.ok returned, run')) :
    run'.state = next := by
  rw [go_transitionTo] at h
  split at h
  · cases h; rfl
  · cases h

theorem state_of_writeAudit (h : go (writeAudit answer) run = (.ok returned, run')) :
    run'.state = run.state := by
  obtain ⟨id, rfl⟩ := isOk_iff.mp (isOk_of_writeAudit h)
  cases h
  rfl

def Completed (ending : Except ExecutionError ExecutionResultV0) : Prop :=
  ∃ result, ending = .ok result ∧ result.finalState = .COMPLETED

theorem failUnsettled_not_completed (hopen : run.state ≠ .COMPLETED) :
    ¬ Completed (go (failUnsettled services) run).1 := by
  rintro ⟨result, h, hcompleted⟩
  rw [failUnsettled, go_bind_ok go_get] at h
  split at h
  · obtain ⟨_, run₁, htransition, h⟩ := ok_of_go_bind h
    obtain ⟨_, run₂, haudit, h⟩ := ok_of_go_bind h
    cases h
    rw [finish, state_of_writeAudit haudit, state_of_transitionTo htransition] at hcompleted
    cases hcompleted
  · cases h
    exact hopen hcompleted

def settledFees (deps : OrchestratorDeps) (request : ExecutionRequestV0)
    (legs : List ExecutionLegV0) : ExecutionFeeSummary :=
  realized deps.fees request (averagePrice legs)

def Monetized (deps : OrchestratorDeps) (request : ExecutionRequestV0) (services : ServiceAnswers)
    (legs : List ExecutionLegV0) (evidence : List (ExecutionLegId × JsRecord)) : Prop :=
  ∀ monetization ∈ deps.monetization, monetization.policy.captureMode ≠ .DISABLED →
    services.upsertPolicy = .done ∧
      ∀ w ∈ ledgerWrites services (ledgerEntries monetization.policy request
        (settledFees deps request legs) legs evidence), w.2 = .done

/-- The legs, the position deltas and the state are those of an earlier run. -/
structure SamePositions (books run : ExecutionRun) : Prop where
  legs : run.legs = books.legs
  positions : run.positions = books.positions
  state : run.state = books.state

theorem samePositions_monetize : Keeps (SamePositions books) (monetize deps request services) := by
  unfold monetize
  split
  · exact keeps_pure
  refine keeps_ite keeps_pure (keeps_get fun run h => ?_)
  -- every write here changes the policies, the ledger or the fee summary
  refine keeps_bind (keeps_write fun _ h => ⟨h.legs, h.positions, h.state⟩) (fun _ => ?_) run h
  refine keeps_bind (keeps_ite ?_ keeps_pure) fun _ =>
    keeps_writeEach fun _ _ h => ⟨h.legs, h.positions, h.state⟩
  exact keeps_modify fun _ h => ⟨h.legs, h.positions, h.state⟩

theorem discloseBuilderFees_ok {rows : List BuilderFeeRow} :
    ∃ run', go (discloseBuilderFees rows) run = (.ok (), run') := by
  rw [discloseBuilderFees, go_ite]
  split
  · exact ⟨_, go_modify⟩
  · exact ⟨_, go_pure⟩

theorem monetize_ok (services : ServiceAnswers) {legs : List ExecutionLegV0}
    (hlegs : run.legs = legs) (hevidence : run.settlementEvidenceByLegId = evidence)
    (hfees : run.feeSummary = settledFees deps request legs) :
    (go (monetize deps request services) run).1 = .ok () ↔
      Monetized deps request services legs evidence := by
  unfold monetize Monetized
  cases deps.monetization with
  | none => exact ⟨fun _ _ h => absurd h (by simp), fun _ => rfl⟩
  | some monetization =>
    by_cases hmode : monetization.policy.captureMode = .DISABLED
    · simp [hmode]
    · simp only [if_false, Option.mem_def, Option.some.injEq, forall_eq', ne_eq, hmode,
        go_bind_ok go_get, not_false_eq_true, forall_true_left]
      rw [hlegs, hevidence, hfees]
      constructor
      · intro h
        obtain ⟨_, run₁, hpolicy, h⟩ := ok_of_go_bind h
        obtain ⟨_, run₂, -, h⟩ := ok_of_go_bind h
        exact ⟨go_write_ok.mp (congrArg Prod.fst hpolicy), (writeEach_go _ _ run₂).2.mp h⟩
      · rintro ⟨hpolicy, hledger⟩
        rw [hpolicy, go_bind_ok go_write_done]
        obtain ⟨run₂, hdisclosed⟩ := discloseBuilderFees_ok
        rw [go_bind_ok hdisclosed]
        exact (writeEach_go _ _ run₂).2.mpr hledger

theorem applyDeltas_go (deps : OrchestratorDeps) (request : ExecutionRequestV0)
    (services : ServiceAnswers) (run : ExecutionRun) :
    let writes := deltaWrites request services run.legs
    (go (applyDeltas deps request services) run).2.legs = run.legs ∧
      (go (applyDeltas deps request services) run).2.state = run.state ∧
      (go (applyDeltas deps request services) run).2.positions =
        run.positions ++ (if deps.positions then landed writes else []) ∧
      ((go (applyDeltas deps request services) run).1 = .ok () ↔
        (deps.positions = true → ∀ w ∈ writes, w.2 = .done)) := by
  intro writes
  have hfold : ∀ (deltas : List PositionDelta) (run : ExecutionRun),
      deltas.foldl (fun run delta => { run with positions := run.positions ++ [delta] }) run =
        { run with positions := run.positions ++ deltas } := by
    intro deltas
    induction deltas with
    | nil => intro run; simp
    | cons delta deltas ih => intro run; simp [ih]
  rw [applyDeltas, go_bind_ok go_get]
  by_cases hwired : deps.positions = true
  · rw [if_pos hwired]
    obtain ⟨hleft, hok⟩ := writeEach_go
      (fun delta (run : ExecutionRun) => { run with positions := run.positions ++ [delta] })
      writes run
    rw [hfold] at hleft
    refine ⟨by rw [hleft], by rw [hleft], by rw [hleft, if_pos hwired], ?_⟩
    rw [hok]
    exact ⟨fun h _ => h, fun h => h hwired⟩
  · rw [if_neg hwired, if_neg hwired, List.append_nil]
    exact ⟨rfl, rfl, rfl, fun _ h => absurd h hwired, fun _ => rfl⟩

theorem verifySettlement_go (run : ExecutionRun) :
    ∃ run', go verifySettlement run = (.ok (), run') ∧ SameBooks run run' ∧
      run'.state = (if run.state = .FILLED_PENDING_SETTLEMENT then .SETTLEMENT_VERIFIED
        else run.state) ∧
      run'.settlementEvidenceByLegId = run.settlementEvidenceByLegId := by
  rw [verifySettlement, go_bind_ok go_get, go_ite, go_transitionTo]
  by_cases hfilled : run.state = .FILLED_PENDING_SETTLEMENT
  · rw [if_pos hfilled, if_pos hfilled, hfilled]
    exact ⟨_, rfl, ⟨rfl, rfl, rfl⟩, rfl, rfl⟩
  · rw [if_neg hfilled, if_neg hfilled]
    exact ⟨run, rfl, ⟨rfl, rfl, rfl⟩, rfl, rfl⟩

theorem sameBooks_emitReceipt : Keeps (SameBooks books) (emitReceipt services) :=
  keeps_bind sameBooks_writeAudit fun _ => keeps_bind sameBooks_transitionTo fun _ =>
    keeps_bind sameBooks_writeAudit fun _ => keeps_get fun _ h => h

def ReceiptAudited (services : ServiceAnswers) : Prop :=
  (services.audit .ACCOUNTING_UPDATED).isOk ∧ (services.audit .USER_RECEIPT_EMITTED).isOk

theorem emitReceipt_completed : Completed (go (emitReceipt services) run).1 ↔
      ReceiptAudited services ∧ run.state = .SETTLEMENT_VERIFIED := by
  constructor
  · rintro ⟨result, h, -⟩
    obtain ⟨_, run₁, haccounting, h⟩ := ok_of_go_bind h
    obtain ⟨_, run₂, htransition, h⟩ := ok_of_go_bind h
    obtain ⟨_, run₃, hreceipt, -⟩ := ok_of_go_bind h
    have hbooked := isOk_of_writeAudit haccounting
    obtain ⟨id, hid⟩ := isOk_iff.mp hbooked
    rw [go_writeAudit, hid] at haccounting
    cases haccounting
    rw [go_transitionTo] at htransition
    split at htransition
    next hlegal =>
      exact ⟨⟨hbooked, isOk_of_writeAudit hreceipt⟩, canTransitionTo_COMPLETED.mp hlegal⟩
    next => cases htransition
  · rintro ⟨⟨hbooked, hreceipt⟩, hstate⟩
    obtain ⟨bookedId, hbooked⟩ := isOk_iff.mp hbooked
    obtain ⟨receiptId, hreceipt⟩ := isOk_iff.mp hreceipt
    have hlegal : canTransitionTo .SETTLEMENT_VERIFIED .COMPLETED = true := rfl
    simp [Completed, emitReceipt, hbooked, hreceipt, hstate, hlegal, finish]

theorem complete_go (deps : OrchestratorDeps) (request : ExecutionRequestV0)
    (services : ServiceAnswers) (hevidence : run.settlementEvidenceByLegId = evidence) :
    ∃ run', go (complete deps request services) run = go (do
          monetize deps request services
          applyDeltas deps request services
          emitReceipt services) run' ∧
      SameBooks run run' ∧
      run'.state = (if run.state = .FILLED_PENDING_SETTLEMENT then .SETTLEMENT_VERIFIED
        else run.state) ∧
      run'.settlementEvidenceByLegId = evidence ∧
      run'.feeSummary = settledFees deps request run.legs := by
  obtain ⟨run₁, hgo, hbooks, hstate, hevidence₁⟩ := verifySettlement_go run
  refine ⟨{ run₁ with feeSummary := settledFees deps request run₁.legs }, ?_,
    ⟨hbooks.legs, hbooks.ledger, hbooks.positions⟩, hstate, hevidence₁.trans hevidence, ?_⟩
  · rw [complete, go_bind_ok hgo]
    rfl
  · rw [hbooks.legs]

theorem complete_positions (deps : OrchestratorDeps) (request : ExecutionRequestV0)
    (services : ServiceAnswers) (hevidence : run.settlementEvidenceByLegId = evidence) :
    (go (complete deps request services) run).2.legs = run.legs ∧
      (Monetized deps request services run.legs evidence →
        (go (complete deps request services) run).2.positions = run.positions ++
          (if deps.positions then landed (deltaWrites request services run.legs) else [])) ∧
      (¬ Monetized deps request services run.legs evidence →
        (go (complete deps request services) run).2.positions = run.positions) := by
  obtain ⟨run₁, hgo, hbooks, -, hevidence₁, hfees⟩ := complete_go deps request services hevidence
  rw [hgo]
  have hkept : SamePositions run₁ (go (monetize deps request services) run₁).2 :=
    samePositions_monetize run₁ ⟨rfl, rfl, rfl⟩
  have hmonetized := monetize_ok services hbooks.legs hevidence₁ hfees
  rcases hgo₂ : go (monetize deps request services) run₁ with ⟨error | _, run₂⟩
  · rw [hgo₂] at hkept hmonetized
    rw [go_bind_error hgo₂]
    refine ⟨hkept.legs.trans hbooks.legs, fun h => ?_, fun _ => hkept.positions.trans hbooks.positions⟩
    cases hmonetized.mpr h
  · rw [hgo₂] at hkept hmonetized
    rw [go_bind_ok hgo₂]
    obtain ⟨hlegs₃, -, hpositions₃, -⟩ := applyDeltas_go deps request services run₂
    have hleft : ∀ run₃, go (applyDeltas deps request services) run₂ = run₃ →
        SameBooks run₃.2 (go (do
          applyDeltas deps request services
          emitReceipt services) run₂).2 := by
      intro run₃ hgo₃
      rcases run₃ with ⟨error | _, run₃⟩
      · rw [go_bind_error hgo₃]
        exact ⟨rfl, rfl, rfl⟩
      · rw [go_bind_ok hgo₃]
        exact sameBooks_emitReceipt run₃ ⟨rfl, rfl, rfl⟩
    have hbooks₃ := hleft _ rfl
    have hlegs₂ : run₂.legs = run.legs := hkept.legs.trans hbooks.legs
    refine ⟨(hbooks₃.legs.trans hlegs₃).trans hlegs₂, fun _ => ?_, fun h => ?_⟩
    · rw [hbooks₃.positions, hpositions₃, hkept.positions, hbooks.positions, hlegs₂]
    · exact absurd (hmonetized.mp rfl) h

/-- A settled execution is completed when a fill was reported and every write is answered. -/
theorem complete_completed (hevidence : run.settlementEvidenceByLegId = evidence)
    (hstate : run.state ≠ .SETTLEMENT_VERIFIED) :
    Completed (go (complete deps request services) run).1 ↔
      Monetized deps request services run.legs evidence ∧
      (deps.positions = true → ∀ w ∈ deltaWrites request services run.legs, w.2 = .done) ∧
      ReceiptAudited services ∧ run.state = .FILLED_PENDING_SETTLEMENT := by
  obtain ⟨run₁, hgo, hbooks, hstate₁, hevidence₁, hfees⟩ :=
    complete_go deps request services hevidence
  have hverified : run₁.state = .SETTLEMENT_VERIFIED ↔ run.state = .FILLED_PENDING_SETTLEMENT := by
    rw [hstate₁]
    split
    next hfilled => exact ⟨fun _ => hfilled, fun _ => rfl⟩
    next hfilled => exact ⟨fun h => absurd h hstate, fun h => absurd h hfilled⟩
  have hmonetized := monetize_ok services hbooks.legs hevidence₁ hfees
  have hkept : SamePositions run₁ (go (monetize deps request services) run₁).2 :=
    samePositions_monetize run₁ ⟨rfl, rfl, rfl⟩
  rw [hgo, ← hverified]
  rcases hgo₂ : go (monetize deps request services) run₁ with ⟨error | _, run₂⟩
  · rw [hgo₂] at hmonetized
    rw [go_bind_error hgo₂]
    constructor
    · rintro ⟨result, h, -⟩
      cases h
    · rintro ⟨h, -⟩
      cases hmonetized.mpr h
  · rw [hgo₂] at hmonetized hkept
    rw [go_bind_ok hgo₂]
    have hlegs₂ : run₂.legs = run.legs := hkept.legs.trans hbooks.legs
    obtain ⟨-, hstate₃, -, hanswered⟩ := applyDeltas_go deps request services run₂
    rw [hlegs₂] at hanswered
    rcases hgo₃ : go (applyDeltas deps request services) run₂ with ⟨error | _, run₃⟩
    · rw [hgo₃] at hanswered
      rw [go_bind_error hgo₃]
      constructor
      · rintro ⟨result, h, -⟩
        cases h
      · rintro ⟨-, h, -⟩
        cases hanswered.mpr h
    · rw [hgo₃] at hanswered hstate₃
      rw [go_bind_ok hgo₃, emitReceipt_completed,
        show run₃.state = run₁.state from hstate₃.trans hkept.state]
      exact ⟨fun h => ⟨hmonetized.mp rfl, hanswered.mp rfl, h⟩, fun h => h.2.2⟩

end LotusRfq.Execution
