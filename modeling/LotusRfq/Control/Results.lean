import LotusRfq.Control.Outcomes

/-!
# LotusRfq — what a handler's result is written as

`execute` knows six results of a handler, and writes a submission that is only accepted as one that
is settled. Whatever the database answers and wherever a run breaks off, this is the one result that
is written as more than it is.

* **`execute_honest`** — the handler is entered by a request that has passed its checks, and no write
  says more than the handler has reported, unless it reports `SUBMITTED`.
-/

namespace LotusRfq.Control.Results

open Processes

variable {config : GatewayConfig} {input : ExecuteCall} {α : Type}

/-! ## What a run may ask -/

/-- What a call has been told: the key as it was, its replay records, and the handler's result. -/
structure Learnt where
  existing : Option (Option IdempotencyKeyRow)
  records : Option (List ReplayProtectionRecord)
  reported : Option SubmissionStatus

def nothing : Learnt := ⟨none, none, none⟩

def learn (q : Learnt) : (e : ControlRequest) → Except ControlError e.Answer → Learnt
  | .findIdempotencyKey _, .ok existing => { q with existing := some existing }
  | .listReplayProtectionByIdempotencyKey _, .ok records => { q with records := some records }
  | .leaveHandler _ _, .ok result => { q with reported := some result.status }
  | _, _ => q

def checksOf (config : GatewayConfig) (input : ExecuteCall) (existing : Option IdempotencyKeyRow)
    (records : List ReplayProtectionRecord) : CheckResults where
  policyResult := validate input.request
  freshnessResult := evaluateFreshness input.currentTime input.request
  approvalResult := evaluateApproval config.hashes input.request
  idempotencyResult := {
    idempotencyKey := idempotencyKeyOf config.hashes input
    bindingHash := config.hashes.idempotency input.request.idempotencyBinding
    status := (existing.map (matchExisting config.hashes input.request)).getD .ALLOCATED }
  replayResult := replayResultOf records

/-- Policy allows the request, it is fresh and approved, and neither its key nor a replay blocks
it. -/
def Passed (checks : CheckResults) : Prop :=
  checks.policyResult.allowed = true ∧ checks.freshnessResult.fresh = true ∧
    (checks.approvalResult.status = .APPROVED ∨ checks.approvalResult.status = .NOT_REQUIRED) ∧
    checks.idempotencyResult.status ≠ .MISMATCHED ∧ checks.replayResult.blockReasonCodes = []

def MayEnter (config : GatewayConfig) (input : ExecuteCall) (q : Learnt) : Prop :=
  match q.existing, q.records with
  | some existing, some records => Passed (checksOf config input existing records)
  | _, _ => False

/-- Only what is completed is filled or settled, and what is not known to be over is not final. -/
def MayWrite (q : Learnt) (written : CreateExecutionRecordInput) : Prop :=
  (written.executionState ∈ [ExecutionState.FILLED, .SETTLED] ∨
      written.settlementStatus = .settled → q.reported = some .COMPLETED) ∧
    (q.reported ∈ [some SubmissionStatus.SUBMITTED, some .PARTIAL, some .SYNC_PENDING,
        some .RECONCILING] →
      written.executionState ∉ [ExecutionState.FILLED, .SETTLED, .FAILED])

def AsWritten : (e : ControlRequest) → Except ControlError e.Answer → Prop
  | .createRecord written, .ok record => record.settlementStatus = written.settlementStatus
  | _, _ => True

def NotSubmitted : (e : ControlRequest) → Except ControlError e.Answer → Prop
  | .leaveHandler _ _, .ok result => result.status ≠ .SUBMITTED
  | _, _ => True

/-- What a call of `execute` may ask. -/
def resultProtocol (config : GatewayConfig) (input : ExecuteCall) :
    Protocol ControlRequest (fun e => Except ControlError e.Answer) Learnt where
  allows q e :=
    match e with
    | .createRecord written => MayWrite q written
    | .enterHandler _ => MayEnter config input q
    | _ => True
  answers e r := AsWritten e r ∧ NotSubmitted e r
  next := learn

instance (q : Learnt) (e : ControlRequest) :
    Decidable ((resultProtocol config input).allows q e) := by
  induction e using ControlRequest.casesOn <;> dsimp only [resultProtocol, MayWrite]
  case enterHandler =>
    obtain ⟨existing, records, reported⟩ := q
    induction existing using Option.casesOn <;> induction records using Option.casesOn <;>
      (dsimp only [MayEnter, Passed]; infer_instance)
  all_goals infer_instance

instance decidableFollows :
    (q : Learnt) → (log : List ((e : ControlRequest) × Except ControlError e.Answer)) →
    Decidable ((resultProtocol config input).Follows q log)
  | _, [] => .isTrue trivial
  | q, event :: rest =>
    have := decidableFollows (learn q event.1 event.2) rest
    inferInstanceAs (Decidable ((resultProtocol config input).allows q event.1 ∧
      (resultProtocol config input).Follows (learn q event.1 event.2) rest))

/-! ## The parts of a call -/

/-- A request that nothing is learnt from, and that may always be made. -/
def isAside : ControlRequest → Bool
  | .findIdempotencyKey _ | .listReplayProtectionByIdempotencyKey _ | .createRecord _
  | .enterHandler _ | .leaveHandler _ _ => false
  | _ => true

theorem stays_aside {e : ControlRequest} (he : isAside e = true) :
    Stays (resultProtocol config input) (call e : ControlProgram e.Answer) := by
  cases e with
  | findIdempotencyKey => cases he
  | listReplayProtectionByIdempotencyKey => cases he
  | createRecord => cases he
  | enterHandler => cases he
  | leaveHandler => cases he
  | _ => exact stays_call (fun _ => trivial) fun _ _ => rfl

theorem stays_writeTransitionEvidence (events : List StateTransition) :
    Stays (resultProtocol config input) (writeTransitionEvidence events) :=
  stays_bind (stays_aside rfl) fun _ => stays_bind (stays_aside rfl) fun _ => stays_pure _

theorem stays_recordRecovery (audit : AuditContext)
    (localSyncFailed duplicateSubmissionRisk : Option Bool) : Stays (resultProtocol config input)
      (recordRecovery audit localSyncFailed duplicateSubmissionRisk) :=
  stays_bind (stays_attempt (stays_aside rfl)) fun _ => stays_pure _

/-- Nothing is settled that has been written so far, and nothing new is learnt. -/
def Unsettled (q : Learnt) (q' : Learnt) : Except ControlError AuditContext → Prop
  | .ok audit => q' = q ∧ audit.record.settlementStatus ≠ .settled
  | .error _ => True

def Harmless (transitions : List ExecutionTransitionRequest) : Prop :=
  ∀ final, transitions.getLast? = some final → final.settlementStatus = none ∧
    final.nextState ∉ [ExecutionState.FILLED, .SETTLED]

theorem obeys_transitionMany {audit : AuditContext} {q : Learnt}
    {transitions : List ExecutionTransitionRequest}
    (hallowed : ∀ final, transitions.getLast? = some final → MayWrite q {
      key := audit.key
      executionIntentId := audit.intentId
      executionState := final.nextState
      syncStatus := final.syncStatus.getD audit.record.syncStatus
      settlementStatus := final.settlementStatus.getD audit.record.settlementStatus }) :
    Obeys (resultProtocol config input) (fun q' result => ∀ audit', result = .ok audit' → q' = q ∧
        ∀ final, transitions.getLast? = some final → audit'.record.settlementStatus =
          final.settlementStatus.getD audit.record.settlementStatus) q
      (transitionMany audit transitions).run := by
  unfold transitionMany
  split
  next hnone =>
    refine obeys_return fun audit' _ => ⟨rfl, fun final hfinal => ?_⟩
    rw [hnone] at hfinal
    cases hfinal
  next final hfinal =>
    split
    · exact obeys_throw fun _ h => nomatch h
    next events hevents =>
      refine obeys_program_bind (M := fun q' record => q' = q ∧ record.settlementStatus =
        final.settlementStatus.getD audit.record.settlementStatus) ?_ ?_
      · refine obeys_call (hallowed final hfinal) fun r hr => ?_
        cases r with
        | ok record => exact ⟨rfl, hr.1⟩
        | error e => exact fun _ h => nomatch h
      · rintro _ record ⟨rfl, hrecord⟩
        refine obeys_stays_bind (stays_writeTransitionEvidence events) (fun _ _ h => nomatch h)
          fun _ => obeys_return fun audit' haudit => ⟨rfl, fun other hother => ?_⟩
        cases haudit
        cases hfinal.symm.trans hother
        exact hrecord

theorem obeys_harmless {audit : AuditContext} {q : Learnt}
    (hunsettled : audit.record.settlementStatus ≠ .settled)
    {transitions : List ExecutionTransitionRequest} (hsome : transitions ≠ [])
    (h : Harmless transitions)
    (hfailed : q.reported ∈ [some SubmissionStatus.SUBMITTED, some .PARTIAL, some .SYNC_PENDING,
      some .RECONCILING] → ∀ final, transitions.getLast? = some final → final.nextState ≠ .FAILED) :
    Obeys (resultProtocol config input) (Unsettled q) q (transitionMany audit transitions).run := by
  refine (obeys_transitionMany fun final hfinal => ?_).weaken fun q' result hresult => ?_
  · obtain ⟨hnone, hstate⟩ := h final hfinal
    refine ⟨fun hsays => ?_, fun hreported => ?_⟩
    · rcases hsays with hfilled | hsettled
      · exact absurd hfilled hstate
      · rw [hnone] at hsettled
        exact absurd hsettled hunsettled
    · have := hfailed hreported final hfinal
      simp_all
  · cases result with
    | error e => trivial
    | ok audit' =>
      obtain ⟨hq, hrecord⟩ := hresult audit' rfl
      refine ⟨hq, ?_⟩
      rw [hrecord _ (List.getLast?_eq_getLast_of_ne_nil hsome),
        (h _ (List.getLast?_eq_getLast_of_ne_nil hsome)).1]
      exact hunsettled

theorem obeys_unsettled_bind {program : ControlProgram AuditContext}
    {f : AuditContext → ControlProgram α} {q : Learnt}
    (h : Obeys (resultProtocol config input) (Unsettled q) q program.run)
    (hf : ∀ audit, audit.record.settlementStatus ≠ .settled →
      Obeys (resultProtocol config input) (fun _ _ => True) q (f audit).run) :
    Obeys (resultProtocol config input) (fun _ _ => True) q (program >>= f).run := by
  refine obeys_program_bind (M := fun q' audit => q' = q ∧
    audit.record.settlementStatus ≠ .settled) (h.weaken fun q' result hresult => ?_) ?_
  · cases result with
    | ok audit => exact hresult
    | error e => trivial
  · rintro _ audit ⟨rfl, hunsettled⟩
    exact hf audit hunsettled

theorem obeys_check : Obeys (resultProtocol config input)
    (fun q result => ∀ checks, result = .ok checks → ∃ existing records,
      q = ⟨some existing, some records, none⟩ ∧ checks = checksOf config input existing records)
    nothing (check config input).run := by
  refine obeys_program_bind (M := fun q result => ∃ existing, q = ⟨some existing, none, none⟩ ∧
    result = (checksOf config input existing []).idempotencyResult) ?_ ?_
  · refine obeys_program_bind (M := fun q existing => q = ⟨some existing, none, none⟩) ?_ ?_
    · refine obeys_call trivial fun r _ => ?_
      cases r with
      | ok existing => rfl
      | error e => exact fun _ h => nomatch h
    · rintro _ existing rfl
      cases existing with
      | none =>
        exact obeys_stays_bind (stays_aside rfl) (fun _ _ h => nomatch h)
          fun _ => obeys_return ⟨none, rfl, rfl⟩
      | some existing => exact obeys_return ⟨some existing, rfl, rfl⟩
  · rintro _ _ ⟨existing, rfl, rfl⟩
    refine obeys_program_bind (M := fun q replay => ∃ records,
      q = ⟨some existing, some records, none⟩ ∧ replay = replayResultOf records) ?_ ?_
    · refine obeys_program_bind (M := fun q records =>
        q = ⟨some existing, some records, none⟩) ?_ ?_
      · refine obeys_call trivial fun r _ => ?_
        cases r with
        | ok records => rfl
        | error e => exact fun _ h => nomatch h
      · rintro _ records rfl
        exact obeys_return ⟨records, rfl, rfl⟩
    · rintro _ _ ⟨records, rfl, rfl⟩
      exact obeys_return fun checks h => ⟨existing, records, rfl, by cases h; rfl⟩

theorem obeys_initializeAudit (request : ExecutionControlRequest) (idempotencyKey : String)
    {q : Learnt} (hreported : q.reported = none) :
    Obeys (resultProtocol config input) (Unsettled q) q
      (initializeAudit request idempotencyKey).run := by
  refine obeys_stays_bind (stays_aside rfl) (fun _ => trivial) fun intentId => ?_
  refine obeys_program_bind (M := fun q' record => q' = q ∧
    record.settlementStatus = .pending) ?_ ?_
  · refine obeys_call ⟨by simp, by simp [hreported]⟩ fun r hr => ?_
    cases r with
    | ok record => exact ⟨rfl, hr.1⟩
    | error e => trivial
  · rintro _ record ⟨rfl, hrecord⟩
    refine obeys_stays_bind (stays_aside rfl) (fun _ => trivial) fun _ => ?_
    exact obeys_stays_bind (stays_writeTransitionEvidence _) (fun _ => trivial)
      fun _ => obeys_return ⟨rfl, by rw [hrecord]; decide⟩

/-- The handler is entered by a request that may enter it, and what it reports is learnt. -/
theorem obeys_submit {q : Learnt} (hmay : MayEnter config input q) (hreported : q.reported = none)
    (audit : AuditContext) (idempotencyKey : String) :
    Obeys (resultProtocol config input) (fun q' result => match result with
      | .ok result => q'.reported = some result.status ∧ result.status ≠ .SUBMITTED
      | .error _ => q'.reported = none) q (submit config input audit idempotencyKey).run := by
  unfold submit
  split
  · exact obeys_throw hreported
  · refine obeys_stays_bind (stays_aside rfl) (fun _ => hreported) fun _ => ?_
    refine obeys_program_bind (M := fun q' _ => q' = q) ?_ ?_
    · refine obeys_call hmay fun r _ => ?_
      cases r with
      | ok submission => rfl
      | error e => exact hreported
    · rintro _ submission rfl
      refine obeys_call trivial fun r hr => ?_
      cases r with
      | ok result => exact ⟨rfl, hr.2⟩
      | error e => exact hreported

theorem obeys_recordResult {audit : AuditContext} {q : Learnt}
    (hunsettled : audit.record.settlementStatus ≠ .settled) {result : ExecutionSubmissionResult}
    (hreported : q.reported = some result.status) (hsubmitted : result.status ≠ .SUBMITTED) :
    Obeys (resultProtocol config input) (fun _ _ => True) q (recordResult audit result).run := by
  have hrecover : ∀ transitions localSyncFailed duplicateSubmissionRisk, transitions ≠ [] →
      Harmless transitions → (result.status ≠ .FAILED → ∀ final,
        transitions.getLast? = some final → final.nextState ≠ .FAILED) →
      Obeys (resultProtocol config input) (fun _ _ => True) q (do
        let audit ← transitionMany audit transitions
        recordRecovery audit localSyncFailed duplicateSubmissionRisk
        return audit : ControlProgram AuditContext).run := by
    intro transitions localSyncFailed duplicateSubmissionRisk hsome hharmless hfailed
    refine obeys_unsettled_bind (obeys_harmless hunsettled hsome hharmless fun huncertain => ?_) ?_
    · refine hfailed fun heq => ?_
      rw [hreported, heq] at huncertain
      exact absurd huncertain (by decide)
    · intro audit _
      exact obeys_stays_bind (stays_recordRecovery _ _ _) (fun _ => trivial)
        fun _ => obeys_return trivial
  unfold recordResult
  cases hstatus : result.status with
  | SUBMITTED => exact absurd hstatus hsubmitted
  | COMPLETED =>
    refine (obeys_transitionMany fun final _ => ⟨fun _ => ?_, fun huncertain => ?_⟩).weaken
      fun _ _ _ => trivial
    · rw [hreported, hstatus]
    · rw [hreported, hstatus] at huncertain
      exact absurd huncertain (by decide)
  | SYNC_PENDING => exact hrecover _ _ _ (by simp) (by simp [Harmless]) (by simp)
  | RECONCILING => exact hrecover _ _ _ (by simp) (by simp [Harmless]) (by simp)
  | PARTIAL => exact hrecover _ _ _ (by simp) (by simp [Harmless]) (by simp)
  | FAILED => exact hrecover _ _ _ (by simp) (by simp [Harmless]) (fun h => absurd hstatus h)

theorem obeys_submitChecked {audit : AuditContext} {q : Learnt}
    (hunsettled : audit.record.settlementStatus ≠ .settled) (hmay : MayEnter config input q)
    (hreported : q.reported = none) (checks : CheckResults) (auditRef replayProtectionRef : ℕ) :
    Obeys (resultProtocol config input) (fun _ _ => True) q
      (submitChecked config input checks audit auditRef replayProtectionRef).run := by
  refine obeys_unsettled_bind (obeys_harmless hunsettled (by simp) (by simp [Harmless])
    (by simp [hreported])) fun audit hunsettled => ?_
  refine obeys_unsettled_bind ?_ fun audit hunsettled => ?_
  · split
    · exact obeys_harmless hunsettled (by simp) (by simp [Harmless]) (by simp [hreported])
    · exact obeys_return ⟨rfl, hunsettled⟩
  refine obeys_attempt (obeys_submit hmay hreported _ _) fun q' submitted hsubmitted => ?_
  cases submitted with
  | error error =>
    refine obeys_unsettled_bind (obeys_harmless hunsettled (by simp) (by simp [Harmless])
      (by simp)) fun audit _ => ?_
    exact obeys_stays_bind (stays_recordRecovery _ _ _) (fun _ => trivial)
      fun _ => obeys_return trivial
  | ok result =>
    exact obeys_program_bind (M := fun _ _ => True)
      ((obeys_recordResult hunsettled hsubmitted.1 hsubmitted.2).weaken
        fun _ result _ => by cases result <;> trivial) fun _ _ _ => obeys_return trivial

theorem obeys_execute (config : GatewayConfig) (input : ExecuteCall) :
    Obeys (resultProtocol config input) (fun _ _ => True) nothing (execute config input).run := by
  refine obeys_program_bind (M := fun q checks => ∃ existing records,
    q = ⟨some existing, some records, none⟩ ∧ checks = checksOf config input existing records)
    (obeys_check.weaken fun q result h => ?_) ?_
  · cases result with
    | ok checks => exact h checks rfl
    | error e => trivial
  rintro _ _ ⟨existing, records, rfl, rfl⟩
  refine obeys_unsettled_bind (obeys_initializeAudit _ _ rfl) fun audit hunsettled => ?_
  refine obeys_stays_bind (stays_aside rfl) (fun _ => trivial) fun _ => ?_
  refine obeys_stays_bind (stays_aside rfl) (fun _ => trivial) fun _ => ?_
  refine obeys_stays_bind ?_ (fun _ => trivial) fun replayProtectionRef => ?_
  · split
    · exact stays_pure _
    · exact stays_aside rfl
  refine obeys_stays_bind (stays_aside rfl) (fun _ => trivial) fun auditRef => ?_
  refine obeys_stays_bind (stays_aside rfl) (fun _ => trivial) fun _ => ?_
  -- what is not stopped here has passed its checks
  have hlast : ∀ transitions (outcome : AuditContext → ExecutionControlOutcome),
      transitions ≠ [] → Harmless transitions →
      Obeys (resultProtocol config input) (fun _ _ => True) ⟨some existing, some records, none⟩ (do
        let audit ← transitionMany audit transitions
        return outcome audit : ControlProgram ExecutionControlOutcome).run :=
    fun transitions outcome hsome hharmless => obeys_unsettled_bind
      (obeys_harmless hunsettled hsome hharmless (by simp)) fun _ _ => obeys_return trivial
  unfold decideOutcome
  dsimp only
  split
  · exact hlast _ _ (by simp) (by simp [Harmless])
  next hawaits =>
    split
    · exact hlast _ _ (by simp) (by simp [Harmless])
    next hblocked =>
      refine obeys_submitChecked hunsettled ?_ rfl _ _ _
      have happroved := @approved_of_passes config input (checksOf config input existing records) rfl
        (by simpa using hawaits) (by simpa using hblocked)
      simp only [CheckResults.blocked, buildDecision] at hblocked
      simp_all [MayEnter, Passed]

/-- **Results are written as what they are.** In every run, whatever is answered and wherever it
breaks off, a record is filled or settled only after the handler has reported `COMPLETED`, it is not
final after a result that is not known to be over, and the handler is entered only by a request that
has passed its checks, as long as the handler does not report `SUBMITTED`. -/
theorem execute_honest (config : GatewayConfig) (input : ExecuteCall)
    {log : List ((e : ControlRequest) × Except ControlError e.Answer)}
    (hlog : (execute config input).run.Traces log)
    (hwritten : ∀ event ∈ log, AsWritten event.1 event.2)
    (hreported : ∀ event ∈ log, NotSubmitted event.1 event.2) :
    (resultProtocol config input).Follows nothing log :=
  (obeys_execute config input).follows hlog fun event hevent =>
    ⟨hwritten event hevent, hreported event hevent⟩

instance (event : (e : ControlRequest) × Except ControlError e.Answer) :
    Decidable (AsWritten event.1 event.2) := by
  unfold AsWritten
  split <;> infer_instance

instance (event : (e : ControlRequest) × Except ControlError e.Answer) :
    Decidable (NotSubmitted event.1 event.2) := by
  unfold NotSubmitted
  split <;> infer_instance

/-- What is asked for a sound request whose handler reports `status`. -/
def logEnding (status : SubmissionStatus) :
    List ((e : ControlRequest) × Except ControlError e.Answer) :=
  (execute serverConfig (callEnding (.answered ⟨status, none⟩))).run.log handle emptyTables

theorem execute_honest_completed :
    (resultProtocol serverConfig (callEnding (.answered ⟨.COMPLETED, none⟩))).Follows nothing
      (logEnding .COMPLETED) :=
  execute_honest serverConfig (callEnding (.answered ⟨.COMPLETED, none⟩))
    (traces_log handle _ emptyTables) (by decide +kernel) (by decide +kernel)

/-- An order that was only submitted is written as settled. -/
theorem execute_settles_submitted : ¬ ∀ config input log, (execute config input).run.Traces log →
      (∀ event ∈ log, AsWritten event.1 event.2) →
      (resultProtocol config input).Follows nothing log := by
  intro h
  have hfollows := h serverConfig (callEnding (.answered ⟨.SUBMITTED, none⟩))
    (logEnding .SUBMITTED) (traces_log handle _ emptyTables) (by decide +kernel)
  exact absurd hfollows (by decide +kernel)

end LotusRfq.Control.Results
