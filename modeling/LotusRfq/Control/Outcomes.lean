import LotusRfq.Control.Gateway

/-!
# LotusRfq — how `execute` ends

A request that awaits its approval, a handler that throws or is not there, and a result that is
uncertain all ask for a transition that the table does not have: `execute` throws, and what the
handler has done is not written down.

* **`execute_reaches`** — all that is written before the decision;
* **`submitChecked_ends`** — a request that passes its checks, by how the handler ends;
* **`execute_kept_iff`** — when `execute` returns, and when the record says how the handler ended.
-/

namespace LotusRfq.Control

open Processes

variable {config : GatewayConfig} {input : ExecuteCall} {s s' : ControlState} {audit : AuditContext}
  {key : RecordKey} {state : ExecutionState} {subs : List Submission}

/-! ## The checks -/

def checksIn (config : GatewayConfig) (input : ExecuteCall) (s : ControlState) : CheckResults where
  policyResult := validate input.request
  freshnessResult := evaluateFreshness input.currentTime input.request
  approvalResult := evaluateApproval config.hashes input.request
  idempotencyResult := {
    idempotencyKey := idempotencyKeyOf config.hashes input
    bindingHash := config.hashes.idempotency input.request.idempotencyBinding
    status := ((s.idempotencyKeys.lookup (idempotencyKeyOf config.hashes input)).map
      (matchExisting config.hashes input.request)).getD .ALLOCATED }
  replayResult := replayResultOf (s.replayProtection.filter fun record =>
    record.idempotencyKey = idempotencyKeyOf config.hashes input)

theorem handle_statement (houtage : s.outage = false) (e : ControlRequest) :
    handle e s = perform e s := by
  rw [handle, houtage, Bool.and_false, if_neg Bool.false_ne_true]

theorem statement_returns (houtage : s.outage = false) {e : ControlRequest} {answer : e.Answer}
    (hperform : perform e s = (.ok answer, s')) :
    Returns handle (call e) s fun a state => a = answer ∧ state = s' := by
  have hhandle : handle e s = (.ok answer, s') := (handle_statement houtage e).trans hperform
  refine ends_call ⟨answer, ?_, rfl, ?_⟩
  · rw [hhandle]
  · rw [hhandle]

theorem ends_statement {β : Type} {e : ControlRequest} {f : e.Answer → ControlProgram β}
    {post : Except ControlError β → ControlState → Prop} (houtage : s.outage = false)
    {answer : e.Answer} {s' : ControlState} (hperform : perform e s = (.ok answer, s'))
    (hf : Ends handle (f answer) s' post) : Ends handle (call e >>= f) s post := by
  refine ends_bind (statement_returns houtage hperform) ?_
  rintro a state ⟨rfl, rfl⟩
  exact hf

theorem check_returns (houtage : s.outage = false) :
    Returns handle (check config input) s fun checks s' => checks = checksIn config input s ∧
      s'.outage = false ∧ s'.submissions = s.submissions := by
  refine ends_bind (M := fun result s' => result = (checksIn config input s).idempotencyResult ∧
    s'.outage = false ∧ s'.submissions = s.submissions ∧
      s'.replayProtection = s.replayProtection) ?_ ?_
  · refine ends_statement houtage rfl ?_
    cases hlookup : s.idempotencyKeys.lookup (idempotencyKeyOf config.hashes input) with
    | none =>
      refine ends_statement houtage rfl (ends_pure ⟨_, rfl, ?_, houtage, rfl, rfl⟩)
      rw [checksIn, hlookup]
      rfl
    | some existing =>
      refine ends_pure ⟨_, rfl, ?_, houtage, rfl, rfl⟩
      rw [checksIn, hlookup]
      rfl
  · rintro result s' ⟨rfl, houtage', hsubmissions, hreplay⟩
    refine ends_bind (M := fun replay s'' => replay = (checksIn config input s).replayResult ∧
      s''.outage = false ∧ s''.submissions = s.submissions) ?_ ?_
    · refine ends_statement houtage' rfl (ends_pure ⟨_, rfl, ?_, houtage', hsubmissions⟩)
      rw [hreplay]
      rfl
    · rintro replay s'' ⟨rfl, houtage'', hsubmissions'⟩
      exact ends_pure ⟨_, rfl, rfl, houtage'', hsubmissions'⟩

theorem approved_of_passes {checks : CheckResults}
    (hresult : checks.approvalResult = evaluateApproval config.hashes input.request)
    (hawaits : checks.awaitsApproval = false) (hblocked : checks.blocked = false) :
    checks.approvalResult.status = .APPROVED ∨ checks.approvalResult.status = .NOT_REQUIRED := by
  have hmatched : checks.approvalResult.status ≠ .MISMATCHED := by
    intro hmismatched
    have hallowed : (buildDecision checks).allowed = false := by
      simp [buildDecision, hmismatched]
    rw [CheckResults.blocked, hallowed] at hblocked
    cases hblocked
  have hfree : checks.approvalResult.status ≠ .AWAITING_APPROVAL ∧
      checks.approvalResult.status ≠ .REQUIRED := by
    simpa [CheckResults.awaitsApproval] using hawaits
  have hgate := evaluateApproval_status config.hashes input.request
  rw [← hresult] at hgate
  simp only [List.mem_cons, List.not_mem_nil, or_false] at hgate
  rcases hgate with hstatus | hstatus | hstatus | hstatus | hstatus
  · exact .inr hstatus
  · exact absurd hstatus hfree.1
  · exact absurd hstatus hmatched
  · exact absurd hstatus hfree.2
  · exact .inl hstatus

/-! ## The audit -/

def stateOf (key : RecordKey) (s : ControlState) : Option ExecutionState :=
  (s.records.lookup key).map (·.executionState)

/-- The record of the audit is in `state`, and what is stored of it is too. -/
structure InState (key : RecordKey) (submissions : List Submission) (state : ExecutionState)
    (audit : AuditContext) (s : ControlState) : Prop where
  key_eq : audit.key = key
  state_eq : audit.state = some state
  stored : stateOf key s = some state
  outage : s.outage = false
  submissions_eq : s.submissions = submissions

theorem InState.insert (h : InState key subs state audit s) (row : ControlRow) :
    InState key subs state audit (perform (.insert row) s).2 :=
  ⟨h.key_eq, h.state_eq, h.stored, h.outage, h.submissions_eq⟩

theorem lookup_createRecord (key : RecordKey) (written : CreateExecutionRecordInput)
    (old : Option ExecutionRecord) (freshId : ℕ) (records : List (RecordKey × ExecutionRecord)) :
    ((OrderedMap.set key (written.row old freshId) records).lookup key).map (·.executionState) =
      some written.executionState := by
  rw [OrderedMap.lookup_set, if_pos rfl]
  rfl

theorem writeTransitionEvidence_returns (houtage : s.outage = false)
    (events : List StateTransition) : Returns handle (writeTransitionEvidence events) s fun _ s' =>
      s'.outage = false ∧ s'.submissions = s.submissions ∧ s'.records = s.records := by
  refine ends_statement houtage rfl (ends_statement houtage rfl ?_)
  exact ends_pure ⟨_, rfl, houtage, rfl, rfl⟩

variable {transitions : List ExecutionTransitionRequest} {result : ExecutionSubmissionResult}
  {final : ExecutionState}

section

variable (h : InState key subs state audit s)

include h

theorem transitionMany_returns {next : ExecutionState}
    (hfinal : transitions.getLast?.map (·.nextState) = some next)
    (hlegal : ∃ events, transitionEvents audit.record.id (some state) transitions = .ok events) :
    Returns handle (transitionMany audit transitions) s (InState key subs next) := by
  obtain ⟨events, hevents⟩ := hlegal
  obtain ⟨final, hlast, rfl⟩ := Option.map_eq_some_iff.mp hfinal
  rw [transitionMany, hlast]
  dsimp only
  rw [h.state_eq, hevents]
  refine ends_statement h.outage rfl ?_
  refine ends_bind (writeTransitionEvidence_returns ?_ events) ?_
  · exact h.outage
  rintro _ s' ⟨houtage, hsubmissions, hrecords⟩
  refine ends_pure ⟨_, rfl, h.key_eq, rfl, ?_, houtage, hsubmissions.trans h.submissions_eq⟩
  rw [stateOf, hrecords, ← h.key_eq]
  exact lookup_createRecord _ _ _ _ _

theorem transitionMany_throws (hnonempty : transitions ≠ []) {error : ControlError}
    (hillegal : transitionEvents audit.record.id (some state) transitions = .error error) :
    Throws handle (transitionMany audit transitions) s fun e s' =>
      e = error ∧ s'.submissions = subs := by
  rw [transitionMany, List.getLast?_eq_getLast_of_ne_nil hnonempty]
  dsimp only
  rw [h.state_eq, hillegal]
  exact ends_throw ⟨_, rfl, rfl, h.submissions_eq⟩

theorem recordRecovery_returns (localSyncFailed duplicateSubmissionRisk : Option Bool) :
    Returns handle (recordRecovery audit localSyncFailed duplicateSubmissionRisk) s
      fun _ s' => InState key subs state audit s' := by
  refine ends_attempt (M := fun _ s' => InState key subs state audit s') ?_ ?_
  · rw [Ends]
    show InState key subs state audit (handle (.insert _) s).2
    rw [handle_statement h.outage]
    exact h.insert _
  · rintro result s' h'
    exact ends_pure ⟨_, rfl, h'⟩

end

theorem initializeAudit_returns (houtage : s.outage = false)
    (request : ExecutionControlRequest) (idempotencyKey : String) :
    Returns handle (initializeAudit request idempotencyKey) s
      (InState (recordKeyOf request) s.submissions .CREATED) := by
  refine ends_bind (M := fun _ s' => s'.outage = false ∧ s'.submissions = s.submissions) ?_ ?_
  · rw [Returns, Ends]
    show (∃ a, (handle (.createIntent idempotencyKey) s).1 = .ok a ∧
      (handle (.createIntent idempotencyKey) s).2.outage = false ∧
      (handle (.createIntent idempotencyKey) s).2.submissions = s.submissions)
    rw [handle_statement houtage]
    unfold perform
    dsimp only
    split
    next => exact ⟨_, rfl, houtage, rfl⟩
    next => exact ⟨_, rfl, houtage, rfl⟩
  · rintro intentId s' ⟨houtage', hsubmissions⟩
    refine ends_statement houtage' rfl (ends_statement houtage' rfl ?_)
    refine ends_bind (writeTransitionEvidence_returns ?_ _) ?_
    · exact houtage'
    rintro _ s'' ⟨houtage'', hsubmissions', hrecords⟩
    refine ends_pure ⟨_, rfl, rfl, rfl, ?_, houtage'', hsubmissions'.trans hsubmissions⟩
    rw [stateOf, hrecords]
    exact lookup_createRecord _ _ _ _ _

/-! ## Submission -/

theorem modify_length_append (subs : List Submission) (submission : Submission)
    (f : Submission → Submission) :
    (subs ++ [submission]).modify subs.length f = subs ++ [f submission] := by
  induction subs with
  | nil => rfl
  | cons head subs ih => exact congrArg (head :: ·) ih

theorem submit_ends (h : InState key subs state audit s)
    (hhandler : config.handlers input.request.submissionKind = true) (idempotencyKey : String) :
    Ends handle (submit config input audit idempotencyKey) s fun result s' =>
      result = input.outcome.answer ∧
        InState key (subs ++ [⟨idempotencyKey, some input.outcome⟩]) state audit s' := by
  rw [submit, hhandler, Bool.not_true, if_neg Bool.false_ne_true]
  refine ends_statement h.outage rfl ?_
  refine ends_bind (M := fun submission s' => submission = subs.length ∧
    InState key (subs ++ [⟨idempotencyKey, none⟩]) state audit s') ?_ ?_
  · refine ⟨subs.length, ?_, rfl, h.key_eq, h.state_eq, h.stored, h.outage, ?_⟩
    · show Except.ok s.submissions.length = _
      rw [h.submissions_eq]
    · show s.submissions ++ [_] = _
      rw [h.submissions_eq]
  · rintro submission s' ⟨rfl, h'⟩
    refine ⟨rfl, h'.key_eq, h'.state_eq, h'.stored, h'.outage, ?_⟩
    show s'.submissions.modify subs.length (leave input.outcome) = _
    rw [h'.submissions_eq]
    exact modify_length_append _ _ _

theorem submit_missing (h : InState key subs state audit s)
    (hhandler : config.handlers input.request.submissionKind = false) (idempotencyKey : String) :
    Ends handle (submit config input audit idempotencyKey) s fun result s' =>
      result = .error (.missingHandler input.request.submissionKind) ∧
        InState key subs state audit s' := by
  rw [submit, hhandler, Bool.not_false, if_pos rfl]
  exact ends_throw ⟨rfl, h⟩

/-- The state that is written for a result, where there is a way to it. -/
def writtenState : SubmissionStatus → Option ExecutionState
  | .SUBMITTED | .COMPLETED => some .SETTLED
  | .PARTIAL => some .PARTIALLY_FILLED
  | .FAILED => some .FAILED
  | .SYNC_PENDING | .RECONCILING => none

def HandlerOutcome.written : HandlerOutcome → Option ExecutionState
  | .answered result => writtenState result.status
  | .thrown => none

section

variable (h : InState key subs .APPROVED audit s)

include h

theorem transition_recover {next : ExecutionState}
    (hfinal : transitions.getLast?.map (·.nextState) = some next)
    (hlegal : ∃ events, transitionEvents audit.record.id (some .APPROVED) transitions = .ok
      events) (localSyncFailed duplicateSubmissionRisk : Option Bool) :
    Returns handle (do
      let audit ← transitionMany audit transitions
      recordRecovery audit localSyncFailed duplicateSubmissionRisk
      return audit) s (InState key subs next) := by
  refine ends_bind (transitionMany_returns h hfinal hlegal) fun audit' s' h' => ?_
  refine ends_bind (recordRecovery_returns h' _ _) fun _ s'' h'' => ?_
  exact ends_pure ⟨_, rfl, h''⟩

theorem recordResult_returns (hwritten : writtenState result.status = some final) :
    Returns handle (recordResult audit result) s (InState key subs final) := by
  obtain ⟨status, duplicateRisk⟩ := result
  cases status with
  | SUBMITTED =>
    cases hwritten
    unfold recordResult
    refine transitionMany_returns h ?_ ?_
    · rfl
    · exact ⟨_, rfl⟩
  | COMPLETED =>
    cases hwritten
    unfold recordResult
    refine transitionMany_returns h ?_ ?_
    · rfl
    · exact ⟨_, rfl⟩
  | PARTIAL =>
    cases hwritten
    refine transition_recover h ?_ ?_ none none
    · rfl
    · exact ⟨_, rfl⟩
  | FAILED =>
    cases hwritten
    refine transition_recover h ?_ ?_ none duplicateRisk
    · rfl
    · exact ⟨_, rfl⟩
  | SYNC_PENDING => cases hwritten
  | RECONCILING => cases hwritten

theorem recordResult_throws (hwritten : writtenState result.status = none) :
    Throws handle (recordResult audit result) s fun e s' =>
      (∃ next, e = .invalidTransition (some .APPROVED) next) ∧ s'.submissions = subs := by
  obtain ⟨status, duplicateRisk⟩ := result
  cases status with
  | SYNC_PENDING =>
    refine ends_throws ?_
    refine (transitionMany_throws h (by simp) rfl).weaken ?_
    rintro _ s' ⟨e, rfl, rfl, hsubmissions⟩
    exact ⟨_, rfl, _, rfl, ⟨_, rfl⟩, hsubmissions⟩
  | RECONCILING =>
    refine ends_throws ?_
    refine (transitionMany_throws h (by simp) rfl).weaken ?_
    rintro _ s' ⟨e, rfl, rfl, hsubmissions⟩
    exact ⟨_, rfl, _, rfl, ⟨_, rfl⟩, hsubmissions⟩
  | SUBMITTED => cases hwritten
  | COMPLETED => cases hwritten
  | PARTIAL => cases hwritten
  | FAILED => cases hwritten

end

section Checked

variable {checks : CheckResults} {auditRef replayProtectionRef : ℕ}

section

variable (h : InState key subs .CREATED audit s)
  (happroved : checks.approvalResult.status = .APPROVED ∨ checks.approvalResult.status =
    .NOT_REQUIRED)

include h happroved

theorem approve_returns {f : AuditContext → ControlProgram ExecutionControlOutcome}
    {post : Except ControlError ExecutionControlOutcome → ControlState → Prop}
    (hf : ∀ audit s', InState key subs .APPROVED audit s' → Ends handle (f audit) s' post) :
    Ends handle (do
      let audit ← transitionMany audit [ ⟨.CHECKED, "execution_control_checks_passed", none, none⟩,
        ⟨.QUOTED, "execution_control_quote_bound", none, none⟩]
      let audit ← (if checks.approvalResult.status = .APPROVED ∨
          checks.approvalResult.status = .NOT_REQUIRED then
        transition audit .APPROVED "execution_control_approved" none
        else pure audit : ControlProgram AuditContext)
      f audit) s post := by
  refine ends_bind (transitionMany_returns h rfl ⟨_, rfl⟩) fun audit' s' h' => ?_
  rw [if_pos happroved]
  exact ends_bind (transitionMany_returns h' rfl ⟨_, rfl⟩) hf

/-- **A submission that is certain** is written down. -/
theorem submitChecked_returns (hhandler : config.handlers input.request.submissionKind = true)
    (hwritten : input.outcome.written = some final) :
    Returns handle (submitChecked config input checks audit auditRef replayProtectionRef) s
      fun _ s' => stateOf key s' = some final ∧ s'.submissions =
        subs ++ [⟨checks.idempotencyResult.idempotencyKey, some input.outcome⟩] := by
  refine approve_returns h happroved fun audit s' h' => ?_
  refine ends_attempt (submit_ends h' hhandler _) ?_
  rintro _ submitted ⟨rfl, h''⟩
  cases houtcome : input.outcome with
  | answered result =>
    rw [houtcome] at hwritten h''
    refine ends_bind (recordResult_returns h'' hwritten) fun audit recorded hrecorded => ?_
    exact ends_pure ⟨_, rfl, hrecorded.stored, hrecorded.submissions_eq⟩
  | thrown =>
    rw [houtcome] at hwritten
    cases hwritten

/-- **One that is not** makes `execute` throw. -/
theorem submitChecked_throws
    (hwritten : config.handlers input.request.submissionKind = false ∨ input.outcome.written =
      none) :
    Throws handle (submitChecked config input checks audit auditRef replayProtectionRef) s
      fun e s' => (∃ next, e = .invalidTransition (some .APPROVED) next) ∧
        s'.submissions = if config.handlers input.request.submissionKind then
          subs ++ [⟨checks.idempotencyResult.idempotencyKey, some input.outcome⟩]
        else subs := by
  refine approve_returns h happroved fun audit s' h' => ?_
  -- the way of a submission that has thrown, wherever that was
  have huncertain : ∀ {subs submitted}, InState key subs .APPROVED audit submitted →
      Throws handle (do
        let audit ← transition audit .SYNC_PENDING "execution_submission_uncertain"
          (some .sync_pending)
        recordRecovery audit (some true) none
        return (⟨.SYNC_PENDING, audit.intentId, audit.record.id, [.UNCERTAIN_SUBMISSION_STATE],
          auditRef, checks.idempotencyResult.idempotencyKey, replayProtectionRef⟩ :
            ExecutionControlOutcome)) submitted fun e s' =>
        (∃ next, e = .invalidTransition (some .APPROVED) next) ∧ s'.submissions = subs := by
    intro subs submitted h''
    refine ends_throws ((transitionMany_throws h'' (by simp) rfl).weaken ?_)
    rintro _ s' ⟨e, rfl, rfl, hsubmissions⟩
    exact ⟨_, rfl, _, rfl, ⟨_, rfl⟩, hsubmissions⟩
  cases hhandler : config.handlers input.request.submissionKind with
  | false =>
    refine ends_attempt (submit_missing h' hhandler _) ?_
    rintro _ submitted ⟨rfl, h''⟩
    exact huncertain h''
  | true =>
    refine ends_attempt (submit_ends h' hhandler _) ?_
    rintro _ submitted ⟨rfl, h''⟩
    cases houtcome : input.outcome with
    | answered result =>
      have hnone : writtenState result.status = none := by
        have hor := hwritten.resolve_left (by rw [hhandler]; exact Bool.noConfusion)
        rw [houtcome] at hor
        exact hor
      rw [houtcome] at h''
      refine ends_throws ((recordResult_throws h'' hnone).weaken ?_)
      rintro _ s' ⟨e, rfl, hinvalid, hsubmissions⟩
      exact ⟨_, rfl, _, rfl, hinvalid, hsubmissions⟩
    | thrown =>
      rw [houtcome] at h''
      exact huncertain h''

end

end Checked

/-! ## The whole call -/

/-- **Up to the decision**: everything is written, and the record is `CREATED`. -/
theorem execute_reaches (houtage : s.outage = false)
    {post : Except ControlError ExecutionControlOutcome → ControlState → Prop}
    (hdecide : ∀ audit auditRef replayProtectionRef s',
      InState (recordKeyOf input.request) s.submissions .CREATED audit s' →
        Ends handle (decideOutcome config input (checksIn config input s) audit auditRef
          replayProtectionRef) s' post) : Ends handle (execute config input) s post := by
  refine ends_bind (check_returns houtage) ?_
  rintro _ s₁ ⟨rfl, houtage₁, hsubmissions₁⟩
  refine ends_bind (initializeAudit_returns houtage₁ _ _) fun audit s₂ h => ?_
  rw [hsubmissions₁] at h
  refine ends_statement h.outage rfl (ends_statement h.outage rfl ?_)
  -- the replay record is there, or is written now
  refine ends_bind (M := fun _ s' =>
    InState (recordKeyOf input.request) s.submissions .CREATED audit s') ?_ ?_
  · split
    next => exact ends_pure ⟨_, rfl, h.key_eq, h.state_eq, h.stored, h.outage, h.submissions_eq⟩
    next =>
      refine Ends.weaken (statement_returns ?_ rfl) ?_
      · exact h.outage
      · rintro _ _ ⟨_, rfl, rfl, rfl⟩
        exact ⟨_, rfl, h.key_eq, h.state_eq, h.stored, h.outage, h.submissions_eq⟩
  · intro replayProtectionRef s₃ h₃
    refine ends_statement h₃.outage rfl (ends_statement h₃.outage rfl ?_)
    exact hdecide _ _ _ _ ⟨h₃.key_eq, h₃.state_eq, h₃.stored, h₃.outage, h₃.submissions_eq⟩

theorem execute_awaits (houtage : s.outage = false)
    (hawaits : (checksIn config input s).awaitsApproval = true) :
    Throws handle (execute config input) s fun e s' =>
      e = .invalidTransition (some .CREATED) .AWAITING_APPROVAL ∧
        s'.submissions = s.submissions := by
  refine execute_reaches houtage fun audit auditRef replayProtectionRef s' h => ?_
  rw [decideOutcome, if_pos hawaits]
  refine ends_throws ((transitionMany_throws h (by simp) rfl).weaken ?_)
  rintro _ s'' ⟨e, rfl, rfl, hsubmissions⟩
  exact ⟨_, rfl, _, rfl, rfl, hsubmissions⟩

theorem execute_blocked (houtage : s.outage = false)
    (hawaits : (checksIn config input s).awaitsApproval = false)
    (hblocked : (checksIn config input s).blocked = true) :
    Returns handle (execute config input) s fun outcome s' =>
      outcome.status = .BLOCKED ∧ s'.submissions = s.submissions := by
  refine execute_reaches houtage fun audit auditRef replayProtectionRef s' h => ?_
  rw [decideOutcome, hawaits, hblocked, if_neg Bool.false_ne_true, if_pos rfl]
  refine ends_bind (transitionMany_returns h rfl ⟨_, rfl⟩) fun audit' s'' h' => ?_
  exact ends_pure ⟨_, rfl, rfl, h'.submissions_eq⟩

theorem decideOutcome_passes (hawaits : (checksIn config input s).awaitsApproval = false)
    (hblocked : (checksIn config input s).blocked = false) (audit : AuditContext)
    (auditRef replayProtectionRef : ℕ) :
    decideOutcome config input (checksIn config input s) audit auditRef replayProtectionRef =
      submitChecked config input (checksIn config input s) audit auditRef replayProtectionRef := by
  rw [decideOutcome, hawaits, hblocked, if_neg Bool.false_ne_true, if_neg Bool.false_ne_true]

def submissionOf (config : GatewayConfig) (input : ExecuteCall) : Submission :=
  ⟨idempotencyKeyOf config.hashes input, some input.outcome⟩

section

variable (houtage : s.outage = false) (hawaits : (checksIn config input s).awaitsApproval = false)
  (hblocked : (checksIn config input s).blocked = false)

include houtage hawaits hblocked

theorem execute_returns (hhandler : config.handlers input.request.submissionKind = true)
    (hwritten : input.outcome.written = some final) :
    Returns handle (execute config input) s fun _ s' =>
      stateOf (recordKeyOf input.request) s' = some final ∧
        s'.submissions = s.submissions ++ [submissionOf config input] := by
  refine execute_reaches houtage fun audit auditRef replayProtectionRef s' h => ?_
  rw [decideOutcome_passes hawaits hblocked]
  exact submitChecked_returns h (approved_of_passes rfl hawaits hblocked) hhandler hwritten

theorem execute_throws
    (hwritten : config.handlers input.request.submissionKind = false ∨ input.outcome.written =
      none) :
    Throws handle (execute config input) s fun e s' =>
      (∃ next, e = .invalidTransition (some .APPROVED) next) ∧
        s'.submissions = if config.handlers input.request.submissionKind then
          s.submissions ++ [submissionOf config input] else s.submissions := by
  refine execute_reaches houtage fun audit auditRef replayProtectionRef s' h => ?_
  rw [decideOutcome_passes hawaits hblocked]
  exact submitChecked_throws h (approved_of_passes rfl hawaits hblocked) hwritten

end

def HandlerOutcome.reflected : HandlerOutcome → List ExecutionState
  | .answered result =>
    match result.status with
    | .SUBMITTED => [.EXECUTING]
    | .COMPLETED => [.FILLED, .SETTLED]
    | .PARTIAL => [.PARTIALLY_FILLED]
    | .FAILED => [.FAILED]
    | .SYNC_PENDING => [.SYNC_PENDING]
    | .RECONCILING => [.RECONCILING]
  | .thrown => [.SYNC_PENDING]

/-- `execute` returns, without a transition that the table does not have. -/
def Returned (result : Except ControlError ExecutionControlOutcome) : Prop :=
  (∀ current next, result ≠ .error (.invalidTransition current next)) ∧
    ∃ outcome, result = .ok outcome

/-- Once the handler has been entered, the record says how it ended. -/
def Recorded (input : ExecuteCall) (s s' : ControlState) : Prop :=
  s'.submissions ≠ s.submissions →
    ∃ state ∈ input.outcome.reflected, stateOf (recordKeyOf input.request) s' = some state

/-- The request does not await its approval, and where it passes its checks it is handed to a
handler that is there and ends as one of `outcomes`. -/
def Submits (config : GatewayConfig) (input : ExecuteCall) (s : ControlState)
    (outcomes : List SubmissionStatus) : Prop :=
  (checksIn config input s).awaitsApproval = false ∧
    ((checksIn config input s).blocked = false →
      config.handlers input.request.submissionKind = true ∧
        ∃ result, input.outcome = .answered result ∧ result.status ∈ outcomes)

instance (config : GatewayConfig) (input : ExecuteCall) (s : ControlState)
    (outcomes : List SubmissionStatus) : Decidable (Submits config input s outcomes) :=
  have : Decidable (∃ result, input.outcome = .answered result ∧ result.status ∈ outcomes) :=
    match input.outcome with
    | .answered result => decidable_of_iff (result.status ∈ outcomes)
        ⟨fun h => ⟨result, rfl, h⟩, fun ⟨_, heq, h⟩ => by cases heq; exact h⟩
    | .thrown => Decidable.isFalse fun ⟨_, heq, _⟩ => by cases heq
  inferInstanceAs (Decidable (_ ∧ _))

theorem returned_ok (outcome : ExecutionControlOutcome) : Returned (.ok outcome) := by
  refine ⟨fun _ _ heq => ?_, outcome, rfl⟩
  cases heq

theorem not_returned_error (e : ControlError) : ¬ Returned (.error e) := by
  rintro ⟨-, outcome, heq⟩
  cases heq

theorem submits_iff {outcomes : List SubmissionStatus}
    (hawaits : (checksIn config input s).awaitsApproval = false)
    (hblocked : (checksIn config input s).blocked = false) :
    Submits config input s outcomes ↔ config.handlers input.request.submissionKind = true ∧
      ∃ result, input.outcome = .answered result ∧ result.status ∈ outcomes :=
  ⟨fun h => h.2 hblocked, fun h => ⟨hawaits, fun _ => h⟩⟩

theorem written_reflected_iff (hwritten : writtenState result.status = some final) :
    final ∈ (HandlerOutcome.answered result).reflected ↔
      result.status ∈ [SubmissionStatus.COMPLETED, .PARTIAL, .FAILED] := by
  obtain ⟨status, duplicateRisk⟩ := result
  cases status <;> cases hwritten <;> simp [HandlerOutcome.reflected]

theorem written_isSome_iff : (∃ final, writtenState result.status = some final) ↔
      result.status ∈ [SubmissionStatus.SUBMITTED, .COMPLETED, .PARTIAL, .FAILED] := by
  obtain ⟨status, duplicateRisk⟩ := result
  cases status <;> simp [writtenState]

/-- **When `execute` returns**, and when the record says besides how the handler ended. -/
theorem execute_kept_iff (config : GatewayConfig) (input : ExecuteCall) {s : ControlState}
    (houtage : s.outage = false) : Ends handle (execute config input) s fun result s' =>
      (Returned result ↔ Submits config input s [.SUBMITTED, .COMPLETED, .PARTIAL, .FAILED]) ∧
      (Returned result ∧ Recorded input s s' ↔
        Submits config input s [.COMPLETED, .PARTIAL, .FAILED]) := by
  cases hawaits : (checksIn config input s).awaitsApproval with
  | true =>
    have hnot : ∀ outcomes, ¬ Submits config input s outcomes := by
      intro outcomes h
      rw [h.1] at hawaits
      cases hawaits
    refine (execute_awaits houtage hawaits).weaken ?_
    rintro _ s' ⟨e, rfl, -, -⟩
    exact ⟨iff_of_false (not_returned_error e) (hnot _),
      iff_of_false (fun h => not_returned_error e h.1) (hnot _)⟩
  | false =>
    cases hblocked : (checksIn config input s).blocked with
    | true =>
      have hsubmits : ∀ outcomes, Submits config input s outcomes := by
        refine fun outcomes => ⟨hawaits, fun hpasses => ?_⟩
        rw [hpasses] at hblocked
        cases hblocked
      refine (execute_blocked houtage hawaits hblocked).weaken ?_
      rintro _ s' ⟨outcome, rfl, -, hsubmissions⟩
      exact ⟨iff_of_true (returned_ok _) (hsubmits _),
        iff_of_true ⟨returned_ok _, fun hne => absurd hsubmissions hne⟩ (hsubmits _)⟩
    | false =>
      rw [submits_iff hawaits hblocked, submits_iff hawaits hblocked]
      by_cases hcertain : config.handlers input.request.submissionKind = true ∧
          ∃ final, input.outcome.written = some final
      · obtain ⟨hhandler, final, hwritten⟩ := hcertain
        refine (execute_returns houtage hawaits hblocked hhandler hwritten).weaken ?_
        rintro _ s' ⟨outcome, rfl, hstate, hsubmissions⟩
        have hentered : s'.submissions ≠ s.submissions := by
          intro heq
          have hlength := congrArg List.length (hsubmissions.symm.trans heq)
          rw [List.length_append, List.length_singleton] at hlength
          omega
        cases houtcome : input.outcome with
        | thrown =>
          rw [houtcome] at hwritten
          cases hwritten
        | answered result =>
          rw [houtcome] at hwritten
          refine ⟨iff_of_true (returned_ok _)
            ⟨hhandler, result, rfl, written_isSome_iff.mp ⟨final, hwritten⟩⟩, ?_⟩
          have hrecorded : Recorded input s s' ↔
              final ∈ (HandlerOutcome.answered result).reflected := by
            rw [Recorded, houtcome, hstate]
            constructor
            · intro h
              obtain ⟨state, hmem, heq⟩ := h hentered
              rw [Option.some.inj heq]
              exact hmem
            · exact fun hmem _ => ⟨final, hmem, rfl⟩
          rw [hrecorded, written_reflected_iff hwritten]
          constructor
          · exact fun h => ⟨hhandler, result, rfl, h.2⟩
          · rintro ⟨-, result', heq, hmem⟩
            cases heq
            exact ⟨returned_ok _, hmem⟩
      · have hwritten : config.handlers input.request.submissionKind = false ∨
            input.outcome.written = none := by
          cases hhandler : config.handlers input.request.submissionKind with
          | false => exact .inl rfl
          | true =>
            refine .inr (Option.eq_none_iff_forall_ne_some.mpr fun final heq => ?_)
            exact hcertain ⟨hhandler, final, heq⟩
        have hnot : ¬ (config.handlers input.request.submissionKind = true ∧
            ∃ result, input.outcome = .answered result ∧
              result.status ∈ [SubmissionStatus.SUBMITTED, .COMPLETED, .PARTIAL, .FAILED]) := by
          rintro ⟨hhandler, result, houtcome, hmem⟩
          obtain ⟨final, hfinal⟩ := written_isSome_iff.mpr hmem
          exact hcertain ⟨hhandler, final, by rw [houtcome]; exact hfinal⟩
        refine (execute_throws houtage hawaits hblocked hwritten).weaken ?_
        rintro _ s' ⟨e, rfl, -, -⟩
        refine ⟨iff_of_false (not_returned_error e) hnot,
          iff_of_false (fun h => not_returned_error e h.1) fun h => hnot ?_⟩
        obtain ⟨hhandler, result, houtcome, hmem⟩ := h
        exact ⟨hhandler, result, houtcome, List.mem_cons_of_mem _ hmem⟩

/-! ### A call that passes its checks -/

def emptyTables : ControlState := ⟨false, [], [], [], [], [], [], [], 0⟩

def soundRequest : ExecutionControlRequest where
  routePlanId := some "plan-1"
  canonicalEventId := none
  canonicalExecutableMarketId := "market-1"
  venueTargets := ["LIMITLESS"]
  userWalletReference := ⟨"user-1", none⟩
  requestedSize := some "10"
  requestedNotional := none
  configVersion := "1"
  engineVersion := "1"
  routeFreshnessMetadata := ⟨0, none, none, none, none, none, 1000, none, none, none, none⟩
  approvalRequirements := ⟨false, none, none, none, none⟩
  idempotencyKey := some "key-1"
  routeType := "SOR_PLAN"
  submissionKind := .SOR_PLAN
  executionScopeBinding := none
  policyContext := ⟨true, true, true, true, false, true, true, true⟩

/-- Hashes that tell principals apart, and the handlers of the server. -/
def serverConfig : GatewayConfig where
  hashes := ⟨fun binding => binding.principalId, fun binding => binding.userWalletReference.principalId,
    fun binding => binding.principalId⟩
  handlers := fun kind => kind ∈ [ExecutionSubmissionKind.INTERNAL_CROSS, .SOR_PLAN, .LEGACY_RFQ]

def callEnding (outcome : HandlerOutcome) : ExecuteCall := ⟨soundRequest, "uuid-1", 10, outcome⟩

/-- The submission is uncertain, `execute` throws, and the record is still `APPROVED`. -/
theorem execute_uncertain :
    (alone handle (execute serverConfig (callEnding (.answered ⟨.SYNC_PENDING, none⟩)))
        emptyTables).1 = .error (.invalidTransition (some .APPROVED) .SYNC_PENDING) ∧
      (alone handle (execute serverConfig (callEnding (.answered ⟨.SYNC_PENDING, none⟩)))
        emptyTables).2.submissions.length = 1 ∧
      stateOf (recordKeyOf soundRequest)
        (alone handle (execute serverConfig (callEnding (.answered ⟨.SYNC_PENDING, none⟩)))
          emptyTables).2 = some .APPROVED := by
  decide +kernel

theorem execute_kept_completed :
    Ends handle (execute serverConfig (callEnding (.answered ⟨.COMPLETED, none⟩))) emptyTables
      fun result s' => emptyTables.outage = false ∧ Returned result ∧
        Recorded (callEnding (.answered ⟨.COMPLETED, none⟩)) emptyTables s' := by
  refine (execute_kept_iff serverConfig (callEnding (.answered ⟨.COMPLETED, none⟩))
    (s := emptyTables) rfl).weaken ?_
  rintro result s' ⟨-, hkept⟩
  exact ⟨rfl, hkept.mpr (by decide +kernel)⟩

end LotusRfq.Control
