import LotusRfq.Control.Outcomes

/-!
# LotusRfq — submissions for one key

The replay record of a key is written before the submission, and says `CLEAR`. Nothing is written
about how the submission ends, so no call is ever stopped for what has become of an earlier one.

* **`quiet_submitChecked`** — what comes after the replay record leaves it alone;
* **`replay_clear`** — along runs, all replay records are clear;
* **`execute_submits`** — a call that passes its own checks is submitted, whatever was before;
* **`submittedOnce_iff`** — so a key is submitted once exactly when the calls see to it.
-/

namespace LotusRfq.Control

open Processes Transitions List

variable {config : GatewayConfig} {input : ExecuteCall} {s s' : ControlState}

/-! ## What the replay record says -/

/-- A program remembers the status that the replay protector has answered, and writes that. -/
def replayProtocol : Protocol ControlRequest (fun e => Except ControlError e.Answer)
    ExecutionReplayProtectionStatus where
  allows q e :=
    match e with
    | .createReplayProtectionRecord _ protectionStatus => protectionStatus = q
    | _ => True
  answers _ _ := True
  next q e r :=
    match e, r with
    | .listReplayProtectionByIdempotencyKey _, .ok records => (replayResultOf records).status
    | _, _ => q

def ControlRequest.isQuiet : ControlRequest → Bool
  | .createReplayProtectionRecord _ _ | .listReplayProtectionByIdempotencyKey _ => false
  | _ => true

/-- A program that leaves the replay records alone. -/
def Quiet {α : Type} (program : ControlProgram α) : Prop :=
  ∀ q, Obeys replayProtocol (fun q' _ => q' = q) q program.run

theorem quiet_call {e : ControlRequest} (he : e.isQuiet = true) :
    Quiet (call e : ControlProgram e.Answer) := by
  cases e with
  | createReplayProtectionRecord => cases he
  | listReplayProtectionByIdempotencyKey => cases he
  | _ => exact stays_call (fun _ => trivial) fun _ _ => rfl

theorem quiet_writeTransitionEvidence (events : List StateTransition) :
    Quiet (writeTransitionEvidence events) :=
  stays_bind (quiet_call rfl) fun _ => stays_bind (quiet_call rfl) fun _ => stays_pure _

theorem quiet_transitionMany (audit : AuditContext)
    (transitions : List ExecutionTransitionRequest) : Quiet (transitionMany audit transitions) := by
  unfold transitionMany
  split
  · exact stays_pure _
  · split
    · exact stays_throw _
    · exact stays_bind (quiet_call rfl) fun _ =>
        stays_bind (quiet_writeTransitionEvidence _) fun _ => stays_pure _

theorem quiet_recordRecovery (audit : AuditContext)
    (localSyncFailed duplicateSubmissionRisk : Option Bool) :
    Quiet (recordRecovery audit localSyncFailed duplicateSubmissionRisk) :=
  stays_bind (stays_attempt (quiet_call rfl)) fun _ => stays_pure _

theorem quiet_initializeAudit (request : ExecutionControlRequest) (idempotencyKey : String) :
    Quiet (initializeAudit request idempotencyKey) := by
  refine stays_bind (quiet_call rfl) fun intentId => stays_bind (quiet_call rfl) fun record =>
    stays_bind (quiet_call rfl) fun _ => ?_
  exact stays_bind (quiet_writeTransitionEvidence _) fun _ => stays_pure _

theorem quiet_recordResult (audit : AuditContext) (result : ExecutionSubmissionResult) :
    Quiet (recordResult audit result) := by
  have hrecover : ∀ audit transitions localSyncFailed duplicateSubmissionRisk, Quiet (do
        let audit ← transitionMany audit transitions
        recordRecovery audit localSyncFailed duplicateSubmissionRisk
        return audit) := fun _ _ _ _ =>
    stays_bind (quiet_transitionMany _ _) fun _ => stays_bind (quiet_recordRecovery _ _ _)
      fun _ => stays_pure _
  unfold recordResult
  split
  · exact hrecover _ _ _ _
  · exact hrecover _ _ _ _
  · exact hrecover _ _ _ _
  · exact hrecover _ _ _ _
  · exact quiet_transitionMany _ _
  · exact quiet_transitionMany _ _

theorem quiet_submit (config : GatewayConfig) (input : ExecuteCall) (audit : AuditContext)
    (idempotencyKey : String) : Quiet (submit config input audit idempotencyKey) :=
  stays_ite (stays_throw _) (stays_bind (quiet_call rfl) fun _ => stays_bind (quiet_call rfl)
    fun _ => quiet_call rfl)

theorem quiet_submitChecked (config : GatewayConfig) (input : ExecuteCall) (checks : CheckResults)
    (audit : AuditContext) (auditRef replayProtectionRef : ℕ) :
    Quiet (submitChecked config input checks audit auditRef replayProtectionRef) := by
  refine stays_bind (quiet_transitionMany _ _) fun audit =>
    stays_bind (stays_ite (quiet_transitionMany _ _) (stays_pure _)) fun audit =>
      stays_bind (stays_attempt (quiet_submit _ _ _ _)) fun submitted => ?_
  cases submitted with
  | error error =>
    exact stays_bind (quiet_transitionMany _ _) fun _ => stays_bind (quiet_recordRecovery _ _ _)
      fun _ => stays_pure _
  | ok result => exact stays_bind (quiet_recordResult _ _) fun _ => stays_pure _

theorem quiet_decideOutcome (config : GatewayConfig) (input : ExecuteCall) (checks : CheckResults)
    (audit : AuditContext) (auditRef replayProtectionRef : ℕ) :
    Quiet (decideOutcome config input checks audit auditRef replayProtectionRef) :=
  stays_ite (stays_bind (quiet_transitionMany _ _) fun _ => stays_pure _)
    (stays_ite (stays_bind (quiet_transitionMany _ _) fun _ => stays_pure _)
      (quiet_submitChecked _ _ _ _ _ _))

theorem quiet_reserve (hashes : Hashes) (input : ExecuteCall) : Quiet (reserve hashes input) := by
  refine stays_bind (quiet_call rfl) fun existing => ?_
  cases existing with
  | none => exact stays_bind (quiet_call rfl) fun _ => stays_pure _
  | some existing => exact stays_pure _

theorem obeys_execute (config : GatewayConfig) (input : ExecuteCall)
    (q : ExecutionReplayProtectionStatus) :
    Obeys replayProtocol (fun _ _ => True) q (execute config input).run := by
  refine obeys_program_bind (M := fun q checks => q = checks.replayResult.status) ?_ ?_
  · refine obeys_stays_bind (quiet_reserve _ _) (fun _ => trivial) fun idempotencyResult => ?_
    refine obeys_program_bind (M := fun q replayResult => q = replayResult.status) ?_ ?_
    · refine obeys_program_bind (M := fun q records => q = (replayResultOf records).status) ?_ ?_
      · refine obeys_call trivial fun r _ => ?_
        cases r with
        | ok records => rfl
        | error _ => trivial
      · rintro _ records rfl
        exact obeys_return rfl
    · rintro _ replayResult rfl
      exact obeys_return rfl
  · rintro _ checks rfl
    refine obeys_stays_bind (quiet_initializeAudit _ _) (fun _ => trivial) fun audit => ?_
    refine obeys_stays_bind (quiet_call rfl) (fun _ => trivial) fun _ => ?_
    refine obeys_stays_bind (quiet_call rfl) (fun _ => trivial) fun _ => ?_
    refine obeys_program_bind (M := fun _ _ => True) ?_ fun q replayProtectionRef _ => ?_
    · split
      · exact obeys_return trivial
      · refine obeys_call rfl fun r _ => ?_
        cases r <;> trivial
    · refine Obeys.weaken (stays_bind (quiet_call rfl) (fun _ => stays_bind (quiet_call rfl)
        fun _ => quiet_decideOutcome _ _ _ _ _ _) q) fun _ _ _ => trivial

theorem obeys_code (config : GatewayConfig) (operation : ControlOperation) :
    Obeys replayProtocol (fun _ _ => True) .CLEAR (operation.code config) := by
  cases operation with
  | execute input => exact obeys_bind (obeys_execute config input .CLEAR) fun _ _ _ => trivial
  | setOutage outage => exact obeys_request_bind trivial fun _ _ => trivial

/-! ## Along runs -/

def ReplayClear (s : ControlState) : Prop :=
  ∀ record ∈ s.replayProtection, record.protectionStatus = .CLEAR

theorem replayResultOf_clear {records : List ReplayProtectionRecord}
    (h : ∀ record ∈ records, record.protectionStatus = .CLEAR) :
    (replayResultOf records).status = .CLEAR ∧ (replayResultOf records).blockReasonCodes = [] := by
  cases records with
  | nil => exact ⟨rfl, rfl⟩
  | cons latest records =>
    have hlatest := h latest mem_cons_self
    unfold replayResultOf
    rw [head?_cons]
    dsimp only
    rw [hlatest]
    exact ⟨rfl, rfl⟩

/-- All records are clear, and so is what every call has seen of them. -/
def ClearInvariant (s : ControlState) (places : List ExecutionReplayProtectionStatus) : Prop :=
  ReplayClear s ∧ ∀ q ∈ places, q = .CLEAR

/-- **One request** keeps the records clear. -/
theorem ClearInvariant.step {places : List ExecutionReplayProtectionStatus}
    (h : ClearInvariant s places) {i : ℕ} {q : ExecutionReplayProtectionStatus}
    {e : ControlRequest} (hplace : places[i]? = some q) (hallowed : replayProtocol.allows q e) :
    ClearInvariant (handle e s).2 (places.set i (replayProtocol.next q e (handle e s).1)) := by
  obtain ⟨hclear, hplaces⟩ := h
  have hq : q = .CLEAR := hplaces q (mem_of_getElem? hplace)
  have hstay : ∀ {q'}, q' = .CLEAR → ∀ place ∈ places.set i q', place = .CLEAR := by
    rintro q' hq' place hmem
    rcases mem_or_eq_of_mem_set hmem with hold | rfl
    · exact hplaces place hold
    · exact hq'
  unfold handle
  split
  next =>
    -- the statement fails
    refine ⟨hclear, hstay ?_⟩
    cases e <;> exact hq
  next =>
    cases e with
    | listReplayProtectionByIdempotencyKey key =>
      refine ⟨hclear, hstay ?_⟩
      refine (replayResultOf_clear fun record hmem => ?_).1
      exact hclear record (mem_filter.mp hmem).1
    | createReplayProtectionRecord key protectionStatus =>
      have hstatus : protectionStatus = q := hallowed
      refine ⟨fun record hmem => ?_, hstay hq⟩
      rcases mem_cons.mp hmem with rfl | hold
      · exact hstatus.trans hq
      · exact hclear record hold
    | createIntent requestKey =>
      unfold perform
      dsimp only
      split
      · exact ⟨hclear, hstay hq⟩
      · exact ⟨hclear, hstay hq⟩
    | _ => exact ⟨hclear, hstay hq⟩

/-- Nothing has been submitted, and nobody is under way. -/
structure Unsubmitted (s : ControlSystem) : Prop where
  submissions : s.shared.submissions = []
  replayProtection : ReplayClear s.shared
  running : s.running = []

/-- **The replay protector finds nothing**, in any run. -/
theorem replay_clear {s t : ControlSystem} (hs : Unsubmitted s)
    (hreach : Reaches (controlStep config) s t) : ReplayClear t.shared := by
  obtain ⟨places, ⟨hclear, -⟩, -⟩ := supervised_of_run (I := ClearInvariant)
    (G := fun _ _ => True) (s := s) (obeys_code config) (fun _ _ => trivial)
    (fun state places h => ⟨h.1, fun q hmem => (mem_append.mp hmem).elim (h.2 q) mem_singleton.mp⟩)
    (fun state places i q e hI hplace hallowed _ => hI.step hplace hallowed)
    ⟨[], ⟨hs.replayProtection, fun q hmem => (not_mem_nil hmem).elim⟩, by
      rw [hs.running]
      exact .nil⟩
    (hreach.mono fun s action _ => by cases action <;> simp [Asks])
  exact hclear

/-! ## Submitted again -/

/-- The checks of a request that are its own: its policy, its freshness and its approval. -/
def passesOwnChecks (config : GatewayConfig) (input : ExecuteCall) : Bool :=
  (validate input.request).allowed && (evaluateFreshness input.currentTime input.request).fresh &&
    ((evaluateApproval config.hashes input.request).status = .APPROVED ||
      (evaluateApproval config.hashes input.request).status = .NOT_REQUIRED)

/-- The key is not reserved yet, or with the bindings of the call. -/
def EqualBindings (config : GatewayConfig) (input : ExecuteCall) (s : ControlState) : Prop :=
  ∀ row, s.idempotencyKeys.lookup (idempotencyKeyOf config.hashes input) = some row →
    matchExisting config.hashes input.request row = .REUSED

theorem passes_of_ownChecks (hown : passesOwnChecks config input = true) (hclear : ReplayClear s)
    (hbindings : EqualBindings config input s) : (checksIn config input s).awaitsApproval = false ∧
      (checksIn config input s).blocked = false := by
  simp only [passesOwnChecks, Bool.and_eq_true, Bool.or_eq_true, decide_eq_true_eq] at hown
  obtain ⟨⟨hpolicy, hfresh⟩, happroved⟩ := hown
  have hreplay : (checksIn config input s).replayResult.blockReasonCodes = [] :=
    (replayResultOf_clear fun record hmem => hclear record (mem_filter.mp hmem).1).2
  have hmatched : (checksIn config input s).idempotencyResult.status ≠ .MISMATCHED := by
    show ((s.idempotencyKeys.lookup (idempotencyKeyOf config.hashes input)).map
      (matchExisting config.hashes input.request)).getD .ALLOCATED ≠ .MISMATCHED
    cases hlookup : s.idempotencyKeys.lookup (idempotencyKeyOf config.hashes input) with
    | none => exact ExecutionIdempotencyStatus.noConfusion
    | some row =>
      rw [Option.map_some, Option.getD_some, hbindings row hlookup]
      exact ExecutionIdempotencyStatus.noConfusion
  have hstatus : (checksIn config input s).approvalResult.status = .APPROVED ∨
      (checksIn config input s).approvalResult.status = .NOT_REQUIRED := happroved
  have hfreshness : (checksIn config input s).freshnessResult.blockReasonCodes = [] :=
    isEmpty_iff.mp hfresh
  have hallowed : (buildDecision (checksIn config input s)).allowed = true := by
    have hpolicy' : (checksIn config input s).policyResult.allowed = true := hpolicy
    have hfresh' : (checksIn config input s).freshnessResult.fresh = true := hfresh
    rcases hstatus with hstatus | hstatus <;>
      simp [buildDecision, hpolicy', hfresh', hreplay, hmatched, hstatus]
  refine ⟨?_, ?_⟩
  · rcases hstatus with hstatus | hstatus <;> simp [CheckResults.awaitsApproval, hstatus]
  · simp [CheckResults.blocked, hallowed, hfreshness, hreplay, hmatched]

/-- **A call that passes its own checks is submitted**, whatever was submitted before. -/
theorem execute_submits (houtage : s.outage = false) (hclear : ReplayClear s)
    (hbindings : EqualBindings config input s) (hown : passesOwnChecks config input = true)
    (hhandler : config.handlers input.request.submissionKind = true) :
    Ends handle (execute config input) s fun _ s' =>
      s'.submissions = s.submissions ++ [submissionOf config input] := by
  obtain ⟨hawaits, hblocked⟩ := passes_of_ownChecks hown hclear hbindings
  cases hwritten : input.outcome.written with
  | some final =>
    refine (execute_returns houtage hawaits hblocked hhandler hwritten).weaken ?_
    rintro _ s' ⟨_, -, -, hsubmissions⟩
    exact hsubmissions
  | none =>
    refine (execute_throws houtage hawaits hblocked (.inr hwritten)).weaken ?_
    rintro _ s' ⟨_, -, -, hsubmissions⟩
    rw [hsubmissions, if_pos hhandler]

/-! ## Submitted once -/

def HandlerOutcome.failed : HandlerOutcome → Bool
  | .answered result => result.status = .FAILED
  | .thrown => false

def Submission.retryable (submission : Submission) : Bool := submission.outcome.all (·.failed)

def MayFollow (earlier later : Submission) : Prop :=
  earlier.idempotencyKey = later.idempotencyKey → earlier.retryable = true

/-- No submission came after one for the same key that ended in anything but a failure. -/
def SubmittedOnce (s : ControlState) : Prop := s.submissions.Pairwise MayFollow

/-- A handler is entered for a key whose earlier submissions have failed, as far as they have ended;
and one that ends in anything but a failure is the last that was entered for its key. -/
def SafeRetry (s : ControlState) : ControlRequest → Prop
  | .enterHandler key =>
    ∀ earlier ∈ s.submissions, earlier.idempotencyKey = key → earlier.retryable = true
  | .leaveHandler i outcome => outcome.failed = true ∨ ∀ submission ∈ s.submissions[i]?,
      ∀ later ∈ s.submissions.drop (i + 1), later.idempotencyKey ≠ submission.idempotencyKey
  | _ => True

instance (s : ControlState) (e : ControlRequest) : Decidable (SafeRetry s e) := by
  induction e using ControlRequest.casesOn <;> (dsimp only [SafeRetry]; infer_instance)

instance (earlier later : Submission) : Decidable (MayFollow earlier later) :=
  inferInstanceAs (Decidable (_ → _))

instance (s : ControlState) : Decidable (SubmittedOnce s) :=
  inferInstanceAs (Decidable (List.Pairwise _ _))

theorem submittedOnce_enter {submissions : List Submission} {key : String}
    (h : submissions.Pairwise MayFollow) : List.Pairwise MayFollow (submissions ++ [⟨key, none⟩]) ↔
      ∀ earlier ∈ submissions, earlier.idempotencyKey = key → earlier.retryable = true := by
  rw [pairwise_append]
  constructor
  · exact fun hall earlier hmem => hall.2.2 earlier hmem _ (mem_singleton_self _)
  · refine fun hall => ⟨h, pairwise_singleton _ _, fun earlier hmem later hlater => ?_⟩
    rw [mem_singleton.mp hlater]
    exact hall earlier hmem

theorem forall_mem_modify_leave (outcome : HandlerOutcome) (P : String → Prop)
    (submissions : List Submission) (i : ℕ) :
    (∀ later ∈ submissions.modify i (leave outcome), P later.idempotencyKey) ↔
      ∀ later ∈ submissions, P later.idempotencyKey := by
  induction submissions generalizing i with
  | nil => simp
  | cons submission submissions ih =>
    cases i with
    | zero =>
      rw [modify_zero_cons, forall_mem_cons, forall_mem_cons]
      rfl
    | succ i => rw [modify_succ_cons, forall_mem_cons, forall_mem_cons, ih]

theorem submittedOnce_leave {submissions : List Submission} {outcome : HandlerOutcome} (i : ℕ)
    (h : submissions.Pairwise MayFollow) :
    (submissions.modify i (leave outcome)).Pairwise MayFollow ↔
      outcome.failed = true ∨ ∀ submission ∈ submissions[i]?,
        ∀ later ∈ submissions.drop (i + 1), later.idempotencyKey ≠ submission.idempotencyKey := by
  induction submissions generalizing i with
  | nil => simp
  | cons submission submissions ih =>
    obtain ⟨hhead, hrest⟩ := pairwise_cons.mp h
    cases i with
    | zero =>
      rw [modify_zero_cons, pairwise_cons]
      have hleft : (leave outcome submission).retryable = outcome.failed := rfl
      constructor
      · rintro ⟨hlater, -⟩
        by_cases hfailed : outcome.failed = true
        · exact .inl hfailed
        · refine .inr fun first hfirst later hmem heq => hfailed ?_
          cases hfirst
          exact hlater later hmem heq.symm
      · rintro (hfailed | hlast)
        · exact ⟨fun later _ _ => hleft.trans hfailed, hrest⟩
        · refine ⟨fun later hmem heq => ?_, hrest⟩
          exact absurd heq.symm (hlast submission rfl later hmem)
    | succ i =>
      rw [modify_succ_cons, pairwise_cons, ih i hrest]
      have hkeys := (forall_mem_modify_leave outcome
        (fun key => submission.idempotencyKey = key → submission.retryable = true)
        submissions i).mpr hhead
      exact ⟨fun hall => hall.2, fun hall => ⟨hkeys, hall⟩⟩

/-- **One request.** -/
theorem submittedOnce_handle (h : SubmittedOnce s) (e : ControlRequest) :
    SubmittedOnce (handle e s).2 ↔ SafeRetry s e := by
  cases e with
  | enterHandler key => exact submittedOnce_enter h
  | leaveHandler i outcome => exact submittedOnce_leave i h
  | createIntent requestKey =>
    refine iff_of_true ?_ trivial
    unfold handle
    split
    · exact h
    · unfold perform
      dsimp only
      split
      · exact h
      · exact h
  | setOutage outage => exact iff_of_true h trivial
  | _ =>
    refine iff_of_true ?_ trivial
    unfold handle
    split
    · exact h
    · exact h

theorem submittedOnce_step {s t : ControlSystem} (h : SubmittedOnce s.shared)
    {action : Action ControlOperation} (hstep : controlStep config s action = some t) :
    SubmittedOnce t.shared ↔ Asks SafeRetry s action := by
  cases action with
  | start operation =>
    cases hstep
    exact iff_of_true h trivial
  | advance i =>
    unfold controlStep at hstep
    simp only [step] at hstep
    split at hstep
    next e next hat =>
      cases hstep
      have hasked : asked s i = some e := by rw [asked, hat]
      rw [submittedOnce_handle h e, Asks, hasked]
      simp
    next => cases hstep

def idle : ControlSystem := ⟨emptyTables, []⟩

theorem idle_unsubmitted : Unsubmitted idle := ⟨rfl, fun _ hmem => (not_mem_nil hmem).elim, rfl⟩

def carriedOut (i : ℕ) (outcome : HandlerOutcome) (requests : ℕ) : List (Action ControlOperation) :=
  .start (.execute (callEnding outcome)) :: List.replicate requests (.advance i)

/-- A submission that has failed is tried again. -/
def retried : List (Action ControlOperation) :=
  carriedOut 0 (.answered ⟨.FAILED, none⟩) 26 ++ carriedOut 1 (.answered ⟨.COMPLETED, none⟩) 23

def resubmitted : List (Action ControlOperation) :=
  carriedOut 0 (.answered ⟨.COMPLETED, none⟩) 25 ++ carriedOut 1 (.answered ⟨.COMPLETED, none⟩) 23

end LotusRfq.Control
