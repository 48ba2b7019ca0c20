import LotusRfq.Control.Outcomes

/-!
# LotusRfq — a key that is used again with other bindings

A mismatch is found first and blocks the request last. In between the record is upserted, and the
row of the key and the approval state of its intent are written over.

* **`mismatched_writes`** — what a mismatched call writes;
* **`mismatched_inert_iff`** — when that leaves what belongs to the key as it was.
-/

namespace LotusRfq.Control.Mismatched

open Processes

variable {config : GatewayConfig} {input : ExecuteCall} {s s' : ControlState} {audit : AuditContext}

/-! ## What belongs to a key -/

/-- The rows of `execution_approval_states`, as they were written. -/
def approvalStates (rows : List ControlRow) : List (ℕ × ApprovalState) :=
  rows.filterMap fun row => match row with
    | .approvalState intentId state => some (intentId, state)
    | _ => none

/-- The approval state of an intent: `ON CONFLICT (execution_intent_id) DO UPDATE`. -/
def storedApproval (s : ControlState) (intentId : ℕ) : Option ApprovalState :=
  (approvalStates s.rows).reverse.lookup intentId

/-- What belongs to the key is as it was: its row, its intent, the approval state of the intent and
the records of the intent; and nothing has been submitted. -/
structure Inert (key : String) (s s' : ControlState) : Prop where
  submissions : s'.submissions = s.submissions
  idempotencyKey : s'.idempotencyKeys.lookup key = s.idempotencyKeys.lookup key
  intent : s'.intents.lookup key = s.intents.lookup key
  approvalState : ∀ intentId, s.intents.lookup key = some intentId →
    storedApproval s' intentId = storedApproval s intentId
  records : ∀ intentId, s.intents.lookup key = some intentId → ∀ recordKey record,
    s.records.lookup recordKey = some record → record.executionIntentId = intentId →
      s'.records.lookup recordKey = some record

/-! ## What is looked at -/

/-- The tables that the claims about keys are about. -/
structure Watched where
  outage : Bool
  idempotencyKeys : List (String × IdempotencyKeyRow)
  intents : List (String × ℕ)
  records : List (RecordKey × ExecutionRecord)
  approvalStates : List (ℕ × ApprovalState)
  submissions : List Submission

def watched (s : ControlState) : Watched where
  outage := s.outage
  idempotencyKeys := s.idempotencyKeys
  intents := s.intents
  records := s.records
  approvalStates := approvalStates s.rows
  submissions := s.submissions

/-- Statements that leave these tables. -/
def isUnwatched : ControlRequest → Bool
  | .insert (.approvalState _ _) => false
  | .insert _ | .appendStateTransitions _ | .createReplayProtectionRecord _ _ => true
  | _ => false

theorem approvalStates_append (rows : List ControlRow) (row : ControlRow) :
    approvalStates (rows ++ [row]) = approvalStates rows ++ approvalStates [row] :=
  List.filterMap_append

theorem ends_unwatched {β : Type} {e : ControlRequest} {f : e.Answer → ControlProgram β}
    {post : Except ControlError β → ControlState → Prop} (houtage : (watched s).outage = false)
    (he : isUnwatched e = true) (hf : ∀ a s', watched s' = watched s → Ends handle (f a) s' post) :
    Ends handle (call e >>= f) s post := by
  have hrow : ∀ row, approvalStates [row] = [] → watched (perform (.insert row) s).2 = watched s := by
    intro row hnone
    show Watched.mk _ _ _ _ (approvalStates (s.rows ++ [row])) _ = _
    rw [approvalStates_append, hnone, List.append_nil]
    rfl
  cases e with
  | insert row =>
    refine ends_statement houtage rfl (hf _ _ (hrow row ?_))
    cases row with
    | approvalState => cases he
    | _ => rfl
  | appendStateTransitions transitions => exact ends_statement houtage rfl (hf _ _ rfl)
  | createReplayProtectionRecord key status => exact ends_statement houtage rfl (hf _ _ rfl)
  | _ => cases he

theorem writeTransitionEvidence_watched (houtage : (watched s).outage = false)
    (events : List StateTransition) :
    Returns handle (writeTransitionEvidence events) s fun _ s' => watched s' = watched s := by
  refine ends_unwatched houtage rfl fun _ s₁ h₁ => ?_
  refine ends_unwatched (by rw [h₁]; exact houtage) rfl fun _ s₂ h₂ => ?_
  exact ends_pure ⟨_, rfl, h₂.trans h₁⟩

/-! ## A mismatched call -/

structure Mismatches (config : GatewayConfig) (input : ExecuteCall) (row : IdempotencyKeyRow)
    (s : ControlState) : Prop where
  stored : s.idempotencyKeys.lookup (idempotencyKeyOf config.hashes input) = some row
  mismatched : matchExisting config.hashes input.request row = .MISMATCHED

variable {row : IdempotencyKeyRow} {intentId : ℕ} {record : ExecutionRecord}

theorem check_reads (houtage : s.outage = false) (hrow : Mismatches config input row s) :
    Returns handle (check config input) s fun checks s' =>
      checks = checksIn config input s ∧ s' = s := by
  refine ends_bind (M := fun result s' =>
    result = (checksIn config input s).idempotencyResult ∧ s' = s) ?_ ?_
  · refine ends_statement houtage rfl ?_
    rw [hrow.stored]
    refine ends_pure ⟨_, rfl, ?_, rfl⟩
    rw [checksIn, hrow.stored]
    rfl
  · rintro result s' ⟨hresult, hs'⟩
    rw [hresult, hs']
    exact ends_bind (M := fun replay s'' =>
      replay = (checksIn config input s).replayResult ∧ s'' = s)
      (ends_statement houtage rfl (ends_pure ⟨_, rfl, rfl, rfl⟩))
      fun replay s'' hread => ends_pure ⟨_, rfl, by rw [hread.1]; rfl, hread.2⟩

theorem checksIn_mismatched (hrow : Mismatches config input row s) :
    (checksIn config input s).idempotencyResult.status = .MISMATCHED := by
  show ((s.idempotencyKeys.lookup _).map _).getD _ = _
  rw [hrow.stored]
  exact hrow.mismatched

theorem blocked_of_mismatched (hrow : Mismatches config input row s) :
    (checksIn config input s).blocked = true := by
  unfold CheckResults.blocked
  rw [checksIn_mismatched hrow, decide_eq_true rfl, Bool.or_true]

/-- The intent that the call gets: the one of the key, or a new one. -/
structure IntentOf (key : String) (s : ControlState) (intentId : ℕ) (intents : List (String × ℕ)) :
    Prop where
  stored : intents.lookup key = some intentId
  same : ∀ old, s.intents.lookup key = some old → intentId = old

theorem createIntent_returns (houtage : s.outage = false) (key : String) :
    Returns handle (call (ControlRequest.createIntent key)) s fun intentId s' =>
      ∃ intents, IntentOf key s intentId intents ∧ watched s' = { watched s with intents } := by
  show ∃ intentId, (handle (.createIntent key) s).1 = .ok intentId ∧ ∃ intents,
    IntentOf key s intentId intents ∧
      watched (handle (.createIntent key) s).2 = { watched s with intents }
  rw [handle_statement houtage]
  unfold perform
  dsimp only
  split
  next intentId hlookup =>
    refine ⟨intentId, rfl, s.intents, ⟨hlookup, fun old hold => ?_⟩, rfl⟩
    rw [hlookup] at hold
    exact Option.some.inj hold
  next hnone =>
    refine ⟨s.nextId, rfl, _, ⟨?_, fun old hold => ?_⟩, rfl⟩
    · rw [List.lookup_append, hnone]
      simp
    · rw [hnone] at hold
      cases hold

def CreatedFrom (old : Option ExecutionRecord) (intentId : ℕ) (record : ExecutionRecord) : Prop :=
  ∃ freshId, record = {
    id := (old.map (·.id)).getD freshId
    executionIntentId := (old.map (·.executionIntentId)).getD intentId
    executionState := .CREATED
    syncStatus := .pending
    settlementStatus := .pending }

structure Initialized (request : ExecutionControlRequest) (key : String) (s : ControlState)
    (audit : AuditContext) (s' : ControlState) : Prop where
  key_eq : audit.key = recordKeyOf request
  state_eq : audit.state = some .CREATED
  record : CreatedFrom (s.records.lookup (recordKeyOf request)) audit.intentId audit.record
  tables : ∃ intents, IntentOf key s audit.intentId intents ∧
    watched s' = { watched s with
      intents
      records := OrderedMap.set (recordKeyOf request) audit.record s.records }

theorem initializeAudit_writes (houtage : s.outage = false) (request : ExecutionControlRequest)
    (key : String) :
    Returns handle (initializeAudit request key) s (Initialized request key s) := by
  refine ends_bind (createIntent_returns houtage key) fun intentId s₁ ⟨intents, hintent, h₁⟩ => ?_
  have houtage₁ : s₁.outage = false := (congrArg Watched.outage h₁).trans houtage
  have hrecords₁ : s₁.records = s.records := congrArg Watched.records h₁
  refine ends_statement houtage₁ rfl (ends_unwatched houtage₁ rfl fun _ s₂ h₂ => ?_)
  refine ends_bind (writeTransitionEvidence_watched (by rw [h₂]; exact houtage₁) _)
    fun _ s₃ h₃ => ?_
  refine ends_pure ⟨_, rfl, rfl, rfl, ⟨s₁.nextId, ?_⟩, intents, hintent, ?_⟩
  · rw [hrecords₁]
    rfl
  · rw [h₃, h₂]
    show Watched.mk s₁.outage s₁.idempotencyKeys s₁.intents _ (approvalStates s₁.rows)
      s₁.submissions = _
    rw [hrecords₁, show s₁.outage = s.outage from congrArg Watched.outage h₁,
      show s₁.idempotencyKeys = s.idempotencyKeys from congrArg Watched.idempotencyKeys h₁,
      show s₁.intents = intents from congrArg Watched.intents h₁,
      show approvalStates s₁.rows = approvalStates s.rows from
        congrArg Watched.approvalStates h₁,
      show s₁.submissions = s.submissions from congrArg Watched.submissions h₁]
    rfl

/-! ### Up to the decision -/

/-- What `attachIntent` makes of the row of the key. -/
def attachedRow (request : ExecutionControlRequest) (row : IdempotencyKeyRow) (intentId : ℕ) :
    IdempotencyKeyRow :=
  { row with
    executionIntentId := some intentId
    routePlanId := request.routePlanId.or row.routePlanId
    lastStatus := .MISMATCHED }

def approvalWritten (config : GatewayConfig) (input : ExecuteCall) : ApprovalState :=
  approvalStateOf input.request (evaluateApproval config.hashes input.request)

/-- The tables once a mismatched call has an intent and has written `record`. -/
def tablesWith (config : GatewayConfig) (input : ExecuteCall) (row : IdempotencyKeyRow)
    (s : ControlState) (intentId : ℕ) (intents : List (String × ℕ)) (record : ExecutionRecord) :
    Watched where
  outage := s.outage
  idempotencyKeys := OrderedMap.set (idempotencyKeyOf config.hashes input)
    (attachedRow input.request row intentId) s.idempotencyKeys
  intents := intents
  records := OrderedMap.set (recordKeyOf input.request) record s.records
  approvalStates := approvalStates s.rows ++ [(intentId, approvalWritten config input)]
  submissions := s.submissions

structure Written (config : GatewayConfig) (input : ExecuteCall) (row : IdempotencyKeyRow)
    (s : ControlState) (audit : AuditContext) (s' : ControlState) : Prop where
  key_eq : audit.key = recordKeyOf input.request
  state_eq : audit.state = some .CREATED
  record : CreatedFrom (s.records.lookup (recordKeyOf input.request)) audit.intentId audit.record
  tables : ∃ intents, IntentOf (idempotencyKeyOf config.hashes input) s audit.intentId intents ∧
    watched s' = tablesWith config input row s audit.intentId intents audit.record

theorem execute_writes (houtage : s.outage = false) (hrow : Mismatches config input row s)
    {post : Except ControlError ExecutionControlOutcome → ControlState → Prop}
    (hdecide : ∀ audit auditRef replayProtectionRef s', Written config input row s audit s' → Ends
      handle (decideOutcome config input (checksIn config input s) audit auditRef
      replayProtectionRef) s' post) : Ends handle (execute config input) s post := by
  refine ends_bind (check_reads houtage hrow) fun checks s₁ ⟨hchecks, hs₁⟩ => ?_
  rw [hchecks, hs₁]
  refine ends_bind (initializeAudit_writes houtage _ _) fun audit s₂ h => ?_
  obtain ⟨hkey, hstate, hrecord, intents, hintent, h₂⟩ := h
  have houtage₂ : s₂.outage = false := (congrArg Watched.outage h₂).trans houtage
  have hkeys₂ : s₂.idempotencyKeys = s.idempotencyKeys := congrArg Watched.idempotencyKeys h₂
  refine ends_statement houtage₂ rfl (ends_statement houtage₂ rfl ?_)
  have hattached : Written config input row s audit (perform (.insert
      (.approvalState audit.intentId (approvalStateOf input.request
        (checksIn config input s).approvalResult)))
      (perform (.upsertIdempotencyKey (idempotencyKeyOf config.hashes input)
        (.attached input.request (checksIn config input s) audit.intentId)) s₂).2).2 := by
    refine ⟨hkey, hstate, hrecord, intents, hintent, ?_⟩
    show Watched.mk s₂.outage
      (OrderedMap.set _ (((s₂.idempotencyKeys.lookup _).map _).getD _) s₂.idempotencyKeys)
      s₂.intents s₂.records (approvalStates (s₂.rows ++ [_])) s₂.submissions = _
    rw [approvalStates_append, hkeys₂, hrow.stored,
      show s₂.outage = s.outage from congrArg Watched.outage h₂,
      show s₂.intents = intents from congrArg Watched.intents h₂,
      show s₂.records = _ from congrArg Watched.records h₂,
      show approvalStates s₂.rows = approvalStates s.rows from congrArg Watched.approvalStates h₂,
      show s₂.submissions = s.submissions from congrArg Watched.submissions h₂]
    have hmerge : row.merge (.attached input.request (checksIn config input s) audit.intentId) =
        attachedRow input.request row audit.intentId := by
      unfold IdempotencyKeyRow.merge IdempotencyKeyRow.attached
      rw [checksIn_mismatched hrow]
      rfl
    rw [Option.map_some, Option.getD_some, hmerge]
    rfl
  refine (?_ : ∀ t, Written config input row s audit t → Ends handle _ t post) _ hattached
  -- what is still written is not looked at
  have hkeep : ∀ {t t'}, Written config input row s audit t → watched t' = watched t →
      Written config input row s audit t' := fun h heq =>
    ⟨h.key_eq, h.state_eq, h.record, h.tables.imp fun _ hall => ⟨hall.1, heq.trans hall.2⟩⟩
  have hopen : ∀ {t}, Written config input row s audit t → (watched t).outage = false := by
    intro t h
    obtain ⟨_, -, htables⟩ := h.tables
    rw [htables]
    exact houtage
  intro t ht
  refine ends_bind (M := fun _ s' => Written config input row s audit s') ?_ ?_
  · split
    · exact ends_pure ⟨_, rfl, ht⟩
    · refine (statement_returns (hopen ht) rfl).weaken fun _ _ ⟨_, hresult, _, hs'⟩ => ?_
      rw [hs']
      exact ⟨_, hresult, hkeep ht rfl⟩
  · intro replayProtectionRef s₃ h₃
    refine ends_unwatched (hopen h₃) rfl fun auditRef s₄ h₄ => ?_
    have hwritten₄ := hkeep h₃ h₄
    refine ends_unwatched (hopen hwritten₄) rfl fun _ s₅ h₅ => ?_
    exact hdecide _ _ _ _ (hkeep hwritten₄ h₅)

/-! ### The decision -/

def awaitsApproval (config : GatewayConfig) (input : ExecuteCall) : Bool :=
  (evaluateApproval config.hashes input.request).status = .AWAITING_APPROVAL ||
    (evaluateApproval config.hashes input.request).status = .REQUIRED

/-- What the decision makes of the record: a request that awaits its approval has no transition to
take, and another one is `FAILED`. -/
def decidedRecord (config : GatewayConfig) (input : ExecuteCall) (record : ExecutionRecord) :
    ExecutionRecord :=
  if awaitsApproval config input then record
  else { record with executionState := .FAILED, syncStatus := .blocked }

structure Leaves (config : GatewayConfig) (input : ExecuteCall) (row : IdempotencyKeyRow)
    (s : ControlState) (intentId : ℕ) (record : ExecutionRecord) (s' : ControlState) : Prop where
  submissions : s'.submissions = s.submissions
  idempotencyKey : s'.idempotencyKeys.lookup (idempotencyKeyOf config.hashes input) =
    some (attachedRow input.request row intentId)
  intent : s'.intents.lookup (idempotencyKeyOf config.hashes input) = some intentId
  same : ∀ old, s.intents.lookup (idempotencyKeyOf config.hashes input) = some old → intentId = old
  approvalState : storedApproval s' intentId = some (approvalWritten config input)
  created : CreatedFrom (s.records.lookup (recordKeyOf input.request)) intentId record
  records : ∀ recordKey, s'.records.lookup recordKey =
    if recordKey = recordKeyOf input.request then some (decidedRecord config input record)
    else s.records.lookup recordKey

theorem leaves_of_watched {intents : List (String × ℕ)}
    (hintent : IntentOf (idempotencyKeyOf config.hashes input) s intentId intents)
    (hcreated : CreatedFrom (s.records.lookup (recordKeyOf input.request)) intentId record)
    {records : List (RecordKey × ExecutionRecord)}
    (hrecords : ∀ recordKey, records.lookup recordKey = if recordKey = recordKeyOf input.request
      then some (decidedRecord config input record) else s.records.lookup recordKey)
    (hwatched : watched s' = { tablesWith config input row s intentId intents record with records
      }) :
    Leaves config input row s intentId record s' where
  submissions := congrArg Watched.submissions hwatched
  idempotencyKey := by
    rw [show s'.idempotencyKeys = _ from congrArg Watched.idempotencyKeys hwatched]
    exact (OrderedMap.lookup_set _ _ _ _).trans (if_pos rfl)
  intent := by
    rw [show s'.intents = _ from congrArg Watched.intents hwatched]
    exact hintent.stored
  same := hintent.same
  approvalState := by
    unfold storedApproval
    rw [show approvalStates s'.rows = _ from congrArg Watched.approvalStates hwatched]
    show (approvalStates s.rows ++ [_]).reverse.lookup _ = _
    rw [List.reverse_append, List.reverse_singleton, List.singleton_append,
      OrderedMap.lookup_cons, if_pos rfl]
  created := hcreated
  records := by
    intro recordKey
    rw [show s'.records = records from congrArg Watched.records hwatched]
    exact hrecords recordKey

/-- The record that a blocked call writes over the one it has created. -/
def failedInput (audit : AuditContext) : CreateExecutionRecordInput where
  key := audit.key
  executionIntentId := audit.intentId
  executionState := .FAILED
  syncStatus := .blocked
  settlementStatus := audit.record.settlementStatus

theorem transition_FAILED (houtage : s.outage = false) (hstate : audit.state = some .CREATED)
    (reason : String) :
    Returns handle (transition audit .FAILED reason (some .blocked)) s fun _ s' =>
      watched s' = { watched s with
        records := OrderedMap.set audit.key
          ((failedInput audit).row (s.records.lookup audit.key) s.nextId) s.records } := by
  unfold transition transitionMany
  rw [hstate]
  refine ends_statement houtage rfl ?_
  refine ends_bind (writeTransitionEvidence_watched (by exact houtage) _) fun _ s₂ h₂ => ?_
  exact ends_pure ⟨_, rfl, h₂⟩

/-- **What a mismatched call writes.** It does not enter the handler. -/
theorem mismatched_writes (houtage : s.outage = false) (hrow : Mismatches config input row s) :
    Ends handle (execute config input) s fun _ s' =>
      ∃ intentId record, Leaves config input row s intentId record s' := by
  refine execute_writes houtage hrow fun audit auditRef replayProtectionRef s₁ h => ?_
  obtain ⟨hkey, hstate, hcreated, intents, hintent, htables⟩ := h
  have houtage₁ : s₁.outage = false := (congrArg Watched.outage htables).trans houtage
  have hrecords₁ : s₁.records = OrderedMap.set (recordKeyOf input.request) audit.record s.records :=
    congrArg Watched.records htables
  cases hawaits : awaitsApproval config input with
  | true =>
    -- there is no transition from `CREATED` to `AWAITING_APPROVAL`
    have hchecks : (checksIn config input s).awaitsApproval = true := hawaits
    rw [decideOutcome, if_pos hchecks]
    refine ends_throws ?_
    unfold transition transitionMany
    rw [hstate]
    refine ends_throw ⟨_, rfl, audit.intentId, audit.record, ?_⟩
    refine leaves_of_watched hintent hcreated (fun recordKey => ?_) htables
    rw [decidedRecord, hawaits, if_pos rfl]
    exact OrderedMap.lookup_set _ _ _ _
  | false =>
    have hchecks : (checksIn config input s).awaitsApproval = false := hawaits
    rw [decideOutcome, hchecks, blocked_of_mismatched hrow, if_neg Bool.false_ne_true, if_pos rfl]
    refine ends_bind (transition_FAILED houtage₁ hstate _) fun audit' s₂ h₂ => ?_
    refine ends_pure ⟨audit.intentId, audit.record,
      leaves_of_watched hintent hcreated (fun recordKey => ?_) (h₂.trans (by rw [htables]))⟩
    rw [OrderedMap.lookup_set, hkey, hrecords₁, OrderedMap.lookup_set, OrderedMap.lookup_set,
      if_pos rfl, decidedRecord, hawaits, if_neg Bool.false_ne_true]
    split <;> rfl

/-! ## When nothing changes -/

def IsBlocked (config : GatewayConfig) (input : ExecuteCall) (record : ExecutionRecord) : Prop :=
  record.settlementStatus = .pending ∧
    if awaitsApproval config input then
      record.executionState = .CREATED ∧ record.syncStatus = .pending
    else record.executionState = .FAILED ∧ record.syncStatus = .blocked

instance (config : GatewayConfig) (input : ExecuteCall) (record : ExecutionRecord) :
    Decidable (IsBlocked config input record) := by
  unfold IsBlocked
  infer_instance

/-- What the call writes is what an earlier mismatched call has left. -/
structure AlreadyBlocked (config : GatewayConfig) (input : ExecuteCall) (row : IdempotencyKeyRow)
    (s : ControlState) : Prop where
  lastStatus : row.lastStatus = .MISMATCHED
  routePlan : ∀ routePlanId, input.request.routePlanId = some routePlanId →
    row.routePlanId = some routePlanId
  intent : ∃ intentId, s.intents.lookup (idempotencyKeyOf config.hashes input) = some intentId ∧
    row.executionIntentId = some intentId ∧
    storedApproval s intentId = some (approvalWritten config input) ∧
    ∀ record, s.records.lookup (recordKeyOf input.request) = some record →
      record.executionIntentId = intentId → IsBlocked config input record

theorem attachedRow_eq_iff (request : ExecutionControlRequest) (row : IdempotencyKeyRow)
    (intentId : ℕ) : attachedRow request row intentId = row ↔
      row.lastStatus = .MISMATCHED ∧ row.executionIntentId = some intentId ∧
        ∀ routePlanId, request.routePlanId = some routePlanId →
          row.routePlanId = some routePlanId := by
  constructor
  · intro h
    refine ⟨(congrArg IdempotencyKeyRow.lastStatus h).symm,
      (congrArg IdempotencyKeyRow.executionIntentId h).symm, fun routePlanId hplan => ?_⟩
    have hor : request.routePlanId.or row.routePlanId = row.routePlanId :=
      congrArg IdempotencyKeyRow.routePlanId h
    rw [hplan] at hor
    exact hor.symm
  · intro ⟨hstatus, hintent, hplan⟩
    have hor : request.routePlanId.or row.routePlanId = row.routePlanId := by
      cases hrequest : request.routePlanId with
      | none => rfl
      | some routePlanId => exact (hplan routePlanId hrequest).symm
    unfold attachedRow
    rw [hor, ← hstatus, ← hintent]

theorem decidedRecord_eq_iff {old : ExecutionRecord}
    (hcreated : CreatedFrom (some old) intentId record) :
    decidedRecord config input record = old ↔ IsBlocked config input old := by
  obtain ⟨freshId, hrecord⟩ := hcreated
  obtain ⟨id, executionIntentId, executionState, syncStatus, settlementStatus⟩ := old
  rw [hrecord, decidedRecord, IsBlocked]
  cases awaitsApproval config input with
  | true =>
    rw [if_pos rfl, if_pos rfl]
    simp only [ExecutionRecord.mk.injEq]
    constructor
    · intro ⟨_, _, hstate, hsync, hsettled⟩
      exact ⟨hsettled.symm, hstate.symm, hsync.symm⟩
    · intro ⟨hsettled, hstate, hsync⟩
      exact ⟨rfl, rfl, hstate.symm, hsync.symm, hsettled.symm⟩
  | false =>
    rw [if_neg Bool.false_ne_true, if_neg Bool.false_ne_true]
    simp only [ExecutionRecord.mk.injEq]
    constructor
    · intro ⟨_, _, hstate, hsync, hsettled⟩
      exact ⟨hsettled.symm, hstate.symm, hsync.symm⟩
    · intro ⟨hsettled, hstate, hsync⟩
      exact ⟨rfl, rfl, hstate.symm, hsync.symm, hsettled.symm⟩

theorem inert_iff (hrow : Mismatches config input row s)
    (h : Leaves config input row s intentId record s') :
    Inert (idempotencyKeyOf config.hashes input) s s' ↔ AlreadyBlocked config input row s := by
  have hkey : s'.idempotencyKeys.lookup (idempotencyKeyOf config.hashes input) =
      s.idempotencyKeys.lookup (idempotencyKeyOf config.hashes input) ↔
        attachedRow input.request row intentId = row := by
    rw [h.idempotencyKey, hrow.stored, Option.some.injEq]
  constructor
  · intro hinert
    obtain ⟨hstatus, hattached, hplan⟩ :=
      (attachedRow_eq_iff _ _ _).mp (hkey.mp hinert.idempotencyKey)
    have hintent : s.intents.lookup (idempotencyKeyOf config.hashes input) = some intentId :=
      hinert.intent.symm.trans h.intent
    refine ⟨hstatus, hplan, intentId, hintent, hattached, ?_, fun old hold hown => ?_⟩
    · exact (hinert.approvalState intentId hintent).symm.trans h.approvalState
    · have hkept := hinert.records intentId hintent _ old hold hown
      rw [h.records, if_pos rfl] at hkept
      have hcreated := h.created
      rw [hold] at hcreated
      exact (decidedRecord_eq_iff hcreated).mp (Option.some.inj hkept)
  · intro halready
    obtain ⟨intentId', hintent, hattached, happroval, hrecord⟩ := halready.intent
    have hsame : intentId = intentId' := h.same intentId' hintent
    rw [← hsame] at hintent hattached happroval hrecord
    refine ⟨h.submissions, hkey.mpr ((attachedRow_eq_iff _ _ _).mpr
      ⟨halready.lastStatus, hattached, halready.routePlan⟩), h.intent.trans hintent.symm, ?_, ?_⟩
    · intro other hother
      rw [hintent] at hother
      cases hother
      exact h.approvalState.trans happroval.symm
    · intro other hother recordKey old hold hown
      rw [hintent] at hother
      cases hother
      rw [h.records]
      split
      next heq =>
        rw [heq] at hold
        have hcreated := h.created
        rw [hold] at hcreated
        rw [(decidedRecord_eq_iff hcreated).mpr (hrecord old hold hown)]
      next => exact hold

/-- **A mismatched call is inert** exactly when the tables cannot be reached, or an earlier
mismatched call has left them as this one would. It never enters the handler. -/
theorem mismatched_inert_iff (config : GatewayConfig) (input : ExecuteCall) {s : ControlState}
    {row : IdempotencyKeyRow} (hrow : Mismatches config input row s) :
    Ends handle (execute config input) s fun _ s' => s'.submissions = s.submissions ∧
      (Inert (idempotencyKeyOf config.hashes input) s s' ↔
        s.outage = true ∨ AlreadyBlocked config input row s) := by
  cases houtage : s.outage with
  | true =>
    -- the first statement fails, and the call with it
    refine ends_throws (ends_throws (ends_throws ?_))
    have hfails : handle (.findIdempotencyKey (idempotencyKeyOf config.hashes input)) s =
        (.error .repository, s) := by
      unfold handle
      rw [houtage]
      rfl
    refine ends_call ?_
    rw [hfails]
    refine ⟨_, rfl, _, rfl, _, rfl, rfl, iff_of_true ?_ (.inl rfl)⟩
    exact ⟨rfl, rfl, rfl, fun _ _ => rfl, fun _ _ _ _ hold _ => hold⟩
  | false =>
    refine (mismatched_writes houtage hrow).weaken fun _ s' ⟨intentId, record, h⟩ => ?_
    refine ⟨h.submissions, ?_⟩
    rw [inert_iff hrow h]
    exact ⟨.inr, fun hor => hor.resolve_left Bool.false_ne_true⟩

/-! ### A key of another user's -/

/-- The key of `soundRequest`, used by another principal. -/
def otherCall : ExecuteCall :=
  { callEnding (.answered ⟨.COMPLETED, none⟩) with
    request := { soundRequest with userWalletReference := ⟨"user-2", none⟩ } }

def completed : ControlState :=
  (alone handle (execute serverConfig (callEnding (.answered ⟨.COMPLETED, none⟩))) emptyTables).2

/-- The row of the key, as `status` says it was last used. -/
def keyRow (status : ExecutionIdempotencyStatus) : IdempotencyKeyRow :=
  ⟨some 0, some "plan-1", "user-1", none, "user-1", status⟩

def settledRecord : ExecutionRecord := ⟨1, 0, .SETTLED, .pending, .settled⟩

theorem completed_mismatches : Mismatches serverConfig otherCall (keyRow .ALLOCATED) completed where
  stored := by decide +kernel
  mismatched := by decide +kernel

/-- **Another user's request** with the key of a completed one leaves the settled record failed. -/
theorem completed_overwritten : ¬ ∀ config input s row, Mismatches config input row s →
    Ends handle (execute config input) s fun _ s' =>
      Inert (idempotencyKeyOf config.hashes input) s s' := by
  intro h
  have hintent : completed.intents.lookup "key-1" = some 0 := by decide +kernel
  have hstored : completed.records.lookup (recordKeyOf soundRequest) = some settledRecord := by
    decide +kernel
  have hchanged : (alone handle (execute serverConfig otherCall) completed).2.records.lookup
      (recordKeyOf soundRequest) ≠ some settledRecord := by
    decide +kernel
  exact hchanged ((h serverConfig otherCall completed _ completed_mismatches).records
    0 hintent _ settledRecord hstored rfl)

/-- The same request once more. -/
def overwritten : ControlState := (alone handle (execute serverConfig otherCall) completed).2

theorem mismatched_inert_again : AlreadyBlocked serverConfig otherCall (keyRow .MISMATCHED)
      overwritten ∧
    Ends handle (execute serverConfig otherCall) overwritten fun _ s' =>
      Inert "key-1" overwritten s' := by
  have hrow : Mismatches serverConfig otherCall (keyRow .MISMATCHED) overwritten :=
    ⟨by decide +kernel, by decide +kernel⟩
  have hstored : overwritten.records.lookup (recordKeyOf soundRequest) = some { settledRecord with
        executionState := .FAILED, syncStatus := .blocked, settlementStatus := .pending } := by
    decide +kernel
  have halready : AlreadyBlocked serverConfig otherCall (keyRow .MISMATCHED) overwritten := by
    refine ⟨rfl, fun _ hplan => hplan, 0, by decide +kernel, rfl, by decide +kernel, ?_⟩
    intro record hrecord _
    cases hstored.symm.trans hrecord
    decide +kernel
  refine ⟨halready, ?_⟩
  exact (mismatched_inert_iff serverConfig otherCall hrow).weaken
    fun _ _ hall => hall.2.mpr (.inr halready)

end LotusRfq.Control.Mismatched
