import LotusRfq.Control.Outcomes

/-!
# LotusRfq — whose execution record it is

A record is upserted under its venue and `kind:plan or market`, which say nothing of the intent. A
call starts at `CREATED`, and writes what its own state machine has come to.

* **`obeys_execute`** — a call writes one record, under one intent, along the table;
* **`Held.step`** — while first writes find no record, every record has one call that writes it;
* **`records_isolated`** — so no record changes hands, and states follow the table.
-/

namespace LotusRfq.Control.Records

open Processes Transitions List

variable {config : GatewayConfig} {input : ExecuteCall} {s : ControlState} {α : Type}

/-! ## The table -/

def Leads : ExecutionState → ExecutionState → Prop :=
  Relation.TransGen fun current next => next ∈ VALID_TRANSITIONS current

theorem not_leads_CREATED (state : ExecutionState) : ¬ Leads state .CREATED := by
  intro hleads
  have hlast : ∀ current, .CREATED ∉ VALID_TRANSITIONS current := by
    intro current
    cases current <;> decide
  cases hleads with
  | single h => exact hlast _ h
  | tail _ h => exact hlast _ h

/-- Transitions that the state machine has taken lead from its state to the last of them. -/
theorem leads_of_transitionEvents {recordId : ℕ} {state : ExecutionState}
    {transitions : List ExecutionTransitionRequest} {events : List StateTransition}
    {final : ExecutionTransitionRequest}
    (h : transitionEvents recordId (some state) transitions = .ok events)
    (hfinal : transitions.getLast? = some final) : Leads state final.nextState := by
  induction transitions generalizing state events with
  | nil => cases hfinal
  | cons transition transitions ih =>
    unfold transitionEvents at h
    split at h
    next hvalid =>
      have hnext : transition.nextState ∈ VALID_TRANSITIONS state := by
        simpa [canTransitionExecutionState] using hvalid
      cases transitions with
      | nil =>
        have hlast : final = transition := by simpa using hfinal.symm
        rw [hlast]
        exact .single hnext
      | cons second rest =>
        cases hrest : transitionEvents recordId (some transition.nextState) (second :: rest) with
        | error error =>
          rw [hrest] at h
          cases h
        | ok later =>
          have hlast : (second :: rest).getLast? = some final := by
            rwa [getLast?_cons_cons] at hfinal
          exact (Relation.TransGen.single hnext).trans (ih hrest hlast)
    next => cases h

/-! ## What a call writes -/

/-- A call knows its intent, then the record it has written: under which key and intent, with which
id, and the state it wrote last. -/
inductive Place where
  | unopened (intentId : Option ℕ)
  | opened (key : RecordKey) (intentId recordId : ℕ) (state : ExecutionState)

/-- A first write says `CREATED`; a later one is of the same record, and follows the table. -/
def Place.mayWrite (q : Place) (input : CreateExecutionRecordInput) : Prop :=
  match q with
  | .unopened intentId =>
    intentId = some input.executionIntentId ∧ input.executionState = .CREATED
  | .opened key intentId _ state =>
    key = input.key ∧ intentId = input.executionIntentId ∧ Leads state input.executionState

def Place.written (q : Place) (input : CreateExecutionRecordInput) (row : ExecutionRecord) :
    Place :=
  match q with
  | .unopened _ => .opened input.key input.executionIntentId row.id input.executionState
  | .opened key intentId recordId _ => .opened key intentId recordId input.executionState

def recordProtocol : Protocol ControlRequest (fun e => Except ControlError e.Answer) Place where
  allows q e :=
    match e with
    | .createRecord input => q.mayWrite input
    | _ => True
  answers _ _ := True
  next q e r :=
    match q, e, r with
    | .unopened _, .createIntent _, .ok intentId => .unopened (some intentId)
    | q, .createRecord input, .ok row => q.written input row
    | q, _, _ => q

def At (audit : AuditContext) (q : Place) : Prop :=
  ∃ recordId state, q = .opened audit.key audit.intentId recordId state ∧ audit.state = some state

/-- A request that is about neither intents nor records. -/
def isAside : ControlRequest → Bool
  | .createIntent _ | .createRecord _ => false
  | _ => true

variable {e : ControlRequest} {q : Place} {audit : AuditContext} {s' : ControlState}

theorem stays_aside (he : isAside e = true) :
    Stays recordProtocol (call e : ControlProgram e.Answer) := by
  cases e with
  | createIntent => cases he
  | createRecord => cases he
  | _ => exact stays_call (fun _ => trivial) fun q _ => by cases q <;> rfl

theorem stays_writeTransitionEvidence (events : List StateTransition) :
    Stays recordProtocol (writeTransitionEvidence events) :=
  stays_bind (stays_aside rfl) fun _ => stays_bind (stays_aside rfl) fun _ => stays_pure _

theorem stays_recordRecovery (audit : AuditContext)
    (localSyncFailed duplicateSubmissionRisk : Option Bool) :
    Stays recordProtocol (recordRecovery audit localSyncFailed duplicateSubmissionRisk) :=
  stays_bind (stays_attempt (stays_aside rfl)) fun _ => stays_pure _

theorem stays_submit (config : GatewayConfig) (input : ExecuteCall) (audit : AuditContext)
    (idempotencyKey : String) : Stays recordProtocol (submit config input audit idempotencyKey) :=
  stays_ite (stays_throw _) (stays_bind (stays_aside rfl) fun _ =>
    stays_bind (stays_aside rfl) fun _ => stays_aside rfl)

theorem stays_reserve (hashes : Hashes) (input : ExecuteCall) :
    Stays recordProtocol (reserve hashes input) := by
  refine stays_bind (stays_aside rfl) fun existing => ?_
  cases existing with
  | none => exact stays_bind (stays_aside rfl) fun _ => stays_pure _
  | some existing => exact stays_pure _

theorem stays_check (config : GatewayConfig) (input : ExecuteCall) :
    Stays recordProtocol (check config input) :=
  stays_bind (stays_reserve _ _) fun _ =>
    stays_bind (stays_bind (stays_aside rfl) fun _ => stays_pure _) fun _ => stays_pure _

/-- The call ends at the record of the audit it returns, or throws. -/
def EndsAt (q : Place) : Except ControlError AuditContext → Prop
  | .ok audit => At audit q
  | .error _ => True

theorem obeys_audit_bind {program : ControlProgram AuditContext}
    {f : AuditContext → ControlProgram α} {post : Place → Except ControlError α → Prop}
    (h : Obeys recordProtocol EndsAt q program.run) (herror : ∀ q e, post q (.error e))
    (hf : ∀ q audit, At audit q → Obeys recordProtocol post q (f audit).run) :
    Obeys recordProtocol post q (program >>= f).run := by
  refine obeys_program_bind (M := fun q audit => At audit q) (h.weaken ?_) hf
  intro q result hresult
  cases result with
  | ok audit => exact hresult
  | error e => exact herror q e

theorem obeys_transitionMany (hat : At audit q) (transitions : List ExecutionTransitionRequest) :
    Obeys recordProtocol EndsAt q (transitionMany audit transitions).run := by
  obtain ⟨recordId, state, rfl, hstate⟩ := hat
  unfold transitionMany
  split
  · exact obeys_return ⟨recordId, state, rfl, hstate⟩
  next finalTransition hfinal =>
    rw [hstate]
    split
    · exact obeys_throw trivial
    next events hevents =>
      have hleads : Leads state finalTransition.nextState :=
        leads_of_transitionEvents hevents hfinal
      refine obeys_program_bind (M := fun q _ => q = Place.opened audit.key audit.intentId recordId
        finalTransition.nextState) ?_ ?_
      · refine obeys_call ⟨rfl, rfl, hleads⟩ fun r _ => ?_
        cases r with
        | ok record => rfl
        | error e => trivial
      · intro q record hq
        rw [hq]
        exact obeys_stays_bind (stays_writeTransitionEvidence events) (fun _ => trivial)
          fun _ => obeys_return ⟨recordId, _, rfl, rfl⟩

theorem obeys_initializeAudit (request : ExecutionControlRequest) (idempotencyKey : String) :
    Obeys recordProtocol EndsAt (.unopened none) (initializeAudit request idempotencyKey).run := by
  refine obeys_program_bind (M := fun q intentId => q = Place.unopened (some intentId)) ?_ ?_
  · refine obeys_call trivial fun r _ => ?_
    cases r with
    | ok intentId => rfl
    | error e => trivial
  · intro q intentId hq
    rw [hq]
    refine obeys_program_bind (M := fun q record =>
      q = Place.opened (recordKeyOf request) intentId record.id .CREATED) ?_ ?_
    · refine obeys_call ⟨rfl, rfl⟩ fun r _ => ?_
      cases r with
      | ok record => rfl
      | error e => trivial
    · intro q record hq
      rw [hq]
      refine obeys_stays_bind (stays_aside rfl) (fun _ => trivial) fun _ => ?_
      exact obeys_stays_bind (stays_writeTransitionEvidence _) (fun _ => trivial)
        fun _ => obeys_return ⟨record.id, .CREATED, rfl, rfl⟩

theorem obeys_recordResult (hat : At audit q) (result : ExecutionSubmissionResult) :
    Obeys recordProtocol EndsAt q (recordResult audit result).run := by
  have hrecover : ∀ transitions localSyncFailed duplicateSubmissionRisk,
      Obeys recordProtocol EndsAt q (do
        let audit ← transitionMany audit transitions
        recordRecovery audit localSyncFailed duplicateSubmissionRisk
        return audit : ControlProgram AuditContext).run := by
    intro transitions localSyncFailed duplicateSubmissionRisk
    refine obeys_audit_bind (obeys_transitionMany hat transitions) (fun _ _ => trivial) ?_
    intro q audit hat
    exact obeys_stays_bind (stays_recordRecovery _ _ _) (fun _ => trivial) fun _ => obeys_return hat
  unfold recordResult
  split
  · exact hrecover _ _ _
  · exact hrecover _ _ _
  · exact hrecover _ _ _
  · exact hrecover _ _ _
  · exact obeys_transitionMany hat _
  · exact obeys_transitionMany hat _

theorem obeys_submitChecked (hat : At audit q) (config : GatewayConfig) (input : ExecuteCall)
    (checks : CheckResults) (auditRef replayProtectionRef : ℕ) :
    Obeys recordProtocol (fun _ _ => True) q
      (submitChecked config input checks audit auditRef replayProtectionRef).run := by
  refine obeys_audit_bind (obeys_transitionMany hat _) (fun _ _ => trivial) ?_
  intro q audit hat
  refine obeys_audit_bind ?_ (fun _ _ => trivial) ?_
  · split
    · exact obeys_transitionMany hat _
    · exact obeys_return hat
  · intro q audit hat
    refine obeys_stays_bind (stays_attempt (stays_submit _ _ _ _)) (fun _ => trivial) ?_
    intro submitted
    cases submitted with
    | error error =>
      refine obeys_audit_bind (obeys_transitionMany hat _) (fun _ _ => trivial) ?_
      intro q audit hat
      exact obeys_stays_bind (stays_recordRecovery _ _ _) (fun _ => trivial)
        fun _ => obeys_return trivial
    | ok result =>
      refine obeys_audit_bind (obeys_recordResult hat result) (fun _ _ => trivial) ?_
      intro q audit hat
      exact obeys_return trivial

theorem obeys_decideOutcome (hat : At audit q) (config : GatewayConfig) (input : ExecuteCall)
    (checks : CheckResults) (auditRef replayProtectionRef : ℕ) :
    Obeys recordProtocol (fun _ _ => True) q
      (decideOutcome config input checks audit auditRef replayProtectionRef).run := by
  have hlast : ∀ transitions (outcome : AuditContext → ExecutionControlOutcome),
      Obeys recordProtocol (fun _ _ => True) q (do
        let audit ← transitionMany audit transitions
        return outcome audit : ControlProgram ExecutionControlOutcome).run := by
    intro transitions outcome
    exact obeys_audit_bind (obeys_transitionMany hat transitions) (fun _ _ => trivial)
      fun _ _ _ => obeys_return trivial
  unfold decideOutcome
  dsimp only
  split
  · exact hlast _ _
  · split
    · exact hlast _ _
    · exact obeys_submitChecked hat _ _ _ _ _

/-- **A call** opens one record, and keeps to it. -/
theorem obeys_execute (config : GatewayConfig) (input : ExecuteCall) :
    Obeys recordProtocol (fun _ _ => True) (.unopened none) (execute config input).run := by
  refine obeys_stays_bind (stays_check _ _) (fun _ => trivial) fun checks => ?_
  refine obeys_audit_bind (obeys_initializeAudit _ _) (fun _ _ => trivial) ?_
  intro q audit hat
  refine obeys_stays_bind (stays_aside rfl) (fun _ => trivial) fun _ => ?_
  refine obeys_stays_bind (stays_aside rfl) (fun _ => trivial) fun _ => ?_
  refine obeys_stays_bind ?_ (fun _ => trivial) fun replayProtectionRef => ?_
  · split
    · exact stays_pure _
    · exact stays_aside rfl
  · refine obeys_stays_bind (stays_aside rfl) (fun _ => trivial) fun _ => ?_
    exact obeys_stays_bind (stays_aside rfl) (fun _ => trivial)
      fun _ => obeys_decideOutcome hat _ _ _ _ _

theorem obeys_code (config : GatewayConfig) (operation : ControlOperation) :
    Obeys recordProtocol (fun _ _ => True) (.unopened none) (operation.code config) := by
  cases operation with
  | execute input => exact obeys_bind (obeys_execute config input) fun _ _ _ => trivial
  | setOutage outage => exact obeys_request_bind trivial fun _ _ => trivial

/-! ## Who has written which record -/

/-- The calls, and for every write the call that made it and the id of the record it got back. -/
structure RecordSystem where
  system : ControlSystem
  writes : List (ℕ × ℕ)

/-- What a request of the call `i` adds to the writes. -/
def writesOf (i : ℕ) (e : ControlRequest) (s : ControlState) : List (ℕ × ℕ) :=
  match e with
  | .createRecord input =>
    match (handle (.createRecord input) s).1 with
    | .ok row => [(i, row.id)]
    | .error _ => []
  | _ => []

def tracedStep (config : GatewayConfig) (r : RecordSystem) (action : Action ControlOperation) :
    Option RecordSystem :=
  (controlStep config r.system action).map fun system =>
    { system
      writes := r.writes ++ match action with
        | .start _ => []
        | .advance i => ((asked r.system i).map (writesOf i · r.system.shared)).getD [] }

/-- The first write of a call finds no record under its venue, kind and plan or market. -/
def FindsNoRecord (s : ControlState) : ControlRequest → Prop
  | .createRecord input => input.executionState = .CREATED → s.records.lookup input.key = none
  | _ => True

instance (s : ControlState) (e : ControlRequest) : Decidable (FindsNoRecord s e) := by
  unfold FindsNoRecord
  split <;> infer_instance

def FreshRecord (r : RecordSystem) (action : Action ControlOperation) : Prop :=
  Asks FindsNoRecord r.system action

instance (r : RecordSystem) (action : Action ControlOperation) : Decidable (FreshRecord r action) :=
  inferInstanceAs (Decidable (Asks _ _ _))

structure Numbered (s : ControlState) : Prop where
  distinct : ∀ key key' row row', s.records.lookup key = some row →
    s.records.lookup key' = some row' → row.id = row'.id → key = key'
  given : ∀ key row, s.records.lookup key = some row → row.id < s.nextId

/-- Nobody is under way, whatever has been recorded before. -/
structure Unopened (r : RecordSystem) : Prop where
  running : r.system.running = []
  writes : r.writes = []
  numbered : Numbered r.system.shared

/-- One step keeps the records apart: whose they are, and where they are in the table. -/
structure RecordsIsolated (r : RecordSystem) (action : Action ControlOperation) (t : RecordSystem) :
    Prop where
  /-- A record keeps its id and its intent, and its state moves along the table. -/
  kept : ∀ key row, r.system.shared.records.lookup key = some row →
    ∃ row', t.system.shared.records.lookup key = some row' ∧ row'.id = row.id ∧
      row'.executionIntentId = row.executionIntentId ∧
      (row'.executionState = row.executionState ∨ Leads row.executionState row'.executionState)
  /-- A record starts at `CREATED`. -/
  created : ∀ key row', t.system.shared.records.lookup key = some row' →
    r.system.shared.records.lookup key = none → row'.executionState = .CREATED
  /-- A record is written by calls for its intent. -/
  owned : ∀ i, action = .advance i → ∀ input, asked r.system i = some (.createRecord input) →
    ∀ row, r.system.shared.records.lookup input.key = some row →
      row.executionIntentId = input.executionIntentId
  /-- No two calls have written one record. -/
  unshared : ∀ i j recordId, (i, recordId) ∈ t.writes → (j, recordId) ∈ t.writes → i = j
  numbered : Numbered t.system.shared

/-! ## One call for each record -/

def Place.Stored (q : Place) (s : ControlState) : Prop :=
  match q with
  | .unopened _ => True
  | .opened key intentId recordId state => ∃ row, s.records.lookup key = some row ∧
      row.id = recordId ∧ row.executionIntentId = intentId ∧ row.executionState = state

def Place.key? : Place → Option RecordKey
  | .unopened _ => none
  | .opened key _ _ _ => some key

def Place.recordId? : Place → Option ℕ
  | .unopened _ => none
  | .opened _ _ recordId _ => some recordId

/-- Every call finds what it has written, and no two have opened one record. -/
structure Held (s : ControlState) (places : List Place) (writes : List (ℕ × ℕ)) : Prop where
  numbered : Numbered s
  stored : ∀ (i : ℕ) (q : Place), places[i]? = some q → q.Stored s
  apart : ∀ (i j : ℕ) (q q' : Place) key, places[i]? = some q → places[j]? = some q' →
    q.key? = some key → q'.key? = some key → i = j
  traced : ∀ (i recordId : ℕ), (i, recordId) ∈ writes → ∃ q, places[i]? = some q ∧
    q.recordId? = some recordId

variable {places : List Place} {writes : List (ℕ × ℕ)} {i : ℕ} {q : Place}

/-- What the tables say of records, apart from the next id. -/
def SameRecords (s s' : ControlState) : Prop := s'.records = s.records ∧ s.nextId ≤ s'.nextId

theorem sameRecords_handle (he : ∀ input, e ≠ .createRecord input) :
    SameRecords s (handle e s).2 := by
  unfold handle
  split
  next => exact ⟨rfl, le_refl _⟩
  next =>
    cases e with
    | createRecord input => exact absurd rfl (he input)
    | createIntent requestKey =>
      unfold perform
      dsimp only
      split
      · exact ⟨rfl, le_refl _⟩
      · exact ⟨rfl, Nat.le_succ _⟩
    | insert row => exact ⟨rfl, Nat.le_succ _⟩
    | createReplayProtectionRecord key status => exact ⟨rfl, Nat.le_succ _⟩
    | _ => exact ⟨rfl, le_refl _⟩

theorem Numbered.of_same (h : Numbered s) (hsame : SameRecords s s') : Numbered s' := by
  obtain ⟨hrecords, hnext⟩ := hsame
  constructor
  · rw [hrecords]
    exact h.distinct
  · rw [hrecords]
    exact fun key row hrow => Nat.lt_of_lt_of_le (h.given key row hrow) hnext

theorem Place.Stored.of_same (h : q.Stored s) (hsame : SameRecords s s') : q.Stored s' := by
  cases q with
  | unopened => trivial
  | opened key intentId recordId state =>
    show ∃ row, s'.records.lookup key = some row ∧ _
    rw [hsame.1]
    exact h

theorem next_of_aside (he : ∀ input, e ≠ .createRecord input) (r : Except ControlError e.Answer) :
    (recordProtocol.next q e r).key? = q.key? ∧
      (recordProtocol.next q e r).recordId? = q.recordId? ∧
      ∀ s, q.Stored s → (recordProtocol.next q e r).Stored s := by
  cases e with
  | createRecord input => exact absurd rfl (he input)
  | createIntent requestKey =>
    cases q with
    | unopened intentId => cases r <;> exact ⟨rfl, rfl, fun _ _ => trivial⟩
    | opened => cases r <;> exact ⟨rfl, rfl, fun _ h => h⟩
  | _ => cases q <;> exact ⟨rfl, rfl, fun _ h => h⟩

theorem Held.move {q' : Place} (h : Held s places writes) (hplace : places[i]? = some q)
    (hsame : SameRecords s s') (hkey : q'.key? = q.key?) (hid : q'.recordId? = q.recordId?)
    (hstored : q.Stored s → q'.Stored s) : Held s' (places.set i q') writes := by
  -- where a place of the new list comes from
  have hfrom : ∀ (j : ℕ) (place : Place), (places.set i q')[j]? = some place →
      ∃ old : Place, places[j]? = some old ∧ place.key? = old.key? := by
    intro j place hj
    rw [getElem?_set_place hplace] at hj
    split at hj
    next heq =>
      cases hj
      exact ⟨q, heq ▸ hplace, hkey⟩
    next => exact ⟨place, hj, rfl⟩
  refine ⟨h.numbered.of_same hsame, fun j place hj => ?_, ?_, ?_⟩
  · rw [getElem?_set_place hplace] at hj
    split at hj
    next =>
      cases hj
      exact (hstored (h.stored i q hplace)).of_same hsame
    next => exact (h.stored j place hj).of_same hsame
  · intro j k place place' key hj hk hkeyj hkeyk
    obtain ⟨old, hold, heq⟩ := hfrom j place hj
    obtain ⟨old', hold', heq'⟩ := hfrom k place' hk
    exact h.apart j k old old' key hold hold' (heq ▸ hkeyj) (heq' ▸ hkeyk)
  · intro j recordId hmem
    obtain ⟨old, hold, hrecord⟩ := h.traced j recordId hmem
    rw [getElem?_set_place hplace]
    split
    next heq =>
      rw [heq, hplace] at hold
      cases hold
      exact ⟨q', rfl, hid.trans hrecord⟩
    next => exact ⟨old, hold, hrecord⟩

/-! ### A write -/

def afterWrite (input : CreateExecutionRecordInput) (s : ControlState) : ControlState :=
  { s with
    records := OrderedMap.set input.key (input.row (s.records.lookup input.key) s.nextId) s.records
    nextId := s.nextId + 1 }

theorem lookup_afterWrite (input : CreateExecutionRecordInput) (s : ControlState)
    (key : RecordKey) : (afterWrite input s).records.lookup key =
      if key = input.key then some (input.row (s.records.lookup input.key) s.nextId)
      else s.records.lookup key :=
  OrderedMap.lookup_set _ _ _ _

theorem Numbered.afterWrite (h : Numbered s) (input : CreateExecutionRecordInput) :
    Numbered (afterWrite input s) := by
  -- the written record against a record under another key
  have hwritten : ∀ key row, s.records.lookup key = some row →
      (input.row (s.records.lookup input.key) s.nextId).id = row.id → input.key = key := by
    intro key row hrow hid
    cases hold : s.records.lookup input.key with
    | none =>
      rw [hold] at hid
      have hnext : s.nextId = row.id := hid
      have hlt := h.given key row hrow
      omega
    | some old =>
      rw [hold] at hid
      exact h.distinct input.key key old row hold hrow hid
  constructor
  · intro key key' row row' hrow hrow' hid
    rw [lookup_afterWrite] at hrow hrow'
    split at hrow <;> split at hrow'
    next heq heq' => exact heq.trans heq'.symm
    next heq _ =>
      cases hrow
      exact heq.trans (hwritten key' row' hrow' hid)
    next _ heq' =>
      cases hrow'
      exact (hwritten key row hrow hid.symm).symm.trans heq'.symm
    next => exact h.distinct key key' row row' hrow hrow' hid
  · intro key row hrow
    show row.id < s.nextId + 1
    rw [lookup_afterWrite] at hrow
    split at hrow
    next =>
      cases hrow
      cases hold : s.records.lookup input.key with
      | none => exact Nat.lt_succ_self _
      | some old => exact Nat.lt_succ_of_lt (h.given input.key old hold)
    next => exact Nat.lt_succ_of_lt (h.given key row hrow)

theorem Held.write (h : Held s places writes) (hplace : places[i]? = some q)
    (input : CreateExecutionRecordInput) {written : ExecutionRecord}
    (hwritten : written = input.row (s.records.lookup input.key) s.nextId)
    (hintent : written.executionIntentId = input.executionIntentId)
    (hother : ∀ (j : ℕ) (place : Place), places[j]? = some place → place.key? = some input.key →
      j = i) (htraced : ∀ recordId, q.recordId? = some recordId → recordId = written.id) :
    Held (afterWrite input s)
      (places.set i (.opened input.key input.executionIntentId written.id input.executionState))
      (writes ++ [(i, written.id)]) := by
  refine ⟨h.numbered.afterWrite input, fun j place hj => ?_, ?_, ?_⟩
  · rw [getElem?_set_place hplace] at hj
    split at hj
    next =>
      cases hj
      refine ⟨written, ?_, rfl, hintent, ?_⟩
      · rw [lookup_afterWrite, if_pos rfl, hwritten]
      · rw [hwritten]
        rfl
    next hne =>
      have hstored := h.stored j place hj
      cases place with
      | unopened => trivial
      | opened key intentId recordId state =>
        -- another call's record is under another key
        have hkey : key ≠ input.key := fun heq => hne (hother j _ hj (congrArg some heq))
        show ∃ row, (afterWrite input s).records.lookup key = some row ∧ _
        rw [lookup_afterWrite, if_neg hkey]
        exact hstored
  · intro j k place place' key hj hk hkeyj hkeyk
    rw [getElem?_set_place hplace] at hj hk
    split at hj <;> split at hk
    next heq heq' => exact heq.trans heq'.symm
    next heq _ =>
      cases hj
      exact heq.trans (hother k place' hk (hkeyk.trans hkeyj.symm)).symm
    next _ heq' =>
      cases hk
      exact (hother j place hj (hkeyj.trans hkeyk.symm)).trans heq'.symm
    next => exact h.apart j k place place' key hj hk hkeyj hkeyk
  · intro j recordId hmem
    rw [getElem?_set_place hplace]
    rcases mem_append.mp hmem with hold | hnew
    · obtain ⟨old, hplaceOld, hrecord⟩ := h.traced j recordId hold
      split
      next heq =>
        rw [heq, hplace] at hplaceOld
        cases hplaceOld
        exact ⟨_, rfl, congrArg some (htraced recordId hrecord).symm⟩
      next => exact ⟨old, hplaceOld, hrecord⟩
    · cases mem_singleton.mp hnew
      rw [if_pos rfl]
      exact ⟨_, rfl, rfl⟩

theorem handle_createRecord (input : CreateExecutionRecordInput) (s : ControlState) :
    handle (.createRecord input) s = (.error .repository, s) ∨ handle (.createRecord input) s =
        (.ok (input.row (s.records.lookup input.key) s.nextId), afterWrite input s) := by
  unfold handle
  split
  · exact .inl rfl
  · exact .inr rfl

/-- **One request.** A first write that finds no record makes its own, and a later write finds the
record of its call. -/
theorem Held.step (h : Held s places writes) (hplace : places[i]? = some q)
    (hallowed : recordProtocol.allows q e) (hfresh : FindsNoRecord s e) :
    Held (handle e s).2 (places.set i (recordProtocol.next q e (handle e s).1))
      (writes ++ writesOf i e s) := by
  by_cases hwrite : ∃ input, e = .createRecord input
  · obtain ⟨input, rfl⟩ := hwrite
    unfold writesOf
    dsimp only
    rcases handle_createRecord input s with heq | heq
    · -- the statement fails
      have hstay : recordProtocol.next q (.createRecord input) (.error .repository) = q := by
        cases q <;> rfl
      rw [heq]
      dsimp only
      rw [hstay, set_place hplace, append_nil]
      exact h
    · rw [heq]
      dsimp only
      cases q with
      | unopened intentId =>
        obtain ⟨-, hcreated⟩ := hallowed
        have hnone : s.records.lookup input.key = none := hfresh hcreated
        refine h.write hplace input rfl ?_ ?_ nofun
        · rw [hnone]
          rfl
        · intro j place hj hkey
          -- a call that has opened the key has stored its record there
          cases place with
          | unopened => cases hkey
          | opened key intentId' recordId state =>
            cases hkey
            obtain ⟨row, hrow, -⟩ := h.stored j _ hj
            rw [hnone] at hrow
            cases hrow
      | opened key intentId recordId state =>
        obtain ⟨hkey, hintent, -⟩ := hallowed
        obtain ⟨row, hrow, hid, hrowIntent, -⟩ := h.stored i _ hplace
        rw [hkey] at hrow
        have hrecordId : (input.row (s.records.lookup input.key) s.nextId).id = recordId := by
          rw [hrow]
          exact hid
        have hown := h.write hplace input rfl (by rw [hrow]; exact hrowIntent.trans hintent)
          (fun j place hj hkeyj =>
            h.apart j i place _ input.key hj hplace hkeyj (congrArg some hkey))
          (fun recordId' hrecordId' => by cases hrecordId'; exact hrecordId.symm)
        show Held _ (places.set i (.opened key intentId recordId input.executionState)) _
        rw [hkey, hintent, ← hrecordId]
        exact hown
  · have haside : ∀ input, e ≠ .createRecord input := fun input heq => hwrite ⟨input, heq⟩
    obtain ⟨hkey, hid, hstored⟩ := next_of_aside (q := q) haside (handle e s).1
    have hwrites : writesOf i e s = [] := by
      cases e with
      | createRecord input => exact absurd rfl (haside input)
      | _ => rfl
    rw [hwrites, append_nil]
    exact h.move hplace (sameRecords_handle haside) hkey hid (hstored s)

/-! ## One step -/

section

variable (h : Held s places writes) (hplace : places[i]? = some q)

include h hplace

theorem Held.own {input : CreateExecutionRecordInput}
    (hallowed : recordProtocol.allows q (.createRecord input))
    (hfresh : FindsNoRecord s (.createRecord input)) {row : ExecutionRecord}
    (hrow : s.records.lookup input.key = some row) :
    row.executionIntentId = input.executionIntentId ∧
      Leads row.executionState input.executionState := by
  cases q with
  | unopened intentId =>
    obtain ⟨-, hcreated⟩ := hallowed
    rw [hfresh hcreated] at hrow
    cases hrow
  | opened key intentId recordId state =>
    obtain ⟨hkey, hintent, hleads⟩ := hallowed
    obtain ⟨stored, hstored, -, hstoredIntent, hstate⟩ := h.stored i _ hplace
    rw [hkey, hrow] at hstored
    cases hstored
    rw [hstoredIntent, hstate]
    exact ⟨hintent, hleads⟩

theorem Held.kept (hallowed : recordProtocol.allows q e) (hfresh : FindsNoRecord s e)
    {key : RecordKey} {row : ExecutionRecord} (hrow : s.records.lookup key = some row) :
    ∃ row', (handle e s).2.records.lookup key = some row' ∧ row'.id = row.id ∧
      row'.executionIntentId = row.executionIntentId ∧ (row'.executionState = row.executionState ∨
        Leads row.executionState row'.executionState) := by
  by_cases hwrite : ∃ input, e = .createRecord input
  · obtain ⟨input, rfl⟩ := hwrite
    rcases handle_createRecord input s with heq | heq
    · rw [heq]
      exact ⟨row, hrow, rfl, rfl, .inl rfl⟩
    · rw [heq]
      dsimp only
      rw [lookup_afterWrite]
      split
      next hkey =>
        rw [hkey] at hrow
        rw [hrow]
        exact ⟨_, rfl, rfl, rfl, .inr (h.own hplace hallowed hfresh hrow).2⟩
      next => exact ⟨row, hrow, rfl, rfl, .inl rfl⟩
  · have hsame := sameRecords_handle (s := s) fun input heq => hwrite ⟨input, heq⟩
    rw [hsame.1]
    exact ⟨row, hrow, rfl, rfl, .inl rfl⟩

theorem Held.created (hallowed : recordProtocol.allows q e) {key : RecordKey}
    {row' : ExecutionRecord} (hrow' : (handle e s).2.records.lookup key = some row')
    (hnone : s.records.lookup key = none) : row'.executionState = .CREATED := by
  by_cases hwrite : ∃ input, e = .createRecord input
  · obtain ⟨input, rfl⟩ := hwrite
    rcases handle_createRecord input s with heq | heq
    · rw [heq, hnone] at hrow'
      cases hrow'
    · rw [heq] at hrow'
      dsimp only at hrow'
      rw [lookup_afterWrite] at hrow'
      split at hrow'
      next hkey =>
        cases hrow'
        cases q with
        | unopened intentId => exact hallowed.2
        | opened key' intentId recordId state =>
          -- the record that the call has opened is still there
          obtain ⟨stored, hstored, -⟩ := h.stored i _ hplace
          rw [hallowed.1, ← hkey, hnone] at hstored
          cases hstored
      next =>
        rw [hnone] at hrow'
        cases hrow'
  · have hsame := sameRecords_handle (s := s) fun input heq => hwrite ⟨input, heq⟩
    rw [hsame.1, hnone] at hrow'
    cases hrow'

end

theorem Held.unshared (h : Held s places writes) {j recordId : ℕ}
    (hi : (i, recordId) ∈ writes) (hj : (j, recordId) ∈ writes) : i = j := by
  obtain ⟨q, hq, hid⟩ := h.traced i recordId hi
  obtain ⟨q', hq', hid'⟩ := h.traced j recordId hj
  cases q with
  | unopened => cases hid
  | opened key intentId recordId' state =>
    cases q' with
    | unopened => cases hid'
    | opened key' intentId' recordId'' state' =>
      cases hid
      cases hid'
      obtain ⟨row, hrow, hrowId, -⟩ := h.stored i _ hq
      obtain ⟨row', hrow', hrowId', -⟩ := h.stored j _ hq'
      have hkey : key = key' :=
        h.numbered.distinct key key' row row' hrow hrow' (hrowId.trans hrowId'.symm)
      exact h.apart i j _ _ key hq hq' rfl (congrArg some hkey.symm)

theorem Held.start (h : Held s places writes) : Held s (places ++ [.unopened none]) writes := by
  -- a place that has opened something is an old one
  have hold : ∀ (j : ℕ) (place : Place), (places ++ [Place.unopened none])[j]? = some place →
      places[j]? = some place ∨ place = .unopened none := by
    intro j place hj
    rw [getElem?_append] at hj
    split at hj
    · exact .inl hj
    · exact .inr (mem_singleton.mp (mem_of_getElem? hj))
  refine ⟨h.numbered, fun j place hj => ?_, ?_, ?_⟩
  · rcases hold j place hj with hj | hnew
    · exact h.stored j place hj
    · rw [hnew]
      trivial
  · intro j k place place' key hj hk hkeyj hkeyk
    rcases hold j place hj with hj | hnew
    · rcases hold k place' hk with hk | hnew
      · exact h.apart j k place place' key hj hk hkeyj hkeyk
      · rw [hnew] at hkeyk
        cases hkeyk
    · rw [hnew] at hkeyj
      cases hkeyj
  · intro j recordId hmem
    obtain ⟨place, hj, hid⟩ := h.traced j recordId hmem
    refine ⟨place, ?_, hid⟩
    rw [List.getElem?_append_left (List.getElem?_eq_some_iff.mp hj).1]
    exact hj

/-- Every call is at a place of the protocol, and holds its record. -/
def HeldSystem (r : RecordSystem) : Prop :=
  ∃ places, Held r.system.shared places r.writes ∧
    List.Forall₂ (fun q program => Obeys recordProtocol (fun _ _ => True) q program) places
      r.system.running

/-- **One step** under the guard. -/
theorem HeldSystem.step {r t : RecordSystem} {action : Action ControlOperation}
    (hr : HeldSystem r) (hfresh : FreshRecord r action)
    (hstep : tracedStep config r action = some t) : RecordsIsolated r action t ∧ HeldSystem t := by
  obtain ⟨places, hheld, hobeys⟩ := hr
  obtain ⟨system, hsystem, rfl⟩ := Option.map_eq_some_iff.mp hstep
  cases action with
  | start operation =>
    cases hsystem
    dsimp only
    rw [append_nil]
    refine ⟨⟨fun key row hrow => ⟨row, hrow, rfl, rfl, .inl rfl⟩, ?_, nofun, ?_, hheld.numbered⟩,
      places ++ [.unopened none], hheld.start,
      rel_append hobeys (.cons (obeys_code config operation) .nil)⟩
    · intro key row' hrow' hnone
      rw [show r.system.shared.records.lookup key = some row' from hrow'] at hnone
      cases hnone
    · exact fun i j recordId hi hj => hheld.unshared hi hj
  | advance i =>
    simp only [controlStep, Processes.step] at hsystem
    split at hsystem
    next e next hat =>
      cases hsystem
      have hasked : asked r.system i = some e := by rw [asked, hat]
      obtain ⟨q, hplace, hallowed, hobeys'⟩ := place_of_ask hobeys hat
      have hguard : FindsNoRecord r.system.shared e := hfresh e hasked
      have hheld' := hheld.step hplace hallowed hguard
      dsimp only
      rw [hasked, Option.map_some, Option.getD_some]
      refine ⟨⟨fun key row hrow => hheld.kept hplace hallowed hguard hrow,
        fun key row' hrow' hnone => hheld.created hplace hallowed hrow' hnone, ?_,
        fun j k recordId hj hk => hheld'.unshared hj hk, hheld'.numbered⟩,
        _, hheld', hobeys' _ trivial⟩
      intro j hj input hinput row hrow
      cases hj
      rw [hasked] at hinput
      cases hinput
      exact (hheld.own hplace hallowed hguard hrow).1
    next => cases hsystem

theorem Unopened.held {r : RecordSystem} (hr : Unopened r) : HeldSystem r := by
  refine ⟨[], ⟨hr.numbered, nofun, nofun, ?_⟩, ?_⟩
  · rw [hr.writes]
    exact nofun
  · rw [hr.running]
    exact .nil

/-- **Records are isolated** in every run whose first writes find no record. -/
theorem records_isolated (config : GatewayConfig) {r t u : RecordSystem}
    {action : Action ControlOperation} (hr : Unopened r)
    (hrun : Run (tracedStep config) FreshRecord r t) (hfresh : FreshRecord t action)
    (hstep : tracedStep config t action = some u) : RecordsIsolated t action u := by
  have hheld : HeldSystem t :=
    hrun.invariant hr.held fun _ _ _ hheld hfresh hstep => (hheld.step hfresh hstep).2
  exact (hheld.step hfresh hstep).1

/-! ### Two users of one market -/

/-- A user's call without a plan, under a key of the user's own. -/
def userCall (principalId market : String) : ExecuteCall :=
  { callEnding (.answered ⟨.COMPLETED, none⟩) with
    request := { soundRequest with
      routePlanId := none
      canonicalExecutableMarketId := market
      userWalletReference := ⟨principalId, none⟩
      idempotencyKey := some principalId } }

/-- One user's call completes, and another user's has come to its first write. -/
def settledThenCalled (market : String) : List (Action ControlOperation) :=
  .start (.execute (userCall "user-1" "market-1")) :: List.replicate 25 (.advance 0) ++
    .start (.execute (userCall "user-2" market)) :: List.replicate 4 (.advance 1)

def nobody : RecordSystem := ⟨⟨emptyTables, []⟩, []⟩

theorem nobody_unopened : Unopened nobody := by
  have hempty : ∀ key, nobody.system.shared.records.lookup key = none := fun _ => rfl
  refine ⟨rfl, rfl, ?_, ?_⟩
  · intro key key' row row' hrow
    rw [hempty] at hrow
    cases hrow
  · intro key row hrow
    rw [hempty] at hrow
    cases hrow

/-- **Two users of one market** without a plan share a record, and the second call takes it from
`SETTLED` back to `CREATED`. -/
theorem settled_recreated : ¬ ∀ config r t u action, Unopened r → Reaches (tracedStep config) r t →
    tracedStep config t action = some u → RecordsIsolated t action u := by
  intro h
  have hfound : (play (tracedStep serverConfig) (fun _ _ => True) (settledThenCalled "market-1")
      nobody).any (fun t => (tracedStep serverConfig t (.advance 1)).any fun u =>
        t.system.shared.records.lookup ⟨"LIMITLESS", "SOR_PLAN:market-1"⟩ =
          some ⟨1, 0, .SETTLED, .pending, .settled⟩ ∧
        u.system.shared.records.lookup ⟨"LIMITLESS", "SOR_PLAN:market-1"⟩ =
          some ⟨1, 0, .CREATED, .pending, .pending⟩) = true := by
    decide +kernel
  obtain ⟨t, hplay, hfound⟩ := (Option.any_eq_true _ _).mp hfound
  obtain ⟨u, hstep, hfound⟩ := (Option.any_eq_true _ _).mp hfound
  obtain ⟨hsettled, hcreated⟩ := of_decide_eq_true hfound
  have hreach : Reaches (tracedStep serverConfig) nobody t := Run.of_play _ hplay
  obtain ⟨row', hrow', -, -, hstate⟩ :=
    (h serverConfig nobody t u (.advance 1) nobody_unopened hreach hstep).kept _ _ hsettled
  rw [hcreated] at hrow'
  cases hrow'
  rcases hstate with hsame | hleads
  · cases hsame
  · exact not_leads_CREATED _ hleads

/-- Users of two markets have a record each. -/
theorem records_isolated_markets : ∃ t u, Run (tracedStep serverConfig) FreshRecord nobody t ∧
      tracedStep serverConfig t (.advance 1) = some u ∧ RecordsIsolated t (.advance 1) u := by
  have hfound : (play (tracedStep serverConfig) FreshRecord (settledThenCalled "market-2")
      nobody).any (fun t => decide (FreshRecord t (.advance 1)) &&
        (tracedStep serverConfig t (.advance 1)).isSome) = true := by
    decide +kernel
  obtain ⟨t, hplay, hfound⟩ := (Option.any_eq_true _ _).mp hfound
  obtain ⟨hfresh, hsome⟩ := Bool.and_eq_true_iff.mp hfound
  obtain ⟨u, hstep⟩ := Option.isSome_iff_exists.mp hsome
  have hrun : Run (tracedStep serverConfig) FreshRecord nobody t := Run.of_play _ hplay
  exact ⟨t, u, hrun, hstep, records_isolated serverConfig nobody_unopened hrun
    (of_decide_eq_true hfresh) hstep⟩

end LotusRfq.Control.Records
