import LotusRfq.Rfq.RiskEngine

/-!
# LotusRfq — calls of the risk engine over one store

Validations, updates and rollbacks in any interleaving, with locks that expire and updates that
crash. A validation that was accepted is open until its execution is performed or given up.

* **`updateStep_cases`** — what one action of an update does: it marks the execution, it applies it,
  or it leaves the exposure and the journal of executions alone.
-/

namespace LotusRfq.Rfq

open Calls Transitions List

/-- A validation, and whether its execution has been performed or given up. -/
structure Validation where
  call : ValidateCall
  closed : Bool

structure RiskSystem where
  store : RiskStore
  validations : List Validation
  executions : List ExecutionResult
  updates : List UpdateCall
  rollbacks : List RollbackCall

def RiskSystem.initial (store : RiskStore) : RiskSystem := ⟨store, [], [], [], []⟩

inductive RiskAction where
  | startValidation (rfq : RFQSessionRecord) (quote : RFQQuoteRecord)
  | validate (i : ℕ) (token : String) (reply : Reply Unit)
  | perform (i : ℕ) (exec : ExecutionResult)
  | giveUp (i : ℕ)
  | startUpdate (exec : ExecutionResult)
  | update (i : ℕ) (newId : String) (reply : Reply Unit)
  | crashUpdate (i : ℕ)
  | startRollback (reservationToken : String)
  | rollback (i : ℕ) (reply : Reply Unit)
  | expireLock (key : String)

def RiskSystem.close (sys : RiskSystem) (i : ℕ) : RiskSystem :=
  { sys with validations := sys.validations.modify i fun validation =>
      { validation with closed := true } }

def riskAct (config : RiskConfig) (sys : RiskSystem) : RiskAction → Option RiskSystem
  | .startValidation rfq quote =>
    some { sys with validations := sys.validations ++ [⟨ValidateCall.start rfq quote, false⟩] }
  | .validate i token reply =>
    match sys.validations[i]? with
    | none => none
    | some validation =>
      (validateStep config sys.store validation.call token reply).map fun (store, call) =>
        { sys with
          store := store
          validations := sys.validations.set i { validation with call := call } }
  | .perform i exec =>
    some { sys.close i with executions := sys.executions ++ [exec] }
  | .giveUp i => some (sys.close i)
  | .startUpdate exec => some { sys with updates := sys.updates ++ [UpdateCall.start exec] }
  | .update i newId reply =>
    match sys.updates[i]? with
    | none => none
    | some call =>
      (updateStep sys.store call newId reply).map fun (store, next) =>
        { sys with store := store, updates := sys.updates.set i next }
  | .crashUpdate i =>
    match sys.updates[i]? with
    | none => none
    | some call => some { sys with updates := sys.updates.set i { call with phase := .crashed } }
  | .startRollback token =>
    some { sys with rollbacks := sys.rollbacks ++ [RollbackCall.start token] }
  | .rollback i reply =>
    match sys.rollbacks[i]? with
    | none => none
    | some call =>
      (rollbackStep sys.store call reply).map fun (store, next) =>
        { sys with store := store, rollbacks := sys.rollbacks.set i next }
  | .expireLock key => some { sys with store := sys.store.expireLock key }

/-! ## What a step leaves alone -/

variable {config : RiskConfig} {store store' : RiskStore} {reply : Reply Unit}

def isExecution (executionId : String) (row : JournalRow RiskPayload) : Bool :=
  row.source = "rfq-execution" && row.reference_id = executionId

def RiskStore.applied (store : RiskStore) (executionId : String) : ℕ :=
  store.journal.countP (isExecution executionId)

/-- The tables that only an update of the exposure writes. -/
structure SameExposure (store store' : RiskStore) : Prop where
  exposure : store'.exposure = store.exposure
  idempotency : store'.idempotency = store.idempotency
  applied : ∀ executionId, store'.applied executionId = store.applied executionId

theorem SameExposure.refl (store : RiskStore) : SameExposure store store := ⟨rfl, rfl, fun _ => rfl⟩

theorem lockExposureKey_same (store : RiskStore) (key token : String) :
    SameExposure store (store.lockExposureKey key token) := by
  unfold RiskStore.lockExposureKey
  split
  · exact .refl store
  · exact ⟨rfl, rfl, fun _ => rfl⟩

theorem unlockExposureKey_same (store : RiskStore) (key token : String) :
    SameExposure store (store.unlockExposureKey key token) := ⟨rfl, rfl, fun _ => rfl⟩

theorem countP_eraseLast {α : Type} {p q : α → Bool} (h : ∀ a, p a = true → q a = false)
    (rows : List α) : (eraseLast p rows).countP q = rows.countP q := by
  have herase : ∀ rows : List α, (rows.eraseP p).countP q = rows.countP q := by
    intro rows
    induction rows with
    | nil => rfl
    | cons row rest ih =>
      by_cases hp : p row = true
      · rw [eraseP_cons_of_pos hp, countP_cons_of_neg (by simp [h row hp])]
      · rw [eraseP_cons_of_neg hp, countP_cons, countP_cons, ih]
  unfold eraseLast
  rw [countP_reverse, herase, countP_reverse]

theorem deleteReservation_same (store : RiskStore) (reservationToken : String) :
    SameExposure store (store.deleteReservation reservationToken) := by
  refine ⟨rfl, rfl, fun executionId => countP_eraseLast (fun row hrow => ?_) store.journal⟩
  unfold isReservation at hrow
  split at hrow
  next =>
    simp only [Bool.and_eq_true, decide_eq_true_eq] at hrow
    simp [isExecution, hrow.1]
  next => cases hrow

theorem journal_append_same (store : RiskStore) {row : JournalRow RiskPayload}
    (hrow : row.source = "pre-exec-reserve") :
    SameExposure store { store with journal := store.journal ++ [row] } := by
  refine ⟨rfl, rfl, fun executionId => ?_⟩
  have hno : isExecution executionId row = false := by simp [isExecution, hrow]
  unfold RiskStore.applied
  rw [countP_append, countP_cons_of_neg (by simp [hno]), countP_nil, Nat.add_zero]

theorem rollbackStep_same {call call' : RollbackCall}
    (h : rollbackStep store call reply = some (store', call')) : SameExposure store store' := by
  obtain ⟨⟨next, phase⟩, hsettle, heq⟩ := Option.map_eq_some_iff.mp h
  cases heq
  obtain ⟨awaited, hawaited, hsettle⟩ := Option.bind_eq_some_iff.mp hsettle
  have heffect : SameExposure store awaited.effect := by
    unfold rollbackAwaits at hawaited
    split at hawaited <;> cases hawaited
    case h_2 => exact deleteReservation_same store _
    case h_4 => exact unlockExposureKey_same store _ _
    all_goals exact .refl store
  exact Awaited.settle_elim (P := fun s _ => SameExposure store s) hsettle heffect
    (fun _ => heffect) fun _ => .refl store

/-- A validation that is about to commit a row has made it a reservation. -/
def ValidatePhase.reserves : ValidatePhase → Prop
  | .reserving _ row | .committing _ row => row.source = "pre-exec-reserve"
  | _ => True

section

variable {call call' : ValidateCall} {token : String} (hreserves : call.phase.reserves)
  (h : validateStep config store call token reply = some (store', call'))

include hreserves h

theorem validateStep_reserves : call'.phase.reserves := by
  obtain ⟨⟨next, phase⟩, hsettle, heq⟩ := Option.map_eq_some_iff.mp h
  cases heq
  obtain ⟨awaited, hawaited, hsettle⟩ := Option.bind_eq_some_iff.mp hsettle
  have hlockAgain (attempts : ℕ) : (lockAgain attempts).reserves := by
    unfold lockAgain
    split <;> trivial
  have hboth : awaited.onReturn.reserves ∧ ∀ applied error,
      (awaited.onThrow applied error).reserves := by
    unfold validateAwaits at hawaited
    simp only at hawaited
    split at hawaited <;> cases hawaited
    case h_1 =>
      refine ⟨?_, fun _ _ => hlockAgain _⟩
      simp only
      split
      · exact hlockAgain _
      · trivial
    case h_4 =>
      refine ⟨?_, fun _ _ => trivial⟩
      simp only
      split
      · trivial
      · split <;> trivial
    case h_5 =>
      refine ⟨?_, fun _ _ => trivial⟩
      simp only [selectedExposure]
      split
      · trivial
      · rfl
    case h_6 hphase =>
      rw [hphase] at hreserves
      exact ⟨hreserves, fun _ _ => trivial⟩
    all_goals exact ⟨trivial, fun _ _ => trivial⟩
  exact Awaited.settle_elim (P := fun _ phase => phase.reserves) hsettle hboth.1
    (fun error => hboth.2 true error) fun error => hboth.2 false error

theorem validateStep_same : SameExposure store store' := by
  obtain ⟨⟨next, phase⟩, hsettle, heq⟩ := Option.map_eq_some_iff.mp h
  cases heq
  obtain ⟨awaited, hawaited, hsettle⟩ := Option.bind_eq_some_iff.mp hsettle
  have heffect : SameExposure store awaited.effect := by
    unfold validateAwaits at hawaited
    simp only at hawaited
    split at hawaited <;> cases hawaited
    case h_1 => exact lockExposureKey_same store _ _
    case h_7 hphase =>
      rw [hphase] at hreserves
      exact journal_append_same store hreserves
    case h_9 => exact unlockExposureKey_same store _ _
    all_goals exact .refl store
  exact Awaited.settle_elim (P := fun s _ => SameExposure store s) hsettle heffect
    (fun _ => heffect) fun _ => .refl store

end

/-! ## One action of an update -/

/-- An update that has found or written the marker of its execution. -/
def UpdatePhase.marked : UpdatePhase → Bool
  | .marking | .thrown _ | .crashed => false
  | _ => true

inductive UpdateCases (store : RiskStore) (call : UpdateCall) (newId : String) :
    Reply Unit → RiskStore → UpdatePhase → Prop where
  | marks (hphase : call.phase = .marking) (hnew : call.exec.id ∉ store.idempotency) :
      UpdateCases store call newId .done (store.markExecution call.exec.id) .updating
  | marksLost (hphase : call.phase = .marking) (error : String) :
      UpdateCases store call newId (.lost error) (store.markExecution call.exec.id) (.thrown error)
  | applies (hphase : call.phase = .updating)
      (hfresh : newId ∉ store.exposure.map ExposureRow.id) :
      UpdateCases store call newId .done (store.applyExecution call.exec newId) .incrementing
  | appliesLost (hphase : call.phase = .updating)
      (hfresh : newId ∉ store.exposure.map ExposureRow.id) (error : String) :
      UpdateCases store call newId (.lost error) (store.applyExecution call.exec newId)
        (.thrown error)
  | refused (hphase : call.phase = .updating) (error : String) :
      UpdateCases store call newId (.refused error) store (.thrown error)
  | other {reply : Reply Unit} {store' : RiskStore} {phase : UpdatePhase}
      (hphase : call.phase ≠ .updating) (hsame : SameExposure store store')
      (hnext : phase ≠ .updating)
      (hmarked : phase.marked = true →
        call.phase.marked = true ∨ call.exec.id ∈ store.idempotency)
      (hlost : call.phase = .marking → ∀ error, reply ≠ .lost error) :
      UpdateCases store call newId reply store' phase

theorem UpdateCases.keeps {call : UpdateCall} {newId : String} {phase : UpdatePhase}
    (hnot : call.phase ≠ .updating) (hwas : call.phase.marked = true) (hnext : phase ≠ .updating) :
    UpdateCases store call newId reply store phase :=
  .other hnot (.refl store) hnext (fun _ => .inl hwas) fun hmarking => by
    rw [hmarking] at hwas
    cases hwas

theorem updateCases_settle {call : UpdateCall} {newId : String}
    {awaited : Awaited RiskStore UpdatePhase} {phase : UpdatePhase}
    (hawaited : updateAwaits store call newId = some awaited)
    (hsettle : awaited.settle store reply = some (store', phase)) :
    UpdateCases store call newId reply store' phase := by
  unfold updateAwaits at hawaited
  simp only at hawaited
  split at hawaited
  case h_1 hphase =>
    cases hawaited
    have hnot : call.phase ≠ .updating := by rw [hphase]; exact nofun
    cases reply with
    | lost error => cases hsettle; exact .marksLost hphase error
    | refused error =>
      cases hsettle
      exact .other hnot (.refl store) nofun nofun nofun
    | answered => cases hsettle
    | done =>
      rw [Awaited.settle, Option.some.injEq, Prod.mk.injEq] at hsettle
      obtain ⟨rfl, rfl⟩ := hsettle
      by_cases hmem : call.exec.id ∈ store.idempotency
      · have hsame : SameExposure store (store.markExecution call.exec.id) := by
          refine ⟨rfl, ?_, fun _ => rfl⟩
          show (if call.exec.id ∈ store.idempotency then store.idempotency else _) = _
          rw [if_pos hmem]
        simp only [if_pos hmem]
        refine .other hnot hsame ?_ (fun _ => .inr hmem) nofun
        unfold alreadyApplied
        split <;> exact nofun
      · simp only [if_neg hmem]
        exact .marks hphase hmem
  case h_2 hphase =>
    split at hawaited
    next => cases hawaited
    next hfresh =>
      cases hawaited
      cases reply with
      | done => cases hsettle; exact .applies hphase hfresh
      | lost error => cases hsettle; exact .appliesLost hphase hfresh error
      | refused error => cases hsettle; exact .refused hphase error
      | answered => cases hsettle
  case h_3 hphase =>
    cases hawaited
    have hwas : call.phase.marked = true := by rw [hphase]; rfl
    refine Awaited.settle_elim (P := fun s next => UpdateCases store call newId reply s next)
      hsettle (.keeps (by simp [hphase]) hwas ?_) ?_ ?_
    · unfold afterIncrement
      split <;> exact nofun
    · exact fun error => .keeps (by simp [hphase]) hwas nofun
    · exact fun error => .keeps (by simp [hphase]) hwas nofun
  case h_4 hphase =>
    cases hawaited
    have hwas : call.phase.marked = true := by rw [hphase]; rfl
    have hkeeps (next : UpdatePhase) (hnext : next ≠ .updating) :
        UpdateCases store call newId reply store next :=
      .keeps (by simp [hphase]) hwas hnext
    exact Awaited.settle_elim (P := fun s next => UpdateCases store call newId reply s next)
      hsettle (hkeeps _ nofun) (fun _ => hkeeps _ nofun)
      fun _ => hkeeps _ nofun
  case h_5 => cases hawaited

/-- **The action inverted.** -/
theorem updateStep_cases {call call' : UpdateCall} {newId : String}
    (h : updateStep store call newId reply = some (store', call')) :
    call'.exec = call.exec ∧ UpdateCases store call newId reply store' call'.phase := by
  unfold updateStep at h
  split at h
  case h_1 rollback hphase =>
    obtain ⟨⟨next, rollback'⟩, hstep, heq⟩ := Option.map_eq_some_iff.mp h
    cases heq
    refine ⟨rfl, .other (by rw [hphase]; exact nofun) (rollbackStep_same hstep)
      ?_ (fun _ => .inl (by rw [hphase]; rfl)) (by rw [hphase]; exact nofun)⟩
    unfold releasedAgain
    simp only
    split <;> exact nofun
  case h_2 rollback hphase =>
    obtain ⟨⟨next, rollback'⟩, hstep, heq⟩ := Option.map_eq_some_iff.mp h
    cases heq
    refine ⟨rfl, .other (by rw [hphase]; exact nofun) (rollbackStep_same hstep)
      ?_ (fun _ => .inl (by rw [hphase]; rfl)) (by rw [hphase]; exact nofun)⟩
    unfold released
    simp only
    split <;> exact nofun
  case h_3 =>
    obtain ⟨⟨next, phase⟩, hsettle, heq⟩ := Option.map_eq_some_iff.mp h
    cases heq
    obtain ⟨awaited, hawaited, hsettle⟩ := Option.bind_eq_some_iff.mp hsettle
    exact ⟨rfl, updateCases_settle hawaited hsettle⟩

end LotusRfq.Rfq
