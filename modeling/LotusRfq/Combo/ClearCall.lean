import LotusRfq.Combo.Clearing
import LotusRfq.Lib.Calls
import LotusRfq.Lib.Transitions

/-!
# LotusRfq — `MultiPartyClearingExecutor.execute`

Any number of calls over one database, a call as a process whose actions are its code between two
`await`s. The participants are read first without row locks; whatever fails from there on, the
call looks its round up under the signature that the plan came with, and a round that is found is
its result. Whether the locks are got is left open.

* **`clearStep`** — one action of a call;
* **`clearStep_db`** — a call writes the database by its transaction only.
-/

namespace LotusRfq.Combo

open Calls

structure ClearingExecutionParticipant where
  entityId : String
  userId : String
  state : ComboState
  originalRemaining : SizeVector
  matchedRemaining : SizeVector
  residualRemaining : SizeVector

structure ClearingRoundExecutionResult where
  replayed : Bool
  applied : Bool
  clearingRoundId : String
  compatibilityBucket : String
  residuals : SizeVector
  participantLockOrder : List String
  updatedParticipantIds : List String
  participants : List ClearingExecutionParticipant
  eventCount : ℕ
  signatures : ClearingMatchSignature

def validateRoundPlan (env : ClearingEnv) (roundPlan : ClearingRoundPlan) : Except String Unit :=
  if ¬ Js.hasText roundPlan.compatibilityBucket then .error "compatibility_bucket_required"
  else if roundPlan.selectedGroup.participantIds.length < 2 then
    .error "invalid_round_plan_participants"
  else if ¬ roundPlan.selectedGroup.participantIds.Nodup then
    .error "duplicate_round_plan_participants"
  else if Js.sortWith env.localeCompare roundPlan.selectedGroup.participantIds ≠
      roundPlan.participantLockOrder then
    .error "participant_lock_order_mismatch"
  else .ok ()

/-- What a call is waiting for. The participants are loaded in two rounds, all the combos and then
the legs of each. -/
inductive ClearPhase where
  | locking
  | selectingCombos (participantIds : List String) (rows : List ComboRow)
  | selectingLegs (rows : List ComboRow) (participants : List ParticipantState)
  | clearing (plan : ClearingRoundPlan) (signatures : ClearingMatchSignature)
  | lookingUp (plan : ClearingRoundPlan) (signatures : ClearingMatchSignature)
      (fallback : Option String)
  | refreshing (result : ClearingRoundExecutionResult)
  | resolving (error : String)
  | releasing (result : Except String ClearingRoundExecutionResult)
  | finished (result : ClearingRoundExecutionResult)
  | rejected (error : String)

/-- A call of `execute` and its local variables. -/
structure ClearCall where
  roundPlan : ClearingRoundPlan
  expectedSignatures : ClearingMatchSignature
  participantLockOrder : List String
  phase : ClearPhase

def ClearCall.goTo (call : ClearCall) (phase : ClearPhase) : ClearCall :=
  { call with phase := phase }

def ClearCall.start (env : ClearingEnv) (roundPlan : ClearingRoundPlan) : ClearCall :=
  { roundPlan := roundPlan
    expectedSignatures := buildMatchSignatures env roundPlan
    participantLockOrder := Js.sortWith env.localeCompare roundPlan.participantLockOrder
    phase := match validateRoundPlan env roundPlan with
      | .error error => .rejected error
      | .ok () => .locking }

def toExecutionParticipant (allocation : ParticipantAllocation) : ClearingExecutionParticipant :=
  { entityId := allocation.participant.combo.row.id
    userId := allocation.participant.combo.row.user_id
    state := deriveResidualStateFromVector allocation.residualVector
    originalRemaining := allocation.participant.vector.vector
    matchedRemaining := allocation.matchedVector
    residualRemaining := allocation.residualVector }

def ClearCall.replayResult (call : ClearCall) (plan : ClearingRoundPlan)
    (signatures : ClearingMatchSignature) (roundId : String) : ClearingRoundExecutionResult :=
  { replayed := true
    applied := false
    clearingRoundId := roundId
    compatibilityBucket := plan.compatibilityBucket
    residuals := plan.residuals
    participantLockOrder := call.participantLockOrder
    updatedParticipantIds := []
    participants := []
    eventCount := 0
    signatures := signatures }

def ClearCall.appliedResult (call : ClearCall) (plan : ClearingRoundPlan)
    (signatures : ClearingMatchSignature) (applied : ClearingApplied) :
    ClearingRoundExecutionResult :=
  { replayed := false
    applied := true
    clearingRoundId := applied.clearingRoundId
    compatibilityBucket := plan.compatibilityBucket
    residuals := plan.residuals
    participantLockOrder := call.participantLockOrder
    updatedParticipantIds := call.participantLockOrder
    participants := applied.participants.map toExecutionParticipant
    eventCount := 1
    signatures := signatures }

/-- The participants are loaded: the plan is checked against them. -/
def ClearCall.loaded (call : ClearCall) (env : ClearingEnv)
    (participants : List ParticipantState) : ClearCall :=
  match revalidateRoundPlan env call.roundPlan participants with
  | .error error => call.goTo (.resolving error)
  | .ok plan =>
    match allocateParticipantResiduals env plan.selectedGroup participants plan.residuals with
    | .error error => call.goTo (.resolving error)
    | .ok _ =>
      call.goTo (.clearing
        { plan with participantLockOrder := call.participantLockOrder }
        (buildMatchSignatures env plan))

/-- The next participant's legs are selected, or all of them are. -/
def ClearCall.loading (call : ClearCall) (env : ClearingEnv) (rows : List ComboRow)
    (participants : List ParticipantState) : ClearCall :=
  match rows with
  | [] => call.loaded env participants
  | _ => call.goTo (.selectingLegs rows participants)

def loadExistingRoundId (db : ComboDb) (signatures : ClearingMatchSignature) : Option String :=
  (db.rounds.find? fun round => round.participant_set_hash = signatures.participantSetHash ∧
    round.match_signature_hash = signatures.matchSignatureHash).map ClearingRoundRow.id

def clearAwaits (env : ClearingEnv) (db : ComboDb) (call : ClearCall) :
    Option (Awaited ComboDb ClearCall) :=
  let resolve (_ : Bool) (error : String) : ClearCall := call.goTo (.resolving error)
  match call.phase with
  | .finished _ | .rejected _ | .clearing _ _ => none
  | .locking =>
    some
      { effect := db
        onReturn := call.goTo (.selectingCombos call.participantLockOrder [])
        onThrow := fun _ error => call.goTo (.rejected error) }
  | .selectingCombos [] rows => some ⟨db, call.loading env rows [], resolve⟩
  | .selectingCombos (participantId :: rest) rows =>
    some
      { effect := db
        onReturn := match Tables.select ComboRow.id participantId db.combos with
          | none => call.goTo (.resolving ("missing_clearing_participant:" ++ participantId))
          | some row =>
            match rest with
            | [] => call.loading env (rows ++ [row]) []
            | _ => call.goTo (.selectingCombos rest (rows ++ [row]))
        onThrow := resolve }
  | .selectingLegs [] participants => some ⟨db, call.loaded env participants, resolve⟩
  | .selectingLegs (row :: rest) participants =>
    some
      { effect := db
        onReturn := match toParticipant row.id (some ⟨row, selectLegs db row.id⟩) with
          | .error error => call.goTo (.resolving error)
          | .ok participant => call.loading env rest (participants ++ [participant])
        onThrow := resolve }
  | .lookingUp plan signatures fallback =>
    let found (roundId : Option String) (error : String) : ClearCall :=
      match roundId.orElse fun _ => fallback with
      | none => call.goTo (.resolving error)
      | some roundId => call.goTo (.refreshing (call.replayResult plan signatures roundId))
    some
      { effect := db
        onReturn := found (loadExistingRoundId db signatures) "existing_clearing_round_not_found"
        onThrow := fun _ error => found none error }
  | .refreshing result => some ⟨db, call.goTo (.releasing (.ok result)), resolve⟩
  | .resolving error =>
    some
      { effect := db
        onReturn := match loadExistingRoundId db call.expectedSignatures with
          | none => call.goTo (.releasing (.error error))
          | some roundId => call.goTo (.releasing (.ok
              (call.replayResult call.roundPlan call.expectedSignatures roundId)))
        onThrow := fun _ _ => call.goTo (.releasing (.error error)) }
  | .releasing result =>
    some
      { effect := db
        onReturn := match result with
          | .ok result => call.goTo (.finished result)
          | .error error => call.goTo (.rejected error)
        onThrow := fun _ error => call.goTo (.rejected error) }

/-- The transaction a call has run, if this is the action that runs it. -/
def ClearCall.transaction (env : ClearingEnv) (db : ComboDb) (call : ClearCall)
    (roundId : String) (uuid : ℕ → String) : Option (Tables.Outcome ComboDb ClearingEnd) :=
  match call.phase with
  | .clearing plan signatures => some (executeClearing env db plan signatures roundId uuid)
  | _ => none

/-- The transaction ends. A connection that is lost before the commit aborts it; one that is lost
with the answer to the commit does not. -/
def clearingStep (env : ClearingEnv) (db : ComboDb) (call : ClearCall) (plan : ClearingRoundPlan)
    (signatures : ClearingMatchSignature) (roundId : String) (uuid : ℕ → String) :
    Reply Unit → Option (ComboDb × ClearCall)
  | .done =>
    let outcome := executeClearing env db plan signatures roundId uuid
    some (outcome.database db, match outcome with
      | .committed _ (.applied applied) | .rolledBack (.applied applied) =>
        call.goTo (.refreshing (call.appliedResult plan signatures applied))
      | .committed _ (.conflict fallback) | .rolledBack (.conflict fallback) =>
        call.goTo (.lookingUp plan signatures fallback)
      | .aborted error => call.goTo (.resolving error))
  | .lost error =>
    let outcome := executeClearing env db plan signatures roundId uuid
    some (outcome.database db, call.goTo (.resolving error))
  | .refused error => some (db, call.goTo (.resolving error))
  | .answered _ => none

/-- One action of a call; `roundId` and `uuid` give the ids that its transaction inserts. -/
def clearStep (env : ClearingEnv) (db : ComboDb) (call : ClearCall) (roundId : String)
    (uuid : ℕ → String) (reply : Reply Unit) : Option (ComboDb × ClearCall) :=
  match call.phase with
  | .clearing plan signatures => clearingStep env db call plan signatures roundId uuid reply
  | _ => (clearAwaits env db call).bind (·.settle db reply)

/-- The outcome of the transaction an action has run to its end. -/
def ClearCall.outcome (env : ClearingEnv) (db : ComboDb) (call : ClearCall) (roundId : String)
    (uuid : ℕ → String) (reply : Reply Unit) : Option (Tables.Outcome ComboDb ClearingEnd) :=
  match reply with
  | .done | .lost _ => call.transaction env db roundId uuid
  | _ => none

theorem clearAwaits_effect {env : ClearingEnv} {db : ComboDb} {call : ClearCall}
    {awaited : Awaited ComboDb ClearCall} (h : clearAwaits env db call = some awaited) :
    awaited.effect = db := by
  unfold clearAwaits at h
  split at h <;> cases h <;> rfl

/-- **A call writes by its transaction only.** -/
theorem clearStep_db {env : ClearingEnv} {db db' : ComboDb} {call call' : ClearCall}
    {roundId : String} {uuid : ℕ → String} {reply : Reply Unit}
    (h : clearStep env db call roundId uuid reply = some (db', call')) :
    db' = match call.outcome env db roundId uuid reply with
      | some outcome => outcome.database db
      | none => db := by
  unfold clearStep at h
  split at h
  next plan signatures hphase =>
    unfold clearingStep at h
    split at h <;> cases h <;> simp [ClearCall.outcome, ClearCall.transaction, hphase]
  next hclearing =>
    have hidle : call.outcome env db roundId uuid reply = none := by
      have htransaction : call.transaction env db roundId uuid = none := by
        unfold ClearCall.transaction
        split
        next plan signatures heq => exact absurd heq (hclearing plan signatures)
        next => rfl
      unfold ClearCall.outcome
      split <;> first | exact htransaction | rfl
    rw [hidle]
    obtain ⟨awaited, hawaited, h⟩ := Option.bind_eq_some_iff.mp h
    have heffect := clearAwaits_effect hawaited
    exact Awaited.settle_elim (P := fun s _ => s = db) h heffect (fun _ => heffect) fun _ => rfl

end LotusRfq.Combo
