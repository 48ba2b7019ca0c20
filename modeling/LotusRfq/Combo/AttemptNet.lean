import LotusRfq.Combo.Netting
import LotusRfq.Lib.Calls
import LotusRfq.Lib.Transitions

/-!
# LotusRfq — `MultiLegInternalNettingEngine.attemptNet`

Any number of calls over one database. A call is a process, its code between two `await`s one
action; a load is two queries and so two actions, and a netting transaction is one. What the
candidate registry, the guardrails and the eligibility service answer is left open, and so is
whether the locks are got.

* **`netStep`** — one action of a call;
* **`netStep_db`** — a call writes the database by its netting transactions only.
-/

namespace LotusRfq.Combo

open Calls

structure MultiLegInternalNettingInput where
  id : String
  userId : String
  legs : List ResidualComboLeg

structure MultiLegInternalNettingResult where
  nettedSize : ℚ
  residualLegs : List ResidualComboLeg
  residualRemaining : Bool
  nettingGroupIds : List String
  eventsWritten : ℕ

/-- What a combo is loaded for; `rest` holds the candidates still to come. -/
inductive LoadPurpose where
  | first
  | incoming (candidateId : String) (rest : List String)
  | candidate (incoming : LoadedCombo) (candidateId : String) (rest : List String)
  | final

inductive NetPhase where
  | selecting (purpose : LoadPurpose)
  | selectingLegs (purpose : LoadPurpose) (row : ComboRow)
  | finding (incoming : LoadedCombo)
  | guarding (incoming : LoadedCombo) (candidateIds : List String)
  | judging (incoming candidate : LoadedCombo) (pairs : List MatchedLegPair) (rest : List String)
  | locking (candidateId : String) (rest : List String)
  | netting (candidateId : String) (rest : List String)
  | refreshing (rest : List String)
  | releasing (rest : List String) (threw : Bool)
  | reporting (result : MultiLegInternalNettingResult)
  | finished (result : MultiLegInternalNettingResult)
  | rejected

/-- A call of `attemptNet` and its local variables. -/
structure NetCall where
  incomingCombo : MultiLegInternalNettingInput
  totalNetted : ℚ
  totalEventsWritten : ℕ
  nettingGroupIds : List String
  phase : NetPhase

/-- What a call asks for: the registry's candidates, whether the guardrails make it skip, whether
the eligibility service says two profiles are safe. -/
inductive NetAnswer where
  | candidates (ids : List String)
  | skip (skipCurrentEngine : Bool)
  | safe (isSafe : Bool)

abbrev NetReply := Calls.Reply NetAnswer

def NetCall.goTo (call : NetCall) (phase : NetPhase) : NetCall := { call with phase := phase }

def NetCall.start (incomingCombo : MultiLegInternalNettingInput) : NetCall :=
  { incomingCombo := incomingCombo
    totalNetted := 0
    totalEventsWritten := 0
    nettingGroupIds := []
    phase :=
      if ¬ Js.hasText incomingCombo.id ∨ ¬ Js.hasText incomingCombo.userId ∨
          incomingCombo.legs = [] then .rejected
      else .selecting .first }

def NetCall.buildResult (call : NetCall) (incomingLegs : List LegRow) :
    MultiLegInternalNettingResult :=
  { nettedSize := call.totalNetted
    residualLegs := toResidualLegs incomingLegs
    residualRemaining := toResidualLegs incomingLegs ≠ []
    nettingGroupIds := call.nettingGroupIds
    eventsWritten := call.totalEventsWritten }

/-- The `for` loop over the candidates. -/
def NetCall.next (call : NetCall) : List String → NetCall
  | [] => call.goTo (.selecting .final)
  | candidateId :: rest => call.goTo (.selecting (.incoming candidateId rest))

def resolvePreviewNettableSize (incoming candidate : LoadedCombo) (pairs : List MatchedLegPair) :
    Except String ℚ := do
  let sizes ← pairs.mapM fun pair =>
    match incoming.legs.find? fun leg => leg.id = pair.incomingLegId,
      candidate.legs.find? fun leg => leg.id = pair.candidateLegId with
    | some incomingLeg, some candidateLeg =>
      .ok (min incomingLeg.remaining_size candidateLeg.remaining_size)
    | _, _ => .error "Matched leg pair missing during replay capture preparation."
  return sizes.min?.getD 0

def NetCall.loadedIncoming (call : NetCall) (purpose : LoadPurpose) (incoming : LoadedCombo) :
    NetCall :=
  if incoming.row.user_id ≠ call.incomingCombo.userId then call.goTo .rejected
  else
    match purpose with
    | .final => call.goTo (.reporting (call.buildResult incoming.legs))
    | .first =>
      if comboRemaining incoming.legs = 0 then call.goTo (.finished (call.buildResult incoming.legs))
      else if ¬ isNettableState incoming.row.state then call.goTo .rejected
      else call.goTo (.finding incoming)
    | .incoming candidateId rest | .candidate _ candidateId rest =>
      if comboRemaining incoming.legs = 0 then call.goTo (.selecting .final)
      else if ¬ isNettableState incoming.row.state then call.goTo .rejected
      else call.goTo (.selecting (.candidate incoming candidateId rest))

def NetCall.loadedCandidate (call : NetCall) (incoming candidate : LoadedCombo)
    (rest : List String) : NetCall :=
  if ¬ isNettableState candidate.row.state then call.next rest
  else
    match evaluate (toCompatibilityInput incoming) (toCompatibilityInput candidate) with
    | .error _ => call.goTo .rejected
    | .ok (.incompatible _) => call.next rest
    | .ok (.compatible pairs _) => call.goTo (.judging incoming candidate pairs rest)

def NetCall.loaded (call : NetCall) (purpose : LoadPurpose) : Option LoadedCombo → NetCall
  | none =>
    match purpose with
    | .candidate _ _ rest => call.next rest
    | _ => call.goTo .rejected
  | some combo =>
    match purpose with
    | .candidate incoming _ rest => call.loadedCandidate incoming combo rest
    | _ => call.loadedIncoming purpose combo

def LoadPurpose.comboId (purpose : LoadPurpose) (call : NetCall) : String :=
  match purpose with
  | .candidate _ candidateId _ => candidateId
  | _ => call.incomingCombo.id

def NetCall.judged (call : NetCall) (env : NettingEnv) (incoming candidate : LoadedCombo)
    (pairs : List MatchedLegPair) (rest : List String) (isSafe : Except String Bool) : NetCall :=
  match isResolutionEligible env.eligibilityService incoming candidate pairs isSafe with
  | .error _ => call.goTo .rejected
  | .ok false => call.next rest
  | .ok true =>
    match resolvePreviewNettableSize incoming candidate pairs with
    | .error _ => call.goTo .rejected
    | .ok nettableSize =>
      if nettableSize ≤ 0 then call.next rest else call.goTo (.locking candidate.row.id rest)

/-- `executeNettingTransaction` has returned. -/
def NetCall.netted (call : NetCall) (rest : List String) :
    Option NettingTransactionResult → NetCall
  | none => call.goTo (.releasing rest false)
  | some result =>
    { call with
      totalNetted := call.totalNetted + result.nettedSize
      totalEventsWritten := call.totalEventsWritten + result.eventsWritten
      nettingGroupIds := OrderedMap.addNew call.nettingGroupIds result.nettingGroupId
      phase := .refreshing rest }

/-- What a call awaits without asking or netting. A replay capture that fails before the locks
fails like them, and the registry's errors are swallowed. -/
def netAwaits (db : ComboDb) (call : NetCall) : Option (Awaited ComboDb NetCall) :=
  let reject (_ : Bool) (_ : String) : NetCall := call.goTo .rejected
  match call.phase with
  | .finished _ | .rejected | .finding _ | .guarding _ _ | .judging _ _ _ _ | .netting _ _ => none
  | .selecting purpose =>
    some
      { effect := db
        onReturn := match Tables.select ComboRow.id (purpose.comboId call) db.combos with
          | none => call.loaded purpose none
          | some row => call.goTo (.selectingLegs purpose row)
        onThrow := reject }
  | .selectingLegs purpose row =>
    some ⟨db, call.loaded purpose (some ⟨row, selectLegs db row.id⟩), reject⟩
  | .locking candidateId rest => some ⟨db, call.goTo (.netting candidateId rest), reject⟩
  | .refreshing rest =>
    some ⟨db, call.goTo (.releasing rest false), fun _ _ => call.goTo (.releasing rest false)⟩
  | .releasing rest threw =>
    some ⟨db, if threw then call.goTo .rejected else call.next rest, reject⟩
  | .reporting result => some ⟨db, call.goTo (.finished result), reject⟩

/-- The transaction a call has run, if this is the action that runs it. -/
def NetCall.transaction (env : NettingEnv) (db : ComboDb) (call : NetCall)
    (isSafe : Except String Bool) (uuid : ℕ → String) :
    Option (Tables.Outcome ComboDb (Option NettingTransactionResult)) :=
  match call.phase with
  | .netting candidateId _ =>
    some (executeNettingTransaction env db call.incomingCombo.id candidateId isSafe uuid)
  | _ => none

/-- The netting transaction ends. A connection that is lost before the commit aborts it; one that
is lost with the answer to the commit does not. -/
def transactionStep (env : NettingEnv) (db : ComboDb) (call : NetCall) (candidateId : String)
    (rest : List String) (isSafe : Except String Bool) (uuid : ℕ → String) :
    NetReply → Option (ComboDb × NetCall)
  | .done =>
    let outcome := executeNettingTransaction env db call.incomingCombo.id candidateId isSafe uuid
    some (outcome.database db, match outcome with
      | .committed _ value | .rolledBack value => call.netted rest value
      | .aborted _ => call.goTo (.releasing rest true))
  | .lost _ =>
    let outcome := executeNettingTransaction env db call.incomingCombo.id candidateId isSafe uuid
    some (outcome.database db, call.goTo (.releasing rest true))
  | .refused _ => some (db, call.goTo (.releasing rest true))
  | .answered _ => none

/-- One action of a call; `isSafe` is what the eligibility service answers a transaction, and
`uuid` gives the ids it inserts. -/
def netStep (env : NettingEnv) (db : ComboDb) (call : NetCall) (isSafe : Except String Bool)
    (uuid : ℕ → String) (reply : NetReply) : Option (ComboDb × NetCall) :=
  match call.phase with
  | .finding incoming =>
    match reply with
    | .answered (.candidates ids) => some (db, call.goTo (.guarding incoming ids))
    | .lost _ | .refused _ => some (db, call.goTo .rejected)
    | _ => none
  | .guarding incoming candidateIds =>
    match reply with
    | .answered (.skip true) => some (db, call.goTo (.finished (call.buildResult incoming.legs)))
    | .answered (.skip false) => some (db, call.next candidateIds)
    | .lost _ | .refused _ => some (db, call.goTo .rejected)
    | _ => none
  | .judging incoming candidate pairs rest =>
    match reply with
    | .answered (.safe isSafe) => some (db, call.judged env incoming candidate pairs rest (.ok isSafe))
    | .lost error | .refused error =>
      some (db, call.judged env incoming candidate pairs rest (.error error))
    | _ => none
  | .netting candidateId rest => transactionStep env db call candidateId rest isSafe uuid reply
  | _ => (netAwaits db call).bind (·.settle db reply)

/-! ## The system -/

structure NetSystem where
  db : ComboDb
  calls : List NetCall

inductive NetAction where
  | start (incomingCombo : MultiLegInternalNettingInput)
  | net (i : ℕ) (isSafe : Except String Bool) (uuid : ℕ → String) (reply : NetReply)

def netAct (env : NettingEnv) (sys : NetSystem) : NetAction → Option NetSystem
  | .start incomingCombo =>
    some { sys with calls := sys.calls ++ [NetCall.start incomingCombo] }
  | .net i isSafe uuid reply =>
    match sys.calls[i]? with
    | none => none
    | some call =>
      (netStep env sys.db call isSafe uuid reply).map fun (db, call) =>
        ⟨db, sys.calls.set i call⟩

/-- The outcome of the transaction an action has run to its end. -/
def NetCall.outcome (env : NettingEnv) (db : ComboDb) (call : NetCall)
    (isSafe : Except String Bool) (uuid : ℕ → String) (reply : NetReply) :
    Option (Tables.Outcome ComboDb (Option NettingTransactionResult)) :=
  match reply with
  | .done | .lost _ => call.transaction env db isSafe uuid
  | _ => none

/-- **A call writes by its transactions only.** -/
theorem netStep_db {env : NettingEnv} {db db' : ComboDb} {call call' : NetCall}
    {isSafe : Except String Bool} {uuid : ℕ → String} {reply : NetReply}
    (h : netStep env db call isSafe uuid reply = some (db', call')) :
    db' = match call.outcome env db isSafe uuid reply with
      | some outcome => outcome.database db
      | none => db := by
  have hidle : (∀ candidateId rest, call.phase ≠ .netting candidateId rest) →
      call.outcome env db isSafe uuid reply = none := by
    intro hphase
    have htransaction : call.transaction env db isSafe uuid = none := by
      unfold NetCall.transaction
      split
      next candidateId rest heq => exact absurd heq (hphase candidateId rest)
      next => rfl
    unfold NetCall.outcome
    split <;> first | exact htransaction | rfl
  unfold netStep at h
  split at h
  next hphase =>
    rw [hidle (by simp [hphase])]
    split at h <;> cases h <;> rfl
  next hphase =>
    rw [hidle (by simp [hphase])]
    split at h <;> cases h <;> rfl
  next hphase =>
    rw [hidle (by simp [hphase])]
    split at h <;> cases h <;> rfl
  next candidateId rest hphase =>
    unfold transactionStep at h
    split at h <;> cases h <;> simp [NetCall.outcome, NetCall.transaction, hphase]
  next hfinding hguarding hjudging hnetting =>
    rw [hidle hnetting]
    obtain ⟨awaited, hawaited, h⟩ := Option.bind_eq_some_iff.mp h
    have heffect : awaited.effect = db := by
      unfold netAwaits at hawaited
      split at hawaited <;> cases hawaited <;> rfl
    exact Awaited.settle_elim (P := fun s _ => s = db) h heffect (fun _ => heffect) fun _ => rfl

end LotusRfq.Combo
