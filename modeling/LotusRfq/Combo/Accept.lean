import LotusRfq.Combo.ClearCall
import LotusRfq.Combo.Session

/-!
# LotusRfq — `ComboEngine.acceptCombo`

One call as a process over the tables of the combo engine, with the calls of internal netting and
clearing inside it. The rollout modes, the round planner, the risk engine, the plan store and the
router are asked, and what they answer is left open; a shadow run reads only, and what it throws
is swallowed. Everything from the kill switch on stands in one `try`, whose handler marks the
combo as failed.

* **`acceptStep`** — one action of a call;
* **`AcceptCall.routed`** — the steps that the router is given in an action.
-/

namespace LotusRfq.Combo

open Calls

/-- What the acceptance has worked out when the `try` begins. -/
structure AcceptContext where
  session : ComboRFQSession
  selectedQuote : ComboQuote
  reservationToken : String

/-- What internal netting, and internal clearing if it ran, have left. -/
structure AcceptResidual where
  nettingResult : MultiLegInternalNettingResult
  clearing : Option ClearingRoundExecutionResult
  residualSession : ComboRFQSession

structure BuiltPlan where
  context : AcceptContext
  residual : AcceptResidual
  uuid : ℕ → String
  plan : ExecutionPlan
  built : buildExecutionPlan residual.residualSession context.selectedQuote
    context.reservationToken uuid = .ok plan

inductive ComboAcceptResult where
  | internal_filled (comboId : String) (nettingGroupIds : List String) (nettedSize : ℚ)
  | internal_cleared (comboId clearingRoundId : String) (signatures : ClearingMatchSignature)
      (clearedParticipantCount : ℕ)
  | external_plan (plan : ExecutionPlan) (nettedSize : ℚ) (residualLegCount : ℕ)

inductive AcceptPhase where
  | gettingSession
  | expiring
  | gettingQuotes (session : ComboRFQSession)
  | validating (session : ComboRFQSession) (selectedQuote : ComboQuote)
  | choosingNetting (context : AcceptContext)
  | netting (context : AcceptContext) (call : NetCall)
  | refreshing (context : AcceptContext) (nettingResult : MultiLegInternalNettingResult)
  | choosingClearing (context : AcceptContext) (residual : AcceptResidual)
  | planning (context : AcceptContext) (residual : AcceptResidual)
  | clearing (context : AcceptContext) (residual : AcceptResidual) (call : ClearCall)
  | refreshingCleared (context : AcceptContext) (residual : AcceptResidual)
      (execution : ClearingRoundExecutionResult)
  | unregistering (context : AcceptContext) (residual : AcceptResidual)
  | saving (built : BuiltPlan)
  | accepting (built : BuiltPlan)
  | executing (built : BuiltPlan)
  | executed (built : BuiltPlan)
  | updatingExposure (built : BuiltPlan) (legs : List ComboLeg)
  | executionFailed (built : BuiltPlan)
  | settling (context : AcceptContext) (result : ComboAcceptResult)
  | rollingBack (context : AcceptContext) (result : ComboAcceptResult)
  | emitting (context : AcceptContext) (result : ComboAcceptResult)
  | failing
  | rollingBackFailed
  | finished (result : ComboAcceptResult)
  | rejected

/-- A call of `acceptCombo` and its local variables. -/
structure AcceptCall where
  sessionId : String
  quoteId : String
  phase : AcceptPhase

/-- What a call asks for: whether the session has expired by the clock, the session's quotes, the
reservation of the risk engine, whether netting or clearing is authoritative, the planner's round,
and whether the router completed the plan. -/
inductive AcceptAnswer where
  | expired (isExpired : Bool)
  | quotes (quotes : List ComboQuote)
  | reservation (token : String)
  | authoritative (isAuthoritative : Bool)
  | round (plan : Option ClearingRoundPlan)
  | completed (isCompleted : Bool)

/-- What an action of a call is given: a reply, or what an action of the call inside it is given;
`uuid` gives the ids that it makes up. -/
inductive AcceptInput where
  | reply (reply : Reply AcceptAnswer) (uuid : ℕ → String)
  | net (isSafe : Except String Bool) (uuid : ℕ → String) (reply : NetReply)
  | clear (roundId : String) (uuid : ℕ → String) (reply : Reply Unit)

/-- What the engine leans on besides its tables. -/
structure AcceptEnv where
  netting : NettingEnv
  clearing : ClearingEnv
  acceptancePolicy : String → AcceptancePolicy

def AcceptCall.goTo (call : AcceptCall) (phase : AcceptPhase) : AcceptCall :=
  { call with phase := phase }

def AcceptCall.start (sessionId quoteId : String) : AcceptCall :=
  ⟨sessionId, quoteId, .gettingSession⟩

def AcceptCall.netted (call : AcceptCall) (context : AcceptContext) (netCall : NetCall) :
    AcceptCall :=
  match netCall.phase with
  | .finished result => call.goTo (.refreshing context result)
  | .rejected => call.goTo .failing
  | _ => call.goTo (.netting context netCall)

def AcceptCall.cleared (call : AcceptCall) (context : AcceptContext) (residual : AcceptResidual)
    (clearCall : ClearCall) : AcceptCall :=
  match clearCall.phase with
  | .finished execution => call.goTo (.refreshingCleared context residual execution)
  | .rejected _ => call.goTo .failing
  | _ => call.goTo (.clearing context residual clearCall)

def AcceptCall.afterNetting (call : AcceptCall) (context : AcceptContext)
    (nettingResult : MultiLegInternalNettingResult) : Option ComboRFQSession → AcceptCall
  | none => call.goTo .failing
  | some refreshedSession =>
    if ¬ nettingResult.residualRemaining then
      call.goTo (.settling context
        (.internal_filled call.sessionId nettingResult.nettingGroupIds nettingResult.nettedSize))
    else
      call.goTo (.choosingClearing context
        { nettingResult := nettingResult
          clearing := none
          residualSession :=
            applyResidualLegsToSession refreshedSession nettingResult.residualLegs })

/-- The plan is built from what is left, and saved. -/
def AcceptCall.build (call : AcceptCall) (context : AcceptContext) (residual : AcceptResidual)
    (uuid : ℕ → String) : AcceptCall :=
  match built : buildExecutionPlan residual.residualSession context.selectedQuote
      context.reservationToken uuid with
  | .error _ => call.goTo .failing
  | .ok plan => call.goTo (.saving ⟨context, residual, uuid, plan, built⟩)

/-- Internal clearing is over, and the session has been read again. -/
def AcceptCall.afterClearing (call : AcceptCall) (context : AcceptContext)
    (residual : AcceptResidual) (execution : ClearingRoundExecutionResult) :
    Option ComboRFQSession → AcceptCall
  | none => call.goTo .failing
  | some refreshedSession =>
    let residualSession := sessionToResidualOnly refreshedSession
    if residualSession.legs = [] then
      call.goTo (.settling context
        (.internal_cleared call.sessionId execution.clearingRoundId execution.signatures
          execution.participants.length))
    else
      call.goTo (.unregistering context
        { residual with
          clearing := some execution
          residualSession := residualSession })

def BuiltPlan.result (built : BuiltPlan) : ComboAcceptResult :=
  .external_plan built.plan built.residual.nettingResult.nettedSize
    built.residual.residualSession.legs.length

def acceptAwaits (env : AcceptEnv) (db : ComboDb) (call : AcceptCall) (uuid : ℕ → String) :
    Option (Awaited ComboDb AcceptCall) :=
  let fail (_ : Bool) (_ : String) : AcceptCall := call.goTo .failing
  let reject (_ : Bool) (_ : String) : AcceptCall := call.goTo .rejected
  let session := getSession env.acceptancePolicy db call.sessionId
  match call.phase with
  | .expiring =>
    some ⟨updateComboState db call.sessionId .EXPIRED, call.goTo .rejected, reject⟩
  | .refreshing context nettingResult =>
    some ⟨db, call.afterNetting context nettingResult session, fail⟩
  | .refreshingCleared context residual execution =>
    some ⟨db, call.afterClearing context residual execution session, fail⟩
  | .unregistering context residual => some ⟨db, call.build context residual uuid, fail⟩
  | .saving built => some ⟨db, call.goTo (.accepting built), fail⟩
  | .accepting built =>
    some ⟨updateComboState db call.sessionId .ACCEPTED, call.goTo (.executing built), fail⟩
  | .executed built =>
    some
      { effect := updateComboState db call.sessionId .EXECUTED
        onReturn := call.goTo (.updatingExposure built
          (built.residual.residualSession.legs.filter fun leg => 0 < leg.remaining))
        onThrow := fail }
  | .updatingExposure built [] =>
    some ⟨db, call.goTo (.finished built.result), fail⟩
  | .updatingExposure built (_ :: rest) =>
    some ⟨db, call.goTo (.updatingExposure built rest), fail⟩
  | .executionFailed built =>
    some
      { effect := updateComboState db call.sessionId .FAILED
        onReturn := call.goTo (.emitting built.context built.result)
        onThrow := fail }
  | .settling context result =>
    some
      { effect := updateComboState db call.sessionId .EXECUTED
        onReturn := call.goTo (.rollingBack context result)
        onThrow := fail }
  | .rollingBack context result => some ⟨db, call.goTo (.emitting context result), fail⟩
  | .emitting _ result => some ⟨db, call.goTo (.finished result), fail⟩
  | .failing =>
    some ⟨updateComboState db call.sessionId .FAILED, call.goTo .rollingBackFailed, reject⟩
  | .rollingBackFailed => some ⟨db, call.goTo .rejected, reject⟩
  | _ => none

def acceptAnswered (env : AcceptEnv) (db : ComboDb) (call : AcceptCall) (uuid : ℕ → String)
    (answer : AcceptAnswer) : Option AcceptCall :=
  match call.phase, answer with
  | .gettingSession, .expired isExpired =>
    match getSession env.acceptancePolicy db call.sessionId with
    | none => some (call.goTo .rejected)
    | some session =>
      if session.state ≠ .OPEN ∧ session.state ≠ .ACCEPTED then some (call.goTo .rejected)
      else if isExpired then some (call.goTo .expiring)
      else some (call.goTo (.gettingQuotes session))
  | .gettingQuotes session, .quotes quotes =>
    match quotes.find? fun quote => quote.id = call.quoteId with
    | none => some (call.goTo .rejected)
    | some selectedQuote => some (call.goTo (.validating session selectedQuote))
  | .validating session selectedQuote, .reservation token =>
    some (call.goTo (.choosingNetting ⟨session, selectedQuote, token⟩))
  | .choosingNetting context, .authoritative isAuthoritative =>
    if isAuthoritative then
      some (call.netted context (NetCall.start (toInternalNettingInput context.session)))
    else some (call.goTo (.refreshing context (zeroNettingResult context.session)))
  | .choosingClearing context residual, .authoritative isAuthoritative =>
    if isAuthoritative then some (call.goTo (.planning context residual))
    else some (call.build context residual uuid)
  | .planning context residual, .round none => some (call.build context residual uuid)
  | .planning context residual, .round (some roundPlan) =>
    if residual.residualSession.id ∈ roundPlan.selectedGroup.participantIds then
      some (call.cleared context residual (ClearCall.start env.clearing roundPlan))
    else some (call.goTo (.unregistering context residual))
  | .executing built, .completed isCompleted =>
    some (call.goTo (if isCompleted then .executed built else .executionFailed built))
  | _, _ => none

/-- The questions that stand before the `try`; no handler catches what they throw. -/
def AcceptPhase.beforeTry : AcceptPhase → Bool
  | .gettingSession | .gettingQuotes _ | .validating _ _ => true
  | _ => false

def AcceptPhase.asks : AcceptPhase → Bool
  | .gettingSession | .gettingQuotes _ | .validating _ _ | .choosingNetting _
  | .choosingClearing _ _ | .planning _ _ | .executing _ => true
  | _ => false

/-- A reply arrives. A question that throws ends the call, by way of the handler from the `try`
on. -/
def acceptReply (env : AcceptEnv) (db : ComboDb) (call : AcceptCall)
    (reply : Reply AcceptAnswer) (uuid : ℕ → String) : Option (ComboDb × AcceptCall) :=
  if call.phase.asks then
    match reply with
    | .answered answer => (acceptAnswered env db call uuid answer).map fun call => (db, call)
    | .lost _ | .refused _ =>
      some (db, call.goTo (if call.phase.beforeTry then .rejected else .failing))
    | .done => none
  else (acceptAwaits env db call uuid).bind (·.settle db reply)

def acceptStep (env : AcceptEnv) (db : ComboDb) (call : AcceptCall) :
    AcceptInput → Option (ComboDb × AcceptCall)
  | .reply reply uuid => acceptReply env db call reply uuid
  | .net isSafe uuid reply =>
    match call.phase with
    | .netting context netCall =>
      (netStep env.netting db netCall isSafe uuid reply).map fun (db, netCall) =>
        (db, call.netted context netCall)
    | _ => none
  | .clear roundId uuid reply =>
    match call.phase with
    | .clearing context residual clearCall =>
      (clearStep env.clearing db clearCall roundId uuid reply).map fun (db, clearCall) =>
        (db, call.cleared context residual clearCall)
    | _ => none

/-- The steps that the router takes on in an action: those of the plan, unless the call of the
router fails before it has any effect. -/
def AcceptCall.routed (call : AcceptCall) : AcceptInput → List ExecutionStep
  | .reply (.answered _) _ | .reply (.lost _) _ =>
    match call.phase with
    | .executing built => built.plan.steps
    | _ => []
  | _ => []

end LotusRfq.Combo
