import LotusRfq.Lib.Calls
import LotusRfq.Lib.Transitions
import LotusRfq.Rfq.Records
import LotusRfq.Rfq.StateMachine

/-!
# LotusRfq — `ExecutionRouterService.execute`

A call as a process: what it awaits next is a request to a repository, to Redis, to the gateway or
to the risk engine; what it does with the answer is its code up to the next one. The status of the
session is read before the lock is taken, and every transition is checked against a status the
call remembers, not against the row. The lock is a key with a time to live, and is deleted by
whoever releases it.

* **`routerStep`** — one request of a call and its reply;
* **`routerStep_cases`** — the step inverted;
* **`perform_status`**, **`perform_gatewayResults`** — the requests that write a status, and the
  one that adds a result of the gateway.
-/

namespace LotusRfq.Rfq

open Calls Tables

/-! ## The records -/

structure RankedQuote where
  quoteId : String
  firm_until : Option String

inductive ExecutionStatus where
  | SUCCESS
  | FAILED
  deriving DecidableEq

structure NewRFQExecutionInput where
  sessionId : String
  quoteId : String
  executionStatus : ExecutionStatus
  executedPrice : ℚ
  executedQuantity : ℚ

structure RFQExecutionRecord where
  id : String
  session_id : String
  quote_id : String
  execution_status : ExecutionStatus
  executed_price : ℚ
  executed_quantity : ℚ

inductive ExecutionGatewayResult where
  | ok
  | failed (reason : String)
  deriving DecidableEq

structure ExecutionAttemptResult where
  quoteId : String
  status : ExecutionStatus
  reason : Option String

structure ExecuteRFQResult where
  ok : Bool
  executedQuoteId : Option String
  attempts : List ExecutionAttemptResult

structure ExecuteRFQCommand where
  sessionId : String
  rankedQuotes : List RankedQuote
  fallbackToNextQuote : Bool

/-! ## Stale quotes -/

inductive QuoteStaleReason where
  | QUOTE_EXPIRED
  | QUOTE_NOT_FIRM

def QuoteStaleReason.text : QuoteStaleReason → String
  | .QUOTE_EXPIRED => "QUOTE_EXPIRED"
  | .QUOTE_NOT_FIRM => "QUOTE_NOT_FIRM"

/-- `isFirm`. A date that does not parse is not later than anything. -/
def isFirm (parseDate : String → Option ℤ) (now : ℤ) : Option String → Bool
  | none => true
  | some firm_until =>
    if firm_until = "" then true
    else match parseDate firm_until with
      | none => false
      | some time => decide (now < time)

/-- `QuoteStalenessGuard.validateBeforeExecution`: why the quote is stale, if it is. -/
def staleReason (parseDate : String → Option ℤ) (now : ℤ) (rankedQuote : RankedQuote)
    (quoteRecord : RFQQuoteRecord) : Option QuoteStaleReason :=
  if quoteRecord.valid_until ≤ now then some .QUOTE_EXPIRED
  else if ¬ isFirm parseDate now rankedQuote.firm_until then some .QUOTE_NOT_FIRM
  else none

/-! ## The shared state -/

/-- A status that a session was given: the row's status before, and the new one. -/
structure StatusWrite where
  sessionId : String
  before : Option String
  status : RFQState

/-- The tables and Redis. `gatewayResults` are the results that a gateway returned and
`statusWrites` the statuses that were written, in the order in which that happened. -/
structure RouterStore where
  sessions : List RFQSessionRecord
  locks : List (String × String)
  executions : List RFQExecutionRecord
  gatewayResults : List (String × ExecutionGatewayResult)
  statusWrites : List StatusWrite

def lockKey (sessionId : String) : String := "rfq:" ++ sessionId ++ ":lock"

def RouterStore.findById (store : RouterStore) (sessionId : String) : Option RFQSessionRecord :=
  select RFQSessionRecord.id sessionId store.sessions

def RouterStore.isLocked (store : RouterStore) (sessionId : String) : Bool :=
  store.locks.any fun lock => lock.1 = lockKey sessionId

/-- `SET key owner PX ttl NX`. -/
def RouterStore.acquireLock (store : RouterStore) (sessionId ownerId : String) : RouterStore :=
  if store.isLocked sessionId then store
  else { store with locks := store.locks ++ [(lockKey sessionId, ownerId)] }

/-- `DEL key`, whoever holds the lock; also what happens when its time to live is over. -/
def RouterStore.releaseLock (store : RouterStore) (sessionId : String) : RouterStore :=
  { store with locks := store.locks.filter fun lock => lock.1 ≠ lockKey sessionId }

def RouterStore.updateStatus (store : RouterStore) (sessionId : String) (status : RFQState) :
    RouterStore :=
  { store with
    sessions := update RFQSessionRecord.id sessionId
      (fun session => { session with status := status.text }) store.sessions
    statusWrites := store.statusWrites ++
      [⟨sessionId, (store.findById sessionId).map (·.status), status⟩] }

def NewRFQExecutionInput.record (input : NewRFQExecutionInput) (id : String) : RFQExecutionRecord :=
  { id := id
    session_id := input.sessionId
    quote_id := input.quoteId
    execution_status := input.executionStatus
    executed_price := input.executedPrice
    executed_quantity := input.executedQuantity }

def RouterStore.create (store : RouterStore) (input : NewRFQExecutionInput) (id : String) :
    RouterStore :=
  { store with executions := store.executions ++ [input.record id] }

/-! ## A call -/

/-- The variables of the loop over the ranked quotes; `rest` are the quotes after the current
one. -/
structure QuoteLoop where
  session : RFQSessionRecord
  rest : List RankedQuote
  attempts : List ExecutionAttemptResult
  sawStaleQuote : Bool

inductive RouterPhase where
  | findingSession
  | locking (session : RFQSessionRecord)
  | entering (session : RFQSessionRecord)
  | findingQuote (loop : QuoteLoop) (rankedQuote : RankedQuote)
  | executing (loop : QuoteLoop) (rankedQuote : RankedQuote) (quoteRecord : RFQQuoteRecord)
  | persistingFailure (loop : QuoteLoop) (rankedQuote : RankedQuote)
      (quoteRecord : RFQQuoteRecord) (reason : String)
  | creating (loop : QuoteLoop) (rankedQuote : RankedQuote) (quoteRecord : RFQQuoteRecord)
  | updatingExposure (loop : QuoteLoop) (rankedQuote : RankedQuote)
      (executionRecord : RFQExecutionRecord)
  | settling (result : ExecuteRFQResult)
  | failing
  | releasing (result : Except String ExecuteRFQResult)
  | finished (result : ExecuteRFQResult)
  | rejected (error : String)

structure RouterCall where
  command : ExecuteRFQCommand
  lockOwner : String
  phase : RouterPhase

def RouterCall.start (command : ExecuteRFQCommand) (lockOwner : String) : RouterCall :=
  ⟨command, lockOwner, .findingSession⟩

def RouterCall.goTo (call : RouterCall) (phase : RouterPhase) : RouterCall :=
  { call with phase := phase }

inductive RouterRequest where
  | findById (sessionId : String)
  | acquireLock (sessionId ownerId : String)
  | updateStatus (sessionId : String) (status : RFQState)
  | findByExternalQuoteId (sessionId : String) (rankedQuote : RankedQuote)
  | execute (sessionId quoteId : String) (price quantity : ℚ)
  | create (input : NewRFQExecutionInput)
  | updateExposureAfterExecution (exec : ExecutionResult)
  | releaseLock (sessionId : String)

/-- The answers that the shared state does not determine; the clock is read with the quote. -/
inductive RouterAnswer where
  | quote (quoteRecord : Option RFQQuoteRecord) (now : ℤ)
  | gateway (result : ExecutionGatewayResult)
  deriving DecidableEq

/-- What the risk engine is told of an execution; the token of its reservation is not passed on. -/
def executionResult (sessionId : String) (session : RFQSessionRecord)
    (execution : RFQExecutionRecord) : ExecutionResult :=
  { id := execution.id
    sessionId := sessionId
    takerId := session.taker_id
    canonicalMarketId := session.canonical_market_id
    side := session.side
    executedQuantity := execution.executed_quantity
    executedPrice := execution.executed_price
    reservationToken := none }

def executionInput (sessionId : String) (quoteRecord : RFQQuoteRecord) (status : ExecutionStatus) :
    NewRFQExecutionInput :=
  { sessionId := sessionId
    quoteId := quoteRecord.id
    executionStatus := status
    executedPrice := quoteRecord.price
    executedQuantity := quoteRecord.quantity }

def RouterCall.request (call : RouterCall) : Option RouterRequest :=
  let sessionId := call.command.sessionId
  match call.phase with
  | .findingSession => some (.findById sessionId)
  | .locking _ => some (.acquireLock sessionId call.lockOwner)
  | .entering _ => some (.updateStatus sessionId .EXECUTING)
  | .findingQuote _ rankedQuote => some (.findByExternalQuoteId sessionId rankedQuote)
  | .executing _ rankedQuote quoteRecord =>
    some (.execute sessionId rankedQuote.quoteId quoteRecord.price quoteRecord.quantity)
  | .persistingFailure _ _ quoteRecord _ =>
    some (.create (executionInput sessionId quoteRecord .FAILED))
  | .creating _ _ quoteRecord => some (.create (executionInput sessionId quoteRecord .SUCCESS))
  | .updatingExposure loop _ execution =>
    some (.updateExposureAfterExecution (executionResult sessionId loop.session execution))
  | .settling _ => some (.updateStatus sessionId .SETTLED)
  | .failing => some (.updateStatus sessionId .FAILED)
  | .releasing _ => some (.releaseLock sessionId)
  | .finished _ | .rejected _ => none

/-- What a request does to the shared state, once it has taken effect. -/
def RouterStore.perform (store : RouterStore) (uuid : String) (reply : Reply RouterAnswer) :
    RouterRequest → RouterStore
  | .acquireLock sessionId ownerId => store.acquireLock sessionId ownerId
  | .updateStatus sessionId status => store.updateStatus sessionId status
  | .create input => store.create input uuid
  | .releaseLock sessionId => store.releaseLock sessionId
  | .execute sessionId _ _ _ =>
    match reply with
    | .answered (.gateway result) =>
      { store with gatewayResults := store.gatewayResults ++ [(sessionId, result)] }
    | _ => store
  | .findById _ | .findByExternalQuoteId _ _ | .updateExposureAfterExecution _ => store

/-! ## The code between two requests -/

/-- `transitionSessionToState` up to its write: the state to write, if the current one is known. -/
def transitionSessionToState (currentStatus : String) (targetState : RFQState) :
    Except String (Option RFQState) :=
  match asRFQState currentStatus with
  | none => .ok none
  | some fromState =>
    if canTransitionTo fromState targetState then .ok (some targetState)
    else .error ("Invalid RFQ transition from " ++ currentStatus ++ " to " ++ targetState.text)

/-- A transition: the phase that awaits its write, and where the call is without one. -/
def transitioning (currentStatus : String) (targetState : RFQState)
    (writing unrecognised : RouterPhase) : RouterPhase :=
  match transitionSessionToState currentStatus targetState with
  | .error error => .releasing (.error error)
  | .ok none => unrecognised
  | .ok (some _) => writing

def noValidQuotes (sessionId : String) : Except String ExecuteRFQResult :=
  .error ("No valid quotes remain for session " ++ sessionId ++ ".")

def afterLoop (sessionId : String) (loop : QuoteLoop) : RouterPhase :=
  let toFailed := transitioning loop.session.status .FAILED .failing
    (.releasing (noValidQuotes sessionId))
  if 0 < loop.attempts.length ∧
      loop.attempts.all fun attempt => attempt.reason = some "QUOTE_NOT_FOUND" then toFailed
  else if loop.sawStaleQuote ∧
      loop.attempts.all fun attempt => attempt.status = .FAILED then toFailed
  else .releasing (.ok { ok := false, executedQuoteId := none, attempts := loop.attempts })

def nextQuote (sessionId : String) (loop : QuoteLoop) : RouterPhase :=
  match loop.rest with
  | [] => afterLoop sessionId loop
  | rankedQuote :: rest => .findingQuote { loop with rest := rest } rankedQuote

/-- An attempt has failed: on to the next quote, if that is wanted. -/
def failedAttempt (command : ExecuteRFQCommand) (loop : QuoteLoop) (rankedQuote : RankedQuote)
    (reason : String) : RouterPhase :=
  let loop := { loop with attempts := loop.attempts ++
    [⟨rankedQuote.quoteId, .FAILED, some reason⟩] }
  if command.fallbackToNextQuote then nextQuote command.sessionId loop
  else afterLoop command.sessionId loop

def startLoop (command : ExecuteRFQCommand) (session : RFQSessionRecord) : RouterPhase :=
  nextQuote command.sessionId ⟨session, command.rankedQuotes, [], false⟩

def foundQuote (parseDate : String → Option ℤ) (command : ExecuteRFQCommand) (loop : QuoteLoop)
    (rankedQuote : RankedQuote) (now : ℤ) : Option RFQQuoteRecord → RouterPhase
  | none => failedAttempt command loop rankedQuote "QUOTE_NOT_FOUND"
  | some quoteRecord =>
    match staleReason parseDate now rankedQuote quoteRecord with
    | some reason =>
      .persistingFailure { loop with sawStaleQuote := true } rankedQuote quoteRecord reason.text
    | none => .executing loop rankedQuote quoteRecord

def executedQuote (loop : QuoteLoop) (rankedQuote : RankedQuote) (quoteRecord : RFQQuoteRecord) :
    ExecutionGatewayResult → RouterPhase
  | .ok =>
    .creating { loop with attempts := loop.attempts ++ [⟨rankedQuote.quoteId, .SUCCESS, none⟩] }
      rankedQuote quoteRecord
  | .failed reason => .persistingFailure loop rankedQuote quoteRecord reason

def exposureUpdated (loop : QuoteLoop) (rankedQuote : RankedQuote) : RouterPhase :=
  let result : ExecuteRFQResult :=
    { ok := true, executedQuoteId := some rankedQuote.quoteId, attempts := loop.attempts }
  transitioning RFQState.EXECUTING.text .SETTLED (.settling result) (.releasing (.ok result))

def RouterCall.returned (parseDate : String → Option ℤ) (store : RouterStore) (call : RouterCall)
    (uuid : String) : Option RouterAnswer → Option RouterPhase
  | none =>
    let sessionId := call.command.sessionId
    match call.phase with
    | .findingSession =>
      some (match store.findById sessionId with
        | none => .rejected ("RFQ session " ++ sessionId ++ " not found.")
        | some session => .locking session)
    | .locking session =>
      some (if store.isLocked sessionId then
          .rejected ("Unable to acquire RFQ lock for session " ++ sessionId ++ ".")
        else transitioning session.status .EXECUTING (.entering session)
          (startLoop call.command session))
    | .entering session => some (startLoop call.command session)
    | .persistingFailure loop rankedQuote _ reason =>
      some (failedAttempt call.command loop rankedQuote reason)
    | .creating loop rankedQuote quoteRecord =>
      some (.updatingExposure loop rankedQuote
        ((executionInput sessionId quoteRecord .SUCCESS).record uuid))
    | .updatingExposure loop rankedQuote _ => some (exposureUpdated loop rankedQuote)
    | .settling result => some (.releasing (.ok result))
    | .failing => some (.releasing (noValidQuotes sessionId))
    | .releasing result =>
      some (match result with
        | .ok result => .finished result
        | .error error => .rejected error)
    | _ => none
  | some answer =>
    match call.phase, answer with
    | .findingQuote loop rankedQuote, .quote quoteRecord now =>
      some (foundQuote parseDate call.command loop rankedQuote now quoteRecord)
    | .executing loop rankedQuote quoteRecord, .gateway result =>
      some (executedQuote loop rankedQuote quoteRecord result)
    | _, _ => none

/-- Where a call is after a request that threw. The `finally` block releases the lock. -/
def RouterCall.thrown (call : RouterCall) (error : String) : RouterPhase :=
  match call.phase with
  | .findingSession | .locking _ | .releasing _ => .rejected error
  | .updatingExposure loop rankedQuote _ => exposureUpdated loop rankedQuote
  | _ => .releasing (.error error)

/-- One request of a call and its reply; `uuid` is the id that an insert generates. -/
def routerStep (parseDate : String → Option ℤ) (store : RouterStore) (call : RouterCall)
    (uuid : String) (reply : Reply RouterAnswer) : Option (RouterStore × RouterCall) :=
  match call.request with
  | none => none
  | some request =>
    match reply with
    | .done =>
      (call.returned parseDate store uuid none).map fun phase =>
        (store.perform uuid reply request, call.goTo phase)
    | .answered answer =>
      (call.returned parseDate store uuid (some answer)).map fun phase =>
        (store.perform uuid reply request, call.goTo phase)
    | .lost error => some (store.perform uuid reply request, call.goTo (call.thrown error))
    | .refused error => some (store, call.goTo (call.thrown error))

/-! ## Reading a step -/

def replyAnswer : Reply RouterAnswer → Option (Option RouterAnswer)
  | .done => some none
  | .answered answer => some (some answer)
  | .lost _ | .refused _ => none

/-- How a step went: the request returned, it threw although it had taken effect, or it threw and
had none. -/
inductive StepCases (parseDate : String → Option ℤ) (store : RouterStore) (call : RouterCall)
    (uuid : String) (request : RouterRequest) :
    Reply RouterAnswer → RouterStore → RouterPhase → Prop where
  | returned {reply : Reply RouterAnswer} {answer : Option RouterAnswer} {phase : RouterPhase}
      (hreply : replyAnswer reply = some answer)
      (hreturned : call.returned parseDate store uuid answer = some phase) :
      StepCases parseDate store call uuid request reply (store.perform uuid reply request) phase
  | lost (error : String) :
      StepCases parseDate store call uuid request (.lost error)
        (store.perform uuid (.lost error) request) (call.thrown error)
  | refused (error : String) :
      StepCases parseDate store call uuid request (.refused error) store (call.thrown error)

variable {store : RouterStore} {uuid : String} {reply : Reply RouterAnswer}
  {request : RouterRequest}

/-- **The step inverted.** -/
theorem routerStep_cases {parseDate : String → Option ℤ} {store' : RouterStore}
    {call call' : RouterCall}
    (h : routerStep parseDate store call uuid reply = some (store', call')) :
    call' = call.goTo call'.phase ∧ ∃ request, call.request = some request ∧
      StepCases parseDate store call uuid request reply store' call'.phase := by
  unfold routerStep at h
  split at h
  next => cases h
  next request hrequest =>
    cases reply with
    | done =>
      obtain ⟨phase, hreturned, heq⟩ := Option.map_eq_some_iff.mp h
      cases heq
      exact ⟨rfl, request, hrequest, .returned rfl hreturned⟩
    | answered answer =>
      obtain ⟨phase, hreturned, heq⟩ := Option.map_eq_some_iff.mp h
      cases heq
      exact ⟨rfl, request, hrequest, .returned rfl hreturned⟩
    | lost error =>
      cases h
      exact ⟨rfl, request, hrequest, .lost error⟩
    | refused error =>
      cases h
      exact ⟨rfl, request, hrequest, .refused error⟩

section Elim

variable {parseDate : String → Option ℤ} {store store' : RouterStore} {call : RouterCall}
  {uuid : String} {request : RouterRequest} {reply : Reply RouterAnswer} {phase : RouterPhase}
  {P : Reply RouterAnswer → RouterStore → RouterPhase → Prop}

theorem StepCases.elim_done (h : StepCases parseDate store call uuid request reply store' phase)
    (hsilent : ∀ answer, call.returned parseDate store uuid (some answer) = none)
    (hdone : ∀ phase, call.returned parseDate store uuid none = some phase →
      P .done (store.perform uuid .done request) phase)
    (hlost : ∀ error, P (.lost error) (store.perform uuid (.lost error) request)
      (call.thrown error))
    (hrefused : ∀ error, P (.refused error) store (call.thrown error)) : P reply store' phase := by
  cases h with
  | lost error => exact hlost error
  | refused error => exact hrefused error
  | returned hreply hreturned =>
    cases reply with
    | done =>
      cases hreply
      exact hdone _ hreturned
    | answered answer =>
      cases hreply
      rw [hsilent] at hreturned
      cases hreturned
    | lost error => cases hreply
    | refused error => cases hreply

end Elim

/-! ## Past the way in -/

def RouterPhase.past : RouterPhase → Bool
  | .findingSession | .locking _ | .entering _ => false
  | _ => true

theorem afterLoop_past (sessionId : String) (loop : QuoteLoop) :
    (afterLoop sessionId loop).past = true := by
  have htoFailed : (transitioning loop.session.status .FAILED .failing
      (.releasing (noValidQuotes sessionId))).past = true := by
    unfold transitioning
    split <;> rfl
  unfold afterLoop
  simp only
  split
  · exact htoFailed
  · split
    · exact htoFailed
    · rfl

theorem nextQuote_past (sessionId : String) (loop : QuoteLoop) :
    (nextQuote sessionId loop).past = true := by
  unfold nextQuote
  split
  · exact afterLoop_past sessionId loop
  · rfl

theorem failedAttempt_past (command : ExecuteRFQCommand) (loop : QuoteLoop)
    (rankedQuote : RankedQuote) (reason : String) :
    (failedAttempt command loop rankedQuote reason).past = true := by
  unfold failedAttempt
  simp only
  split
  · exact nextQuote_past _ _
  · exact afterLoop_past _ _

theorem foundQuote_past (parseDate : String → Option ℤ) (command : ExecuteRFQCommand)
    (loop : QuoteLoop) (rankedQuote : RankedQuote) (now : ℤ) (quoteRecord : Option RFQQuoteRecord) :
    (foundQuote parseDate command loop rankedQuote now quoteRecord).past = true := by
  unfold foundQuote
  split
  · exact failedAttempt_past _ _ _ _
  · split <;> rfl

theorem thrown_past (call : RouterCall) (error : String) : (call.thrown error).past = true := by
  unfold RouterCall.thrown
  split <;> rfl

/-- A transition that is written is one of the table, from the status it was checked against. -/
theorem transitioning_entry {currentStatus : String} {targetState : RFQState}
    {writing unrecognised : RouterPhase} (hunrecognised : unrecognised.past = true)
    (h : (transitioning currentStatus targetState writing unrecognised).past = false) :
    transitioning currentStatus targetState writing unrecognised = writing ∧
      ∃ state, currentStatus = state.text ∧ canTransitionTo state targetState := by
  unfold transitioning at h ⊢
  split at h
  next => cases h
  next => rw [hunrecognised] at h; cases h
  next hresult =>
    refine ⟨rfl, ?_⟩
    unfold transitionSessionToState at hresult
    split at hresult
    next => cases hresult
    next state hstate =>
      split at hresult
      next hcan => exact ⟨state, text_of_asRFQState hstate, hcan⟩
      next => cases hresult

theorem StepCases.past {parseDate : String → Option ℤ} {store' : RouterStore} {call : RouterCall}
    {phase : RouterPhase} (h : StepCases parseDate store call uuid request reply store' phase)
    (hpast : call.phase.past = true) : phase.past = true := by
  cases h with
  | lost error => exact thrown_past call error
  | refused error => exact thrown_past call error
  | returned _ hreturned =>
    unfold RouterCall.returned at hreturned
    split at hreturned
    next =>
      simp only at hreturned
      split at hreturned
      case h_1 hphase => rw [hphase] at hpast; cases hpast
      case h_2 hphase => rw [hphase] at hpast; cases hpast
      case h_3 hphase => rw [hphase] at hpast; cases hpast
      case h_4 => cases hreturned; exact failedAttempt_past _ _ _ _
      case h_5 => cases hreturned; rfl
      case h_6 => cases hreturned; rfl
      case h_7 => cases hreturned; rfl
      case h_8 => cases hreturned; rfl
      case h_9 result _ =>
        rw [Option.some.injEq] at hreturned
        rw [← hreturned]
        cases result <;> rfl
      case h_10 => cases hreturned
    next answer =>
      split at hreturned
      next => cases hreturned; exact foundQuote_past _ _ _ _ _ _
      next result _ =>
        rw [Option.some.injEq] at hreturned
        rw [← hreturned]
        cases result <;> rfl
      next => cases hreturned

/-! ## The status of a session -/

def RouterStore.status (store : RouterStore) (sessionId : String) : Option String :=
  (store.findById sessionId).map (·.status)

theorem updateStatus_status (store : RouterStore) (sessionId : String) (status : RFQState)
    (other : String) : (store.updateStatus sessionId status).status other =
      if other = sessionId then (store.status other).map fun _ => status.text
      else store.status other := by
  let rewritten (session : RFQSessionRecord) : RFQSessionRecord :=
    { session with status := status.text }
  have hkey (session : RFQSessionRecord) : (rewritten session).id = session.id := rfl
  have hselect := select_update other sessionId hkey store.sessions
  unfold RouterStore.status RouterStore.findById RouterStore.updateStatus
  rw [hselect]
  split
  · rw [Option.map_map, Option.map_map]
    rfl
  · rfl

theorem perform_status (hrequest : ∀ id status, request ≠ .updateStatus id status) :
    (∀ other, (store.perform uuid reply request).status other = store.status other) ∧
      (store.perform uuid reply request).statusWrites = store.statusWrites := by
  cases request with
  | updateStatus id status => exact absurd rfl (hrequest id status)
  | acquireLock id ownerId =>
    show (∀ other, (store.acquireLock id ownerId).status other = store.status other) ∧
      (store.acquireLock id ownerId).statusWrites = store.statusWrites
    unfold RouterStore.acquireLock
    split <;> exact ⟨fun _ => rfl, rfl⟩
  | execute id quoteId price quantity =>
    unfold RouterStore.perform
    simp only
    split <;> exact ⟨fun _ => rfl, rfl⟩
  | _ => exact ⟨fun _ => rfl, rfl⟩

/-! ## The results of the gateway -/

def RouterStore.okResults (store : RouterStore) (sessionId : String) : ℕ :=
  store.gatewayResults.count (sessionId, .ok)

theorem perform_gatewayResults
    (hrequest : ∀ id quoteId price quantity, request ≠ .execute id quoteId price quantity) :
    (store.perform uuid reply request).gatewayResults = store.gatewayResults := by
  cases request with
  | execute id quoteId price quantity => exact absurd rfl (hrequest id quoteId price quantity)
  | acquireLock id ownerId =>
    show (store.acquireLock id ownerId).gatewayResults = store.gatewayResults
    unfold RouterStore.acquireLock
    split <;> rfl
  | _ => rfl

end LotusRfq.Rfq
