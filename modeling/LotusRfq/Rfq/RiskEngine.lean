import LotusRfq.Common.Js
import LotusRfq.Lib.Calls
import LotusRfq.Lib.Transitions
import LotusRfq.Rfq.Records

/-!
# LotusRfq — `RiskEngine`

`validateBeforeExecution`, `updateExposureAfterExecution` and `rollbackReservation` as processes
over the exposure tables and the Redis locks. A validation reads and writes one statement at a time;
its reservation is a journal row whose change is zero, seen by others from its commit on. The
update of the exposure and the deletion of a reservation are transactions of their own, and so is
the idempotency marker that an update writes first.

* **`validateStep`**, **`rollbackStep`**, **`updateStep`** — one action of a call.
-/

namespace LotusRfq.Rfq

open Calls

/-! ## The tables and Redis -/

/-- The payload of a journal row, by the method that wrote it. -/
inductive RiskPayload where
  | reservation (reservationToken rfqId : String)
  | execution (rfqId : String)

structure RiskStore where
  exposure : List ExposureRow
  journal : List (JournalRow RiskPayload)
  idempotency : List String
  locks : List (String × String)

structure RiskConfig where
  userNotionalCap : ℚ

/-- `SET key token PX ttl NX`. -/
def RiskStore.lockExposureKey (store : RiskStore) (key token : String) : RiskStore :=
  if store.locks.any fun lock => lock.1 = key then store
  else { store with locks := store.locks ++ [(key, token)] }

/-- Deletes the lock of whoever holds it with this token. -/
def RiskStore.unlockExposureKey (store : RiskStore) (key token : String) : RiskStore :=
  { store with locks := store.locks.filter fun lock => lock ≠ (key, token) }

/-- The lock's time to live is over. -/
def RiskStore.expireLock (store : RiskStore) (key : String) : RiskStore :=
  { store with locks := store.locks.filter fun lock => lock.1 ≠ key }

/-- The transaction of `updateExposureWithJournal`. -/
def RiskStore.updateExposureWithJournal (store : RiskStore) (userId marketId : String) (side : Side)
    (deltaGross deltaNet : ℚ) (source referenceId : String) (payload : RiskPayload)
    (newId : String) : RiskStore :=
  let written := applyExposure store.exposure userId marketId side deltaGross deltaNet newId source
    referenceId payload
  { store with
    exposure := written.1
    journal := store.journal ++ [written.2] }

/-- `INSERT INTO exposure_idempotency`, which fails on an id that is there. -/
def RiskStore.markExecution (store : RiskStore) (executionId : String) : RiskStore :=
  { store with idempotency :=
      if executionId ∈ store.idempotency then store.idempotency
      else store.idempotency ++ [executionId] }

def isReservation (reservationToken : String) (row : JournalRow RiskPayload) : Bool :=
  match row.payload with
  | .reservation token _ => row.source = "pre-exec-reserve" && token = reservationToken
  | .execution _ => false

def RiskStore.reservation (store : RiskStore) (reservationToken : String) :
    Option (JournalRow RiskPayload) :=
  store.journal.reverse.find? (isReservation reservationToken)

/-- Delete the last row that satisfies `p`. -/
def eraseLast {α : Type} (p : α → Bool) (rows : List α) : List α :=
  (rows.reverse.eraseP p).reverse

def RiskStore.deleteReservation (store : RiskStore) (reservationToken : String) : RiskStore :=
  { store with journal := eraseLast (isReservation reservationToken) store.journal }

/-! ## `validateBeforeExecution` -/

def execLockKey (rfqId : String) : String := "risk:lock:exec:" ++ rfqId

def maxAttempts : ℕ := 10

/-- Self-trade prevention. -/
def checkSTP (rfq : RFQSessionRecord) (quote : RFQQuoteRecord) : Except String Unit :=
  let stpMode := match rfq.stp_mode with
    | some mode => if Js.hasText mode then mode else "CANCEL_NEWEST"
    | none => "CANCEL_NEWEST"
  if stpMode = "NONE" then .ok ()
  else if rfq.taker_id = quote.lp_key_id then
    .error "Risk rejection: Self-trade prevention triggered"
  else .ok ()

/-- The check of the cap, against the one row of the session's market and side. -/
def checkUserCap (config : RiskConfig) (quote : RFQQuoteRecord) (existing : Option ExposureRow) :
    Except String ℚ :=
  let currentGross := (existing.map ExposureRow.gross_notional).getD 0
  if config.userNotionalCap < currentGross + quote.notional then
    .error "Risk rejection: User notional cap exceeded at execution"
  else .ok currentGross

def reservationRow (rfq : RFQSessionRecord) (lockToken : String) (existing : Option ExposureRow)
    (currentGross : ℚ) : JournalRow RiskPayload :=
  { exposure_id := (existing.map ExposureRow.id).getD "00000000-0000-0000-0000-000000000000"
    change := 0
    prev_gross := currentGross
    prev_net := 0
    new_gross := currentGross
    new_net := 0
    source := "pre-exec-reserve"
    reference_id := rfq.id
    payload := .reservation lockToken rfq.id }

inductive ValidatePhase where
  | locking (attempts : ℕ)
  | connecting (lockToken : String)
  | beginning (lockToken : String)
  | selectingReservation (lockToken : String)
  | selectingExposure (lockToken : String)
  | reserving (lockToken : String) (row : JournalRow RiskPayload)
  | committing (lockToken : String) (row : JournalRow RiskPayload)
  | rollingBack (lockToken error : String)
  | unlocking (lockToken error : String)
  | accepted (lockToken : String)
  | rejected (error : String)

structure ValidateCall where
  rfq : RFQSessionRecord
  quote : RFQQuoteRecord
  phase : ValidatePhase

def ValidateCall.start (rfq : RFQSessionRecord) (quote : RFQQuoteRecord) : ValidateCall :=
  ⟨rfq, quote, .locking 0⟩

def lockAgain (attempts : ℕ) : ValidatePhase :=
  if attempts + 1 < maxAttempts then .locking (attempts + 1)
  else .rejected "Unable to acquire risk lock for execution after 10 attempts"

def selectedExposure (config : RiskConfig) (call : ValidateCall) (lockToken : String)
    (existing : Option ExposureRow) : ValidatePhase :=
  match checkUserCap config call.quote existing with
  | .error error => .rollingBack lockToken error
  | .ok currentGross =>
    .reserving lockToken (reservationRow call.rfq lockToken existing currentGross)

/-- What a validation awaits; `token` is the one it makes up for its lock. -/
def validateAwaits (config : RiskConfig) (store : RiskStore) (call : ValidateCall)
    (token : String) : Option (Awaited RiskStore ValidatePhase) :=
  let rfq := call.rfq
  match call.phase with
  | .locking attempts =>
    let isLocked := store.locks.any fun lock => lock.1 = execLockKey rfq.id
    some
      { effect := store.lockExposureKey (execLockKey rfq.id) token
        onReturn := if isLocked then lockAgain attempts else .connecting token
        onThrow := fun _ _ => lockAgain attempts }
  | .connecting lockToken => some ⟨store, .beginning lockToken, fun _ error => .rejected error⟩
  | .beginning lockToken =>
    some ⟨store, .selectingReservation lockToken, fun _ error => .rollingBack lockToken error⟩
  | .selectingReservation lockToken =>
    let isReserved := store.journal.any fun row =>
      row.reference_id = rfq.id ∧ row.source = "pre-exec-reserve"
    some
      { effect := store
        onReturn :=
          if isReserved then .rollingBack lockToken "Reservation already exists for this RFQ"
          else match checkSTP rfq call.quote with
            | .error error => .rollingBack lockToken error
            | .ok () => .selectingExposure lockToken
        onThrow := fun _ error => .rollingBack lockToken error }
  | .selectingExposure lockToken =>
    some
      { effect := store
        onReturn := selectedExposure config call lockToken
          (selectExposure store.exposure rfq.taker_id rfq.canonical_market_id rfq.side)
        onThrow := fun _ error => .rollingBack lockToken error }
  | .reserving lockToken row =>
    some ⟨store, .committing lockToken row, fun _ error => .rollingBack lockToken error⟩
  | .committing lockToken row =>
    some
      { effect := { store with journal := store.journal ++ [row] }
        onReturn := .accepted lockToken
        onThrow := fun _ error => .rollingBack lockToken error }
  | .rollingBack lockToken error =>
    some ⟨store, .unlocking lockToken error, fun _ error => .rejected error⟩
  | .unlocking lockToken error =>
    some
      { effect := store.unlockExposureKey (execLockKey rfq.id) lockToken
        onReturn := .rejected error
        onThrow := fun _ _ => .rejected error }
  | .accepted _ | .rejected _ => none

def validateStep (config : RiskConfig) (store : RiskStore) (call : ValidateCall) (token : String)
    (reply : Reply Unit) : Option (RiskStore × ValidateCall) :=
  ((validateAwaits config store call token).bind (·.settle store reply)).map
    fun (store, phase) => (store, { call with phase := phase })

/-! ## `rollbackReservation` -/

inductive RollbackPhase where
  | connecting
  | deleting
  | rollingBack (error : String)
  | unlocking (rfqId : String)
  | finished
  | rejected (error : String)
  deriving DecidableEq

structure RollbackCall where
  reservationToken : String
  phase : RollbackPhase
  deriving DecidableEq

def RollbackCall.start (reservationToken : String) : RollbackCall := ⟨reservationToken, .connecting⟩

/-- What a rollback awaits. Its lock is released with errors swallowed. -/
def rollbackAwaits (store : RiskStore) (call : RollbackCall) :
    Option (Awaited RiskStore RollbackPhase) :=
  match call.phase with
  | .connecting => some ⟨store, .deleting, fun _ error => .rejected error⟩
  | .deleting =>
    some
      { effect := store.deleteReservation call.reservationToken
        onReturn := match store.reservation call.reservationToken with
          | none => .finished
          | some row => .unlocking row.reference_id
        onThrow := fun _ error => .rollingBack error }
  | .rollingBack error => some ⟨store, .rejected error, fun _ error => .rejected error⟩
  | .unlocking rfqId =>
    some
      { effect := store.unlockExposureKey (execLockKey rfqId) call.reservationToken
        onReturn := .finished
        onThrow := fun _ _ => .finished }
  | .finished | .rejected _ => none

def rollbackStep (store : RiskStore) (call : RollbackCall) (reply : Reply Unit) :
    Option (RiskStore × RollbackCall) :=
  ((rollbackAwaits store call).bind (·.settle store reply)).map
    fun (store, phase) => (store, { call with phase := phase })

/-! ## `updateExposureAfterExecution` -/

inductive UpdatePhase where
  | marking
  | releasingAgain (rollback : RollbackCall)
  | updating
  | incrementing
  | releasing (rollback : RollbackCall)
  | summing
  | returned
  | thrown (error : String)
  | crashed
  deriving DecidableEq

structure UpdateCall where
  exec : ExecutionResult
  phase : UpdatePhase

def UpdateCall.start (exec : ExecutionResult) : UpdateCall := ⟨exec, .marking⟩

/-- An update that finds its execution marked: only the reservation is given back. -/
def alreadyApplied (exec : ExecutionResult) : UpdatePhase :=
  match exec.reservationToken with
  | none => .returned
  | some token => .releasingAgain (RollbackCall.start token)

def afterIncrement (exec : ExecutionResult) : UpdatePhase :=
  match exec.reservationToken with
  | none => .summing
  | some token => .releasing (RollbackCall.start token)

def RiskStore.applyExecution (store : RiskStore) (exec : ExecutionResult) (newId : String) :
    RiskStore :=
  store.updateExposureWithJournal exec.takerId exec.canonicalMarketId exec.side exec.deltaGross
    exec.deltaNet "rfq-execution" exec.id (.execution exec.sessionId) newId

/-- What an update awaits outside a rollback; `newId` is the id of an exposure row that it may
insert. -/
def updateAwaits (store : RiskStore) (call : UpdateCall) (newId : String) :
    Option (Awaited RiskStore UpdatePhase) :=
  let exec := call.exec
  let throw (_ : Bool) (error : String) : UpdatePhase := .thrown error
  match call.phase with
  | .marking =>
    some
      { effect := store.markExecution exec.id
        onReturn := if exec.id ∈ store.idempotency then alreadyApplied exec else .updating
        onThrow := throw }
  | .updating =>
    -- the database makes up an id that no row has
    if newId ∈ store.exposure.map ExposureRow.id then none
    else some ⟨store.applyExecution exec newId, .incrementing, throw⟩
  | .incrementing => some ⟨store, afterIncrement exec, throw⟩
  | .summing => some ⟨store, .returned, throw⟩
  | _ => none

def releasedAgain (rollback : RollbackCall) : UpdatePhase :=
  match rollback.phase with
  | .finished | .rejected _ => .returned
  | _ => .releasingAgain rollback

def released (rollback : RollbackCall) : UpdatePhase :=
  match rollback.phase with
  | .finished => .summing
  | .rejected error => .thrown error
  | _ => .releasing rollback

def updateStep (store : RiskStore) (call : UpdateCall) (newId : String) (reply : Reply Unit) :
    Option (RiskStore × UpdateCall) :=
  match call.phase with
  | .releasingAgain rollback =>
    (rollbackStep store rollback reply).map fun (store, rollback) =>
      (store, { call with phase := releasedAgain rollback })
  | .releasing rollback =>
    (rollbackStep store rollback reply).map fun (store, rollback) =>
      (store, { call with phase := released rollback })
  | _ =>
    ((updateAwaits store call newId).bind (·.settle store reply)).map
      fun (store, phase) => (store, { call with phase := phase })

end LotusRfq.Rfq
