import LotusRfq.Common.Js
import LotusRfq.Lib.Programs

/-!
# LotusRfq — the Redis locks

The order locker, the resource locker of the combo engines, the lock of a plan step and the lock of
an RFQ session. A lock is a key with the id of its owner; it is set if the key is free, it expires,
and whoever deletes the key deletes the lock. The lockers read the owner before they delete; a step
and a session are unlocked without reading.

Every Redis command is a request of its own. A command throws while the connection is broken, with
or without having taken effect. An acquisition that has failed is told so by a request that does
nothing (`failed`).
-/

namespace LotusRfq.Locks

open Processes

structure LockRow where
  key : String
  holder : ℕ
  deriving DecidableEq

/-- Commands are answered; or throw without effect, or with it. -/
inductive Connection where
  | up
  | refusing
  | losing
  deriving DecidableEq

/-- The keys that are set, and the next id that `randomUUID` gives. -/
structure LockState where
  locks : List LockRow
  connection : Connection
  nextId : ℕ
  deriving DecidableEq

inductive LockPart where
  | acquire
  | release
  deriving DecidableEq

inductive LockRequest where
  | randomUUID
  | set (key : String) (holder : ℕ)
  | get (key : String) (holder : ℕ) (part : LockPart)
  | del (key : String) (holder : ℕ) (part : LockPart)
  /-- What is done under a lock; after it, this lock is deleted without reading. -/
  | work (deletes : Option LockRow)
  | failed (holder : ℕ)
  | expire (key : String)
  | connect (connection : Connection)
  deriving DecidableEq

abbrev LockRequest.Answer : LockRequest → Type
  | .randomUUID => ℕ
  | .set _ _ => Bool
  | .get _ _ _ => Option ℕ
  | _ => Unit

inductive LockError where
  | connection
  /-- `OrderLockError`, `ResourceLockError`, `RFQLockError`. -/
  | notAcquired
  deriving DecidableEq

def LockState.isLocked (s : LockState) (key : String) : Bool := s.locks.any fun row => row.key = key

def LockState.ownerOf (s : LockState) (key : String) : Option ℕ :=
  (s.locks.find? fun row => row.key = key).map (·.holder)

def LockState.without (s : LockState) (key : String) : LockState :=
  { s with locks := s.locks.filter fun row => row.key ≠ key }

def LockState.with (s : LockState) (row : LockRow) : LockState :=
  { s with locks := s.locks ++ [row] }

def LockState.reply {α : Type} (s after : LockState) (answer : α) : Except LockError α × LockState :=
  match s.connection with
  | .up => (.ok answer, after)
  | .refusing => (.error .connection, s)
  | .losing => (.error .connection, after)

def lockHandle : (e : LockRequest) → LockState → Except LockError e.Answer × LockState
  | .randomUUID, s => (.ok s.nextId, { s with nextId := s.nextId + 1 })
  | .set key holder, s =>
    if s.isLocked key then s.reply s false else s.reply (s.with ⟨key, holder⟩) true
  | .get key _ _, s => s.reply s (s.ownerOf key)
  | .del key _ _, s => s.reply (s.without key) ()
  | .work _, s => s.reply s ()
  | .failed _, s => (.ok (), s)
  | .expire key, s => (.ok (), s.without key)
  | .connect connection, s => (.ok (), { s with connection })

abbrev LockProgram : Type → Type := Program LockError LockRequest LockRequest.Answer

/-! ## `OrderLocker` and `ResourceLocker` -/

def releaseLocks (part : LockPart) (ownerId : ℕ) : List String → LockProgram Unit
  | [] => pure ()
  | key :: rest => do
    let currentOwner ← call (LockRequest.get key ownerId part)
    if currentOwner = some ownerId then do
      call (LockRequest.del key ownerId part)
      releaseLocks part ownerId rest
    else releaseLocks part ownerId rest

def tryAcquireLocks (ownerId : ℕ) (acquiredKeys : List String) :
    List String → LockProgram (Option (List String))
  | [] => pure (some acquiredKeys)
  | lockKey :: rest => do
    let outcome ← call (LockRequest.set lockKey ownerId)
    if outcome then tryAcquireLocks ownerId (acquiredKeys ++ [lockKey]) rest
    else do
      releaseLocks .acquire ownerId acquiredKeys
      pure none

def acquireWithin (ownerId : ℕ) (lockKeys : List String) : ℕ → LockProgram (List String)
  | 0 => throw .notAcquired
  | attempts + 1 => do
    let acquired ← tryAcquireLocks ownerId [] lockKeys
    match acquired with
    | some acquired => pure acquired
    | none => acquireWithin ownerId lockKeys attempts

/-- How a caller uses a locker: it acquires, works and, whatever comes of that, releases. -/
def lockedBy (acquire : ℕ → LockProgram (List String)) : LockProgram Unit := do
  let ownerId ← call LockRequest.randomUUID
  let acquired ← attempt (acquire ownerId)
  match acquired with
  | .error error => do
    call (LockRequest.failed ownerId)
    throw error
  | .ok lockKeys => do
    let result ← attempt (call (LockRequest.work none))
    releaseLocks .release ownerId lockKeys
    match result with
    | .error error => throw error
    | .ok _ => pure ()

structure LockerConfig where
  localeCompare : String → String → Ordering
  orderRetries : ℕ
  resourceRetries : ℕ

def sortAndDedupe (config : LockerConfig) (ids : List String) : List String :=
  Js.sortWith config.localeCompare ids.eraseDups

def acquireDualOrderLocks (config : LockerConfig) (orderIdA orderIdB : String) (ownerId : ℕ) :
    LockProgram (List String) :=
  acquireWithin ownerId ((sortAndDedupe config [orderIdA, orderIdB]).map ("lock:order:" ++ ·))
    config.orderRetries

def acquireLocks (config : LockerConfig) (resourceIds : List String) (ownerId : ℕ) :
    LockProgram (List String) :=
  acquireWithin ownerId (sortAndDedupe config resourceIds) config.resourceRetries

/-! ## The locks of a step and of a session -/

/-- A lock that is set, and deleted in the end; `refused` is what a caller does that has not got
it. -/
def lockedUnread (lockKey : String) (refused : LockProgram Unit) : LockProgram Unit := do
  let lockToken ← call LockRequest.randomUUID
  let outcome : Except LockError Bool ← attempt (call (LockRequest.set lockKey lockToken))
  match outcome with
  | .error error => do
    call (LockRequest.failed lockToken)
    throw error
  | .ok false => do
    call (LockRequest.failed lockToken)
    refused
  | .ok true => do
    let result ← attempt (call (LockRequest.work (some ⟨lockKey, lockToken⟩)))
    call (LockRequest.del lockKey lockToken .release)
    match result with
    | .error error => throw error
    | .ok _ => pure ()

def executeSingleStep (stepId : String) : LockProgram Unit :=
  lockedUnread ("route_step:" ++ stepId ++ ":lock") (pure ())

/-- `acquireLock` and `releaseLock` of the session manager, as the execution router uses them. -/
def executeSession (sessionId : String) : LockProgram Unit :=
  lockedUnread ("rfq:" ++ sessionId ++ ":lock") (throw .notAcquired)

/-! ## Side by side -/

inductive LockOperation where
  | matchMakerOrder (orderIdA orderIdB : String)
  | lockResources (resourceIds : List String)
  | executeSingleStep (stepId : String)
  | executeSession (sessionId : String)
  | expire (key : String)
  | connect (connection : Connection)

def lockProgram (config : LockerConfig) : LockOperation → LockProgram Unit
  | .matchMakerOrder orderIdA orderIdB => lockedBy (acquireDualOrderLocks config orderIdA orderIdB)
  | .lockResources resourceIds => lockedBy (acquireLocks config resourceIds)
  | .executeSingleStep stepId => Locks.executeSingleStep stepId
  | .executeSession sessionId => Locks.executeSession sessionId
  | .expire key => call (LockRequest.expire key)
  | .connect connection => call (LockRequest.connect connection)

def lockCode (config : LockerConfig) (operation : LockOperation) :
    Code LockRequest (fun e => Except LockError e.Answer) Unit :=
  (lockProgram config operation).run >>= fun _ => pure ()

abbrev LockSystem : Type := System LockState LockRequest fun e => Except LockError e.Answer

abbrev lockStep (config : LockerConfig) : LockSystem → Action LockOperation → Option LockSystem :=
  step (lockCode config) lockHandle

end LotusRfq.Locks
