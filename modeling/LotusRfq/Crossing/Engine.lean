import LotusRfq.Crossing.OrderBook
import LotusRfq.Lib.Calls
import LotusRfq.Lib.Transitions

/-!
# LotusRfq — `InternalCrossingEngine.attemptCross`

Any number of calls over one order book and one database. A call is a process: its code between
two `await`s is one action; a Redis command and a match transaction are one action each. Whether
the two order locks are got is left open, since they expire by themselves: a call that holds them
may not be alone.

* **`consider`** — a call goes through its batch of candidates up to the next `await`;
* **`crossStep`** — one action of a call;
* **`act`** — one action of the system: a call is started, a call goes on, someone else writes
  the book.
-/

namespace LotusRfq.Crossing

open Calls

/-- A Redis command of `syncRedisBook` or `safeRemoveStaleMaker`. -/
inductive SyncCommand where
  | removeGet (orderId : String)
  | removeZrem (orderId : String) (existing : RedisBookOrder)
  | removeDel (orderId : String)
  | updateGet (orderId : String) (remaining : ℚ)
  | updateSet (orderId : String) (updated : RedisBookOrder)
  | dropMalformed (orderId : String)

structure CrossResult where
  filledSize : ℚ
  remainingSize : ℚ
  trades : List Trade
  deriving DecidableEq

/-- What a call is waiting for. `rest` holds the members, or the candidates, still to come. -/
inductive CrossPhase where
  | ranging
  | reading (member : BookMember) (rest : List BookMember) (orders : List RedisBookOrder)
  | deletingMalformed (member : BookMember) (rest : List BookMember)
      (orders : List RedisBookOrder)
  | removingMember (member : BookMember) (rest : List BookMember) (orders : List RedisBookOrder)
  | judging (makerEntry : RedisBookOrder) (rest : List RedisBookOrder)
  | locking (makerEntry : RedisBookOrder) (rest : List RedisBookOrder)
  | matching (makerEntry : RedisBookOrder) (rest : List RedisBookOrder)
  | syncing (command : SyncCommand) (rest : List RedisBookOrder)
  | releasing (rest : List RedisBookOrder) (threw : Bool)
  | finished (result : CrossResult)
  | rejected

/-- A call of `attemptCross` and its local variables. -/
structure Cross where
  incomingOrder : InternalOrder
  remainingTakerSize : ℚ
  filledTakerSize : ℚ
  trades : List Trade
  progressedInBatch : Bool
  phase : CrossPhase

def Cross.goTo (call : Cross) (phase : CrossPhase) : Cross := { call with phase := phase }

def Cross.finish (call : Cross) : Cross :=
  call.goTo (.finished ⟨call.filledTakerSize, call.remainingTakerSize, call.trades⟩)

/-- The test of the `while` loop. -/
def Cross.loop (call : Cross) : Cross :=
  if 0 < call.remainingTakerSize then call.goTo .ranging else call.finish

def Cross.start (incomingOrder : InternalOrder) : Cross :=
  Cross.loop
    { incomingOrder := incomingOrder
      remainingTakerSize := incomingOrder.remaining_size
      filledTakerSize := 0
      trades := []
      progressedInBatch := false
      phase := .ranging }

def Cross.endBatch (call : Cross) : Cross :=
  if call.progressedInBatch then call.loop else call.finish

/-- The profiles need no judgement: one is missing, or they are the same. -/
def sameProfile (incomingOrder : InternalOrder) (makerEntry : RedisBookOrder) : Bool :=
  match incomingOrder.resolution_profile_id, makerEntry.resolutionProfileId with
  | some taker, some maker => taker = "" ∨ maker = "" ∨ taker = maker
  | _, _ => true

/-- The candidates in turn, up to the first that is judged or locked. `eligibilityService` tells
whether there is a service to judge them. -/
def consider (eligibilityService : Bool) (call : Cross) : List RedisBookOrder → Cross
  | [] => call.endBatch
  | makerEntry :: rest =>
    if call.remainingTakerSize ≤ 0 then call.endBatch
    else if makerEntry.userId = call.incomingOrder.user_id then
      -- self-trade: the incoming order is cancelled
      Cross.endBatch { call with remainingTakerSize := 0 }
    else if sameProfile call.incomingOrder makerEntry then call.goTo (.locking makerEntry rest)
    else if eligibilityService then call.goTo (.judging makerEntry rest)
    else consider eligibilityService call rest

/-- The next member of the batch to read; with none left, the batch is complete. -/
def readNext (eligibilityService : Bool) (call : Cross) (orders : List RedisBookOrder) :
    List BookMember → Cross
  | [] =>
    if orders = [] then call.finish
    else consider eligibilityService { call with progressedInBatch := false } orders
  | member :: rest =>
    match extractOrderId member with
    | none => readNext eligibilityService call orders rest
    | some _ => call.goTo (.reading member rest orders)

/-- The state that the calls share: Postgres and Redis. -/
structure Shared where
  db : CrossDb
  book : OrderBook

def Shared.withBook (shared : Shared) (book : OrderBook) : Shared := { shared with book := book }

/-- The answer of the eligibility service, or none. -/
abbrev Reply := Calls.Reply Bool

/-- A Redis command after the transaction. Its errors are swallowed. -/
def syncCall (shared : Shared) (call : Cross) (rest : List RedisBookOrder) :
    SyncCommand → Awaited Shared Cross
  | .removeGet orderId =>
    { effect := shared
      onReturn := match shared.book.records orderId with
        | some (.order existing) => call.goTo (.syncing (.removeZrem orderId existing) rest)
        | some .malformed => call.goTo (.syncing (.dropMalformed orderId) rest)
        | some .unparsable | none => call.goTo (.releasing rest false)
      onThrow := fun _ _ => call.goTo (.releasing rest false) }
  | .removeZrem orderId existing =>
    { effect := shared.withBook
        (shared.book.zrem existing.marketId existing.side existing.member)
      onReturn := call.goTo (.syncing (.removeDel orderId) rest)
      onThrow := fun _ _ => call.goTo (.releasing rest false) }
  | .removeDel orderId | .dropMalformed orderId =>
    { effect := shared.withBook (shared.book.setRecord orderId none)
      onReturn := call.goTo (.releasing rest false)
      onThrow := fun _ _ => call.goTo (.releasing rest false) }
  | .updateGet orderId remaining =>
    { effect := shared
      onReturn := match shared.book.records orderId with
        | some (.order existing) =>
          call.goTo (.syncing (.updateSet orderId { existing with remaining := remaining }) rest)
        | some .malformed => call.goTo (.syncing (.dropMalformed orderId) rest)
        | some .unparsable | none => call.goTo (.releasing rest false)
      onThrow := fun _ _ => call.goTo (.releasing rest false) }
  | .updateSet orderId updated =>
    { effect := shared.withBook (shared.book.setRecord orderId (some (.order updated)))
      onReturn := call.goTo (.releasing rest false)
      onThrow := fun _ _ => call.goTo (.releasing rest false) }

/-- What a call awaits, the match transaction and the eligibility service apart. -/
def crossCall (eligibilityService : Bool) (shared : Shared) (call : Cross) :
    Option (Awaited Shared Cross) :=
  let order := call.incomingOrder
  let reject (_ : Bool) (_ : String) : Cross := call.goTo .rejected
  match call.phase with
  | .finished _ | .rejected | .judging _ _ | .matching _ _ => none
  | .ranging =>
    some ⟨shared, readNext eligibilityService call []
      (shared.book.zrangebyscore order.market_id order.side.opposite
        (scoreFor order.side.opposite order.price) 10), reject⟩
  | .reading member rest orders =>
    some
      { effect := shared
        onReturn := match shared.book.records member.orderId with
          | some (.order entry) => readNext eligibilityService call (orders ++ [entry]) rest
          | some .malformed => call.goTo (.deletingMalformed member rest orders)
          | some .unparsable => call.goTo .rejected
          | none => call.goTo (.removingMember member rest orders)
        onThrow := reject }
  | .deletingMalformed member rest orders =>
    some ⟨shared.withBook (shared.book.setRecord member.orderId none),
      call.goTo (.removingMember member rest orders), reject⟩
  | .removingMember member rest orders =>
    some ⟨shared.withBook (shared.book.zrem order.market_id order.side.opposite member),
      readNext eligibilityService call orders rest, reject⟩
  | .locking makerEntry rest => some ⟨shared, call.goTo (.matching makerEntry rest), reject⟩
  | .syncing command rest => some (syncCall shared call rest command)
  | .releasing rest threw =>
    some ⟨shared, if threw then call.goTo .rejected else consider eligibilityService call rest,
      reject⟩

/-- `matchMakerOrder` has returned. -/
def afterMatch (call : Cross) (makerEntry : RedisBookOrder) (rest : List RedisBookOrder) :
    MatchEnd → Cross
  | .stale => call.goTo (.syncing (.removeGet makerEntry.orderId) rest)
  | .duplicate maker =>
    call.goTo (.syncing
      (if maker.status = .FILLED then .removeGet maker.id
        else .updateGet maker.id maker.remaining_size) rest)
  | .matched result =>
    { call with
      progressedInBatch := true
      remainingTakerSize := call.remainingTakerSize - result.matchSize
      filledTakerSize := call.filledTakerSize + result.matchSize
      trades := call.trades ++ [result.trade]
      phase := .syncing
        (if result.newMakerStatus = .FILLED then .removeGet result.makerOrderId
          else .updateGet result.makerOrderId result.newMakerRemaining) rest }

/-- The transaction a call has run, if this is the action that runs it. -/
def Cross.transaction (shared : Shared) (call : Cross) (uuid : ℕ → String) :
    Option (Tables.Outcome CrossDb MatchEnd) :=
  match call.phase with
  | .matching makerEntry _ =>
    some (matchMakerOrder shared.db call.incomingOrder makerEntry.orderId call.remainingTakerSize
      uuid)
  | _ => none

/-- The match transaction ends. A connection that is lost before the commit aborts it; one that
is lost with the answer to the commit does not. -/
def matchStep (shared : Shared) (call : Cross) (makerEntry : RedisBookOrder)
    (rest : List RedisBookOrder) (uuid : ℕ → String) : Reply → Option (Shared × Cross)
  | .done =>
    let outcome := matchMakerOrder shared.db call.incomingOrder makerEntry.orderId
      call.remainingTakerSize uuid
    some ({ shared with db := outcome.database shared.db },
      match outcome with
      | .committed _ value | .rolledBack value => afterMatch call makerEntry rest value
      | .aborted _ => call.goTo (.releasing rest true))
  | .lost _ =>
    let outcome := matchMakerOrder shared.db call.incomingOrder makerEntry.orderId
      call.remainingTakerSize uuid
    some ({ shared with db := outcome.database shared.db }, call.goTo (.releasing rest true))
  | .refused _ => some (shared, call.goTo (.releasing rest true))
  | .answered _ => none

def crossStep (eligibilityService : Bool) (shared : Shared) (call : Cross) (uuid : ℕ → String)
    (reply : Reply) : Option (Shared × Cross) :=
  match call.phase with
  | .judging makerEntry rest =>
    match reply with
    | .answered safe =>
      some (shared, if safe then call.goTo (.locking makerEntry rest)
        else consider eligibilityService call rest)
    | .lost _ | .refused _ => some (shared, call.goTo .rejected)
    | .done => none
  | .matching makerEntry rest => matchStep shared call makerEntry rest uuid reply
  | _ => (crossCall eligibilityService shared call).bind (·.settle shared reply)

/-! ## The system -/

structure System where
  shared : Shared
  calls : List Cross

inductive Action where
  | start (incomingOrder : InternalOrder)
  | cross (i : ℕ) (uuid : ℕ → String) (reply : Reply)
  | book (change : BookChange)

def act (eligibilityService : Bool) (sys : System) : Action → Option System
  | .start incomingOrder => some { sys with calls := sys.calls ++ [Cross.start incomingOrder] }
  | .cross i uuid reply =>
    match sys.calls[i]? with
    | none => none
    | some call =>
      (crossStep eligibilityService sys.shared call uuid reply).map fun (shared, call) =>
        ⟨shared, sys.calls.set i call⟩
  | .book change =>
    (change.apply sys.shared.db.orders sys.shared.book).map fun book =>
      { sys with shared := sys.shared.withBook book }

end LotusRfq.Crossing
