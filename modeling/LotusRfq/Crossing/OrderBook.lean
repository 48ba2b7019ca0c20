import LotusRfq.Common.Js
import LotusRfq.Crossing.Match

/-!
# LotusRfq — the Redis order book

A sorted set of members for each side of each market, and a record for each order. Members and
records are written and expire separately, so a member may have no record and a record may be
out of date; neither says anything about the order's row.

* **`Filed`** — all that can be relied on: a member stands on the side of its order, and a record
  under its order's id; **`Filed.change`** — no writer of the book breaks it.
-/

namespace LotusRfq.Crossing

open LotusRfq.Js

/-- A member of a sorted set, `createdAtMs:orderId`. -/
structure BookMember where
  createdAtMs : ℕ
  orderId : String
  deriving DecidableEq

structure RedisBookOrder where
  orderId : String
  marketId : String
  side : Side
  member : BookMember
  price : ℚ
  remaining : ℚ
  userId : String
  createdAtMs : ℕ
  resolutionProfileId : Option String
  deriving DecidableEq

/-- What is stored under an order's key: a book order, JSON of another shape, or no JSON. -/
inductive BookRecord where
  | order (entry : RedisBookOrder)
  | malformed
  | unparsable
  deriving DecidableEq

structure OrderBook where
  index : String → Side → List (ℚ × BookMember)
  records : String → Option BookRecord

def scoreFor (side : Side) (price : ℚ) : ℚ :=
  match side with
  | .buy => -price
  | .sell => price

def memberFor (createdAtMs : ℕ) (orderId : String) : BookMember := ⟨createdAtMs, orderId⟩

/-- `null` for a member that ends with its separator. -/
def extractOrderId (member : BookMember) : Option String :=
  if member.orderId = "" then none else some member.orderId

def toBookOrder (order : InternalOrder) : RedisBookOrder :=
  { orderId := order.id
    marketId := order.market_id
    side := order.side
    member := memberFor order.created_at order.id
    price := order.price
    remaining := order.remaining_size
    userId := order.user_id
    createdAtMs := order.created_at
    resolutionProfileId := order.resolution_profile_id }

namespace OrderBook

/-! ## Redis commands -/

def setIndex (book : OrderBook) (marketId : String) (side : Side)
    (members : List (ℚ × BookMember)) : OrderBook :=
  { book with
    index := fun market s => if market = marketId ∧ s = side then members else book.index market s }

def zadd (book : OrderBook) (marketId : String) (side : Side) (score : ℚ) (member : BookMember) :
    OrderBook :=
  book.setIndex marketId side
    ((book.index marketId side).filter (·.2 ≠ member) ++ [(score, member)])

def zrem (book : OrderBook) (marketId : String) (side : Side) (member : BookMember) : OrderBook :=
  book.setIndex marketId side ((book.index marketId side).filter (·.2 ≠ member))

def compareMembers (left right : ℚ × BookMember) : Ordering :=
  (compare left.1 right.1).then
    ((compare left.2.createdAtMs right.2.createdAtMs).then
      (compare left.2.orderId right.2.orderId))

/-- `ZRANGEBYSCORE … -inf max LIMIT 0 limit`. -/
def zrangebyscore (book : OrderBook) (marketId : String) (side : Side) (max : ℚ) (limit : ℕ) :
    List BookMember :=
  ((sortWith compareMembers ((book.index marketId side).filter (·.1 ≤ max))).take limit).map (·.2)

def setRecord (book : OrderBook) (orderId : String) (record : Option BookRecord) : OrderBook :=
  { book with records := fun id => if id = orderId then record else book.records id }

/-! ## What the members and records say -/

/-- A member stands on its order's side, a record under its order's id. -/
structure Filed (orders : List InternalOrder) (book : OrderBook) : Prop where
  side : ∀ marketId side entry, entry ∈ book.index marketId side →
    ∀ order ∈ orders, order.id = entry.2.orderId → order.side = side
  record : ∀ orderId entry, book.records orderId = some (.order entry) → entry.orderId = orderId

section

variable {orders : List InternalOrder} {book : OrderBook} (h : book.Filed orders)

include h

theorem Filed.setIndex {marketId : String} {side : Side} {members : List (ℚ × BookMember)}
    (hmembers : ∀ entry ∈ members, ∀ order ∈ orders, order.id = entry.2.orderId → order.side =
      side) : (book.setIndex marketId side members).Filed orders := by
  refine ⟨fun market s entry hentry => ?_, h.record⟩
  simp only [OrderBook.setIndex] at hentry
  split at hentry
  next heq =>
    rw [heq.2]
    exact hmembers entry hentry
  next => exact h.side market s entry hentry

theorem Filed.zadd {marketId : String} {side : Side} (score : ℚ) {member : BookMember}
    (hmember : ∀ order ∈ orders, order.id = member.orderId → order.side = side) :
    (book.zadd marketId side score member).Filed orders := by
  refine h.setIndex fun entry hentry => ?_
  rcases List.mem_append.mp hentry with hold | hnew
  · exact h.side marketId side entry (List.mem_of_mem_filter hold)
  · rw [List.mem_singleton.mp hnew]
    exact hmember

theorem Filed.zrem (marketId : String) (side : Side) (member : BookMember) :
    (book.zrem marketId side member).Filed orders :=
  h.setIndex fun entry hentry => h.side marketId side entry (List.mem_of_mem_filter hentry)

theorem Filed.setRecord {orderId : String} {record : Option BookRecord}
    (hrecord : ∀ entry, record = some (.order entry) → entry.orderId = orderId) :
    (book.setRecord orderId record).Filed orders := by
  refine ⟨h.side, fun id entry hentry => ?_⟩
  simp only [OrderBook.setRecord] at hentry
  split at hentry
  next heq =>
    rw [heq]
    exact hrecord entry hentry
  next => exact h.record id entry hentry

theorem Filed.zrangebyscore {marketId : String} {side : Side} {max : ℚ} {limit : ℕ}
    {member : BookMember} (hmember : member ∈ book.zrangebyscore marketId side max limit) :
    ∀ order ∈ orders, order.id = member.orderId → order.side = side := by
  obtain ⟨entry, hentry, rfl⟩ := List.mem_map.mp hmember
  have hindex := List.mem_of_mem_filter (mem_sortWith.mp (List.mem_of_mem_take hentry))
  exact h.side marketId side entry hindex

end

end OrderBook

/-! ## The other writers of the book -/

/-- The Redis commands of everyone else who files, updates, drops or damages orders: `addOrder`
for a row of the table, `removeOrder`, `updateRemaining`, expiry of a record. -/
inductive BookChange where
  | zadd (orderId : String)
  | setOrder (orderId : String) (entry : RedisBookOrder)
  | zrem (marketId : String) (side : Side) (member : BookMember)
  | drop (orderId : String)
  | damage (orderId : String) (unparsable : Bool)

/-- `addOrder` files an order under its own market and side. -/
def BookChange.apply (orders : List InternalOrder) (book : OrderBook) :
    BookChange → Option OrderBook
  | .zadd orderId =>
    (Tables.select InternalOrder.id orderId orders).map fun order =>
      let bookOrder := toBookOrder order
      book.zadd bookOrder.marketId bookOrder.side (scoreFor bookOrder.side bookOrder.price)
        bookOrder.member
  | .setOrder orderId entry =>
    some (book.setRecord orderId (some (.order { entry with orderId := orderId })))
  | .zrem marketId side member => some (book.zrem marketId side member)
  | .drop orderId => some (book.setRecord orderId none)
  | .damage orderId unparsable =>
    some (book.setRecord orderId (some (if unparsable then .unparsable else .malformed)))

theorem OrderBook.Filed.change {orders : List InternalOrder} {book book' : OrderBook}
    (hids : (orders.map InternalOrder.id).Nodup) (h : book.Filed orders) {change : BookChange}
    (hchange : change.apply orders book = some book') : book'.Filed orders := by
  cases change with
  | zadd orderId =>
    obtain ⟨row, hselect, rfl⟩ := Option.map_eq_some_iff.mp hchange
    obtain ⟨hrow, -⟩ := Tables.mem_of_select hselect
    refine h.zadd _ fun order horder heq => ?_
    rw [Tables.eq_of_key hids horder hrow heq]
    rfl
  | setOrder orderId entry =>
    cases hchange
    refine h.setRecord fun entry' heq => ?_
    cases heq
    rfl
  | zrem marketId side member =>
    cases hchange
    exact h.zrem marketId side member
  | drop orderId =>
    cases hchange
    exact h.setRecord fun entry heq => by cases heq
  | damage orderId unparsable =>
    cases hchange
    refine h.setRecord fun entry heq => ?_
    split at heq <;> cases heq

end LotusRfq.Crossing
