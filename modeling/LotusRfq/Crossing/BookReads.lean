import Mathlib.Data.List.Pairwise
import Mathlib.Data.String.Basic
import LotusRfq.Crossing.Conservation

/-!
# LotusRfq — what `OrderBook` reads back

The operations of the order book one after another. A read takes its members from the front of
the index, and only then looks for their records: a member whose order is gone takes a place of
the limit, and a member that an order has left behind, as it was filed again elsewhere, gives the
order out once more.

* **`bookStep_kept`** — what every operation keeps: a record has its member in the index;
* **`readsRight_iff_clean`** — reads are right exactly when no member is left behind in the way;
* **`bookStep_tidy`** — operations that leave none behind.
-/

namespace LotusRfq.Crossing

open LotusRfq.Js Transitions List

namespace OrderBook

/-! ## Operations -/

def getOrderById (book : OrderBook) (orderId : String) :
    Except String (OrderBook × Option RedisBookOrder) :=
  match book.records orderId with
  | none => .ok (book, none)
  | some (.order entry) => .ok (book, some entry)
  | some .malformed => .ok (book.setRecord orderId none, none)
  | some .unparsable => .error "SyntaxError"

def addOrder (book : OrderBook) (order : InternalOrder) : OrderBook :=
  let bookOrder := toBookOrder order
  (book.zadd bookOrder.marketId bookOrder.side (scoreFor bookOrder.side bookOrder.price)
    bookOrder.member).setRecord bookOrder.orderId (some (.order bookOrder))

def removeOrder (book : OrderBook) (orderId : String) : Except String (OrderBook × Bool) := do
  let (book, existing) ← book.getOrderById orderId
  match existing with
  | none => return (book, false)
  | some existing =>
    let removed := decide
      (existing.member ∈ (book.index existing.marketId existing.side).map Prod.snd)
    return ((book.zrem existing.marketId existing.side existing.member).setRecord orderId none,
      removed)

def updateRemaining (book : OrderBook) (orderId : String) (remaining : ℚ) :
    Except String (OrderBook × Option RedisBookOrder) := do
  let (book, existing) ← book.getOrderById orderId
  match existing with
  | none => return (book, none)
  | some existing =>
    let updated := { existing with remaining := remaining }
    return (book.setRecord orderId (some (.order updated)), some updated)

def readMembers (marketId : String) (oppositeSide : Side) :
    OrderBook → List BookMember → Except String (OrderBook × List RedisBookOrder)
  | book, [] => .ok (book, [])
  | book, member :: rest =>
    match extractOrderId member with
    | none => readMembers marketId oppositeSide book rest
    | some orderId => do
      let (book, entry) ← book.getOrderById orderId
      match entry with
      | none => readMembers marketId oppositeSide (book.zrem marketId oppositeSide member) rest
      | some entry =>
        let (book, orders) ← readMembers marketId oppositeSide book rest
        return (book, entry :: orders)

def getBestOppositeOrders (book : OrderBook) (marketId : String) (takerSide : Side)
    (priceLimit : ℚ) (limit : ℕ) : Except String (OrderBook × List RedisBookOrder) :=
  readMembers marketId takerSide.opposite book
    (book.zrangebyscore marketId takerSide.opposite (scoreFor takerSide.opposite priceLimit) limit)

end OrderBook

open OrderBook

inductive BookOp where
  | add (order : InternalOrder)
  | update (orderId : String) (remaining : ℚ)
  | remove (orderId : String)
  | expire (orderId : String)
  | read (marketId : String) (takerSide : Side) (priceLimit : ℚ) (limit : ℕ)

def bookStep (book : OrderBook) : BookOp → Option OrderBook
  | .add order => some (book.addOrder order)
  | .update orderId remaining => ((book.updateRemaining orderId remaining).toOption).map Prod.fst
  | .remove orderId => ((book.removeOrder orderId).toOption).map Prod.fst
  | .expire orderId => some (book.setRecord orderId none)
  | .read marketId takerSide priceLimit limit =>
    ((book.getBestOppositeOrders marketId takerSide priceLimit limit).toOption).map Prod.fst

def emptyBook : OrderBook := ⟨fun _ _ => [], fun _ => none⟩

/-! ## What a read should give -/

/-- Price, then time, then id. -/
def positionOf (entry : RedisBookOrder) : ℚ × BookMember :=
  (scoreFor entry.side entry.price, memberFor entry.createdAtMs entry.orderId)

structure CrossesAt (book : OrderBook) (marketId : String) (side : Side) (priceLimit : ℚ)
    (entry : RedisBookOrder) : Prop where
  live : book.records entry.orderId = some (.order entry)
  inMarket : entry.marketId = marketId
  onSide : entry.side = side
  within : scoreFor side entry.price ≤ scoreFor side priceLimit

/-- The first `limit` of the live orders, in the order of their positions. -/
structure FirstLive (book : OrderBook) (marketId : String) (side : Side) (priceLimit : ℚ)
    (limit : ℕ) (result : List RedisBookOrder) : Prop where
  sorted : result.Pairwise fun left right =>
    compareMembers (positionOf left) (positionOf right) = .lt
  live : ∀ entry ∈ result, CrossesAt book marketId side priceLimit entry
  length : result.length ≤ limit
  first : ∀ entry, CrossesAt book marketId side priceLimit entry → entry ∉ result →
    result.length = limit ∧
      ∀ other ∈ result, compareMembers (positionOf other) (positionOf entry) = .lt

/-- Every read gives the first live orders, so that one that gives none has none to give. -/
structure ReadsRight (book : OrderBook) : Prop where
  first : ∀ marketId takerSide priceLimit limit, ∃ book' result,
    book.getBestOppositeOrders marketId takerSide priceLimit limit = .ok (book', result) ∧
      FirstLive book marketId takerSide.opposite priceLimit limit result
  goesOn : ∀ marketId takerSide priceLimit limit book', 0 < limit →
    book.getBestOppositeOrders marketId takerSide priceLimit limit = .ok (book', []) →
      ∀ entry, ¬ CrossesAt book marketId takerSide.opposite priceLimit entry

/-! ## What the operations keep -/

/-- Every record is an order, and has its member in the index of its market and side. -/
structure Kept (book : OrderBook) : Prop where
  plain : ∀ orderId record, book.records orderId = some record → ∃ entry, record = .order entry
  members : ∀ marketId side, ((book.index marketId side).map Prod.snd).Nodup
  orderId : ∀ orderId entry, book.records orderId = some (.order entry) → entry.orderId = orderId
  member : ∀ orderId entry, book.records orderId = some (.order entry) →
    entry.member = memberFor entry.createdAtMs orderId
  filed : ∀ orderId entry, book.records orderId = some (.order entry) →
    (scoreFor entry.side entry.price, entry.member) ∈ book.index entry.marketId entry.side

section Index

variable {book : OrderBook} {marketId : String} {side : Side} {score : ℚ} {member : BookMember}

theorem mem_zadd {market : String} {s : Side} {entry : ℚ × BookMember} :
    entry ∈ (book.zadd marketId side score member).index market s ↔
      if market = marketId ∧ s = side then
        (entry ∈ book.index marketId side ∧ entry.2 ≠ member) ∨ entry = (score, member)
      else entry ∈ book.index market s := by
  unfold OrderBook.zadd OrderBook.setIndex
  simp only
  split
  · simp
  · rfl

theorem mem_zrem {market : String} {s : Side} {entry : ℚ × BookMember} :
    entry ∈ (book.zrem marketId side member).index market s ↔
      entry ∈ book.index market s ∧ ¬ (market = marketId ∧ s = side ∧ entry.2 = member) := by
  unfold OrderBook.zrem OrderBook.setIndex
  simp only
  split
  next heq =>
    obtain ⟨rfl, rfl⟩ := heq
    simp
  next hne =>
    constructor
    · exact fun h => ⟨h, fun hall => hne ⟨hall.1, hall.2.1⟩⟩
    · exact fun h => h.1

theorem nodup_zadd (h : ∀ market s, ((book.index market s).map Prod.snd).Nodup) (market : String)
    (s : Side) : (((book.zadd marketId side score member).index market s).map Prod.snd).Nodup := by
  unfold OrderBook.zadd OrderBook.setIndex
  simp only
  split
  · rw [map_append, nodup_append]
    refine ⟨(filter_sublist.map _).nodup (h marketId side), nodup_singleton _, ?_⟩
    intro old hold new hnew heq
    obtain ⟨entry, hentry, rfl⟩ := mem_map.mp hold
    rw [map_singleton, mem_singleton] at hnew
    exact absurd (heq.trans hnew) (by simpa using of_mem_filter hentry)
  · exact h market s

theorem nodup_zrem (h : ∀ market s, ((book.index market s).map Prod.snd).Nodup) (market : String)
    (s : Side) : (((book.zrem marketId side member).index market s).map Prod.snd).Nodup := by
  unfold OrderBook.zrem OrderBook.setIndex
  simp only
  split
  · exact (filter_sublist.map _).nodup (h marketId side)
  · exact h market s

end Index

section Kept

variable {book book' : OrderBook}

theorem Kept.getOrderById (h : Kept book) (orderId : String) :
    book.getOrderById orderId = .ok (book, (book.records orderId).bind fun record =>
      match record with
      | .order entry => some entry
      | _ => none) := by
  unfold OrderBook.getOrderById
  cases hrecord : book.records orderId with
  | none => rfl
  | some record =>
    obtain ⟨entry, rfl⟩ := h.plain orderId record hrecord
    rfl

theorem memberFor_inj {createdAtMs createdAtMs' : ℕ} {orderId orderId' : String}
    (h : memberFor createdAtMs orderId = memberFor createdAtMs' orderId') :
    createdAtMs = createdAtMs' ∧ orderId = orderId' := by
  unfold memberFor at h
  rw [BookMember.mk.injEq] at h
  exact h

theorem addOrder_records (book : OrderBook) (order : InternalOrder) (orderId : String) :
    (book.addOrder order).records orderId =
      if orderId = order.id then some (.order (toBookOrder order)) else book.records orderId := rfl

theorem Kept.addOrder (h : Kept book) (order : InternalOrder) : Kept (book.addOrder order) := by
  have hrecord : ∀ orderId entry, (book.addOrder order).records orderId = some (.order entry) →
      (orderId = order.id ∧ entry = toBookOrder order) ∨
        (orderId ≠ order.id ∧ book.records orderId = some (.order entry)) := by
    intro orderId entry hentry
    rw [addOrder_records] at hentry
    by_cases heq : orderId = order.id
    · rw [if_pos heq] at hentry
      cases hentry
      exact .inl ⟨heq, rfl⟩
    · rw [if_neg heq] at hentry
      exact .inr ⟨heq, hentry⟩
  refine ⟨fun orderId record hsome => ?_, fun market s => nodup_zadd h.members market s,
    fun orderId entry hentry => ?_, fun orderId entry hentry => ?_, fun orderId entry hentry => ?_⟩
  · rw [addOrder_records] at hsome
    by_cases heq : orderId = order.id
    · rw [if_pos heq] at hsome
      cases hsome
      exact ⟨_, rfl⟩
    · rw [if_neg heq] at hsome
      exact h.plain orderId record hsome
  · rcases hrecord orderId entry hentry with ⟨rfl, rfl⟩ | ⟨-, hold⟩
    · rfl
    · exact h.orderId orderId entry hold
  · rcases hrecord orderId entry hentry with ⟨rfl, rfl⟩ | ⟨-, hold⟩
    · rfl
    · exact h.member orderId entry hold
  · show _ ∈ (book.zadd _ _ _ _).index _ _
    rw [mem_zadd]
    rcases hrecord orderId entry hentry with ⟨rfl, rfl⟩ | ⟨hne, hold⟩
    · rw [if_pos ⟨rfl, rfl⟩]
      exact .inr rfl
    · have hfiled := h.filed orderId entry hold
      split
      next hplace =>
        refine .inl ⟨hplace.1 ▸ hplace.2 ▸ hfiled, fun heq => hne ?_⟩
        simp only [h.member orderId entry hold] at heq
        exact (memberFor_inj heq).2
      next => exact hfiled

theorem Kept.setRecord (h : Kept book) {orderId : String} {entry updated : RedisBookOrder}
    (hentry : book.records orderId = some (.order entry)) (hid : updated.orderId = entry.orderId)
    (hcreated : updated.createdAtMs = entry.createdAtMs) (hmember : updated.member = entry.member)
    (hmarket : updated.marketId = entry.marketId) (hside : updated.side = entry.side)
    (hprice : updated.price = entry.price) :
    Kept (book.setRecord orderId (some (.order updated))) := by
  refine ⟨fun id record hsome => ?_, h.members, fun id other hother => ?_,
    fun id other hother => ?_, fun id other hother => ?_⟩
  all_goals simp only [OrderBook.setRecord] at *
  · split at hsome
    · cases hsome
      exact ⟨_, rfl⟩
    · exact h.plain id record hsome
  · split at hother
    next heq =>
      cases hother
      rw [hid, heq]
      exact h.orderId orderId entry hentry
    next => exact h.orderId id other hother
  · split at hother
    next heq =>
      cases hother
      rw [hmember, hcreated, heq]
      exact h.member orderId entry hentry
    next => exact h.member id other hother
  · split at hother
    next heq =>
      cases hother
      rw [hside, hprice, hmember, hmarket]
      exact h.filed orderId entry hentry
    next => exact h.filed id other hother

theorem Kept.drop (h : Kept book) (orderId : String) : Kept (book.setRecord orderId none) := by
  have hrecord : ∀ id record, (book.setRecord orderId none).records id = some record →
      book.records id = some record := by
    intro id record hsome
    simp only [OrderBook.setRecord] at hsome
    split at hsome
    · cases hsome
    · exact hsome
  exact ⟨fun id record hsome => h.plain id record (hrecord id _ hsome), h.members,
    fun id entry hsome => h.orderId id entry (hrecord id _ hsome),
    fun id entry hsome => h.member id entry (hrecord id _ hsome),
    fun id entry hsome => h.filed id entry (hrecord id _ hsome)⟩

theorem Kept.zrem (h : Kept book) {member : BookMember} (hgone : book.records member.orderId = none)
    (marketId : String) (side : Side) : Kept (book.zrem marketId side member) := by
  refine ⟨h.plain, fun market s => nodup_zrem h.members market s, h.orderId, h.member,
    fun id entry hentry => ?_⟩
  rw [mem_zrem]
  refine ⟨h.filed id entry hentry, fun hall => ?_⟩
  have hid : member.orderId = id := by
    rw [← hall.2.2]
    simp only [h.member id entry hentry]
    rfl
  rw [hid] at hgone
  exact absurd (hgone.symm.trans hentry) nofun

def OrderBook.entryAt (book : OrderBook) (member : BookMember) : Option RedisBookOrder :=
  if member.orderId = "" then none
  else match book.records member.orderId with
    | some (.order entry) => some entry
    | _ => none

/-- A read keeps the records, and takes members without records off the index. -/
structure Sheds (book book' : OrderBook) : Prop where
  records : book'.records = book.records
  index : ∀ marketId side, ∀ entry ∈ book'.index marketId side, entry ∈ book.index marketId side
  kept : Kept book'

theorem readMembers_ok (h : Kept book) (marketId : String) (side : Side)
    (members : List BookMember) : ∃ book', readMembers marketId side book members =
      .ok (book', members.filterMap book.entryAt) ∧ Sheds book book' := by
  induction members generalizing book with
  | nil => exact ⟨book, rfl, rfl, fun _ _ _ hentry => hentry, h⟩
  | cons member rest ih =>
    rw [readMembers, filterMap_cons]
    by_cases hempty : member.orderId = ""
    · have hentry : book.entryAt member = none := if_pos hempty
      simp only [extractOrderId, hempty, if_true, hentry]
      exact ih h
    · simp only [extractOrderId, hempty, if_false, h.getOrderById]
      cases hrecord : book.records member.orderId with
      | none =>
        have hentry : book.entryAt member = none := by
          rw [OrderBook.entryAt, if_neg hempty, hrecord]
        obtain ⟨book', hread, hrecords, hindex, hkept⟩ := ih (h.zrem hrecord marketId side)
        refine ⟨book', ?_, hrecords, fun market s entry hentry => ?_, hkept⟩
        · rw [hentry]
          exact hread
        · exact (mem_zrem.mp (hindex market s entry hentry)).1
      | some record =>
        obtain ⟨entry, rfl⟩ := h.plain _ record hrecord
        have hentry : book.entryAt member = some entry := by
          rw [OrderBook.entryAt, if_neg hempty, hrecord]
        obtain ⟨book', hread, hsheds⟩ := ih h
        refine ⟨book', ?_, hsheds⟩
        rw [hentry]
        show Except.bind (readMembers marketId side book rest) _ = _
        rw [hread]
        rfl

inductive Effect (book : OrderBook) : BookOp → OrderBook → Prop where
  | added (order : InternalOrder) : Effect book (.add order) (book.addOrder order)
  | updated (orderId : String) (remaining : ℚ) (entry : RedisBookOrder)
      (hentry : book.records orderId = some (.order entry)) :
      Effect book (.update orderId remaining)
        (book.setRecord orderId (some (.order { entry with remaining := remaining })))
  | removed (orderId : String) (entry : RedisBookOrder)
      (hentry : book.records orderId = some (.order entry)) :
      Effect book (.remove orderId)
        ((book.setRecord orderId none).zrem entry.marketId entry.side entry.member)
  | missed (op : BookOp) : Effect book op book
  | expired (orderId : String) : Effect book (.expire orderId) (book.setRecord orderId none)
  | read (marketId : String) (takerSide : Side) (priceLimit : ℚ) (limit : ℕ) (book' : OrderBook)
      (hsheds : Sheds book book') : Effect book (.read marketId takerSide priceLimit limit) book'

theorem bookStep_effect {op : BookOp} (h : Kept book) (hstep : bookStep book op = some book') :
    Effect book op book' := by
  cases op with
  | add order =>
    cases hstep
    exact .added order
  | update orderId remaining =>
    simp only [bookStep, OrderBook.updateRemaining] at hstep
    rw [h.getOrderById] at hstep
    cases hrecord : book.records orderId with
    | none =>
      rw [hrecord] at hstep
      cases hstep
      exact .missed _
    | some record =>
      obtain ⟨entry, rfl⟩ := h.plain _ record hrecord
      rw [hrecord] at hstep
      cases hstep
      exact .updated orderId remaining entry hrecord
  | remove orderId =>
    simp only [bookStep, OrderBook.removeOrder] at hstep
    rw [h.getOrderById] at hstep
    cases hrecord : book.records orderId with
    | none =>
      rw [hrecord] at hstep
      cases hstep
      exact .missed _
    | some record =>
      obtain ⟨entry, rfl⟩ := h.plain _ record hrecord
      rw [hrecord] at hstep
      cases hstep
      exact .removed orderId entry hrecord
  | expire orderId =>
    cases hstep
    exact .expired orderId
  | read marketId takerSide priceLimit limit =>
    obtain ⟨read, hread, hsheds⟩ := readMembers_ok h marketId takerSide.opposite
      (book.zrangebyscore marketId takerSide.opposite (scoreFor takerSide.opposite priceLimit)
        limit)
    simp only [bookStep, OrderBook.getBestOppositeOrders] at hstep
    rw [hread] at hstep
    cases hstep
    exact .read marketId takerSide priceLimit limit read hsheds

/-- **Every operation keeps** the records filed. -/
theorem bookStep_kept {op : BookOp} (h : Kept book) (hstep : bookStep book op = some book') :
    Kept book' := by
  cases bookStep_effect h hstep with
  | added order => exact h.addOrder order
  | updated orderId remaining entry hentry => exact h.setRecord hentry rfl rfl rfl rfl rfl rfl
  | removed orderId entry hentry =>
    have hmember : entry.member.orderId = orderId := by
      rw [h.member orderId entry hentry]
      rfl
    have hgone : (book.setRecord orderId none).records entry.member.orderId = none := by
      rw [hmember]
      exact if_pos rfl
    exact (h.drop orderId).zrem hgone entry.marketId entry.side
  | missed => exact h
  | expired orderId => exact h.drop orderId
  | read marketId takerSide priceLimit limit _ hsheds => exact hsheds.kept

theorem emptyBook_kept : Kept emptyBook := ⟨nofun, fun _ _ => nodup_nil, nofun, nofun, nofun⟩

end Kept

/-! ## The order of the members -/

instance compareMembers_trans : Std.TransCmp compareMembers := by
  have hscore := transCmp_ascending (compare : ℚ → ℚ → Ordering)
    fun entry : ℚ × BookMember => entry.1
  have htime := transCmp_ascending (compare : ℕ → ℕ → Ordering)
    fun entry : ℚ × BookMember => entry.2.createdAtMs
  have hid := transCmp_ascending (compare : String → String → Ordering)
    fun entry : ℚ × BookMember => entry.2.orderId
  exact inferInstanceAs (Std.TransCmp (compareLex
    (fun left right : ℚ × BookMember => compare left.1 right.1)
    (compareLex
      (fun left right : ℚ × BookMember => compare left.2.createdAtMs right.2.createdAtMs)
      fun left right => compare left.2.orderId right.2.orderId)))

theorem compareMembers_eq {left right : ℚ × BookMember} (h : compareMembers left right = .eq) :
    left = right := by
  unfold compareMembers at h
  rw [Ordering.then_eq_eq, Ordering.then_eq_eq] at h
  obtain ⟨hscore, htime, hid⟩ := h
  exact Prod.ext (compare_eq_iff_eq.mp hscore)
    (BookMember.mk.injEq _ _ _ _ ▸ ⟨compare_eq_iff_eq.mp htime, compare_eq_iff_eq.mp hid⟩)

theorem sortWith_lt {entries : List (ℚ × BookMember)} (h : entries.Nodup) :
    (sortWith compareMembers entries).Pairwise fun left right =>
      compareMembers left right = .lt := by
  have hsorted : (sortWith compareMembers entries).Pairwise (notAfter compareMembers) :=
    pairwise_insertionSort _ _
  refine (hsorted.and ((sortWith_perm _ _).nodup_iff.mpr h)).imp fun {left right} hboth => ?_
  cases hcompare : compareMembers left right with
  | lt => rfl
  | eq => exact absurd (compareMembers_eq hcompare) hboth.2
  | gt => exact absurd hcompare hboth.1

def OrderBook.membersWithin (book : OrderBook) (marketId : String) (side : Side) (max : ℚ) :
    List (ℚ × BookMember) :=
  sortWith compareMembers ((book.index marketId side).filter (·.1 ≤ max))

section Sorted

variable {book : OrderBook} {marketId : String} {side : Side} {max : ℚ} {entry : ℚ × BookMember}

theorem mem_membersWithin : entry ∈ book.membersWithin marketId side max ↔
      entry ∈ book.index marketId side ∧ entry.1 ≤ max := by
  rw [OrderBook.membersWithin, mem_sortWith, mem_filter, decide_eq_true_eq]

theorem Kept.eq_of_member (h : Kept book) {other : ℚ × BookMember}
    (hentry : entry ∈ book.index marketId side) (hother : other ∈ book.index marketId side)
    (hmember : entry.2 = other.2) : entry = other :=
  inj_on_of_nodup_map (h.members marketId side) hentry hother hmember

theorem membersWithin_sorted (h : Kept book) (marketId : String) (side : Side) (max : ℚ) :
    (book.membersWithin marketId side max).Pairwise fun left right =>
      compareMembers left right = .lt :=
  sortWith_lt (((h.members marketId side).of_map).filter _)

/-- Of a list in which nothing that `p` holds of comes after something it does not hold of. -/
theorem filter_take {α : Type*} {p : α → Bool} {items : List α}
    (h : items.Pairwise fun left right => p right = true → p left = true) (n : ℕ) :
    (items.take n).filter p = (items.filter p).take n := by
  induction items generalizing n with
  | nil => simp
  | cons item rest ih =>
    rw [pairwise_cons] at h
    cases n with
    | zero => simp
    | succ n =>
      rw [take_succ_cons]
      cases hitem : p item with
      | true =>
        rw [filter_cons_of_pos hitem, filter_cons_of_pos hitem, take_succ_cons, ih h.2]
      | false =>
        have hnone : ∀ other ∈ rest, ¬ p other = true := by
          intro other hother hp
          have hsome := h.1 other hother hp
          rw [hitem] at hsome
          cases hsome
        have hlater : rest.filter p = [] := filter_eq_nil_iff.mpr hnone
        have hfirst : (rest.take n).filter p = [] :=
          filter_eq_nil_iff.mpr fun other hother => hnone other (mem_of_mem_take hother)
        have hneg : ¬ p item = true := by
          rw [hitem]
          decide
        rw [filter_cons_of_neg hneg, filter_cons_of_neg hneg, hlater, hfirst, take_nil]

end Sorted

/-! ## When reads are right -/

def OrderBook.named (book : OrderBook) (entry : ℚ × BookMember) : Bool :=
  (book.records entry.2.orderId).isSome

/-- A member that names an order is that order's member, and no member whose order is gone comes
before one of an order. -/
structure Clean (book : OrderBook) : Prop where
  placed : ∀ marketId side, ∀ entry ∈ book.index marketId side, ∀ order,
    book.records entry.2.orderId = some (.order order) →
      entry.2.orderId ≠ "" ∧ order.marketId = marketId ∧ order.side = side ∧
        order.member = entry.2
  last : ∀ marketId side, ∀ gone ∈ book.index marketId side, book.named gone = false →
    ∀ live ∈ book.index marketId side, book.named live = true → compareMembers live gone = .lt

open OrderBook (entryAt zrangebyscore membersWithin)

section Clean

variable {book : OrderBook} {marketId : String} {side : Side} {entry : ℚ × BookMember}

theorem Clean.order (hclean : Clean book) (h : Kept book)
    (hentry : entry ∈ book.index marketId side) (hnamed : book.named entry = true) :
    ∃ order, book.entryAt entry.2 = some order ∧
      book.records entry.2.orderId = some (.order order) ∧ order.marketId = marketId ∧
      order.side = side ∧ positionOf order = entry := by
  obtain ⟨record, hrecord⟩ := Option.isSome_iff_exists.mp hnamed
  obtain ⟨order, rfl⟩ := h.plain _ record hrecord
  obtain ⟨hid, hmarket, hside, hmember⟩ := hclean.placed marketId side entry hentry order hrecord
  have hfiled := h.filed _ order hrecord
  rw [hmarket, hside] at hfiled
  refine ⟨order, ?_, hrecord, hmarket, hside, ?_⟩
  · rw [entryAt, if_neg hid, hrecord]
  · have hposition : positionOf order = (scoreFor side order.price, order.member) := by
      rw [positionOf, hside, h.orderId _ order hrecord, ← h.member _ order hrecord]
    rw [hposition]
    exact h.eq_of_member hfiled hentry hmember

theorem Clean.positions (hclean : Clean book) (h : Kept book) {entries : List (ℚ × BookMember)}
    (hentries : ∀ entry ∈ entries, entry ∈ book.index marketId side) :
    ((entries.map Prod.snd).filterMap book.entryAt).map positionOf = entries.filter book.named := by
  induction entries with
  | nil => rfl
  | cons entry rest ih =>
    have hrest := ih fun other hother => hentries other (mem_cons_of_mem _ hother)
    rw [map_cons, filterMap_cons]
    cases hnamed : book.named entry with
    | true =>
      obtain ⟨order, horder, -, -, -, hposition⟩ :=
        hclean.order h (hentries entry mem_cons_self) hnamed
      rw [horder, filter_cons_of_pos hnamed, map_cons, hposition, hrest]
    | false =>
      have hgone : book.records entry.2.orderId = none := by
        simpa [OrderBook.named] using hnamed
      have hnone : book.entryAt entry.2 = none := by
        rw [entryAt, hgone]
        split
        · rfl
        · rfl
      have hneg : ¬ book.named entry = true := by
        rw [hnamed]
        decide
      rw [hnone, filter_cons_of_neg hneg, hrest]

theorem CrossesAt.eq_of_position {priceLimit : ℚ} {left right : RedisBookOrder}
    (hleft : CrossesAt book marketId side priceLimit left)
    (hright : CrossesAt book marketId side priceLimit right)
    (h : positionOf left = positionOf right) : left = right := by
  have hid : left.orderId = right.orderId := by
    have hmember := congrArg Prod.snd h
    exact (memberFor_inj hmember).2
  have hlive := hleft.live
  rw [hid, hright.live, Option.some.injEq, BookRecord.order.injEq] at hlive
  exact hlive.symm

theorem entryAt_eq_some {member : BookMember} {order : RedisBookOrder} :
    book.entryAt member = some order ↔
      member.orderId ≠ "" ∧ book.records member.orderId = some (.order order) := by
  unfold entryAt
  split
  next hempty => simp [hempty]
  next hid =>
    split
    next entry hrecord => simp [hid, hrecord]
    next hnot =>
      simp only [reduceCtorEq, false_iff, not_and]
      exact fun _ hrecord => hnot order hrecord

theorem Clean.crossesAt (hclean : Clean book) (h : Kept book) {priceLimit : ℚ}
    (hentry : entry ∈ book.membersWithin marketId side (scoreFor side priceLimit))
    {order : RedisBookOrder} (horder : book.entryAt entry.2 = some order) :
    CrossesAt book marketId side priceLimit order ∧ positionOf order = entry := by
  obtain ⟨hindex, hwithin⟩ := mem_membersWithin.mp hentry
  obtain ⟨-, hrecord⟩ := entryAt_eq_some.mp horder
  have hnamed : book.named entry = true := by rw [OrderBook.named, hrecord]; rfl
  obtain ⟨found, hfound, -, hmarket, hside, hposition⟩ := hclean.order h hindex hnamed
  rw [horder, Option.some.injEq] at hfound
  subst hfound
  refine ⟨⟨?_, hmarket, hside, ?_⟩, hposition⟩
  · rwa [h.orderId _ order hrecord]
  · rw [← hposition, positionOf, hside] at hwithin
    exact hwithin

theorem Kept.position_mem (h : Kept book) {priceLimit : ℚ} {order : RedisBookOrder}
    (horder : CrossesAt book marketId side priceLimit order) :
    positionOf order ∈ book.membersWithin marketId side (scoreFor side priceLimit) ∧
      book.named (positionOf order) = true := by
  have hfiled := h.filed _ order horder.live
  have hposition : positionOf order = (scoreFor order.side order.price, order.member) := by
    rw [positionOf, h.member _ order horder.live]
  constructor
  · rw [mem_membersWithin, hposition]
    rw [horder.inMarket, horder.onSide] at hfiled
    exact ⟨horder.onSide.symm ▸ hfiled, horder.onSide.symm ▸ horder.within⟩
  · show (book.records order.orderId).isSome = true
    rw [horder.live]
    rfl

/-- **A clean book is read right.** -/
theorem Clean.firstLive (hclean : Clean book) (h : Kept book) (marketId : String) (side : Side)
    (priceLimit : ℚ) (limit : ℕ) : FirstLive book marketId side priceLimit limit
      ((book.zrangebyscore marketId side (scoreFor side priceLimit) limit).filterMap
        book.entryAt) := by
  have hsorted := membersWithin_sorted h marketId side (scoreFor side priceLimit)
  have hcrosses : ∀ entry ∈ book.membersWithin marketId side (scoreFor side priceLimit),
      ∀ order, book.entryAt entry.2 = some order → CrossesAt book marketId side priceLimit order :=
    fun entry hentry order horder => (hclean.crossesAt h hentry horder).1
  unfold zrangebyscore
  rw [← membersWithin]
  generalize hmembers : book.membersWithin marketId side (scoreFor side priceLimit) = members
    at hsorted hcrosses
  have hindex : ∀ entry ∈ members, entry ∈ book.index marketId side := by
    intro entry hentry
    rw [← hmembers] at hentry
    exact (mem_membersWithin.mp hentry).1
  -- those that name an order come first
  have hprefix : members.Pairwise fun left right =>
      book.named right = true → book.named left = true := by
    refine hsorted.imp_of_mem fun {left right} hleft hright hlt hnamed => ?_
    by_contra hgone
    have hafter := hclean.last marketId side left (hindex left hleft)
      (Bool.not_eq_true _ ▸ hgone) right (hindex right hright) hnamed
    exact absurd (Std.OrientedCmp.gt_iff_lt.mpr hlt) (by rw [hafter]; decide)
  have hpositions : (((members.take limit).map Prod.snd).filterMap book.entryAt).map positionOf =
      (members.filter book.named).take limit := by
    rw [hclean.positions h fun entry hentry => hindex entry (mem_of_mem_take hentry),
      filter_take hprefix]
  have hnamedSorted := hsorted.sublist (filter_sublist (p := book.named))
  have hlive : ∀ order ∈ ((members.take limit).map Prod.snd).filterMap book.entryAt,
      CrossesAt book marketId side priceLimit order := by
    intro order horder
    obtain ⟨member, hmember, hentry⟩ := mem_filterMap.mp horder
    obtain ⟨entry, htaken, rfl⟩ := mem_map.mp hmember
    exact hcrosses entry (mem_of_mem_take htaken) order hentry
  generalize ((members.take limit).map Prod.snd).filterMap book.entryAt = result
    at hpositions hlive ⊢
  have hlength : (result.map positionOf).length = result.length := length_map _
  refine ⟨?_, hlive, ?_, fun entry hentry hnot => ?_⟩
  · have hpairwise : (result.map positionOf).Pairwise fun left right =>
        compareMembers left right = .lt := by
      rw [hpositions]
      exact hnamedSorted.sublist (take_sublist _ _)
    exact pairwise_map.mp hpairwise
  · rw [← hlength, hpositions]
    exact length_take_le _ _
  · obtain ⟨hposition, hnamed⟩ := h.position_mem hentry
    rw [hmembers] at hposition
    have hmem : positionOf entry ∈ members.filter book.named := mem_filter.mpr ⟨hposition, hnamed⟩
    have huntaken : positionOf entry ∉ (members.filter book.named).take limit := by
      intro htaken
      rw [← hpositions] at htaken
      obtain ⟨other, hother, heq⟩ := mem_map.mp htaken
      exact hnot ((hlive other hother).eq_of_position hentry heq ▸ hother)
    rw [← take_append_drop limit (members.filter book.named)] at hmem hnamedSorted
    have hleft := (mem_append.mp hmem).resolve_left huntaken
    obtain ⟨-, -, hbefore⟩ := pairwise_append.mp hnamedSorted
    constructor
    · rw [← hlength, hpositions]
      have hdrop := length_pos_of_mem hleft
      rw [length_drop] at hdrop
      rw [length_take]
      omega
    · intro other hother
      refine hbefore _ ?_ _ hleft
      rw [← hpositions]
      exact mem_map_of_mem hother

end Clean

/-! ## Where reads go wrong -/

section Right

variable {book : OrderBook} {marketId : String} {side : Side}

theorem opposite_opposite (side : Side) : side.opposite.opposite = side := by
  cases side
  · rfl
  · rfl

@[simp] theorem scoreFor_scoreFor (side : Side) (score : ℚ) :
    scoreFor side (scoreFor side score) = score := by
  cases side
  · exact neg_neg score
  · rfl

theorem ReadsRight.firstLive (hright : ReadsRight book) (h : Kept book) (marketId : String)
    (side : Side) (priceLimit : ℚ) (limit : ℕ) : FirstLive book marketId side priceLimit limit
      ((book.zrangebyscore marketId side (scoreFor side priceLimit) limit).filterMap
        book.entryAt) := by
  obtain ⟨book', result, hread, hfirst⟩ := hright.first marketId side.opposite priceLimit limit
  obtain ⟨book'', hread', -⟩ := readMembers_ok h marketId side.opposite.opposite
    (book.zrangebyscore marketId side.opposite.opposite
      (scoreFor side.opposite.opposite priceLimit) limit)
  unfold OrderBook.getBestOppositeOrders at hread
  rw [hread'] at hread
  rw [opposite_opposite] at hread hfirst
  have hresult := congrArg Prod.snd (Except.ok.inj hread)
  simp only at hresult
  rwa [hresult]

theorem entryAt_mem_read {max : ℚ} {limit : ℕ} (hlimit : (book.index marketId side).length ≤ limit)
    {entry : ℚ × BookMember} (hentry : entry ∈ book.membersWithin marketId side max)
    {order : RedisBookOrder} (horder : book.entryAt entry.2 = some order) :
    order ∈ (book.zrangebyscore marketId side max limit).filterMap book.entryAt := by
  unfold zrangebyscore
  rw [← membersWithin, take_of_length_le]
  · exact mem_filterMap.mpr ⟨entry.2, mem_map_of_mem hentry, horder⟩
  · rw [membersWithin, (sortWith_perm _ _).length_eq]
    exact (length_filter_le _ _).trans hlimit

theorem length_read (book : OrderBook) (marketId : String) (side : Side) (max : ℚ) (limit : ℕ) :
    ((book.zrangebyscore marketId side max limit).filterMap book.entryAt).length ≤
      (book.index marketId side).length := by
  refine (length_filterMap_le _ _).trans ?_
  unfold zrangebyscore
  rw [length_map, length_take, (sortWith_perm _ _).length_eq]
  exact (min_le_right _ _).trans (length_filter_le _ _)

theorem eq_of_filterMap_nodup {α β : Type*} {f : α → Option β} {items : List α}
    (h : (items.filterMap f).Nodup) {left right : α} (hleft : left ∈ items) (hright : right ∈ items)
    {image : β} (hleftImage : f left = some image) (hrightImage : f right = some image) :
    left = right := by
  have hpairwise := pairwise_filterMap.mp h
  have hsymm : Std.Symm fun a a' : α =>
      ∀ b, f a = some b → ∀ b', f a' = some b' → b ≠ b' :=
    ⟨fun a b hab x hx y hy heq => hab y hy x hx heq.symm⟩
  by_contra hne
  exact hpairwise.forall hleft hright hne image hleftImage image hrightImage rfl

theorem nodup_of_positions {result : List RedisBookOrder} (h : result.Pairwise fun left right =>
    compareMembers (positionOf left) (positionOf right) = .lt) : result.Nodup := by
  refine h.imp fun {left right} hlt heq => ?_
  have heven : compareMembers (positionOf right) (positionOf right) = .eq :=
    Std.ReflCmp.compare_self
  rw [heq, heven] at hlt
  cases hlt

theorem exists_bound (entries : List (ℚ × BookMember)) : ∃ max, ∀ entry ∈ entries, entry.1 ≤ max := by
  induction entries with
  | nil => exact ⟨0, fun _ h => absurd h not_mem_nil⟩
  | cons entry rest ih =>
    obtain ⟨max', hmax⟩ := ih
    refine ⟨max entry.1 max', fun other hother => ?_⟩
    rcases mem_cons.mp hother with rfl | hmem
    · exact le_max_left _ _
    · exact (hmax other hmem).trans (le_max_right _ _)

theorem ReadsRight.placed (hright : ReadsRight book) (h : Kept book) {entry : ℚ × BookMember}
    (hentry : entry ∈ book.index marketId side) {order : RedisBookOrder}
    (hrecord : book.records entry.2.orderId = some (.order order)) :
    entry.2.orderId ≠ "" ∧ order.marketId = marketId ∧ order.side = side ∧
      order.member = entry.2 := by
  have horderId := h.orderId _ order hrecord
  have hid : entry.2.orderId ≠ "" := by
    intro hempty
    -- the order is not found where it is filed
    have hfirst := hright.firstLive h order.marketId order.side order.price
      ((book.index order.marketId order.side).length + 1)
    have hcrosses : CrossesAt book order.marketId order.side order.price order :=
      ⟨by rwa [horderId], rfl, rfl, le_rfl⟩
    by_cases hread : order ∈ (book.zrangebyscore order.marketId order.side
        (scoreFor order.side order.price)
        ((book.index order.marketId order.side).length + 1)).filterMap book.entryAt
    · obtain ⟨member, -, hmember⟩ := mem_filterMap.mp hread
      obtain ⟨hne, hrecord'⟩ := entryAt_eq_some.mp hmember
      exact hne ((h.orderId _ order hrecord').symm.trans (horderId.trans hempty))
    · have hlength := (hfirst.first order hcrosses hread).1
      have hle := length_read book order.marketId order.side (scoreFor order.side order.price)
        ((book.index order.marketId order.side).length + 1)
      omega
  have hat : book.entryAt entry.2 = some order := entryAt_eq_some.mpr ⟨hid, hrecord⟩
  obtain ⟨max, hmax⟩ := exists_bound (book.index marketId side)
  have hfirst := hright.firstLive h marketId side (scoreFor side max)
    (book.index marketId side).length
  rw [scoreFor_scoreFor] at hfirst
  have hwithin : entry ∈ book.membersWithin marketId side max :=
    mem_membersWithin.mpr ⟨hentry, hmax entry hentry⟩
  have hcrosses := hfirst.live order (entryAt_mem_read le_rfl hwithin hat)
  refine ⟨hid, hcrosses.inMarket, hcrosses.onSide, ?_⟩
  -- another member of the order would give it out twice
  have hfiled := h.filed _ order hrecord
  rw [hcrosses.inMarket, hcrosses.onSide] at hfiled
  have hfiledWithin : (scoreFor side order.price, order.member) ∈
      book.membersWithin marketId side max :=
    mem_membersWithin.mpr ⟨hfiled, hmax _ hfiled⟩
  have hmemberId : order.member.orderId = entry.2.orderId := by
    rw [h.member _ order hrecord]
    rfl
  have hfiledAt : book.entryAt order.member = some order :=
    entryAt_eq_some.mpr ⟨hmemberId ▸ hid, hmemberId ▸ hrecord⟩
  have hnodup := nodup_of_positions hfirst.sorted
  unfold zrangebyscore at hnodup
  rw [← membersWithin, take_of_length_le] at hnodup
  · exact eq_of_filterMap_nodup hnodup (mem_map_of_mem hfiledWithin)
      (mem_map_of_mem hwithin) hfiledAt hat
  · rw [membersWithin, (sortWith_perm _ _).length_eq]
    exact length_filter_le _ _

theorem ReadsRight.last (hright : ReadsRight book) (h : Kept book) {gone live : ℚ × BookMember}
    (hgone : gone ∈ book.index marketId side) (hnone : book.named gone = false)
    (hlive : live ∈ book.index marketId side) (hnamed : book.named live = true) :
    compareMembers live gone = .lt := by
  have hne : live ≠ gone := by
    intro heq
    rw [heq, hnone] at hnamed
    cases hnamed
  by_contra hafter
  have hbefore : compareMembers gone live = .lt := by
    cases hcompare : compareMembers live gone with
    | lt => exact absurd hcompare hafter
    | eq => exact absurd (compareMembers_eq hcompare) hne
    | gt => exact Std.OrientedCmp.gt_iff_lt.mp hcompare
  have hscore : gone.1 ≤ live.1 := by
    have hle : compareMembers gone live ≠ .gt := by
      rw [hbefore]
      decide
    by_contra hlt
    rw [not_le, ← compare_gt_iff_gt] at hlt
    unfold compareMembers at hle
    rw [hlt] at hle
    exact hle rfl
  obtain ⟨record, hrecord⟩ := Option.isSome_iff_exists.mp hnamed
  obtain ⟨order, rfl⟩ := h.plain _ record hrecord
  obtain ⟨hid, hmarket, hside, hmember⟩ := hright.placed h hlive hrecord
  have hfiled := h.filed _ order hrecord
  rw [hmarket, hside] at hfiled
  have hposition : (scoreFor side order.price, order.member) = live :=
    h.eq_of_member hfiled hlive hmember
  have hcrosses : CrossesAt book marketId side (scoreFor side live.1) order := by
    refine ⟨?_, hmarket, hside, ?_⟩
    · rwa [h.orderId _ order hrecord]
    · rw [scoreFor_scoreFor, ← hposition]
  -- a read that ends with the member that names no order
  have hmembers := membersWithin_sorted h marketId side live.1
  have hgoneMem : gone ∈ book.membersWithin marketId side live.1 :=
    mem_membersWithin.mpr ⟨hgone, hscore⟩
  obtain ⟨first, rest, hsplit⟩ := append_of_mem hgoneMem
  have hfirst := hright.firstLive h marketId side (scoreFor side live.1) (first.length + 1)
  have hnoEntry : book.entryAt gone.2 = none := by
    cases hentry : book.entryAt gone.2 with
    | none => rfl
    | some other =>
      have hsome := (entryAt_eq_some.mp hentry).2
      rw [OrderBook.named, hsome] at hnone
      cases hnone
  have hread : (book.zrangebyscore marketId side (scoreFor side (scoreFor side live.1))
      (first.length + 1)).filterMap book.entryAt = (first.map Prod.snd).filterMap book.entryAt := by
    have htake : (first ++ gone :: rest).take (first.length + 1) = first ++ [gone] := by
      rw [take_append, take_of_length_le (Nat.le_succ _)]
      simp
    unfold zrangebyscore
    rw [scoreFor_scoreFor, ← membersWithin, hsplit, htake, map_append, filterMap_append]
    simp [hnoEntry]
  rw [hread] at hfirst
  rw [hsplit, pairwise_append] at hmembers
  by_cases hmem : order ∈ (first.map Prod.snd).filterMap book.entryAt
  · obtain ⟨member, hmemberMem, hentry⟩ := mem_filterMap.mp hmem
    obtain ⟨entry, hentryMem, rfl⟩ := mem_map.mp hmemberMem
    have hindex : entry ∈ book.index marketId side := by
      have hin : entry ∈ book.membersWithin marketId side live.1 := by
        rw [hsplit]
        exact mem_append_left _ hentryMem
      exact (mem_membersWithin.mp hin).1
    obtain ⟨-, -, -, hown⟩ := hright.placed h hindex (entryAt_eq_some.mp hentry).2
    have heq := h.eq_of_member hindex hlive (hown.symm.trans hmember)
    have hlt := hmembers.2.2 entry hentryMem gone mem_cons_self
    rw [heq] at hlt
    exact hafter hlt
  · have hlength := (hfirst.first order hcrosses hmem).1
    have hle := length_filterMap_le book.entryAt (first.map Prod.snd)
    rw [length_map] at hle
    omega

/-- **Reads are right exactly of a clean book.** -/
theorem readsRight_iff_clean (h : Kept book) : ReadsRight book ↔ Clean book := by
  constructor
  · intro hright
    exact ⟨fun marketId side entry hentry order hrecord => hright.placed h hentry hrecord,
      fun marketId side gone hgone hnone live hlive hnamed =>
        hright.last h hgone hnone hlive hnamed⟩
  · intro hclean
    have hfirst : ∀ marketId takerSide priceLimit limit, ∃ book' result,
        book.getBestOppositeOrders marketId takerSide priceLimit limit = .ok (book', result) ∧
          FirstLive book marketId takerSide.opposite priceLimit limit result := by
      intro marketId takerSide priceLimit limit
      obtain ⟨book', hread, -⟩ := readMembers_ok h marketId takerSide.opposite
        (book.zrangebyscore marketId takerSide.opposite (scoreFor takerSide.opposite priceLimit)
          limit)
      exact ⟨book', _, hread, hclean.firstLive h _ _ _ _⟩
    refine ⟨hfirst, fun marketId takerSide priceLimit limit book' hlimit hread entry hentry => ?_⟩
    obtain ⟨found, result, hfound, hresult⟩ := hfirst marketId takerSide priceLimit limit
    have hnone : result = [] := by
      rw [hread] at hfound
      exact (congrArg Prod.snd (Except.ok.inj hfound)).symm
    subst hnone
    have hlength := (hresult.first entry hentry not_mem_nil).1
    exact absurd hlength hlimit.ne

end Right

/-! ## Operations that leave nothing behind -/

/-- An order is filed again only at its place, and no record expires. -/
def LeavesNone (book : OrderBook) : BookOp → Prop
  | .add order => order.id ≠ "" ∧ ∀ marketId side, ∀ entry ∈ book.index marketId side,
    entry.2.orderId = order.id →
      marketId = order.market_id ∧ side = order.side ∧ entry.2.createdAtMs = order.created_at
  | .expire orderId => book.records orderId = none
  | .update _ _ | .remove _ | .read _ _ _ _ => True

structure Tidy (book : OrderBook) : Prop where
  kept : Kept book
  named : ∀ marketId side, ∀ entry ∈ book.index marketId side, ∃ order,
    book.records entry.2.orderId = some (.order order) ∧ entry.2.orderId ≠ "" ∧
      order.marketId = marketId ∧ order.side = side ∧ order.member = entry.2

theorem Tidy.clean {book : OrderBook} (h : Tidy book) : Clean book := by
  refine ⟨fun marketId side entry hentry order hrecord => ?_,
    fun marketId side gone hgone hnone => ?_⟩
  · obtain ⟨found, hfound, hplaced⟩ := h.named marketId side entry hentry
    rw [hrecord, Option.some.injEq, BookRecord.order.injEq] at hfound
    rw [hfound]
    exact hplaced
  · obtain ⟨found, hfound, -⟩ := h.named marketId side gone hgone
    rw [OrderBook.named, hfound] at hnone
    cases hnone

theorem bookStep_tidy {book book' : OrderBook} {op : BookOp} (h : Tidy book)
    (hguard : LeavesNone book op) (hstep : bookStep book op = some book') : Tidy book' := by
  refine ⟨bookStep_kept h.kept hstep, ?_⟩
  cases bookStep_effect h.kept hstep with
  | added order =>
    obtain ⟨hid, hplace⟩ := hguard
    intro marketId side entry hentry
    replace hentry := mem_zadd.mp hentry
    simp only [addOrder_records]
    by_cases hsame : entry.2.orderId = order.id
    · rw [if_pos hsame]
      refine ⟨_, rfl, hsame ▸ hid, ?_⟩
      split at hentry
      next hhere =>
        rcases hentry with ⟨hold, hother⟩ | rfl
        · obtain ⟨-, -, hcreated⟩ := hplace _ _ entry hold hsame
          refine absurd ?_ hother
          show entry.2 = ⟨order.created_at, order.id⟩
          rw [← hcreated, ← hsame]
        · exact ⟨hhere.1.symm, hhere.2.symm, rfl⟩
      next haway =>
        obtain ⟨hmarket, hside, -⟩ := hplace marketId side entry hentry hsame
        exact absurd ⟨hmarket, hside⟩ haway
    · rw [if_neg hsame]
      split at hentry
      next hhere =>
        rcases hentry with ⟨hold, -⟩ | rfl
        · obtain ⟨found, hfound⟩ := h.named _ _ entry hold
          rw [hhere.1, hhere.2]
          exact ⟨found, hfound⟩
        · exact absurd rfl hsame
      next => exact h.named marketId side entry hentry
  | updated orderId remaining existing hexisting =>
    intro marketId side entry hentry
    obtain ⟨found, hfound, hplaced⟩ := h.named marketId side entry hentry
    by_cases hsame : entry.2.orderId = orderId
    · rw [hsame, hexisting, Option.some.injEq, BookRecord.order.injEq] at hfound
      subst hfound
      exact ⟨_, if_pos hsame, hplaced⟩
    · exact ⟨found, (if_neg hsame).trans hfound, hplaced⟩
  | removed orderId existing hexisting =>
    intro marketId side entry hentry
    obtain ⟨hold, hother⟩ := mem_zrem.mp hentry
    obtain ⟨found, hfound, hid, hmarket, hside, hmember⟩ := h.named marketId side entry hold
    have hne : entry.2.orderId ≠ orderId := by
      intro hsame
      rw [hsame, hexisting, Option.some.injEq, BookRecord.order.injEq] at hfound
      subst hfound
      exact hother ⟨hmarket.symm, hside.symm, hmember.symm⟩
    exact ⟨found, (if_neg hne).trans hfound, hid, hmarket, hside, hmember⟩
  | missed => exact h.named
  | expired orderId =>
    intro marketId side entry hentry
    obtain ⟨found, hfound, hplaced⟩ := h.named marketId side entry hentry
    have hne : entry.2.orderId ≠ orderId := by
      intro hsame
      rw [hsame, show book.records orderId = none from hguard] at hfound
      cases hfound
    exact ⟨found, (if_neg hne).trans hfound, hplaced⟩
  | read marketId takerSide priceLimit limit _ hsheds =>
    intro market s entry hentry
    rw [hsheds.records]
    exact h.named market s entry (hsheds.index market s entry hentry)

/-- **What is read back.** After any operations every read gives the first live orders exactly
when the book is clean, and operations that leave nothing behind keep it so. -/
theorem getBestOppositeOrders_right {book : OrderBook} (hreach : Reaches bookStep emptyBook book) :
    (ReadsRight book ↔ Clean book) ∧
      (Run bookStep LeavesNone emptyBook book → ReadsRight book) := by
  have hkept : Kept book :=
    hreach.invariant emptyBook_kept fun _ _ _ h _ hstep => bookStep_kept h hstep
  refine ⟨readsRight_iff_clean hkept, fun hrun => ?_⟩
  have htidy : Tidy book :=
    hrun.invariant ⟨emptyBook_kept, fun _ _ _ hentry => absurd hentry not_mem_nil⟩
      fun _ _ _ h hguard hstep => bookStep_tidy h hguard hstep
  exact (readsRight_iff_clean hkept).mpr htidy.clean

/-! ## A record that expires -/

def cheaperOrder : InternalOrder := { makerOrder with id := "cheaper", price := 3 / 10 }

def twoOrders : OrderBook := (emptyBook.addOrder cheaperOrder).addOrder makerOrder

theorem twoOrders_reached : Run bookStep LeavesNone emptyBook twoOrders := by
  refine .tail (.tail .refl (.add cheaperOrder) ⟨by decide, ?_⟩ rfl) (.add makerOrder)
    ⟨by decide, fun marketId side entry hentry hid => ?_⟩ rfl
  · exact fun _ _ _ hentry => absurd hentry not_mem_nil
  · have hmem := mem_zadd.mp hentry
    split at hmem
    · rcases hmem with ⟨hnone, -⟩ | rfl
      · exact absurd hnone not_mem_nil
      · exact absurd hid (by decide)
    · exact absurd hmem not_mem_nil

theorem twoOrders_right : (ReadsRight twoOrders ↔ Clean twoOrders) ∧ ReadsRight twoOrders := by
  have hreach : Reaches bookStep emptyBook twoOrders := twoOrders_reached.mono fun _ _ _ => trivial
  have hright := getBestOppositeOrders_right hreach
  exact ⟨hright.1, hright.2 twoOrders_reached⟩

/-- The member of the order that has expired is all that is read, and the other one is not. -/
theorem expired_in_the_way : ¬ ∀ book, Reaches bookStep emptyBook book → ReadsRight book := by
  intro hright
  have hreach : Reaches bookStep emptyBook (twoOrders.setRecord "cheaper" none) :=
    .tail (twoOrders_reached.mono fun _ _ _ => trivial) (.expire "cheaper") trivial rfl
  obtain ⟨book', result, hread, -⟩ := (hright _ hreach).first "market" .buy (1 / 2) 1
  have hnone : (((twoOrders.setRecord "cheaper" none).getBestOppositeOrders "market" .buy
      (1 / 2) 1).toOption.map Prod.snd) = some [] := by decide +kernel
  rw [hread] at hnone
  have hresult : result = [] := Option.some.inj hnone
  subst hresult
  refine (hright _ hreach).goesOn "market" .buy (1 / 2) 1 book' (by decide) hread
    (toBookOrder makerOrder) ⟨by decide +kernel, rfl, rfl, by decide +kernel⟩

end LotusRfq.Crossing
