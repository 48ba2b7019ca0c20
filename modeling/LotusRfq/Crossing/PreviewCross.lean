import Mathlib.Computability.StateTransition
import LotusRfq.Crossing.BookReads
import LotusRfq.Crossing.TakerBound

/-!
# LotusRfq — does `previewCross` foresee `attemptCross`?

The preview goes once through the ten best orders of the other side and adds up. The attempt
matches each of them in a transaction and comes back for the next ten as long as it has matched
any. The preview does not see what lies behind its ten orders, that a pair of orders trades only
once, or that exposures have no room for a price above one; and where the attempt cancels an
order that meets one of its own user's, the preview leaves what is left of it.

* **`reaches_batch`** — as far as all is foreseen, the attempt matches what the preview adds up;
* **`goesOn_trades`** — what every step keeps, foreseen or not;
* **`previewCross_foresees`** — when the preview is right.
-/

namespace LotusRfq.Crossing

open OrderBook StateTransition List

/-! ## The preview -/

/-- A match of the preview. Its result shows only the ids. -/
structure PlannedMatch where
  orderId : String
  size : ℚ
  price : ℚ

structure InternalCrossPreviewResult where
  fillableSize : ℚ
  remainingSize : ℚ
  planned : List PlannedMatch
  wouldSelfTrade : Bool

section Preview

variable (eligibilityService : Bool)
  (isSafeForInternalPooling : Option String → Option String → String → Bool)

def isMakerResolutionEligible (incomingOrder : InternalOrder) (makerEntry : RedisBookOrder) :
    Bool :=
  if sameProfile incomingOrder makerEntry then true
  else if ¬ eligibilityService then false
  else isSafeForInternalPooling incomingOrder.resolution_profile_id makerEntry.resolutionProfileId
    incomingOrder.id

def previewCandidates (incomingOrder : InternalOrder) :
    ℚ → ℚ → List PlannedMatch → List RedisBookOrder → InternalCrossPreviewResult
  | remainingTakerSize, fillableSize, planned, [] =>
    ⟨fillableSize, remainingTakerSize, planned, false⟩
  | remainingTakerSize, fillableSize, planned, makerEntry :: rest =>
    if remainingTakerSize ≤ 0 then ⟨fillableSize, remainingTakerSize, planned, false⟩
    else if makerEntry.userId = incomingOrder.user_id then
      ⟨fillableSize, remainingTakerSize, planned, true⟩
    else if ¬ isMakerResolutionEligible eligibilityService isSafeForInternalPooling incomingOrder
        makerEntry then
      previewCandidates incomingOrder remainingTakerSize fillableSize planned rest
    else
      let matched := min remainingTakerSize makerEntry.remaining
      if matched ≤ 0 then
        previewCandidates incomingOrder remainingTakerSize fillableSize planned rest
      else
        previewCandidates incomingOrder (remainingTakerSize - matched) (fillableSize + matched)
          (planned ++ [⟨makerEntry.orderId, matched, makerEntry.price⟩]) rest

def previewCross (book : OrderBook) (incomingOrder : InternalOrder) :
    Except String (OrderBook × InternalCrossPreviewResult) := do
  let (book, candidates) ← book.getBestOppositeOrders incomingOrder.market_id incomingOrder.side
    incomingOrder.price 10
  return (book, previewCandidates eligibilityService isSafeForInternalPooling incomingOrder
    incomingOrder.remaining_size 0 [] candidates)

/-! ## The attempt, with nobody else around -/

/-- A call that is the only one, and the number of its steps so far. -/
structure Alone where
  step : ℕ
  shared : Shared
  call : Cross

variable (uuid : ℕ → ℕ → String)

/-- Everything the call awaits is done, and the eligibility service is asked. -/
def replyAlone (call : Cross) : Reply :=
  match call.phase with
  | .judging makerEntry _ =>
    .answered (isSafeForInternalPooling call.incomingOrder.resolution_profile_id
      makerEntry.resolutionProfileId call.incomingOrder.id)
  | _ => .done

def goesOn (alone : Alone) : Option Alone :=
  (crossStep eligibilityService alone.shared alone.call (uuid alone.step)
    (replyAlone isSafeForInternalPooling alone.call)).map fun (shared, call) =>
      ⟨alone.step + 1, shared, call⟩

def Returns (shared : Shared) (incomingOrder : InternalOrder) (result : CrossResult) : Prop :=
  ∃ last, Reaches (goesOn eligibilityService isSafeForInternalPooling uuid)
    ⟨0, shared, Cross.start incomingOrder⟩ last ∧ last.call.phase = .finished result

end Preview

/-- The maker, the size and the price of a taker's trade. -/
def plannedOf (incoming : InternalOrder) (trade : Trade) : PlannedMatch :=
  ⟨if incoming.side = .buy then trade.sell_order_id else trade.buy_order_id, trade.size,
    trade.price⟩

theorem plannedOf_tradeOf (incoming maker : InternalOrder) (size : ℚ) (tradeId : String) :
    plannedOf incoming (tradeOf incoming maker size tradeId) = ⟨maker.id, size, maker.price⟩ := by
  unfold plannedOf tradeOf
  cases incoming.side
  · rfl
  · rfl

/-! ## Books that agree with the database -/

/-- Every member of the book has its order, and every order its row, open and with as much left. -/
structure Agrees (shared : Shared) : Prop where
  tidy : Tidy shared.book
  ids : (shared.db.orders.map InternalOrder.id).Nodup
  rows : ∀ orderId entry, shared.book.records orderId = some (.order entry) →
    ∃ row ∈ shared.db.orders, entry = toBookOrder row ∧
      (row.status = .OPEN ∨ row.status = .PARTIAL) ∧ 0 < row.remaining_size ∧ 0 < row.price

/-- The orders of the other side that the incoming order may be matched with, best first. -/
def OrderBook.crossing (book : OrderBook) (incoming : InternalOrder) : List RedisBookOrder :=
  ((book.membersWithin incoming.market_id incoming.side.opposite
    (scoreFor incoming.side.opposite incoming.price)).map Prod.snd).filterMap book.entryAt

section Crossing

variable {book book' : OrderBook} {incoming : InternalOrder} {entry : RedisBookOrder}

theorem Tidy.entryAt_isSome (h : Tidy book) {marketId : String} {side : Side}
    {member : ℚ × BookMember} (hmember : member ∈ book.index marketId side) :
    ∃ order, book.entryAt member.2 = some order := by
  obtain ⟨order, hrecord, hid, -⟩ := h.named marketId side member hmember
  exact ⟨order, entryAt_eq_some.mpr ⟨hid, hrecord⟩⟩

theorem filterMap_take {α β : Type*} {f : α → Option β} {items : List α}
    (h : ∀ item ∈ items, ∃ image, f item = some image) (n : ℕ) :
    (items.take n).filterMap f = (items.filterMap f).take n := by
  induction items generalizing n with
  | nil => simp
  | cons item rest ih =>
    obtain ⟨image, himage⟩ := h item mem_cons_self
    cases n with
    | zero => simp
    | succ n =>
      rw [take_succ_cons, filterMap_cons, filterMap_cons, himage]
      simp only
      rw [take_succ_cons, ih fun other hother => h other (mem_cons_of_mem _ hother)]

theorem Tidy.read_eq (h : Tidy book) (limit : ℕ) :
    (book.zrangebyscore incoming.market_id incoming.side.opposite
      (scoreFor incoming.side.opposite incoming.price) limit).filterMap book.entryAt =
        (book.crossing incoming).take limit := by
  unfold OrderBook.zrangebyscore OrderBook.crossing
  rw [← OrderBook.membersWithin, map_take]
  refine filterMap_take (fun member hmember => ?_) limit
  obtain ⟨filed, hfiled, rfl⟩ := mem_map.mp hmember
  exact h.entryAt_isSome (mem_membersWithin.mp hfiled).1

theorem Tidy.crossing_firstLive (h : Tidy book) (incoming : InternalOrder) :
    FirstLive book incoming.market_id incoming.side.opposite incoming.price
      ((book.crossing incoming).length + 1) (book.crossing incoming) := by
  have hfirst := h.clean.firstLive h.kept incoming.market_id incoming.side.opposite
    incoming.price ((book.crossing incoming).length + 1)
  rwa [h.read_eq, take_of_length_le (Nat.le_succ _)] at hfirst

theorem Tidy.mem_crossing (h : Tidy book) : entry ∈ book.crossing incoming ↔
      CrossesAt book incoming.market_id incoming.side.opposite incoming.price entry := by
  have hfirst := h.crossing_firstLive incoming
  constructor
  · exact hfirst.live entry
  · intro hentry
    by_contra hnot
    have hlength := (hfirst.first entry hentry hnot).1
    omega

theorem Tidy.crossing_sorted (h : Tidy book) (incoming : InternalOrder) :
    (book.crossing incoming).Pairwise fun left right =>
      compareMembers (positionOf left) (positionOf right) = .lt :=
  (h.crossing_firstLive incoming).sorted

theorem eq_of_positions {left right : List RedisBookOrder}
    (hleft : left.Pairwise fun a b => compareMembers (positionOf a) (positionOf b) = .lt)
    (hright : right.Pairwise fun a b => compareMembers (positionOf a) (positionOf b) = .lt)
    (h : ∀ entry, entry ∈ left ↔ entry ∈ right) : left = right := by
  have hirrefl : Std.Irrefl fun a b : RedisBookOrder =>
      compareMembers (positionOf a) (positionOf b) = .lt := by
    refine ⟨fun a hlt => ?_⟩
    have heven : compareMembers (positionOf a) (positionOf a) = .eq := Std.ReflCmp.compare_self
    rw [heven] at hlt
    cases hlt
  have hantisymm : Std.Antisymm fun a b : RedisBookOrder =>
      compareMembers (positionOf a) (positionOf b) = .lt := by
    refine ⟨fun a b hab hba => ?_⟩
    have hgt := Std.OrientedCmp.gt_iff_lt.mpr hba
    rw [hab] at hgt
    cases hgt
  exact hleft.eq_of_mem_iff hright h

theorem eq_of_orderId {left right : RedisBookOrder}
    (hleft : book.records left.orderId = some (.order left))
    (hright : book.records right.orderId = some (.order right))
    (h : left.orderId = right.orderId) : left = right := by
  rw [h, hright, Option.some.injEq, BookRecord.order.injEq] at hleft
  exact hleft.symm

end Crossing

/-! ## The steps of the attempt -/

variable {orderId : String} {entry : RedisBookOrder} {n : ℕ} {db : CrossDb} {remaining : ℚ}
  {shared' : Shared} {call' : Cross} {shared : Shared} {fillable : ℚ}
  {planned : List PlannedMatch} {call : Cross} {alone : Alone}

section Steps

variable {service : Bool}
  {isSafe : Option String → Option String → String → Bool}
  {uuid : ℕ → ℕ → String} {shared shared' : Shared} {call call' : Cross} {n : ℕ}
  {rest : List RedisBookOrder} {maker : RedisBookOrder}

theorem reaches_of_step
    (h : crossStep service shared call (uuid n) (replyAlone isSafe call) = some (shared', call')) :
    Reaches (goesOn service isSafe uuid) ⟨n, shared, call⟩ ⟨n + 1, shared', call'⟩ := by
  refine .single ?_
  rw [goesOn, h]
  rfl

theorem reaches_le {first last : Alone} (h : Reaches (goesOn service isSafe uuid) first last) :
    first.step ≤ last.step := by
  induction h with
  | refl => exact le_rfl
  | tail hreach hstep ih =>
    obtain ⟨next, -, heq⟩ := Option.map_eq_some_iff.mp hstep
    rw [← heq]
    exact ih.trans (Nat.le_succ _)

theorem consider_goTo (phase : CrossPhase) (candidates : List RedisBookOrder) :
    consider service (call.goTo phase) candidates = consider service call candidates := by
  induction candidates with
  | nil => rfl
  | cons maker rest ih =>
    rw [consider, consider, ih]
    rfl

theorem readNext_goTo (phase : CrossPhase) (orders : List RedisBookOrder)
    (members : List BookMember) :
    readNext service (call.goTo phase) orders members = readNext service call orders members := by
  induction members with
  | nil =>
    have hconsider : consider service
        (Cross.goTo { call with progressedInBatch := false } phase) orders =
          consider service { call with progressedInBatch := false } orders :=
      consider_goTo phase orders
    rw [readNext, readNext]
    exact ite_congr rfl (fun _ => rfl) fun _ => hconsider
  | cons member rest ih =>
    rw [readNext, readNext, ih]
    rfl

theorem reaches_readNext {members : List BookMember}
    (h : ∀ member ∈ members, ∃ entry, shared.book.entryAt member = some entry)
    (orders : List RedisBookOrder) (n : ℕ) :
    ∃ n', Reaches (goesOn service isSafe uuid) ⟨n, shared, readNext service call orders members⟩
      ⟨n', shared, readNext service call (orders ++ members.filterMap shared.book.entryAt) []⟩ := by
  induction members generalizing orders n with
  | nil =>
    rw [filterMap_nil, append_nil]
    exact ⟨n, .refl⟩
  | cons member rest ih =>
    obtain ⟨entry, hentry⟩ := h member mem_cons_self
    obtain ⟨hid, hrecord⟩ := entryAt_eq_some.mp hentry
    obtain ⟨n', hrest⟩ := ih (fun other hother => h other (mem_cons_of_mem _ hother))
      (orders ++ [entry]) (n + 1)
    have hreading : readNext service call orders (member :: rest) =
        call.goTo (.reading member rest orders) := by
      rw [readNext, extractOrderId, if_neg hid]
    have hstep : crossStep service shared (call.goTo (.reading member rest orders))
        (uuid n) (replyAlone isSafe (call.goTo (.reading member rest orders))) =
          some (shared, readNext service call (orders ++ [entry]) rest) := by
      simpa [crossStep, replyAlone, crossCall, Calls.Awaited.settle, Cross.goTo, hrecord] using
        readNext_goTo (.reading member rest orders) (orders ++ [entry]) rest
    rw [hreading, filterMap_cons, hentry]
    refine ⟨n', (reaches_of_step hstep).trans ?_⟩
    rw [append_assoc] at hrest
    exact hrest

theorem reaches_skip
    (hleft : 0 < call.remainingTakerSize) (hother : maker.userId ≠ call.incomingOrder.user_id)
    (hsafe : ¬ isMakerResolutionEligible service isSafe
      call.incomingOrder maker) (rest : List RedisBookOrder) (n : ℕ) :
    ∃ n', Reaches (goesOn service isSafe uuid) ⟨n, shared, consider service call (maker :: rest)⟩
      ⟨n', shared, consider service call rest⟩ := by
  unfold isMakerResolutionEligible at hsafe
  rw [consider, if_neg (not_le.mpr hleft), if_neg hother]
  split at hsafe
  next => exact absurd rfl hsafe
  next hprofile =>
    rw [if_neg hprofile]
    split at hsafe
    next hnone =>
      rw [if_neg hnone]
      exact ⟨n, .refl⟩
    next hservice =>
      rw [if_pos (not_not.mp hservice)]
      refine ⟨n + 1, reaches_of_step ?_⟩
      simpa [crossStep, replyAlone, Cross.goTo, hsafe] using
        consider_goTo (.judging maker rest) rest

theorem reaches_matching
    (hleft : 0 < call.remainingTakerSize) (hother : maker.userId ≠ call.incomingOrder.user_id)
    (hsafe : isMakerResolutionEligible service isSafe
      call.incomingOrder maker) (rest : List RedisBookOrder) (n : ℕ) :
    ∃ n', n ≤ n' ∧ Reaches (goesOn service isSafe uuid)
      ⟨n, shared, consider service call (maker :: rest)⟩
      ⟨n', shared, call.goTo (.matching maker rest)⟩ := by
  have hlocked : ∀ m, Reaches (goesOn service isSafe uuid)
      ⟨m, shared, call.goTo (.locking maker rest)⟩
      ⟨m + 1, shared, call.goTo (.matching maker rest)⟩ :=
    fun m => reaches_of_step rfl
  unfold isMakerResolutionEligible at hsafe
  rw [consider, if_neg (not_le.mpr hleft), if_neg hother]
  split at hsafe
  next hprofile =>
    rw [if_pos hprofile]
    exact ⟨n + 1, Nat.le_succ n, hlocked n⟩
  next hprofile =>
    rw [if_neg hprofile]
    split at hsafe
    next => cases hsafe
    next hservice =>
      rw [if_pos (not_not.mp hservice)]
      refine ⟨n + 1 + 1, by omega, .trans (reaches_of_step ?_) (hlocked (n + 1))⟩
      simp [crossStep, replyAlone, Cross.goTo, hsafe]

theorem reaches_released (rest : List RedisBookOrder) (n : ℕ) :
    Reaches (goesOn service isSafe uuid) ⟨n, shared, call.goTo (.releasing rest false)⟩
      ⟨n + 1, shared, consider service call rest⟩ := by
  apply reaches_of_step
  rw [← consider_goTo (.releasing rest false)]
  rfl

theorem reaches_removed (hrecord : shared.book.records orderId = some (.order entry)) (n : ℕ) :
    Reaches (goesOn service isSafe uuid) ⟨n, shared, call.goTo (.syncing (.removeGet orderId) rest)⟩
      ⟨n + 4, shared.withBook ((shared.book.zrem entry.marketId entry.side entry.member).setRecord
        orderId none), consider service call rest⟩ := by
  have hget : Reaches (goesOn service isSafe uuid)
      ⟨n, shared, call.goTo (.syncing (.removeGet orderId) rest)⟩
      ⟨n + 1, shared, call.goTo (.syncing (.removeZrem orderId entry) rest)⟩ := by
    apply reaches_of_step
    simp [crossStep, replyAlone, crossCall, syncCall, Calls.Awaited.settle, Cross.goTo, hrecord]
  exact hget.trans ((reaches_of_step rfl).trans ((reaches_of_step rfl).trans
    (reaches_released rest _)))

theorem reaches_updated (hrecord : shared.book.records orderId = some (.order entry))
    (remaining : ℚ) (n : ℕ) : Reaches (goesOn service isSafe uuid)
      ⟨n, shared, call.goTo (.syncing (.updateGet orderId remaining) rest)⟩
      ⟨n + 3, shared.withBook (shared.book.setRecord orderId
        (some (.order { entry with remaining := remaining }))), consider service call rest⟩ := by
  have hget : Reaches (goesOn service isSafe uuid)
      ⟨n, shared, call.goTo (.syncing (.updateGet orderId remaining) rest)⟩
      ⟨n + 1, shared, call.goTo (.syncing (.updateSet orderId
        { entry with remaining := remaining }) rest)⟩ := by
    apply reaches_of_step
    simp [crossStep, replyAlone, crossCall, syncCall, Calls.Awaited.settle, Cross.goTo, hrecord]
  exact hget.trans ((reaches_of_step rfl).trans (reaches_released rest _))

end Steps

/-! ## One order of the book -/

/-- The taker has traded with the maker, in an earlier attempt. -/
def TradedBefore (db : CrossDb) (incoming : InternalOrder) (makerOrderId : String) : Prop :=
  ∃ other ∈ db.trades,
    other.buy_order_id = (if incoming.side = .buy then incoming.id else makerOrderId) ∧
    other.sell_order_id = (if incoming.side = .sell then incoming.id else makerOrderId)

/-- The ids that are still to come have not been used. -/
structure Unused (uuid : ℕ → ℕ → String) (n : ℕ) (db : CrossDb) : Prop where
  distinct : ∀ m m', uuid m 0 = uuid m' 0 → m = m'
  fresh : ∀ m, n ≤ m → ∀ trade ∈ db.trades, trade.id ≠ uuid m 0

theorem Unused.later {uuid : ℕ → ℕ → String} {n' : ℕ} (h : Unused uuid n db) (hle : n ≤ n') :
    Unused uuid n' db :=
  ⟨h.distinct, fun m hm => h.fresh m (hle.trans hm)⟩

section Makers

variable {shared : Shared} {incoming : InternalOrder} {maker : RedisBookOrder}
  {left : ℚ} (uuid : ℕ → String)

theorem tradeOf_checked {row : InternalOrder} (hremaining : 0 < left)
    (hleft : 0 < row.remaining_size) (hprice : 0 < row.price) (tradeId : String) :
    ¬ ((tradeOf incoming row (min left row.remaining_size) tradeId).price ≤ 0 ∨
      (tradeOf incoming row (min left row.remaining_size) tradeId).size ≤ 0) :=
  not_or.mpr ⟨not_le.mpr hprice, not_le.mpr (lt_min hremaining hleft)⟩

section

variable (h : Agrees shared)
  (hrecord : shared.book.records maker.orderId = some (.order maker))

include h hrecord

theorem Agrees.loadMaker :
    ∃ row ∈ shared.db.orders, maker = toBookOrder row ∧ row.status ≠ .FILLED ∧
      0 < row.remaining_size ∧ 0 < row.price ∧
      loadMakerForUpdate shared.db maker.orderId = some row := by
  obtain ⟨row, hrow, rfl, hstatus, hleft, hprice⟩ := h.rows _ maker hrecord
  have hselect : Tables.select InternalOrder.id (toBookOrder row).orderId shared.db.orders =
      some row := (Tables.select_eq_some h.ids).mpr ⟨hrow, rfl⟩
  refine ⟨row, hrow, rfl, ?_, hleft, hprice, ?_⟩
  · rcases hstatus with hopen | hpartly
    · rw [hopen]
      decide
    · rw [hpartly]
      decide
  · rw [loadMakerForUpdate, hselect]
    apply if_neg
    intro hclosed
    rcases hclosed with ⟨hopen, hpartly⟩ | hnone
    · exact hstatus.elim hopen hpartly
    · exact absurd hleft (not_lt.mpr hnone)

theorem Agrees.remaining_pos : 0 < maker.remaining := by
  obtain ⟨row, -, rfl, -, hleft, -⟩ := h.loadMaker hrecord
  exact hleft

theorem matchMakerOrder_duplicate (hremaining : 0 < left)
    (htraded : TradedBefore shared.db incoming maker.orderId) :
    ∃ row, matchMakerOrder shared.db incoming maker.orderId left uuid =
      .rolledBack (.duplicate row) ∧ row.id = maker.orderId ∧ row.status ≠ .FILLED ∧
        row.remaining_size = maker.remaining := by
  obtain ⟨row, -, rfl, hopen, hleft, hprice, hload⟩ := h.loadMaker hrecord
  have hinsert : insertTradeIfNeeded shared.db
      (tradeOf incoming row (min left row.remaining_size) (uuid 0)) = .ok none :=
    (if_neg (tradeOf_checked hremaining hleft hprice _)).trans (if_pos htraded)
  refine ⟨row, ?_, rfl, hopen, rfl⟩
  rw [matchMakerOrder, hload]
  simp only
  rw [hinsert]

end

theorem insertTrade_new (hremaining : 0 < left)
    (htraded : ¬ TradedBefore shared.db incoming maker.orderId)
    (hfresh : ∀ trade ∈ shared.db.trades, trade.id ≠ uuid 0) {row : InternalOrder}
    (hrow : maker = toBookOrder row) (hleft : 0 < row.remaining_size) (hprice : 0 < row.price) :
    insertTradeIfNeeded shared.db (tradeOf incoming row (min left row.remaining_size) (uuid 0)) =
        .ok (some { shared.db with trades := shared.db.trades ++ [tradeOf incoming row
          (min left row.remaining_size) (uuid 0)] }) := by
  subst hrow
  have hused : ¬ ∃ other ∈ shared.db.trades, other.id = uuid 0 := by
    rintro ⟨other, hother, hid⟩
    exact hfresh other hother hid
  exact (if_neg (tradeOf_checked hremaining hleft hprice _)).trans
    ((if_neg htraded).trans (if_neg hused))

theorem atomicUpdateExposure_isOk {trade : Trade} (hprice : 0 ≤ trade.price)
    (hsize : 0 ≤ trade.size) (hle : trade.price ≤ 1) (db : CrossDb) (userId marketId : String)
    (side : Side) (takerOrderId makerOrderId newId : String) :
    ∃ db', atomicUpdateExposure db userId marketId side trade takerOrderId makerOrderId newId =
      .ok db' := by
  have hdelta : ∃ delta, calculateExposureDelta side trade.price trade.size = .ok delta := by
    unfold calculateExposureDelta
    rw [if_neg (not_or.mpr ⟨not_lt.mpr hprice, not_lt.mpr hle⟩), if_neg (not_lt.mpr hsize)]
    cases side
    · exact ⟨_, rfl⟩
    · exact ⟨_, rfl⟩
  obtain ⟨delta, hdelta⟩ := hdelta
  unfold atomicUpdateExposure
  rw [hdelta]
  exact ⟨_, rfl⟩

section

variable (h : Agrees shared)
  (hrecord : shared.book.records maker.orderId = some (.order maker))
  (hremaining : 0 < left)
  (htraded : ¬ TradedBefore shared.db incoming maker.orderId)

include h hrecord hremaining htraded

theorem matchMakerOrder_matches (hle : maker.price ≤ 1)
    (hfresh : ∀ trade ∈ shared.db.trades, trade.id ≠ uuid 0) :
    ∃ db' value, matchMakerOrder shared.db incoming maker.orderId left
      uuid = .committed db' value := by
  obtain ⟨row, -, rfl, -, hleft, hprice, hload⟩ := h.loadMaker hrecord
  have hinsert := insertTrade_new uuid hremaining htraded hfresh rfl hleft hprice
  have hsize : 0 < min left row.remaining_size := lt_min hremaining hleft
  rw [matchMakerOrder, hload]
  simp only
  rw [hinsert]
  simp only
  generalize updateMakerState _ _ _ _ = updated
  have hbooked : 0 ≤ (tradeOf incoming row (min left row.remaining_size) (uuid 0)).size := hsize.le
  replace hbooked := atomicUpdateExposure_isOk hprice.le hbooked hle
  obtain ⟨db₁, htaker⟩ := hbooked updated incoming.user_id incoming.market_id
    incoming.side incoming.id row.id (uuid 1)
  obtain ⟨db₂, hmaker⟩ := hbooked db₁ row.user_id incoming.market_id row.side
    incoming.id row.id (uuid 2)
  rw [htaker]
  simp only [bind, Except.bind]
  rw [hmaker]
  exact ⟨_, _, rfl⟩

theorem matchMakerOrder_overpriced (hlt : 1 < maker.price)
    (hfresh : ∀ trade ∈ shared.db.trades, trade.id ≠ uuid 0) :
    ∃ error, matchMakerOrder shared.db incoming maker.orderId left uuid = .aborted error := by
  obtain ⟨row, -, rfl, -, hleft, hprice, hload⟩ := h.loadMaker hrecord
  have hinsert := insertTrade_new uuid hremaining htraded hfresh rfl hleft hprice
  have hdelta : ∀ size, calculateExposureDelta incoming.side row.price size =
      .error "price must be within [0, 1] for prediction markets" :=
    fun size => if_pos (.inr hlt)
  rw [matchMakerOrder, hload]
  simp only
  rw [hinsert]
  simp only [atomicUpdateExposure, tradeOf, hdelta]
  exact ⟨_, rfl⟩

end

end Makers

/-! ## A match that the preview has foreseen -/

structure Matched (shared shared' : Shared) (call call' : Cross) (makerEntry : RedisBookOrder)
    (size : ℚ) : Prop where
  agrees : Agrees shared'
  order : call'.incomingOrder = call.incomingOrder
  progressed : call'.progressedInBatch = true
  remaining : call'.remainingTakerSize = call.remainingTakerSize - size
  filled : call'.filledTakerSize = call.filledTakerSize + size
  trades : call'.trades.map (plannedOf call.incomingOrder) =
    call.trades.map (plannedOf call.incomingOrder) ++
      [⟨makerEntry.orderId, size, makerEntry.price⟩]
  records : ∀ orderId, orderId ≠ makerEntry.orderId →
    shared'.book.records orderId = shared.book.records orderId
  gone : makerEntry.remaining - size = 0 → shared'.book.records makerEntry.orderId = none
  traded : ∀ orderId, orderId ≠ makerEntry.orderId →
    (TradedBefore shared'.db call.incomingOrder orderId ↔
      TradedBefore shared.db call.incomingOrder orderId)

def bookAfter (book : OrderBook) (makerEntry : RedisBookOrder) (size : ℚ) : OrderBook :=
  if makerEntry.remaining - size = 0 then
    (book.zrem makerEntry.marketId makerEntry.side makerEntry.member).setRecord
      makerEntry.orderId none
  else book.setRecord makerEntry.orderId
    (some (.order { makerEntry with remaining := makerEntry.remaining - size }))

section Matched

variable {shared : Shared} {book : OrderBook} {incoming : InternalOrder}
  {maker : RedisBookOrder} {size : ℚ}

theorem Tidy.bookAfter (h : Tidy book)
    (hrecord : book.records maker.orderId = some (.order maker)) (size : ℚ) :
    Tidy (bookAfter book maker size) := by
  unfold Crossing.bookAfter
  split
  · have hstep : bookStep book (.remove maker.orderId) = some ((book.zrem maker.marketId
        maker.side maker.member).setRecord maker.orderId none) := by
      rw [bookStep, OrderBook.removeOrder, h.kept.getOrderById, hrecord]
      rfl
    have hguard : LeavesNone book (.remove maker.orderId) := trivial
    exact bookStep_tidy h hguard hstep
  · have hstep : bookStep book (.update maker.orderId (maker.remaining - size)) =
        some (book.setRecord maker.orderId
          (some (.order { maker with remaining := maker.remaining - size }))) := by
      rw [bookStep, OrderBook.updateRemaining, h.kept.getOrderById, hrecord]
      rfl
    have hguard : LeavesNone book (.update maker.orderId (maker.remaining - size)) := trivial
    exact bookStep_tidy h hguard hstep

theorem bookAfter_other (h : orderId ≠ maker.orderId) :
    (bookAfter book maker size).records orderId = book.records orderId := by
  unfold bookAfter
  split
  · exact if_neg h
  · exact if_neg h

theorem Agrees.after (h : Agrees shared)
    (hrecord : shared.book.records maker.orderId = some (.order maker))
    (hle : size ≤ maker.remaining) {db' : CrossDb}
    (horders : db'.orders = (updateMakerState shared.db maker.orderId (maker.remaining - size)
      (if maker.remaining - size = 0 then .FILLED else .PARTIAL)).orders) :
    Agrees ⟨db', bookAfter shared.book maker size⟩ := by
  refine ⟨h.tidy.bookAfter hrecord size, ?_, fun orderId entry hentry => ?_⟩
  · show (db'.orders.map InternalOrder.id).Nodup
    rw [horders, updateMakerState_ids]
    exact h.ids
  show ∃ row ∈ db'.orders, _
  rw [horders]
  by_cases hsame : orderId = maker.orderId
  · subst hsame
    obtain ⟨row, hrow, hentryRow, -, -, hprice, -⟩ := h.loadMaker hrecord
    unfold bookAfter at hentry
    split at hentry
    next => simp [OrderBook.setRecord] at hentry
    next hsome =>
      have heq : entry = { maker with remaining := maker.remaining - size } := by
        simpa [OrderBook.setRecord, eq_comm] using hentry
      rw [if_neg hsome]
      refine ⟨{ row with remaining_size := maker.remaining - size, status := .PARTIAL },
        Tables.mem_update.mpr ?_, ?_, .inr rfl, ?_, hprice⟩
      · exact .inl ⟨row, hrow, by rw [hentryRow]; rfl, rfl⟩
      · rw [heq, hentryRow]
        rfl
      · exact lt_of_le_of_ne (sub_nonneg.mpr hle) (Ne.symm hsome)
  · have hold : shared.book.records orderId = some (.order entry) := by
      rw [← hentry]
      exact (bookAfter_other hsame).symm
    obtain ⟨row, hrow, hentryRow, hstatus⟩ := h.rows orderId entry hold
    refine ⟨row, Tables.mem_update.mpr ?_, hentryRow, hstatus⟩
    have hid : row.id ≠ maker.orderId := by
      have horderId := h.tidy.kept.orderId orderId entry hold
      rw [hentryRow] at horderId
      exact fun heq => hsame (horderId.symm.trans heq)
    exact .inr ⟨hrow, hid⟩

theorem tradedBefore_new {db' : CrossDb} {maker : InternalOrder} {tradeId : String}
    (htrades : db'.trades = db.trades ++ [tradeOf incoming maker size tradeId])
    (hne : orderId ≠ maker.id) :
    TradedBefore db' incoming orderId ↔ TradedBefore db incoming orderId := by
  unfold TradedBefore
  rw [htrades]
  constructor
  · rintro ⟨other, hother, hbuy, hsell⟩
    rcases mem_append.mp hother with hold | hnew
    · exact ⟨other, hold, hbuy, hsell⟩
    · -- the new trade is with the maker
      rw [mem_singleton.mp hnew] at hbuy hsell
      unfold tradeOf at hbuy hsell
      cases hside : incoming.side with
      | buy =>
        simp only [hside, reduceCtorEq, if_false] at hsell
        exact absurd hsell.symm hne
      | sell =>
        simp only [hside, reduceCtorEq, if_false] at hbuy
        exact absurd hbuy.symm hne
  · rintro ⟨other, hother, hpair⟩
    exact ⟨other, mem_append_left _ hother, hpair⟩

end Matched

section Batch

variable {service : Bool}
  {isSafe : Option String → Option String → String → Bool}
  {uuid : ℕ → ℕ → String} {shared : Shared} {call : Cross} {maker : RedisBookOrder}

theorem reaches_duplicate (h : Agrees shared)
    (hrecord : shared.book.records maker.orderId = some (.order maker))
    (hleft : 0 < call.remainingTakerSize) (hother : maker.userId ≠ call.incomingOrder.user_id)
    (hsafe : isMakerResolutionEligible service isSafe call.incomingOrder maker)
    (htraded : TradedBefore shared.db call.incomingOrder maker.orderId)
    (rest : List RedisBookOrder) (n : ℕ) :
    ∃ n', Reaches (goesOn service isSafe uuid) ⟨n, shared, consider service call (maker :: rest)⟩
      ⟨n', shared, consider service call rest⟩ := by
  obtain ⟨m, -, hmatching⟩ : ∃ m, n ≤ m ∧ Reaches (goesOn service isSafe uuid)
      ⟨n, shared, consider service call (maker :: rest)⟩
      ⟨m, shared, call.goTo (.matching maker rest)⟩ :=
    reaches_matching hleft hother hsafe rest n
  obtain ⟨row, hmatch, hid, hopen, hsize⟩ :=
    matchMakerOrder_duplicate (uuid m) h hrecord hleft htraded
  have hstep : crossStep service shared (call.goTo (.matching maker rest)) (uuid m)
      (replyAlone isSafe (call.goTo (.matching maker rest))) = some (shared, call.goTo
          (.syncing (.updateGet maker.orderId maker.remaining) rest)) := by
    simp [crossStep, replyAlone, matchStep, Cross.goTo, hmatch, Tables.Outcome.database,
      afterMatch, hopen, hid, hsize]
  have hsame : shared.withBook (shared.book.setRecord maker.orderId
      (some (.order { maker with remaining := maker.remaining }))) = shared := by
    have hbook : shared.book.setRecord maker.orderId (some (.order maker)) =
        shared.book := by
      unfold OrderBook.setRecord
      congr
      funext orderId
      split
      next heq => rw [heq, hrecord]
      next => rfl
    unfold Shared.withBook
    rw [hbook]
  have hupdated : Reaches (goesOn service isSafe uuid) ⟨m + 1, shared, call.goTo
        (.syncing (.updateGet maker.orderId maker.remaining) rest)⟩ _ :=
    reaches_updated hrecord maker.remaining (m + 1)
  rw [hsame] at hupdated
  exact ⟨m + 1 + 3, hmatching.trans ((reaches_of_step hstep).trans hupdated)⟩

theorem reaches_afterMatch (result : MatchResult) {rest : List RedisBookOrder}
    (hrecord : shared.book.records maker.orderId = some (.order maker))
    (hid : result.makerOrderId = maker.orderId)
    (hremaining : result.newMakerRemaining = maker.remaining - result.matchSize)
    (hstatus : result.newMakerStatus = if result.newMakerRemaining = 0 then .FILLED else .PARTIAL)
    (n : ℕ) : ∃ n', n ≤ n' ∧ Reaches (goesOn service isSafe uuid)
      ⟨n, shared, afterMatch call maker rest (.matched result)⟩
      ⟨n', shared.withBook (bookAfter shared.book maker result.matchSize),
        consider service (afterMatch call maker rest (.matched result)) rest⟩ := by
  unfold bookAfter
  rw [hremaining] at hstatus
  by_cases hfilled : maker.remaining - result.matchSize = 0
  · have hphase : afterMatch call maker rest (.matched result) =
        (afterMatch call maker rest (.matched result)).goTo
          (.syncing (.removeGet maker.orderId) rest) := by
      simp [afterMatch, Cross.goTo, hstatus, hfilled, hid]
    have hremoved : Reaches (goesOn service isSafe uuid)
        ⟨n, shared, (afterMatch call maker rest (.matched result)).goTo
          (.syncing (.removeGet maker.orderId) rest)⟩ _ := reaches_removed hrecord n
    rw [← hphase] at hremoved
    rw [if_pos hfilled]
    exact ⟨n + 4, Nat.le_add_right n 4, hremoved⟩
  · have hphase : afterMatch call maker rest (.matched result) =
        (afterMatch call maker rest (.matched result)).goTo
          (.syncing (.updateGet maker.orderId (maker.remaining - result.matchSize)) rest) := by
      simp [afterMatch, Cross.goTo, hstatus, hfilled, hid, hremaining]
    have hupdated : Reaches (goesOn service isSafe uuid)
        ⟨n, shared, (afterMatch call maker rest (.matched result)).goTo (.syncing
          (.updateGet maker.orderId (maker.remaining - result.matchSize)) rest)⟩ _ :=
      reaches_updated hrecord (maker.remaining - result.matchSize) n
    rw [← hphase] at hupdated
    rw [if_neg hfilled]
    exact ⟨n + 3, Nat.le_add_right n 3, hupdated⟩

/-- **An eligible order is matched**, as much of it as is left of both. -/
theorem reaches_matched (h : Agrees shared) (hunused : Unused uuid n shared.db)
    (hrecord : shared.book.records maker.orderId = some (.order maker))
    (hleft : 0 < call.remainingTakerSize) (hother : maker.userId ≠ call.incomingOrder.user_id)
    (hsafe : isMakerResolutionEligible service isSafe call.incomingOrder maker)
    (htraded : ¬ TradedBefore shared.db call.incomingOrder maker.orderId)
    (hprice : maker.price ≤ 1) (rest : List RedisBookOrder) :
    ∃ n' shared' call', Unused uuid n' shared'.db ∧
      Matched shared shared' call call' maker (min call.remainingTakerSize maker.remaining) ∧
      Reaches (goesOn service isSafe uuid) ⟨n, shared, consider service call (maker :: rest)⟩
        ⟨n', shared', consider service call' rest⟩ := by
  obtain ⟨m, hm, hmatching⟩ : ∃ m, n ≤ m ∧ Reaches (goesOn service isSafe uuid)
      ⟨n, shared, consider service call (maker :: rest)⟩
      ⟨m, shared, call.goTo (.matching maker rest)⟩ :=
    reaches_matching hleft hother hsafe rest n
  obtain ⟨db', value, hmatch⟩ := matchMakerOrder_matches (uuid m) h hrecord hleft htraded
    hprice fun trade htrade heq => hunused.fresh m hm trade htrade heq
  obtain ⟨row, hrow, hid, -, trade, htrade, -, -, hvalue, horders, htrades, -⟩ :=
    matchMakerOrder_committed hmatch
  -- the maker's row is the one the order stands for
  have hentry : maker = toBookOrder row := by
    obtain ⟨row', hrow', hentry, -⟩ := h.loadMaker hrecord
    have hsame : row' = row := Tables.eq_of_key h.ids hrow' hrow (by rw [hid, hentry]; rfl)
    rw [hentry, hsame]
  have hremaining : row.remaining_size = maker.remaining := by rw [hentry]; rfl
  have hsize : trade.size = min call.remainingTakerSize maker.remaining := by
    rw [htrade, ← hremaining]
    rfl
  rw [hremaining, hid] at hvalue horders
  have hstep : crossStep service shared (call.goTo (.matching maker rest)) (uuid m)
      (replyAlone isSafe (call.goTo (.matching maker rest))) =
        some (⟨db', shared.book⟩, afterMatch call maker rest value) := by
    rw [hvalue] at hmatch ⊢
    simp [crossStep, replyAlone, matchStep, Cross.goTo, hmatch, Tables.Outcome.database, afterMatch]
  subst hvalue
  have hbook : (Shared.mk db' shared.book).book.records maker.orderId =
      some (.order maker) := hrecord
  obtain ⟨n', hn', hsynced⟩ : ∃ n', m + 1 ≤ n' ∧ Reaches (goesOn service isSafe uuid)
      ⟨m + 1, ⟨db', shared.book⟩, _⟩ ⟨n', _, consider service _ rest⟩ :=
    reaches_afterMatch ⟨trade, trade.size, maker.remaining - trade.size,
      if maker.remaining - trade.size = 0 then .FILLED else .PARTIAL, maker.orderId⟩
      hbook rfl rfl rfl (m + 1)
  refine ⟨n', _, _, ?_, ?_, hmatching.trans ((reaches_of_step hstep).trans hsynced)⟩
  · refine ⟨hunused.distinct, fun k hk other hother' => ?_⟩
    rw [show (Shared.withBook _ _ : Shared).db = db' from rfl, htrades] at hother'
    rcases mem_append.mp hother' with hold | hnew
    · exact hunused.fresh k (by omega) other hold
    · rw [mem_singleton.mp hnew, htrade]
      intro heq
      have hk' := hunused.distinct m k heq
      omega
  · rw [← hsize]
    refine ⟨h.after hrecord ?_ horders, rfl, rfl, rfl, rfl, ?_, ?_, ?_, ?_⟩
    · rw [hsize]
      exact min_le_right _ _
    · have hplanned : plannedOf call.incomingOrder trade =
          ⟨maker.orderId, trade.size, maker.price⟩ := by
        rw [hsize, htrade, plannedOf_tradeOf, hremaining, hentry]
        rfl
      show (call.trades ++ [trade]).map _ = _
      rw [map_append, map_singleton, hplanned]
    · exact fun orderId hne => bookAfter_other hne
    · intro hfilled
      show (bookAfter shared.book maker trade.size).records maker.orderId = none
      rw [bookAfter, if_pos hfilled]
      exact if_pos rfl
    · intro orderId hne
      rw [htrade] at htrades
      exact tradedBefore_new htrades (by rwa [hid])

end Batch

/-! ## A batch that the preview has foreseen -/

section Foreseen

variable (service : Bool)
  (isSafe : Option String → Option String → String → Bool)

def sizeAhead (incoming : InternalOrder) (ahead : List RedisBookOrder) : ℚ :=
  ((ahead.filter (isMakerResolutionEligible service isSafe
    incoming)).map RedisBookOrder.remaining).sum

/-- As far as the incoming order gets in the list, it meets no order of its own user's, has not
traded with the eligible ones, and none of them has a price above one. -/
def Foreseen (db : CrossDb) (incoming : InternalOrder) (remainingTakerSize : ℚ)
    (candidates : List RedisBookOrder) : Prop :=
  ∀ ahead makerEntry later, candidates = ahead ++ makerEntry :: later →
    sizeAhead service isSafe incoming ahead <
      remainingTakerSize →
    makerEntry.userId ≠ incoming.user_id ∧
      (isMakerResolutionEligible service isSafe incoming
        makerEntry → ¬ TradedBefore db incoming makerEntry.orderId ∧ makerEntry.price ≤ 1)

structure Batched (incoming : InternalOrder) (shared shared' : Shared) (call call' : Cross)
    (batch : List RedisBookOrder) : Prop where
  agrees : Agrees shared'
  order : call'.incomingOrder = incoming
  left : sizeAhead service isSafe incoming batch <
    call.remainingTakerSize → call'.remainingTakerSize = call.remainingTakerSize -
      sizeAhead service isSafe incoming batch
  spent : call.remainingTakerSize ≤
    sizeAhead service isSafe incoming batch →
      call'.remainingTakerSize ≤ 0
  progressed : 0 < call'.remainingTakerSize → (call'.progressedInBatch = true ↔
    call.progressedInBatch = true ∨ ∃ makerEntry ∈ batch, isMakerResolutionEligible
      service isSafe incoming makerEntry)
  live : 0 < call'.remainingTakerSize → ∀ orderId entry,
    shared'.book.records orderId = some (.order entry) ↔
      shared.book.records orderId = some (.order entry) ∧ ¬ (entry ∈ batch ∧
        isMakerResolutionEligible service isSafe incoming entry)
  traded : ∀ orderId, (∀ makerEntry ∈ batch, makerEntry.orderId ≠ orderId) →
    (TradedBefore shared'.db incoming orderId ↔ TradedBefore shared.db incoming orderId)

variable {service isSafe} {incoming : InternalOrder}
  {uuid : ℕ → ℕ → String} {shared : Shared} {call : Cross} {maker : RedisBookOrder}
  {batch rest : List RedisBookOrder}

theorem sizeAhead_cons : sizeAhead service isSafe incoming (maker :: batch) =
      (if isMakerResolutionEligible service isSafe incoming maker then maker.remaining else 0) +
      sizeAhead service isSafe incoming batch := by
  unfold sizeAhead
  rw [filter_cons]
  split
  · rw [map_cons, sum_cons]
  · rw [zero_add]

theorem Agrees.sizeAhead_nonneg (h : Agrees shared)
    (hlive : ∀ entry ∈ batch, shared.book.records entry.orderId = some (.order entry)) :
    0 ≤ sizeAhead service isSafe incoming batch := by
  unfold sizeAhead
  apply sum_nonneg
  intro size hsize
  obtain ⟨entry, hentry, rfl⟩ := mem_map.mp hsize
  exact (h.remaining_pos (hlive entry (mem_of_mem_filter hentry))).le

theorem consider_spent (h : call.remainingTakerSize ≤ 0) (candidates : List RedisBookOrder) :
    consider service call candidates = call.endBatch := by
  cases candidates with
  | nil => rfl
  | cons maker rest => rw [consider, if_pos h]

theorem previewCandidates_spent (h : remaining ≤ 0) (candidates : List RedisBookOrder) :
    previewCandidates service isSafe incoming remaining fillable
      planned candidates = ⟨fillable, remaining, planned, false⟩ := by
  cases candidates with
  | nil => rfl
  | cons maker rest => rw [previewCandidates, if_pos h]

theorem previewCandidates_skip (h : 0 < remaining) (hother : maker.userId ≠ incoming.user_id)
    (hsafe : ¬ isMakerResolutionEligible service isSafe incoming maker) :
    previewCandidates service isSafe incoming remaining fillable planned (maker :: rest) =
        previewCandidates service isSafe incoming remaining fillable planned rest := by
  rw [previewCandidates, if_neg (not_le.mpr h), if_neg hother, if_pos hsafe]

theorem previewCandidates_match (h : 0 < remaining) (hother : maker.userId ≠ incoming.user_id)
    (hsafe : isMakerResolutionEligible service isSafe incoming maker) (hpos : 0 < maker.remaining) :
    previewCandidates service isSafe incoming remaining fillable planned (maker :: rest) =
        previewCandidates service isSafe incoming (remaining - min remaining maker.remaining)
          (fillable + min remaining maker.remaining)
          (planned ++ [⟨maker.orderId, min remaining maker.remaining, maker.price⟩]) rest := by
  have hsize : ¬ min remaining maker.remaining ≤ 0 := not_le.mpr (lt_min h hpos)
  rw [previewCandidates, if_neg (not_le.mpr h), if_neg hother, if_neg (not_not.mpr hsafe)]
  simp only
  rw [if_neg hsize]

theorem Foreseen.tail_skip (h : Foreseen service isSafe db incoming remaining (maker :: batch))
    (hsafe : ¬ isMakerResolutionEligible service isSafe incoming maker) :
    Foreseen service isSafe db incoming remaining batch := by
  intro ahead next later hsplit hleft
  refine h (maker :: ahead) next later (by rw [hsplit]; rfl) ?_
  rwa [sizeAhead_cons, if_neg hsafe, zero_add]

theorem Foreseen.tail_match (h : Foreseen service isSafe shared.db incoming remaining
      (maker :: batch)) (hagrees : Agrees shared)
    (hlive : ∀ entry ∈ batch, shared.book.records entry.orderId = some (.order entry))
    (hdistinct : ∀ entry ∈ batch, entry.orderId ≠ maker.orderId)
    (hsafe : isMakerResolutionEligible service isSafe
      incoming maker) (horder : call.incomingOrder = incoming)
    (hmatched : Matched shared shared' call call' maker (min remaining maker.remaining)) :
    Foreseen service isSafe shared'.db incoming
      (remaining - min remaining maker.remaining) batch := by
  intro ahead next later hsplit hleft
  have hnonneg : 0 ≤ sizeAhead service isSafe incoming ahead := by
    apply hagrees.sizeAhead_nonneg
    intro entry hentry
    exact hlive entry (hsplit ▸ mem_append_left _ hentry)
  have hfilled : min remaining maker.remaining = maker.remaining := by
    rcases min_choice remaining maker.remaining with hall | hmaker
    · rw [hall, sub_self] at hleft
      exact absurd hleft (not_lt.mpr hnonneg)
    · exact hmaker
  rw [hfilled] at hleft
  obtain ⟨hother, hnew⟩ := h (maker :: ahead) next later (by rw [hsplit]; rfl) (by
    rw [sizeAhead_cons, if_pos hsafe]
    linarith)
  have hne : next.orderId ≠ maker.orderId := by
    apply hdistinct
    rw [hsplit]
    exact mem_append_right _ mem_cons_self
  refine ⟨hother, fun hnext => ?_⟩
  have htraded := hmatched.traded next.orderId hne
  rw [horder] at htraded
  rw [htraded]
  exact hnew hnext

theorem Batched.nil (h : Agrees shared) (horder : call.incomingOrder = incoming) :
    Batched service isSafe incoming shared shared call call [] where
  agrees := h
  order := horder
  left := fun _ => (sub_zero _).symm
  spent := fun hspent => hspent
  progressed := fun _ => by simp
  live := fun _ orderId entry => by simp
  traded := fun _ _ => Iff.rfl

theorem Batched.of_spent (h : Agrees shared) (horder : call.incomingOrder = incoming)
    (hlive : ∀ entry ∈ batch, shared.book.records entry.orderId = some (.order entry))
    (hspent : call.remainingTakerSize ≤ 0) : Batched service isSafe incoming shared shared call call
      batch where
  agrees := h
  order := horder
  left := fun hleft =>
    absurd ((h.sizeAhead_nonneg hlive).trans_lt hleft) (not_lt.mpr hspent)
  spent := fun _ => hspent
  progressed := fun hpos => absurd hpos (not_lt.mpr hspent)
  live := fun hpos => absurd hpos (not_lt.mpr hspent)
  traded := fun _ _ => Iff.rfl

theorem Batched.skip (h : Batched service isSafe incoming shared shared' call call' batch)
    (hsafe : ¬ isMakerResolutionEligible service isSafe incoming maker) :
    Batched service isSafe incoming shared shared' call call' (maker :: batch) := by
  have hsize : sizeAhead service isSafe incoming (maker :: batch) =
        sizeAhead service isSafe incoming batch := by
    rw [sizeAhead_cons, if_neg hsafe, zero_add]
  refine ⟨h.agrees, h.order, hsize ▸ h.left, hsize ▸ h.spent, fun hpos => ?_,
    fun hpos orderId entry => ?_, fun orderId hne => ?_⟩
  · rw [h.progressed hpos]
    simp [hsafe]
  · rw [h.live hpos, mem_cons]
    refine and_congr_right fun _ => not_congr (and_congr_left fun hentry => ?_)
    refine (or_iff_right ?_).symm
    rintro rfl
    exact hsafe hentry
  · exact h.traded orderId fun entry hentry => hne entry (mem_cons_of_mem _ hentry)

theorem Batched.matched {shared₁ : Shared} {call₁ : Cross} (hagrees : Agrees shared)
    (hrecord : shared.book.records maker.orderId = some (.order maker))
    (hlive : ∀ entry ∈ batch, shared.book.records entry.orderId = some (.order entry))
    (hdistinct : ∀ entry ∈ batch, entry.orderId ≠ maker.orderId)
    (hsafe : isMakerResolutionEligible service isSafe
      incoming maker) (horder : call.incomingOrder = incoming)
    (hmatched : Matched shared shared₁ call call₁ maker (min call.remainingTakerSize
      maker.remaining))
    (h : Batched service isSafe incoming shared₁ shared' call₁ call' batch) :
    Batched service isSafe incoming shared shared' call call' (maker :: batch) := by
  have hnonneg : 0 ≤ sizeAhead service isSafe incoming batch := hagrees.sizeAhead_nonneg hlive
  have hremaining := hmatched.remaining
  have hcons : sizeAhead service isSafe incoming (maker :: batch) = maker.remaining +
        sizeAhead service isSafe incoming batch := by
    rw [sizeAhead_cons, if_pos hsafe]
  -- with something left of the taker, nothing is left of the maker
  have hfilled : 0 < call'.remainingTakerSize →
      min call.remainingTakerSize maker.remaining = maker.remaining := by
    intro hpos
    rcases min_choice call.remainingTakerSize maker.remaining with hall | hmaker
    · have hspent := h.spent (by rw [hremaining, hall, sub_self]; exact hnonneg)
      exact absurd hpos (not_lt.mpr hspent)
    · exact hmaker
  refine ⟨h.agrees, h.order, fun hleft => ?_, fun hspent => ?_, fun hpos => ?_,
    fun hpos orderId entry => ?_, fun orderId hne => ?_⟩
  · rw [hcons] at hleft ⊢
    have hmin : min call.remainingTakerSize maker.remaining = maker.remaining :=
      min_eq_right (by linarith)
    rw [hmin] at hremaining
    rw [h.left (by linarith), hremaining]
    ring
  · rw [hcons] at hspent
    apply h.spent
    rw [hremaining]
    rcases min_choice call.remainingTakerSize maker.remaining with hall | hmaker
    · rw [hall, sub_self]
      exact hnonneg
    · rw [hmaker]
      linarith
  · rw [h.progressed hpos, hmatched.progressed]
    simp [hsafe]
  · rw [h.live hpos, mem_cons]
    by_cases hsame : orderId = maker.orderId
    · have hgone := hmatched.gone (by rw [hfilled hpos, sub_self])
      rw [hsame, hgone, hrecord]
      refine iff_of_false nofun fun hboth => ?_
      have hentry : maker = entry := by simpa using hboth.1
      exact hboth.2 ⟨.inl hentry.symm, hentry ▸ hsafe⟩
    · rw [hmatched.records orderId hsame]
      refine and_congr_right fun hentry => not_congr (and_congr_left fun _ => ?_)
      refine (or_iff_right ?_).symm
      rintro rfl
      exact hsame (hagrees.tidy.kept.orderId orderId entry hentry).symm
  · rw [h.traded orderId fun entry hentry => hne entry (mem_cons_of_mem _ hentry), ← horder]
    exact hmatched.traded orderId (hne maker mem_cons_self).symm

/-- **A batch.** As far as it is foreseen, the attempt matches what the preview plans. -/
theorem reaches_batch (hagrees : Agrees shared) (hunused : Unused uuid n shared.db)
    (horder : call.incomingOrder = incoming)
    (hlive : ∀ entry ∈ batch, shared.book.records entry.orderId = some (.order entry))
    (hnodup : batch.Nodup) (hforeseen : Foreseen service isSafe shared.db incoming
      call.remainingTakerSize batch) (rest : List RedisBookOrder) :
    ∃ n' shared' call', Unused uuid n' shared'.db ∧
      Batched service isSafe incoming shared shared' call call' batch ∧
      previewCandidates service isSafe incoming
          call.remainingTakerSize call.filledTakerSize (call.trades.map (plannedOf incoming))
          (batch ++ rest) =
        previewCandidates service isSafe incoming call'.remainingTakerSize call'.filledTakerSize
          (call'.trades.map (plannedOf incoming)) rest ∧
      Reaches (goesOn service isSafe uuid) ⟨n, shared, consider service call (batch ++ rest)⟩
        ⟨n', shared', consider service call' rest⟩ := by
  induction batch generalizing shared call n with
  | nil => exact ⟨n, shared, call, hunused, .nil hagrees horder, rfl, .refl⟩
  | cons maker batch ih =>
    have hrecord := hlive maker mem_cons_self
    have hlater : ∀ entry ∈ batch, shared.book.records entry.orderId = some (.order entry) :=
      fun entry hentry => hlive entry (mem_cons_of_mem _ hentry)
    obtain ⟨hnew, hnodup⟩ := nodup_cons.mp hnodup
    have hdistinct : ∀ entry ∈ batch, entry.orderId ≠ maker.orderId := by
      intro entry hentry heq
      have hsame := eq_of_orderId (hlater entry hentry) hrecord heq
      exact hnew (hsame ▸ hentry)
    rw [cons_append]
    by_cases hleft : 0 < call.remainingTakerSize
    · obtain ⟨hother, hfree⟩ := hforeseen [] maker batch rfl hleft
      by_cases hsafe : isMakerResolutionEligible service isSafe incoming maker
      · obtain ⟨htraded, hprice⟩ := hfree hsafe
        rw [← horder] at hother hsafe htraded
        obtain ⟨n₁, shared₁, call₁, hunused₁, hmatched, hreach⟩ :=
          reaches_matched hagrees hunused hrecord hleft hother hsafe htraded hprice (batch ++ rest)
        rw [horder] at hother hsafe
        have hforeseen₁ := hforeseen.tail_match hagrees hlater hdistinct hsafe horder hmatched
        rw [← hmatched.remaining] at hforeseen₁
        obtain ⟨n', shared', call', hunused', hbatched, hpreview, hreach'⟩ :=
          ih hmatched.agrees hunused₁ (hmatched.order.trans horder) (fun entry hentry => by
            rw [hmatched.records _ (hdistinct entry hentry)]
            exact hlater entry hentry) hnodup hforeseen₁
        refine ⟨n', shared', call', hunused', .matched hagrees hrecord hlater hdistinct hsafe
          horder hmatched hbatched, ?_, hreach.trans hreach'⟩
        have htrades := hmatched.trades
        rw [horder] at htrades
        rw [previewCandidates_match hleft hother hsafe (hagrees.remaining_pos hrecord),
          ← hmatched.remaining, ← hmatched.filled, ← htrades, hpreview]
      · obtain ⟨n₁, hreach⟩ : ∃ n₁, Reaches (goesOn service isSafe uuid)
            ⟨n, shared, consider service call (maker :: (batch ++ rest))⟩
            ⟨n₁, shared, consider service call (batch ++ rest)⟩ := by
          rw [← horder] at hother hsafe
          exact reaches_skip hleft hother hsafe (batch ++ rest) n
        obtain ⟨n', shared', call', hunused', hbatched, hpreview, hreach'⟩ :=
          ih hagrees (hunused.later (reaches_le hreach)) horder hlater hnodup
            (hforeseen.tail_skip hsafe)
        refine ⟨n', shared', call', hunused', hbatched.skip hsafe, ?_, hreach.trans hreach'⟩
        rw [previewCandidates_skip hleft hother hsafe, hpreview]
    · have hspent := not_lt.mp hleft
      refine ⟨n, shared, call, hunused, .of_spent hagrees horder hlive hspent, ?_, ?_⟩
      · rw [previewCandidates_spent hspent, previewCandidates_spent hspent]
      · rw [consider_spent hspent, consider_spent hspent]
        exact .refl

end Foreseen

/-! ## What every step keeps, foreseen or not -/

/-- A trade of the call: the two orders had not traded, and the price was not above one. -/
structure Earned (db : CrossDb) (incoming : InternalOrder) (trade : Trade) : Prop where
  untraded : ¬ TradedBefore db incoming (plannedOf incoming trade).orderId
  price : trade.price ≤ 1

structure SameTrades (call call' : Cross) : Prop where
  order : call'.incomingOrder = call.incomingOrder
  trades : call'.trades = call.trades
  finished : ∀ result, call'.phase = .finished result → result.trades = call.trades

theorem SameAccount.sameTrades {call call' : Cross} {b : Bool}
    (h : SameAccount (call.given b) call') : SameTrades call call' := by
  obtain ⟨horder, -, -, htrades, hfinished⟩ := h
  cases b with
  | true => exact ⟨horder, htrades, fun result hphase => by rw [hfinished result hphase]; rfl⟩
  | false => exact ⟨horder, htrades, fun result hphase => by rw [hfinished result hphase]; rfl⟩

theorem sameTrades_goTo {call : Cross} {phase : CrossPhase} (h : phase.isFinished = false) :
    SameTrades call (call.goTo phase) :=
  SameAccount.sameTrades (b := false) (sameAccount_goTo h)

section

variable {db db' : CrossDb} {incoming : InternalOrder} {makerOrderId : String}
  {left : ℚ} {uuid : ℕ → String} {value : MatchEnd}
  (h : matchMakerOrder db incoming makerOrderId left uuid = .committed db' value)

include h

theorem matchMakerOrder_untraded : ¬ TradedBefore db incoming makerOrderId := by
  unfold matchMakerOrder at h
  split at h
  next => cases h
  next maker hload =>
    obtain ⟨-, rfl, -, -⟩ := loadMakerForUpdate_some hload
    simp only at h
    split at h
    next => cases h
    next => cases h
    next db₁ hinsert =>
      unfold insertTradeIfNeeded at hinsert
      split at hinsert
      next => cases hinsert
      next =>
        split at hinsert
        next => cases hinsert
        next hpair => exact hpair

theorem matchMakerOrder_earned :
    ∃ result, value = .matched result ∧ Earned db incoming result.trade ∧
      db'.trades = db.trades ++ [result.trade] := by
  obtain ⟨maker, -, hid, -, trade, htrade, -, -, hvalue, -, htrades, delta, entry, -, -, hentry,
    -⟩ := matchMakerOrder_committed h
  refine ⟨_, hvalue, ⟨?_, ?_⟩, htrades⟩
  · rw [htrade, plannedOf_tradeOf, hid]
    exact matchMakerOrder_untraded h
  · have hdelta := hentry.delta_eq
    unfold calculateExposureDelta at hdelta
    split at hdelta
    next => cases hdelta
    next hprice => exact not_lt.mp (not_or.mp hprice).2

end

structure TradesGrow (shared shared' : Shared) (call call' : Cross) : Prop where
  order : call'.incomingOrder = call.incomingOrder
  recorded : ∀ trade ∈ shared.db.trades, trade ∈ shared'.db.trades
  trades : ∃ new, call'.trades = call.trades ++ new ∧
    ∀ trade ∈ new, Earned shared.db call.incomingOrder trade
  finished : ∀ result, call'.phase = .finished result → result.trades = call'.trades

theorem SameTrades.grow (h : SameTrades call call') (hdb : shared'.db = shared.db) :
    TradesGrow shared shared' call call' := by
  refine ⟨h.order, fun trade htrade => hdb ▸ htrade, ⟨[], ?_, nofun⟩, fun result hphase => ?_⟩
  · rw [h.trades, append_nil]
  · rw [h.finished result hphase, h.trades]

theorem matchStep_trades {makerEntry : RedisBookOrder} {rest : List RedisBookOrder}
    {uuid : ℕ → String} {reply : Reply}
    (hstep : matchStep shared call makerEntry rest uuid reply = some (shared', call')) :
    TradesGrow shared shared' call call' := by
  have hleaves : SameTrades call (call.goTo (.releasing rest true)) := sameTrades_goTo rfl
  unfold matchStep at hstep
  cases houtcome : matchMakerOrder shared.db call.incomingOrder makerEntry.orderId
      call.remainingTakerSize uuid with
  | rolledBack value =>
    have hvalue := matchMakerOrder_rolledBack houtcome
    rw [houtcome] at hstep
    split at hstep <;> cases hstep
    · refine SameTrades.grow ?_ rfl
      cases value with
      | stale => exact sameTrades_goTo rfl
      | duplicate maker => exact sameTrades_goTo rfl
      | matched result => exact absurd rfl (hvalue result)
    · exact hleaves.grow rfl
    · exact hleaves.grow rfl
  | aborted error =>
    rw [houtcome] at hstep
    split at hstep <;> cases hstep <;> exact hleaves.grow rfl
  | committed db' value =>
    obtain ⟨result, rfl, hearned, htrades⟩ := matchMakerOrder_earned houtcome
    have hrecorded : ∀ trade ∈ shared.db.trades, trade ∈ db'.trades := by
      intro trade htrade
      rw [htrades]
      exact mem_append_left _ htrade
    rw [houtcome] at hstep
    split at hstep <;> cases hstep
    · refine ⟨rfl, hrecorded, ⟨[result.trade], rfl, ?_⟩, nofun⟩
      intro trade htrade
      rwa [mem_singleton.mp htrade]
    · exact ⟨rfl, hrecorded, ⟨[], (append_nil _).symm, nofun⟩, nofun⟩
    · exact hleaves.grow rfl

/-- **Step lemma.** The call keeps its trades, and earns each new one. -/
theorem crossStep_trades {service : Bool} {uuid : ℕ → String} {reply : Reply}
    (hstep : crossStep service shared call uuid reply = some (shared', call')) :
    TradesGrow shared shared' call call' := by
  unfold crossStep at hstep
  split at hstep
  next maker rest hphase =>
    split at hstep <;> cases hstep
    · refine SameTrades.grow ?_ rfl
      split
      · exact sameTrades_goTo rfl
      · exact (sameAccount_consider _).sameTrades
    · exact SameTrades.grow (sameTrades_goTo rfl) rfl
    · exact SameTrades.grow (sameTrades_goTo rfl) rfl
  next maker rest hphase => exact matchStep_trades hstep
  next =>
    obtain ⟨awaited, hawaited, hstep⟩ := Option.bind_eq_some_iff.mp hstep
    have hdb := crossCall_db hawaited
    obtain ⟨hreturn, hthrow⟩ := sameAccount_crossCall hawaited
    replace hthrow (applied : Bool) (error : String) : SameTrades call _ :=
      SameAccount.sameTrades (b := false) (hthrow applied error)
    cases reply with
    | done =>
      cases hstep
      exact hreturn.sameTrades.grow hdb
    | lost error =>
      cases hstep
      exact (hthrow true error).grow hdb
    | refused error =>
      cases hstep
      exact (hthrow false error).grow rfl
    | answered safe => cases hstep

section Run

variable {service : Bool}
  {isSafe : Option String → Option String → String → Bool}
  {uuid : ℕ → ℕ → String} {first last : Alone}

/-- **Along a run** the call earns its trades, which only become more. -/
theorem reaches_trades (h : Reaches (goesOn service isSafe uuid) first last) :
    last.call.incomingOrder = first.call.incomingOrder ∧
      (∀ trade ∈ first.shared.db.trades, trade ∈ last.shared.db.trades) ∧
      ∃ new, last.call.trades = first.call.trades ++ new ∧
        ∀ trade ∈ new, Earned first.shared.db first.call.incomingOrder trade := by
  induction h with
  | refl => exact ⟨rfl, fun _ htrade => htrade, [], (append_nil _).symm, nofun⟩
  | tail hreach hstep ih =>
    obtain ⟨horder, hrecorded, new, htrades, hearned⟩ := ih
    obtain ⟨⟨shared', call'⟩, hnext, rfl⟩ := Option.map_eq_some_iff.mp hstep
    have hgrow := crossStep_trades hnext
    obtain ⟨new', htrades', hearned'⟩ := hgrow.trades
    refine ⟨hgrow.order.trans horder,
      fun trade htrade => hgrow.recorded trade (hrecorded trade htrade), new ++ new', ?_, ?_⟩
    · show call'.trades = _
      rw [htrades', htrades, append_assoc]
    · intro trade htrade
      rcases mem_append.mp htrade with hold | hnew
      · exact hearned trade hold
      · have hnow := hearned' trade hnew
        rw [horder] at hnow
        refine ⟨fun hbefore => hnow.untraded ?_, hnow.price⟩
        obtain ⟨other, hother, hpair⟩ := hbefore
        exact ⟨other, hrecorded other hother, hpair⟩

theorem finished_trades {result : CrossResult} (h : Reaches (goesOn service isSafe uuid) first last)
    (hstart : ∀ result, first.call.phase = .finished result → result.trades = first.call.trades)
    (hphase : last.call.phase = .finished result) : result.trades = last.call.trades := by
  cases h with
  | refl => exact hstart result hphase
  | tail hreach hstep =>
    obtain ⟨⟨shared', call'⟩, hnext, rfl⟩ := Option.map_eq_some_iff.mp hstep
    exact (crossStep_trades hnext).finished result hphase

theorem goesOn_ended
    (h : (∃ result, alone.call.phase = .finished result) ∨ alone.call.phase = .rejected) :
    goesOn service isSafe uuid alone = none := by
  rcases h with ⟨result, hphase⟩ | hphase
  · simp [goesOn, crossStep, crossCall, hphase]
  · simp [goesOn, crossStep, crossCall, hphase]

theorem reaches_unique {last' : Alone} (h : Reaches (goesOn service isSafe uuid) first last)
    (h' : Reaches (goesOn service isSafe uuid) first last')
    (hend : goesOn service isSafe uuid last = none)
    (hend' : goesOn service isSafe uuid last' = none) : last' = last := by
  have hlast : last ∈ eval (goesOn service isSafe uuid) first := mem_eval.mpr ⟨h, hend⟩
  have hlast' : last' ∈ eval (goesOn service isSafe uuid) first := mem_eval.mpr ⟨h', hend'⟩
  exact Part.mem_unique hlast' hlast

end Run

/-! ## From one batch to the next -/

section Batches

variable {service : Bool}
  {isSafe : Option String → Option String → String → Bool}
  {incoming : InternalOrder} {uuid : ℕ → ℕ → String} {shared shared' : Shared}
  {call call' : Cross}

/-- The ten orders that the preview sees. -/
def firstTen (book : OrderBook) (incoming : InternalOrder) : List RedisBookOrder :=
  (book.crossing incoming).take 10

/-- The ten orders after them, once the eligible ones are gone. -/
def nextTen (service : Bool) (isSafe : Option String → Option String → String → Bool)
    (book : OrderBook) (incoming : InternalOrder) : List RedisBookOrder :=
  ((firstTen book incoming).filter (fun entry => ¬ isMakerResolutionEligible
    service isSafe incoming entry) ++
      (book.crossing incoming).drop 10).take 10

theorem Tidy.live_of_firstTen (h : Tidy shared.book) : ∀ entry ∈ firstTen shared.book incoming,
      shared.book.records entry.orderId = some (.order entry) :=
  fun _ hentry => (h.mem_crossing.mp (mem_of_mem_take hentry)).live

theorem Tidy.crossing_nodup (h : Tidy shared.book) (incoming : InternalOrder) :
    (shared.book.crossing incoming).Nodup :=
  nodup_of_positions (h.crossing_firstLive incoming).sorted

theorem reaches_read (h : Tidy shared.book) (horder : call.incomingOrder = incoming) (n : ℕ) :
    ∃ n', Reaches (goesOn service isSafe uuid) ⟨n, shared, call.goTo .ranging⟩
      ⟨n', shared, if firstTen shared.book incoming = [] then call.finish
        else consider service { call with progressedInBatch := false }
          (firstTen shared.book incoming)⟩ := by
  subst horder
  have hmembers : ∀ member ∈ shared.book.zrangebyscore call.incomingOrder.market_id
      call.incomingOrder.side.opposite
      (scoreFor call.incomingOrder.side.opposite call.incomingOrder.price) 10,
      ∃ entry, shared.book.entryAt member = some entry := by
    intro member hmember
    obtain ⟨filed, hfiled, rfl⟩ := mem_map.mp hmember
    exact h.entryAt_isSome (mem_membersWithin.mp (mem_of_mem_take hfiled)).1
  obtain ⟨n', hread⟩ : ∃ n', Reaches (goesOn service isSafe uuid)
      ⟨n + 1, shared, readNext service call [] _⟩
      ⟨n', shared, readNext service call _ []⟩ := reaches_readNext hmembers [] (n + 1)
  have hstep : crossStep service shared (call.goTo .ranging) (uuid n)
      (replyAlone isSafe (call.goTo .ranging)) =
        some (shared, readNext service call [] (shared.book.zrangebyscore
          call.incomingOrder.market_id call.incomingOrder.side.opposite
          (scoreFor call.incomingOrder.side.opposite call.incomingOrder.price) 10)) := by
    simpa [crossStep, replyAlone, crossCall, Calls.Awaited.settle, Cross.goTo] using
      readNext_goTo .ranging [] _
  refine ⟨n', (reaches_of_step hstep).trans ?_⟩
  rw [nil_append, h.read_eq] at hread
  exact hread

theorem Batched.firstTen_eq (h : Agrees shared)
    (hbatched : Batched service isSafe incoming shared shared'
      call call' (firstTen shared.book incoming)) (hpos : 0 < call'.remainingTakerSize) :
    firstTen shared'.book incoming = nextTen service isSafe shared.book incoming := by
  unfold nextTen
  rw [firstTen]
  congr 1
  have hsplit : firstTen shared.book incoming ++ (shared.book.crossing incoming).drop 10 =
      shared.book.crossing incoming := take_append_drop 10 _
  have hsub : ((firstTen shared.book incoming).filter (fun entry =>
      ¬ isMakerResolutionEligible service isSafe incoming
        entry) ++ (shared.book.crossing incoming).drop 10).Sublist
          (shared.book.crossing incoming) := by
    conv_rhs => rw [← hsplit]
    exact List.Sublist.append filter_sublist (List.Sublist.refl _)
  have hnodup := h.tidy.crossing_nodup incoming
  rw [← hsplit] at hnodup
  have hdisjoint := (nodup_append'.mp hnodup).2.2
  refine eq_of_positions (hbatched.agrees.tidy.crossing_sorted incoming)
    ((h.tidy.crossing_sorted incoming).sublist hsub) fun entry => ?_
  have hcrossing : entry ∈ shared'.book.crossing incoming ↔ entry ∈ shared.book.crossing incoming ∧
        ¬ (entry ∈ firstTen shared.book incoming ∧ isMakerResolutionEligible
          service isSafe incoming entry) := by
    rw [hbatched.agrees.tidy.mem_crossing, h.tidy.mem_crossing]
    constructor
    · intro hentry
      obtain ⟨hlive, hnot⟩ := (hbatched.live hpos _ _).mp hentry.live
      exact ⟨⟨hlive, hentry.inMarket, hentry.onSide, hentry.within⟩, hnot⟩
    · intro hentry
      exact ⟨(hbatched.live hpos _ _).mpr ⟨hentry.1.live, hentry.2⟩, hentry.1.inMarket,
        hentry.1.onSide, hentry.1.within⟩
  rw [hcrossing]
  generalize (shared.book.crossing incoming).drop 10 = later at hsplit hdisjoint ⊢
  rw [← hsplit, mem_append, mem_append, mem_filter, decide_eq_true_eq]
  constructor
  · rintro ⟨hfirst | hlater, hnot⟩
    · exact .inl ⟨hfirst, fun hsafe => hnot ⟨hfirst, hsafe⟩⟩
    · exact .inr hlater
  · rintro (⟨hfirst, hnot⟩ | hlater)
    · exact ⟨.inl hfirst, fun hboth => hnot hboth.2⟩
    · exact ⟨.inr hlater, fun hboth => hdisjoint hboth.1 hlater⟩

theorem reaches_quiet (h : Agrees shared) (horder : call.incomingOrder = incoming)
    (hleft : 0 < call.remainingTakerSize) {batch : List RedisBookOrder}
    (hlive : ∀ entry ∈ batch, shared.book.records entry.orderId = some (.order entry))
    (hquiet : ∀ entry ∈ batch, entry.userId ≠ incoming.user_id ∧
      (isMakerResolutionEligible service isSafe incoming entry →
        TradedBefore shared.db incoming entry.orderId)) (rest : List RedisBookOrder) (n : ℕ) :
    ∃ n', Reaches (goesOn service isSafe uuid) ⟨n, shared, consider service call (batch ++ rest)⟩
      ⟨n', shared, consider service call rest⟩ := by
  induction batch generalizing n with
  | nil => exact ⟨n, .refl⟩
  | cons maker batch ih =>
    obtain ⟨hother, htraded⟩ := hquiet maker mem_cons_self
    subst horder
    obtain ⟨n₁, hreach⟩ : ∃ n₁, Reaches (goesOn service isSafe uuid)
        ⟨n, shared, consider service call (maker :: (batch ++ rest))⟩
        ⟨n₁, shared, consider service call (batch ++ rest)⟩ := by
      by_cases hsafe : isMakerResolutionEligible service isSafe call.incomingOrder maker
      · exact reaches_duplicate h (hlive maker mem_cons_self) hleft hother hsafe
          (htraded hsafe) (batch ++ rest) n
      · exact reaches_skip hleft hother hsafe (batch ++ rest) n
    obtain ⟨n', hreach'⟩ := ih (fun entry hentry => hlive entry (mem_cons_of_mem _ hentry))
      (fun entry hentry => hquiet entry (mem_cons_of_mem _ hentry)) n₁
    exact ⟨n', hreach.trans hreach'⟩

theorem endBatch_finished (h : ¬ (call.progressedInBatch = true ∧ 0 < call.remainingTakerSize)) :
    call.endBatch.phase =
      .finished ⟨call.filledTakerSize, call.remainingTakerSize, call.trades⟩ := by
  unfold Cross.endBatch Cross.loop
  split
  next hprogressed =>
    rw [if_neg fun hpos => h ⟨hprogressed, hpos⟩]
    rfl
  next => rfl

theorem consider_own {maker : RedisBookOrder} (hleft : 0 < call.remainingTakerSize)
    (hown : maker.userId = call.incomingOrder.user_id) (rest : List RedisBookOrder) :
    (consider service call (maker :: rest)).phase =
      .finished ⟨call.filledTakerSize, 0, call.trades⟩ := by
  rw [consider, if_neg (not_le.mpr hleft), if_pos hown]
  unfold Cross.endBatch
  split
  · rfl
  · rfl

end Batches

/-! ## When the preview is right -/

section Foresees

variable (service : Bool)
  (isSafe : Option String → Option String → String → Bool)
  (uuid : ℕ → ℕ → String) (shared : Shared) (incoming : InternalOrder)

/-- The attempt makes the matches of the preview, and the sizes are the same. -/
def Predicts : Prop :=
  ∃ book' preview result,
    previewCross service isSafe shared.book incoming =
      .ok (book', preview) ∧
    Returns service isSafe uuid shared incoming result ∧
    result.trades.map (plannedOf incoming) = preview.planned ∧
    result.filledSize = preview.fillableSize ∧ result.remainingSize = preview.remainingSize

/-- The ten orders that the preview sees are as it takes them to be as far as the incoming order
gets; and where that is past them and the attempt comes back, the next ten have nothing for it. -/
structure Foreseeable : Prop where
  first : Foreseen service isSafe shared.db incoming
    incoming.remaining_size (firstTen shared.book incoming)
  next : (∃ makerEntry ∈ firstTen shared.book incoming, isMakerResolutionEligible
      service isSafe incoming makerEntry) →
    sizeAhead service isSafe incoming
      (firstTen shared.book incoming) < incoming.remaining_size →
    ∀ makerEntry ∈ nextTen service isSafe shared.book incoming,
      makerEntry.userId ≠ incoming.user_id ∧
        (isMakerResolutionEligible service isSafe incoming
          makerEntry → TradedBefore shared.db incoming makerEntry.orderId)

variable {service isSafe uuid shared incoming}

theorem Tidy.previewCross_eq (h : Tidy shared.book) :
    ∃ book', previewCross service isSafe shared.book incoming =
      .ok (book', previewCandidates service isSafe incoming
        incoming.remaining_size 0 [] (firstTen shared.book incoming)) := by
  obtain ⟨book', hread, -⟩ := readMembers_ok h.kept incoming.market_id
    incoming.side.opposite (shared.book.zrangebyscore incoming.market_id
      incoming.side.opposite (scoreFor incoming.side.opposite incoming.price) 10)
  refine ⟨book', ?_⟩
  unfold previewCross OrderBook.getBestOppositeOrders
  rw [hread, h.read_eq]
  rfl

def Cross.before (incoming : InternalOrder) : Cross :=
  ⟨incoming, incoming.remaining_size, 0, [], false, .ranging⟩

theorem reaches_first (h : Tidy shared.book) (hleft : 0 < incoming.remaining_size) :
    ∃ n, Reaches (goesOn service isSafe uuid) ⟨0, shared, Cross.start incoming⟩
      ⟨n, shared, consider service (Cross.before incoming) (firstTen shared.book incoming)⟩ := by
  have hstart : Cross.start incoming = (Cross.before incoming).goTo .ranging :=
    if_pos hleft
  have horder : (Cross.before incoming).incomingOrder = incoming := rfl
  obtain ⟨n, hread⟩ : ∃ n, Reaches (goesOn service isSafe uuid)
      ⟨0, shared, (Cross.before incoming).goTo .ranging⟩ ⟨n, shared, _⟩ :=
    reaches_read h horder 0
  refine ⟨n, ?_⟩
  rw [hstart]
  by_cases hnone : firstTen shared.book incoming = []
  · rw [if_pos hnone] at hread
    rw [hnone]
    exact hread
  · rw [if_neg hnone] at hread
    exact hread

theorem reaches_firstBatch (hagrees : Agrees shared) (hunused : Unused uuid 0 shared.db)
    (hleft : 0 < incoming.remaining_size) {batch rest : List RedisBookOrder}
    (hsplit : firstTen shared.book incoming = batch ++ rest)
    (hforeseen : Foreseen service isSafe shared.db incoming incoming.remaining_size batch) :
    ∃ n shared' call', Unused uuid n shared'.db ∧
      Batched service isSafe incoming shared shared' (Cross.before incoming) call' batch ∧
      previewCandidates service isSafe incoming incoming.remaining_size 0 []
          (firstTen shared.book incoming) =
        previewCandidates service isSafe incoming call'.remainingTakerSize call'.filledTakerSize
          (call'.trades.map (plannedOf incoming)) rest ∧
      Reaches (goesOn service isSafe uuid) ⟨0, shared, Cross.start incoming⟩
        ⟨n, shared', consider service call' rest⟩ := by
  have hlive : ∀ entry ∈ firstTen shared.book incoming, _ := hagrees.tidy.live_of_firstTen
  have hnodup : (firstTen shared.book incoming).Nodup :=
    (hagrees.tidy.crossing_nodup incoming).sublist (take_sublist _ _)
  rw [hsplit] at hlive hnodup
  obtain ⟨n, hfirst⟩ : ∃ n, Reaches (goesOn service isSafe uuid)
      _ ⟨n, shared, consider service (Cross.before incoming) _⟩ :=
    reaches_first hagrees.tidy hleft
  have horder : (Cross.before incoming).incomingOrder = incoming := rfl
  obtain ⟨n', shared', call', hunused', hbatched, hplanned, hbatch⟩ :=
    reaches_batch hagrees (hunused.later (Nat.zero_le n)) horder
      (fun entry hentry => hlive entry (mem_append_left _ hentry)) (nodup_append'.mp hnodup).1
      hforeseen rest
  rw [← hsplit] at hplanned hbatch
  exact ⟨n', shared', call', hunused', hbatched, hplanned, hfirst.trans hbatch⟩

section

variable {call call' : Cross} {shared' : Shared} (h : Agrees shared)
  (hbatched : Batched service isSafe incoming shared shared'
    call call' (firstTen shared.book incoming))
  (hpos : 0 < call'.remainingTakerSize)

include h hbatched hpos

theorem reaches_next (hprogressed : call'.progressedInBatch = true) :
    ∃ n', n ≤ n' ∧ Reaches (goesOn service isSafe uuid) ⟨n, shared', call'.endBatch⟩
      ⟨n', shared', if nextTen service isSafe shared.book incoming = [] then call'.finish
        else consider service { call' with progressedInBatch := false }
          (nextTen service isSafe shared.book incoming)⟩ := by
  obtain ⟨n', hread⟩ : ∃ n', Reaches (goesOn service isSafe uuid)
      ⟨n, shared', call'.goTo .ranging⟩ ⟨n', shared', _⟩ :=
    reaches_read hbatched.agrees.tidy hbatched.order n
  rw [hbatched.firstTen_eq h hpos] at hread
  have hranging : call'.endBatch = call'.goTo .ranging := by
    unfold Cross.endBatch Cross.loop
    rw [if_pos hprogressed, if_pos hpos]
  rw [hranging]
  exact ⟨n', reaches_le hread, hread⟩

/-- What the next ten hold is live after the first batch, and has traded no more than before. -/
theorem Batched.next_live (hentry : entry ∈ nextTen service isSafe shared.book incoming) :
    shared'.book.records entry.orderId = some (.order entry) ∧
      (isMakerResolutionEligible service isSafe incoming entry →
        (TradedBefore shared'.db incoming entry.orderId ↔
          TradedBefore shared.db incoming entry.orderId)) := by
  rw [← hbatched.firstTen_eq h hpos] at hentry
  have hlive := hbatched.agrees.tidy.live_of_firstTen entry hentry
  obtain ⟨hbefore, hnot⟩ := (hbatched.live hpos _ _).mp hlive
  refine ⟨hlive, fun hsafe => hbatched.traded entry.orderId fun other hother heq => ?_⟩
  have hsame := eq_of_orderId (h.tidy.live_of_firstTen other hother) hbefore heq
  exact hnot ⟨hsame ▸ hother, hsafe⟩

end

/-- **Foreseen, and so predicted.** -/
theorem Foreseeable.predicts (h : Foreseeable service isSafe shared
    incoming) (hagrees : Agrees shared) (hunused : Unused uuid 0 shared.db) :
    Predicts service isSafe uuid shared incoming := by
  obtain ⟨book', hpreview⟩ : ∃ book', previewCross service isSafe
      shared.book incoming = .ok (book', _) := hagrees.tidy.previewCross_eq
  by_cases hleft : 0 < incoming.remaining_size
  · obtain ⟨n', shared', call', hunused', hbatched, hplanned, hbatch⟩ :=
      reaches_firstBatch hagrees hunused hleft (append_nil _).symm h.first
    have hends : ∀ {last : Cross} {m : ℕ}, last.phase = .finished ⟨call'.filledTakerSize,
        call'.remainingTakerSize, call'.trades⟩ → Reaches (goesOn service isSafe uuid)
          ⟨n', shared', call'.endBatch⟩ ⟨m, shared', last⟩ →
        Predicts service isSafe uuid shared incoming := by
      intro last m hphase hreach
      refine ⟨book', _, _, hpreview, ⟨_, hbatch.trans hreach, hphase⟩, ?_⟩
      rw [hplanned]
      exact ⟨rfl, rfl, rfl⟩
    by_cases hgoesOn : call'.progressedInBatch = true ∧ 0 < call'.remainingTakerSize
    · -- the attempt comes back, and passes over all it finds
      obtain ⟨hprogressed, hpos⟩ := hgoesOn
      have hsome := ((hbatched.progressed hpos).mp hprogressed).resolve_left nofun
      have hpast : sizeAhead service isSafe incoming
          (firstTen shared.book incoming) < incoming.remaining_size :=
        not_le.mp fun hspent => absurd hpos (not_lt.mpr (hbatched.spent hspent))
      have hquiet := h.next hsome hpast
      obtain ⟨m, -, hnext⟩ : ∃ m, n' ≤ m ∧ Reaches (goesOn service isSafe uuid)
          ⟨n', shared', call'.endBatch⟩ ⟨m, shared', _⟩ :=
        reaches_next hagrees hbatched hpos hprogressed
      by_cases hnone : nextTen service isSafe shared.book incoming = []
      · rw [if_pos hnone] at hnext
        exact hends rfl hnext
      · rw [if_neg hnone] at hnext
        have hcall : ({ call' with progressedInBatch := false } : Cross).incomingOrder =
            incoming := hbatched.order
        obtain ⟨m', hpassed⟩ : ∃ m', Reaches (goesOn service isSafe uuid)
            ⟨m, shared', consider service { call' with progressedInBatch := false }
              (_ ++ [])⟩ ⟨m', shared', _⟩ :=
          reaches_quiet hbatched.agrees hcall hpos
            (fun entry hentry => (hbatched.next_live hagrees hpos hentry).1)
            (fun entry hentry => ⟨(hquiet entry hentry).1, fun hsafe =>
              ((hbatched.next_live hagrees hpos hentry).2 hsafe).mpr
                ((hquiet entry hentry).2 hsafe)⟩) [] m
        rw [append_nil] at hpassed
        have hstuck : ¬ (({ call' with progressedInBatch := false } : Cross).progressedInBatch =
            true ∧ 0 < call'.remainingTakerSize) := fun hboth => Bool.noConfusion hboth.1
        have hfinish : (Cross.endBatch { call' with progressedInBatch := false }).phase = .finished
            ⟨call'.filledTakerSize, call'.remainingTakerSize, call'.trades⟩ :=
          endBatch_finished hstuck
        exact hends hfinish (hnext.trans hpassed)
    · exact hends (endBatch_finished hgoesOn) .refl
  · have hfinished : (Cross.start incoming).phase = .finished ⟨0, incoming.remaining_size, []⟩ := by
      unfold Cross.start Cross.loop
      rw [if_neg hleft]
      rfl
    refine ⟨book', _, _, hpreview, ⟨_, .refl, hfinished⟩, ?_⟩
    rw [previewCandidates_spent (not_lt.mp hleft)]
    exact ⟨rfl, rfl, rfl⟩

/-! ## Where it is wrong -/

theorem Returns.unique {result : CrossResult}
    (h : Returns service isSafe uuid shared incoming result)
    (hreach : Reaches (goesOn service isSafe uuid) ⟨0, shared, Cross.start incoming⟩ alone)
    (hend : (∃ other, alone.call.phase = .finished other) ∨ alone.call.phase = .rejected) :
    alone.call.phase = .finished result := by
  obtain ⟨last, hlast, hphase⟩ := h
  have hsame := reaches_unique hlast hreach (goesOn_ended (.inl ⟨result, hphase⟩))
    (goesOn_ended hend)
  rw [hsame, hphase]

theorem start_finished {result : CrossResult}
    (h : (Cross.start incoming).phase = .finished result) : result.trades = [] := by
  unfold Cross.start Cross.loop at h
  split at h
  next => cases h
  next =>
    cases h
    rfl

section

variable {result : CrossResult}
  (h : Returns service isSafe uuid shared incoming result)

include h

theorem Returns.earned : ∀ trade ∈ result.trades, Earned shared.db incoming trade := by
  obtain ⟨last, hlast, hphase⟩ := h
  have hstart : (Cross.start incoming).trades = [] ∧
      (Cross.start incoming).incomingOrder = incoming := by
    unfold Cross.start Cross.loop
    split
    · exact ⟨rfl, rfl⟩
    · exact ⟨rfl, rfl⟩
  obtain ⟨-, -, new, htrades, hearned⟩ := reaches_trades hlast
  have hresult := finished_trades hlast
    (fun other hother => (start_finished hother).trans hstart.1.symm) hphase
  intro trade htrade
  rw [hresult, htrades] at htrade
  simp only [hstart.1, nil_append] at htrade
  have htraded := hearned trade htrade
  simp only [hstart.2] at htraded
  exact htraded

theorem Returns.trades
    (hreach : Reaches (goesOn service isSafe uuid) ⟨0, shared, Cross.start incoming⟩ alone)
    (hrunning : ∀ other, alone.call.phase = .finished other → other.trades = alone.call.trades) :
    ∃ new, result.trades = alone.call.trades ++ new := by
  obtain ⟨last, hlast, hphase⟩ := h
  have hon : Reaches (goesOn service isSafe uuid) alone last := by
    rcases reaches_total hlast hreach with hback | hon
    · have hend : last ∈ eval (goesOn service isSafe uuid) last :=
        mem_eval.mpr ⟨.refl, goesOn_ended (.inl ⟨result, hphase⟩)⟩
      rw [(eval_maximal hend).mp hback]
      exact .refl
    · exact hon
  obtain ⟨-, -, new, htrades, -⟩ := reaches_trades hon
  exact ⟨new, (finished_trades hon hrunning hphase).trans htrades⟩

end

theorem previewCandidates_planned (remaining fillable : ℚ) (planned : List PlannedMatch)
    (candidates : List RedisBookOrder) :
    ∃ more, (previewCandidates service isSafe incoming remaining
      fillable planned candidates).planned = planned ++ more := by
  induction candidates generalizing remaining fillable planned with
  | nil => exact ⟨[], (append_nil _).symm⟩
  | cons maker rest ih =>
    rw [previewCandidates]
    split
    · exact ⟨[], (append_nil _).symm⟩
    split
    · exact ⟨[], (append_nil _).symm⟩
    split
    · exact ih _ _ _
    simp only
    split
    · exact ih _ _ _
    · obtain ⟨more, hmore⟩ := ih (remaining - min remaining maker.remaining)
        (fillable + min remaining maker.remaining)
        (planned ++ [⟨maker.orderId, min remaining maker.remaining, maker.price⟩])
      exact ⟨_, hmore.trans (append_assoc _ _ _)⟩

theorem exists_first_unforeseen {batch : List RedisBookOrder}
    (h : ¬ Foreseen service isSafe db incoming remaining batch) :
    ∃ ahead maker later, batch = ahead ++ maker :: later ∧
      Foreseen service isSafe db incoming remaining ahead ∧
      sizeAhead service isSafe incoming ahead < remaining ∧ ¬ (maker.userId ≠ incoming.user_id ∧
        (isMakerResolutionEligible service isSafe incoming
          maker → ¬ TradedBefore db incoming maker.orderId ∧ maker.price ≤ 1)) := by
  induction batch using List.reverseRecOn with
  | nil =>
    refine absurd (fun ahead maker later hsplit => ?_) h
    exact absurd hsplit (by simp)
  | append_singleton batch last ih =>
    by_cases hbatch : Foreseen service isSafe db incoming remaining batch
    · unfold Foreseen at h
      push Not at h
      obtain ⟨ahead, maker, later, hsplit, hleft, hbad⟩ := h
      rcases eq_nil_or_concat later with rfl | ⟨later, other, rfl⟩
      · obtain ⟨rfl, hlast⟩ := append_inj' hsplit rfl
        refine ⟨batch, maker, [], by rw [hsplit], hbatch, hleft, fun hgood => ?_⟩
        obtain ⟨hsafe, hprice⟩ := hbad hgood.1
        obtain ⟨htraded, hle⟩ := hgood.2 hsafe
        exact absurd hle (not_le.mpr (hprice htraded))
      · -- it comes before the last
        have hbefore : batch = ahead ++ maker :: later := by
          rw [concat_eq_append, ← cons_append, ← append_assoc] at hsplit
          exact (append_inj' hsplit rfl).1
        obtain ⟨hother, hgood⟩ := hbatch ahead maker later hbefore hleft
        obtain ⟨hsafe, hprice⟩ := hbad hother
        obtain ⟨htraded, hle⟩ := hgood hsafe
        exact absurd hle (not_le.mpr (hprice htraded))
    · obtain ⟨ahead, maker, later, rfl, hrest⟩ := ih hbatch
      exact ⟨ahead, maker, later ++ [last], by simp, hrest⟩

section

variable (h : Predicts service isSafe uuid shared incoming)
  (hagrees : Agrees shared)

include h hagrees

theorem Predicts.result {preview : InternalCrossPreviewResult}
    (hpreview : previewCandidates service isSafe incoming
      incoming.remaining_size 0 [] (firstTen shared.book incoming) = preview) :
    ∃ result, Returns service isSafe uuid shared incoming result ∧
      result.trades.map (plannedOf incoming) = preview.planned ∧
      result.remainingSize = preview.remainingSize := by
  obtain ⟨book', found, result, hfound, hreturns, htrades, -, hremaining⟩ := h
  obtain ⟨book'', heq⟩ : ∃ book'', previewCross service isSafe
      shared.book incoming = .ok (book'', _) := hagrees.tidy.previewCross_eq
  rw [hfound, hpreview] at heq
  have hsame : found = preview := congrArg Prod.snd (Except.ok.inj heq)
  rw [hsame] at htrades hremaining
  exact ⟨result, hreturns, htrades, hremaining⟩

/-- **A preview that is right has foreseen its ten orders.** -/
theorem Predicts.first (hunused : Unused uuid 0 shared.db) :
    Foreseen service isSafe shared.db incoming
      incoming.remaining_size (firstTen shared.book incoming) := by
  by_contra hunforeseen
  obtain ⟨ahead, maker, later, hsplit, hforeseen, hreached, hbad⟩ :=
    exists_first_unforeseen hunforeseen
  have hlive : ∀ entry ∈ firstTen shared.book incoming, _ := hagrees.tidy.live_of_firstTen
  rw [hsplit] at hlive
  have hahead : ∀ entry ∈ ahead, shared.book.records entry.orderId = some (.order entry) :=
    fun entry hentry => hlive entry (mem_append_left _ hentry)
  have hleft : 0 < incoming.remaining_size := (hagrees.sizeAhead_nonneg hahead).trans_lt hreached
  obtain ⟨n', shared', call', -, hbatched, hplanned, hbatch⟩ :=
    reaches_firstBatch hagrees hunused hleft hsplit hforeseen
  have hpos : 0 < call'.remainingTakerSize := by
    rw [hbatched.left hreached]
    exact sub_pos.mpr hreached
  obtain ⟨result, hreturns, htrades, hremaining⟩ := h.result hagrees hplanned
  by_cases hown : maker.userId = incoming.user_id
  · -- the attempt is cancelled, and the preview is not
    rw [previewCandidates, if_neg (not_le.mpr hpos), if_pos hown] at hremaining
    have hcancelled : (consider service call' (maker :: later)).phase =
        .finished ⟨call'.filledTakerSize, 0, call'.trades⟩ :=
      consider_own hpos (by rw [hbatched.order, hown]) later
    have hend := hreturns.unique hbatch (.inl ⟨_, hcancelled⟩)
    rw [hcancelled, CrossPhase.finished.injEq] at hend
    rw [← hend] at hremaining
    exact absurd hremaining hpos.ne
  · by_cases hsafe : isMakerResolutionEligible service isSafe incoming maker
    · -- the preview plans the match
      have hrecord := hlive maker (mem_append_right _ mem_cons_self)
      rw [previewCandidates_match hpos hown hsafe (hagrees.remaining_pos hrecord)] at htrades
      obtain ⟨more, hmore⟩ : ∃ more, (previewCandidates service
          isSafe incoming _ _ _ later).planned = _ ++ more :=
        previewCandidates_planned _ _ _ later
      rw [hmore] at htrades
      have hmem : (⟨maker.orderId, min call'.remainingTakerSize maker.remaining,
          maker.price⟩ : PlannedMatch) ∈ result.trades.map (plannedOf incoming) := by
        rw [htrades]
        simp
      obtain ⟨trade, htrade, heq⟩ := mem_map.mp hmem
      have hearned := hreturns.earned trade htrade
      have huntraded := hearned.untraded
      have hprice : (plannedOf incoming trade).price ≤ 1 := hearned.price
      rw [heq] at huntraded hprice
      exact hbad ⟨hown, fun _ => ⟨huntraded, hprice⟩⟩
    · exact hbad ⟨hown, fun hsome => absurd hsome hsafe⟩

end

theorem exists_first_not {α : Type*} {P : α → Prop} {items : List α}
    (h : ¬ ∀ item ∈ items, P item) :
    ∃ ahead item later, items = ahead ++ item :: later ∧ (∀ other ∈ ahead, P other) ∧ ¬ P item := by
  induction items with
  | nil => exact absurd (fun item hitem => absurd hitem not_mem_nil) h
  | cons item rest ih =>
    by_cases hitem : P item
    · have hrest : ¬ ∀ other ∈ rest, P other :=
        fun hall => h (forall_mem_cons.mpr ⟨hitem, hall⟩)
      obtain ⟨ahead, other, later, rfl, hahead, hother⟩ := ih hrest
      exact ⟨item :: ahead, other, later, rfl, forall_mem_cons.mpr ⟨hitem, hahead⟩, hother⟩
    · exact ⟨[], item, rest, rfl, fun other hother => absurd hother not_mem_nil, hitem⟩

/-- **A preview that is right** leaves nothing for the next ten. -/
theorem Predicts.next (h : Predicts service isSafe uuid shared
    incoming) (hagrees : Agrees shared) (hunused : Unused uuid 0 shared.db)
    (hsome : ∃ maker ∈ firstTen shared.book incoming, isMakerResolutionEligible
      service isSafe incoming maker)
    (hpast : sizeAhead service isSafe incoming
      (firstTen shared.book incoming) < incoming.remaining_size) :
    ∀ maker ∈ nextTen service isSafe shared.book incoming, maker.userId ≠ incoming.user_id ∧
        (isMakerResolutionEligible service isSafe incoming
          maker → TradedBefore shared.db incoming maker.orderId) := by
  by_contra hnot
  obtain ⟨ahead, maker, later, hsplit, hquiet, hbad⟩ := exists_first_not hnot
  have hleft : 0 < incoming.remaining_size :=
    (hagrees.sizeAhead_nonneg hagrees.tidy.live_of_firstTen).trans_lt hpast
  obtain ⟨n', shared', call', hunused', hbatched, hplanned, hbatch⟩ :=
    reaches_firstBatch hagrees hunused hleft (append_nil _).symm (h.first hagrees hunused)
  rw [previewCandidates] at hplanned
  have hpos : 0 < call'.remainingTakerSize := by
    rw [hbatched.left hpast]
    exact sub_pos.mpr hpast
  obtain ⟨result, hreturns, htrades, hremaining⟩ := h.result hagrees hplanned
  obtain ⟨m, hm, hnext⟩ : ∃ m, n' ≤ m ∧ Reaches (goesOn service isSafe uuid)
      ⟨n', shared', call'.endBatch⟩ ⟨m, shared', _⟩ :=
    reaches_next hagrees hbatched hpos ((hbatched.progressed hpos).mpr (.inr hsome))
  have hentries : nextTen service isSafe shared.book incoming ≠ [] := by
    rw [hsplit]
    simp
  rw [if_neg hentries, hsplit] at hnext
  have hlive : ∀ entry ∈ ahead ++ maker :: later,
      shared'.book.records entry.orderId = some (.order entry) ∧ _ :=
    fun entry hentry => hbatched.next_live hagrees hpos (hsplit ▸ hentry)
  generalize hcall : ({ call' with progressedInBatch := false } : Cross) = call at hnext
  have hcallOrder : call.incomingOrder = incoming := hcall ▸ hbatched.order
  have hcallPos : 0 < call.remainingTakerSize := hcall ▸ hpos
  have hcallTrades : call.trades = call'.trades := hcall ▸ rfl
  obtain ⟨m', hpassed⟩ : ∃ m', Reaches (goesOn service isSafe uuid)
      ⟨m, shared', consider service call (ahead ++ maker :: later)⟩
      ⟨m', shared', consider service call (maker :: later)⟩ :=
    reaches_quiet hbatched.agrees hcallOrder hcallPos
      (fun entry hentry => (hlive entry (mem_append_left _ hentry)).1)
      (fun entry hentry => ⟨(hquiet entry hentry).1, fun hsafe =>
        ((hlive entry (mem_append_left _ hentry)).2 hsafe).mpr ((hquiet entry hentry).2 hsafe)⟩) _ m
  have hreached := hbatch.trans (hnext.trans hpassed)
  by_cases hown : maker.userId = incoming.user_id
  · have hcancelled : (consider service call (maker :: later)).phase =
        .finished ⟨call.filledTakerSize, 0, call.trades⟩ :=
      consider_own hcallPos (by rw [hcallOrder, hown]) later
    have hend := hreturns.unique hreached (.inl ⟨_, hcancelled⟩)
    rw [hcancelled, CrossPhase.finished.injEq] at hend
    rw [← hend] at hremaining
    exact absurd hremaining hpos.ne
  -- another match, or an error
  have hsafe : isMakerResolutionEligible service isSafe incoming maker := by
    by_contra hnone
    exact hbad ⟨hown, fun hsome => absurd hsome hnone⟩
  have hlast := hlive maker (mem_append_right _ mem_cons_self)
  have huntraded : ¬ TradedBefore shared'.db incoming maker.orderId := by
    rw [hlast.2 hsafe]
    exact fun htraded => hbad ⟨hown, fun _ => htraded⟩
  have hunused'' := hunused'.later (hm.trans (reaches_le hpassed))
  rw [← hcallOrder] at hown hsafe huntraded
  by_cases hprice : maker.price ≤ 1
  · obtain ⟨k, shared'', call'', -, hmatched, hmatch⟩ := reaches_matched hbatched.agrees hunused''
      hlast.1 hcallPos hown hsafe huntraded hprice later
    have hsame : SameTrades call'' (consider service call'' later) :=
      (sameAccount_consider later).sameTrades
    obtain ⟨new, hnew⟩ := hreturns.trades (hreached.trans hmatch)
      fun other hother => (hsame.finished other hother).trans hsame.trades.symm
    have hgrown := congrArg List.length hmatched.trades
    have hlength := congrArg List.length htrades
    have htotal := congrArg List.length hnew
    simp only [length_map, length_append, length_singleton, hsame.trades,
      hcallTrades] at hgrown hlength htotal
    omega
  · obtain ⟨k, hk, hmatching⟩ : ∃ k, m' ≤ k ∧ Reaches (goesOn service isSafe uuid)
        ⟨m', shared', consider service call (maker :: later)⟩
        ⟨k, shared', call.goTo (.matching maker later)⟩ :=
      reaches_matching hcallPos hown hsafe later m'
    obtain ⟨error, herror⟩ := matchMakerOrder_overpriced (uuid k) hbatched.agrees hlast.1 hcallPos
      huntraded (not_le.mp hprice)
      fun trade htrade heq => hunused''.fresh k hk trade htrade heq
    have hthrows : crossStep service shared' (call.goTo (.matching maker later))
        (uuid k) (replyAlone isSafe (call.goTo (.matching maker later))) =
            some (shared', call.goTo (.releasing later true)) := by
      simp [crossStep, replyAlone, matchStep, Cross.goTo, herror, Tables.Outcome.database]
    have hrejected : Reaches (goesOn service isSafe uuid)
        ⟨k + 1, shared', call.goTo (.releasing later true)⟩
        ⟨k + 1 + 1, shared', call.goTo .rejected⟩ := reaches_of_step rfl
    have hend := hreturns.unique
      (hreached.trans (hmatching.trans ((reaches_of_step hthrows).trans hrejected))) (.inr rfl)
    cases hend

end Foresees

/-! ## Books that are filed from the database -/

/-- The orders, filed one after another, and nothing traded. -/
def filed (orders : List InternalOrder) : Shared :=
  ⟨{ orders := orders, trades := [], exposure := [], journal := [] },
    orders.foldl OrderBook.addOrder emptyBook⟩

theorem filed_tidy {orders : List InternalOrder} (hids : (orders.map InternalOrder.id).Nodup)
    (hnamed : ∀ order ∈ orders, order.id ≠ "") : Tidy (filed orders).book ∧ ∀ orderId entry,
      (filed orders).book.records orderId = some (.order entry) →
        ∃ row ∈ orders, entry = toBookOrder row := by
  induction orders using List.reverseRecOn with
  | nil => exact ⟨⟨emptyBook_kept, fun _ _ _ hentry => absurd hentry not_mem_nil⟩, nofun⟩
  | append_singleton orders last ih =>
    rw [map_append, nodup_append'] at hids
    obtain ⟨htidy, hrows⟩ := ih hids.1 fun order horder =>
      hnamed order (mem_append_left _ horder)
    have hbook : (filed (orders ++ [last])).book = (filed orders).book.addOrder last := by
      unfold filed
      simp only
      rw [foldl_append]
      rfl
    rw [hbook]
    have hguard : LeavesNone (filed orders).book (.add last) := by
      refine ⟨hnamed last (mem_append_right _ (mem_singleton.mpr rfl)),
        fun marketId side entry hentry hid => ?_⟩
      -- an order of that id has been filed
      obtain ⟨order, hrecord, -⟩ := htidy.named marketId side entry hentry
      obtain ⟨row, hrow, heq⟩ := hrows _ order hrecord
      have horderId := htidy.kept.orderId _ order hrecord
      rw [heq, hid] at horderId
      refine absurd (mem_map_of_mem hrow) (fun hmem => hids.2.2 hmem ?_)
      exact mem_singleton.mpr horderId
    refine ⟨bookStep_tidy htidy hguard rfl, fun orderId entry hentry => ?_⟩
    rw [addOrder_records] at hentry
    by_cases hsame : orderId = last.id
    · rw [if_pos hsame] at hentry
      cases hentry
      exact ⟨last, mem_append_right _ (mem_singleton.mpr rfl), rfl⟩
    · rw [if_neg hsame] at hentry
      obtain ⟨row, hrow, heq⟩ := hrows orderId entry hentry
      exact ⟨row, mem_append_left _ hrow, heq⟩

theorem filed_agrees {orders : List InternalOrder} (hids : (orders.map InternalOrder.id).Nodup)
    (hopen : ∀ order ∈ orders, order.id ≠ "" ∧ order.status = .OPEN ∧ 0 < order.remaining_size ∧
      0 < order.price) : Agrees (filed orders) := by
  obtain ⟨htidy, hrows⟩ := filed_tidy hids fun order horder => (hopen order horder).1
  refine ⟨htidy, hids, fun orderId entry hentry => ?_⟩
  obtain ⟨row, hrow, heq⟩ := hrows orderId entry hentry
  obtain ⟨-, hstatus, hleft, hprice⟩ := hopen row hrow
  exact ⟨row, hrow, heq, .inl hstatus, hleft, hprice⟩

def countedIds (step _ : ℕ) : String := String.ofList (List.replicate step 't')

theorem countedIds_unused (orders : List InternalOrder) :
    Unused countedIds 0 (filed orders).db := by
  refine ⟨fun m m' heq => ?_, fun _ _ trade htrade => absurd htrade not_mem_nil⟩
  have hlists := congrArg (fun text => text.toList.length) heq
  simpa [countedIds] using hlists

def elevenMakers : List InternalOrder :=
  (List.range 11).map fun i =>
    { makerOrder with id := Nat.repr i, initial_size := 1, remaining_size := 1, created_at := i }

def hungryTaker : InternalOrder := { takerOrder with initial_size := 11, remaining_size := 11 }

end LotusRfq.Crossing
