import LotusRfq.Crossing.Engine

/-!
# LotusRfq — what internal crossing conserves

Every match moves one amount: off the maker's row, into a trade at the maker's price, and into
two exposures whose deltas mirror each other. Stale candidates, duplicate trades and transactions
that fail move nothing.

* **`matchMakerOrder_conserves`** — a committed match keeps the tables sound;
* **`crossStep_filed`** — what a call holds in its hands stands on the side it takes from, so that
  the two exposures of a match are of opposite sides;
* **`attemptCross_conserves`** — along every run of calls.
-/

namespace LotusRfq.Crossing

open Calls Transitions OrderBook List

/-! ## Recorded trades -/

/-- The first journal row of a trade: it names the two orders. -/
def tradeEntry (db : CrossDb) (trade : Trade) : Option MatchPayload :=
  (db.journal.find? fun entry => entry.reference_id = trade.id).map (·.payload)

def makerOf (db : CrossDb) (trade : Trade) : Option String :=
  (tradeEntry db trade).map (·.makerOrderId)

/-- The size of the trades in which an order was the maker, or the taker. -/
def tradedSize (db : CrossDb) (party : MatchPayload → String) (orderId : String) : ℚ :=
  (db.trades.map fun trade =>
    if (tradeEntry db trade).map party = some orderId then trade.size else 0).sum

structure ZeroSum (db : CrossDb) (trade : Trade) (buyer seller : JournalRow MatchPayload) :
    Prop where
  entries : (db.journal.filter fun entry => entry.reference_id = trade.id).Perm [buyer, seller]
  buyer_side : buyer.payload.side = .buy
  seller_side : seller.payload.side = .sell
  buyer_loss : buyer.payload.maxLossDelta = seller.payload.maxGainDelta
  buyer_gain : buyer.payload.maxGainDelta = seller.payload.maxLossDelta
  change : buyer.change + seller.change = 0

/-- The tables are sound: nothing of an order is lost or made, and trades are at the maker's price
and mirror each other in the exposures. -/
structure CrossSound (db : CrossDb) : Prop where
  conserved : ∀ maker ∈ db.orders,
    maker.initial_size = maker.remaining_size + tradedSize db (·.makerOrderId) maker.id
  nonneg : ∀ maker ∈ db.orders, 0 ≤ maker.remaining_size
  filled_iff : ∀ maker ∈ db.orders, maker.status = .FILLED ↔ maker.remaining_size = 0
  at_maker_price : ∀ trade ∈ db.trades, ∃ maker ∈ db.orders,
    makerOf db trade = some maker.id ∧ trade.price = maker.price
  zero_sum : ∀ trade ∈ db.trades, ∃ buyer seller, ZeroSum db trade buyer seller

structure Keyed (db : CrossDb) : Prop where
  orders : (db.orders.map InternalOrder.id).Nodup
  referenced : ∀ trade ∈ db.trades, ∃ entry ∈ db.journal, entry.reference_id = trade.id
  referring : ∀ entry ∈ db.journal, ∃ trade ∈ db.trades, entry.reference_id = trade.id

variable {uuid : ℕ → String} {call : Cross} {shared : Shared} {eligibilityService : Bool}
  {reply : Reply} {sys : System}

section Match

variable {db db' : CrossDb} {trade : Trade} {takerOrderId makerOrderId : String}
  {takerEntry makerEntry : JournalRow MatchPayload} {takerDelta makerDelta : ExposureDelta}
  {takerSide makerSide : Side}

theorem tradeEntry_of_mem (hkeyed : Keyed db) {entries : List (JournalRow MatchPayload)}
    (hjournal : db'.journal = db.journal ++ entries) {other : Trade} (hother : other ∈ db.trades) :
    tradeEntry db' other = tradeEntry db other := by
  obtain ⟨entry, hentry, href⟩ := hkeyed.referenced other hother
  rw [tradeEntry, tradeEntry, hjournal, find?_append]
  cases hfind : db.journal.find? fun entry => entry.reference_id = other.id with
  | some found => simp
  | none => exact absurd href (by simpa using find?_eq_none.mp hfind entry hentry)

section

variable (hkeyed : Keyed db) (hnew : ∀ other ∈ db.trades, other.id ≠ trade.id)
  (hjournal : db'.journal = db.journal ++ [takerEntry, makerEntry])

include hkeyed hnew hjournal

theorem tradeEntry_new (href : takerEntry.reference_id = trade.id) :
    tradeEntry db' trade = some takerEntry.payload := by
  have hold : db.journal.find? (fun entry => entry.reference_id = trade.id) = none := by
    rw [find?_eq_none]
    intro entry hentry
    obtain ⟨other, hother, heq⟩ := hkeyed.referring entry hentry
    simpa [heq] using hnew other hother
  rw [tradeEntry, hjournal, find?_append, hold]
  simp [href]

theorem filter_new (htaker : takerEntry.reference_id = trade.id)
    (hmaker : makerEntry.reference_id = trade.id) :
    (db'.journal.filter fun entry => entry.reference_id = trade.id) = [takerEntry, makerEntry] := by
  have hold : db.journal.filter (fun entry => entry.reference_id = trade.id) = [] := by
    rw [filter_eq_nil_iff]
    intro entry hentry
    obtain ⟨other, hother, heq⟩ := hkeyed.referring entry hentry
    simpa [heq] using hnew other hother
  rw [hjournal, filter_append, hold]
  simp [htaker, hmaker]

end

theorem filter_of_mem {other : Trade} (hne : other.id ≠ trade.id)
    (hjournal : db'.journal = db.journal ++ [takerEntry, makerEntry])
    (htaker : takerEntry.reference_id = trade.id) (hmaker : makerEntry.reference_id = trade.id) :
    (db'.journal.filter fun entry => entry.reference_id = other.id) =
      db.journal.filter fun entry => entry.reference_id = other.id := by
  rw [hjournal, filter_append]
  simp [htaker, hmaker, hne.symm]

/-- A new trade adds its size to what its maker (or its taker) has traded, and nothing else. -/
theorem tradedSize_new (hkeyed : Keyed db) (hnew : ∀ other ∈ db.trades, other.id ≠ trade.id)
    (htrades : db'.trades = db.trades ++ [trade])
    (hjournal : db'.journal = db.journal ++ [takerEntry, makerEntry])
    (href : takerEntry.reference_id = trade.id) (party : MatchPayload → String) (orderId : String) :
    tradedSize db' party orderId = tradedSize db party orderId +
        if party takerEntry.payload = orderId then trade.size else 0 := by
  rw [tradedSize, tradedSize, htrades, map_append, sum_append]
  congr 1
  · refine congrArg List.sum (map_congr_left fun other hother => ?_)
    rw [tradeEntry_of_mem hkeyed hjournal hother]
  · simp [tradeEntry_new hkeyed hnew hjournal href]

theorem zeroSum_of_entries (hsides : makerSide = takerSide.opposite)
    (htaker : IsEntry trade takerOrderId makerOrderId takerSide takerDelta takerEntry)
    (hmaker : IsEntry trade takerOrderId makerOrderId makerSide makerDelta makerEntry)
    (hentries : (db.journal.filter fun entry => entry.reference_id = trade.id) =
      [takerEntry, makerEntry]) : ∃ buyer seller, ZeroSum db trade buyer seller := by
  have hdelta := calculateExposureDelta_opposite htaker.delta_eq
  rw [← hsides, hmaker.delta_eq, Except.ok.injEq] at hdelta
  subst hdelta
  have hchange : takerEntry.change + makerEntry.change = 0 := by
    rw [htaker.change, hmaker.change]
    ring
  cases takerSide with
  | buy =>
    exact ⟨takerEntry, makerEntry, by rw [hentries], by rw [htaker.payload],
      by rw [hmaker.payload, hsides]; rfl, by rw [htaker.payload, hmaker.payload],
      by rw [htaker.payload, hmaker.payload], hchange⟩
  | sell =>
    exact ⟨makerEntry, takerEntry, by rw [hentries]; exact List.Perm.swap _ _ _,
      by rw [hmaker.payload, hsides]; rfl, by rw [htaker.payload],
      by rw [htaker.payload, hmaker.payload], by rw [htaker.payload, hmaker.payload],
      (add_comm _ _).trans hchange⟩

/-- **A committed match keeps the tables sound**, when the maker stands on the other side. -/
theorem matchMakerOrder_conserves {incomingOrder : InternalOrder} {remainingTakerSize : ℚ}
    {value : MatchEnd} (hkeyed : Keyed db) (hsound : CrossSound db)
    (hsides : ∀ order ∈ db.orders, order.id = makerOrderId → order.side =
      incomingOrder.side.opposite)
    (h : matchMakerOrder db incomingOrder makerOrderId remainingTakerSize uuid = .committed db'
      value) : Keyed db' ∧ CrossSound db' := by
  obtain ⟨maker, hmaker, hid, hopen, trade, htrade, hsize, hnew, -, horders, htrades, takerDelta,
    takerEntry, makerDelta, makerEntry, htakerEntry, hmakerEntry, hjournal⟩ :=
    matchMakerOrder_committed h
  have hmatched : trade.size = min remainingTakerSize maker.remaining_size := by
    rw [htrade]
    rfl
  have hle : trade.size ≤ maker.remaining_size := hmatched ▸ min_le_right _ _
  have hprice : trade.price = maker.price := by
    rw [htrade]
    rfl
  have hpayload : takerEntry.payload.makerOrderId = maker.id := by rw [htakerEntry.payload]
  have hvolume : ∀ orderId, tradedSize db' (·.makerOrderId) orderId =
      tradedSize db (·.makerOrderId) orderId + if maker.id = orderId then trade.size else 0 :=
    fun orderId => hpayload ▸
      tradedSize_new hkeyed hnew htrades hjournal htakerEntry.reference_id (·.makerOrderId) orderId
  have hkeys : db'.orders.map InternalOrder.id = db.orders.map InternalOrder.id := by
    rw [horders, updateMakerState_ids]
  -- an order of the new table is the maker with its new size and status, or an order as it was
  have horder : ∀ order' ∈ db'.orders, order' = { maker with
        remaining_size := maker.remaining_size - trade.size
        status := if maker.remaining_size - trade.size = 0 then .FILLED else .PARTIAL } ∨
      order' ∈ db.orders ∧ order'.id ≠ maker.id := by
    intro order' hmem
    rw [horders] at hmem
    rcases Tables.mem_update.mp hmem with ⟨order, hmem', heq, rfl⟩ | hother
    · rw [Tables.eq_of_key hkeyed.orders hmem' hmaker heq]
      exact .inl rfl
    · exact .inr hother
  have hkept : ∀ order ∈ db.orders, ∃ order' ∈ db'.orders,
      order'.id = order.id ∧ order'.price = order.price := by
    intro order hmem
    rw [horders]
    by_cases heq : order.id = maker.id
    · exact ⟨_, Tables.mem_update.mpr (.inl ⟨order, hmem, heq, rfl⟩), rfl, rfl⟩
    · exact ⟨order, Tables.mem_update.mpr (.inr ⟨hmem, heq⟩), rfl, rfl⟩
  have hentry : tradeEntry db' trade = some takerEntry.payload :=
    tradeEntry_new hkeyed hnew hjournal htakerEntry.reference_id
  refine ⟨⟨hkeys ▸ hkeyed.orders, ?_, ?_⟩, ⟨?_, ?_, ?_, ?_, ?_⟩⟩
  · intro other hother
    rw [htrades] at hother
    rcases mem_append.mp hother with hold | hlast
    · obtain ⟨entry, hmem, href⟩ := hkeyed.referenced other hold
      exact ⟨entry, hjournal ▸ mem_append_left _ hmem, href⟩
    · rw [mem_singleton.mp hlast]
      exact ⟨takerEntry, by simp [hjournal], htakerEntry.reference_id⟩
  · intro entry hmem
    rw [hjournal] at hmem
    rw [htrades]
    rcases mem_append.mp hmem with hold | hlast
    · obtain ⟨other, hother, href⟩ := hkeyed.referring entry hold
      exact ⟨other, mem_append_left _ hother, href⟩
    · refine ⟨trade, mem_append_right _ (mem_singleton_self trade), ?_⟩
      rcases mem_pair.mp hlast with rfl | rfl
      · exact htakerEntry.reference_id
      · exact hmakerEntry.reference_id
  · intro order' hmem
    rcases horder order' hmem with rfl | ⟨hold, hne⟩
    · have hbefore := hsound.conserved maker hmaker
      simp only [hvolume, if_true]
      linarith
    · have hbefore := hsound.conserved order' hold
      rw [hvolume, if_neg (Ne.symm hne), add_zero]
      exact hbefore
  · intro order' hmem
    rcases horder order' hmem with rfl | ⟨hold, -⟩
    · exact sub_nonneg.mpr hle
    · exact hsound.nonneg order' hold
  · intro order' hmem
    rcases horder order' hmem with rfl | ⟨hold, -⟩
    · simp only
      split
      next hzero => simp [hzero]
      next hleft => simp [hleft]
    · exact hsound.filled_iff order' hold
  · intro other hother
    rw [htrades] at hother
    rcases mem_append.mp hother with hold | hlast
    · obtain ⟨order, horder', hparty, hprice'⟩ := hsound.at_maker_price other hold
      obtain ⟨order', hmem', hid', hsame⟩ := hkept order horder'
      refine ⟨order', hmem', ?_, hprice'.trans hsame.symm⟩
      rw [makerOf, tradeEntry_of_mem hkeyed hjournal hold, hid']
      exact hparty
    · rw [mem_singleton.mp hlast]
      obtain ⟨order', hmem', hid', hsame⟩ := hkept maker hmaker
      refine ⟨order', hmem', ?_, hprice.trans hsame.symm⟩
      rw [makerOf, hentry, hid', Option.map_some, hpayload]
  · intro other hother
    rw [htrades] at hother
    rcases mem_append.mp hother with hold | hlast
    · obtain ⟨buyer, seller, hzero⟩ := hsound.zero_sum other hold
      refine ⟨buyer, seller, ?_, hzero.buyer_side, hzero.seller_side, hzero.buyer_loss,
        hzero.buyer_gain, hzero.change⟩
      rw [filter_of_mem (hnew other hold) hjournal htakerEntry.reference_id
        hmakerEntry.reference_id]
      exact hzero.entries
    · rw [mem_singleton.mp hlast]
      exact zeroSum_of_entries (hsides maker hmaker hid) htakerEntry hmakerEntry
        (filter_new hkeyed hnew hjournal htakerEntry.reference_id hmakerEntry.reference_id)

end Match

/-! ## What a call has in its hands -/

/-- The order, if it has a row, is on the other side than `side`. -/
def StandsOpposite (orders : List InternalOrder) (side : Side) (orderId : String) : Prop :=
  ∀ order ∈ orders, order.id = orderId → order.side = side.opposite

/-- The members and candidates a call still holds stand opposite to its order, and a record it is
about to write belongs under its key. -/
def CrossFiled (orders : List InternalOrder) (call : Cross) : Prop :=
  match call.phase with
  | .ranging | .finished _ | .rejected => True
  | .reading member rest read | .deletingMalformed member rest read
  | .removingMember member rest read =>
    (∀ m ∈ member :: rest, StandsOpposite orders call.incomingOrder.side m.orderId) ∧
      ∀ entry ∈ read, StandsOpposite orders call.incomingOrder.side entry.orderId
  | .judging makerEntry rest | .locking makerEntry rest | .matching makerEntry rest =>
    ∀ entry ∈ makerEntry :: rest, StandsOpposite orders call.incomingOrder.side entry.orderId
  | .syncing (.updateSet orderId updated) rest =>
    (∀ entry ∈ rest, StandsOpposite orders call.incomingOrder.side entry.orderId) ∧
      updated.orderId = orderId
  | .syncing _ rest | .releasing rest _ =>
    ∀ entry ∈ rest, StandsOpposite orders call.incomingOrder.side entry.orderId

def SameSides (orders orders' : List InternalOrder) : Prop :=
  ∀ order' ∈ orders', ∃ order ∈ orders, order.id = order'.id ∧ order.side = order'.side

section

variable {orders orders' : List InternalOrder} (hsides : SameSides orders orders')

include hsides

theorem StandsOpposite.of_sameSides {side : Side} {orderId : String}
    (h : StandsOpposite orders side orderId) : StandsOpposite orders' side orderId := by
  intro order' hmem hid
  obtain ⟨order, hmem', hid', hside⟩ := hsides order' hmem
  exact hside ▸ h order hmem' (hid'.trans hid)

theorem OrderBook.Filed.of_sameSides {book : OrderBook} (h : book.Filed orders) :
    book.Filed orders' := by
  refine ⟨fun marketId side entry hentry order' hmem hid => ?_, h.record⟩
  obtain ⟨order, hmem', hid', hside⟩ := hsides order' hmem
  exact hside ▸ h.side marketId side entry hentry order hmem' (hid'.trans hid)

theorem CrossFiled.of_sameSides (h : CrossFiled orders call) : CrossFiled orders' call := by
  have hall : ∀ {α : Type} {l : List α} {f : α → String},
      (∀ x ∈ l, StandsOpposite orders call.incomingOrder.side (f x)) →
      ∀ x ∈ l, StandsOpposite orders' call.incomingOrder.side (f x) :=
    fun hl x hx => (hl x hx).of_sameSides hsides
  unfold CrossFiled at h ⊢
  split at h
  all_goals first | trivial | exact ⟨hall h.1, hall h.2⟩ | exact ⟨hall h.1, h.2⟩ | exact hall h

end

theorem sameSides_updateMakerState (db : CrossDb) (makerOrderId : String) (remaining : ℚ)
    (status : InternalOrderStatus) :
    SameSides db.orders (updateMakerState db makerOrderId remaining status).orders := by
  intro order' hmem
  rcases Tables.mem_update.mp hmem with ⟨order, hmem', -, rfl⟩ | ⟨hmem', -⟩
  · exact ⟨order, hmem', rfl, rfl⟩
  · exact ⟨order', hmem', rfl, rfl⟩

section Filed

variable {eligibilityService : Bool} {orders : List InternalOrder} {call : Cross}

theorem filed_loop : CrossFiled orders call.loop := by
  unfold Cross.loop
  split <;> trivial

theorem filed_endBatch : CrossFiled orders call.endBatch := by
  unfold Cross.endBatch
  split
  · exact filed_loop
  · trivial

theorem filed_consider {candidates : List RedisBookOrder}
    (h : ∀ entry ∈ candidates, StandsOpposite orders call.incomingOrder.side entry.orderId) :
    CrossFiled orders (consider eligibilityService call candidates) := by
  induction candidates with
  | nil => exact filed_endBatch
  | cons makerEntry rest ih =>
    rw [consider]
    split
    · exact filed_endBatch
    split
    · exact filed_endBatch
    split
    · exact h
    split
    · exact h
    · exact ih fun entry hentry => h entry (mem_cons_of_mem _ hentry)

theorem filed_readNext {read : List RedisBookOrder} {members : List BookMember}
    (hread : ∀ entry ∈ read, StandsOpposite orders call.incomingOrder.side entry.orderId)
    (hmembers : ∀ m ∈ members, StandsOpposite orders call.incomingOrder.side m.orderId) :
    CrossFiled orders (readNext eligibilityService call read members) := by
  induction members with
  | nil =>
    rw [readNext]
    split
    · trivial
    · exact filed_consider hread
  | cons member rest ih =>
    rw [readNext]
    split
    · exact ih fun m hm => hmembers m (mem_cons_of_mem _ hm)
    · exact ⟨hmembers, hread⟩

theorem filed_afterMatch {makerEntry : RedisBookOrder} {rest : List RedisBookOrder}
    (h : ∀ entry ∈ rest, StandsOpposite orders call.incomingOrder.side entry.orderId)
    (value : MatchEnd) : CrossFiled orders (afterMatch call makerEntry rest value) := by
  cases value with
  | stale => exact h
  | duplicate maker =>
    simp only [afterMatch]
    split <;> exact h
  | matched result =>
    simp only [afterMatch]
    split <;> exact h

end Filed

structure StepFiled (shared : Shared) (call : Cross) : Prop where
  book : shared.book.Filed shared.db.orders
  call : CrossFiled shared.db.orders call

theorem syncCall_filed {command : SyncCommand} {rest : List RedisBookOrder}
    (hbook : shared.book.Filed shared.db.orders)
    (hcall : CrossFiled shared.db.orders (call.goTo (.syncing command rest))) :
    StepFiled (syncCall shared call rest command).effect
        (syncCall shared call rest command).onReturn ∧
      ∀ applied error, CrossFiled shared.db.orders
        ((syncCall shared call rest command).onThrow applied error) := by
  cases command with
  | removeGet orderId =>
    refine ⟨⟨hbook, ?_⟩, fun _ _ => hcall⟩
    simp only [syncCall]
    split <;> exact hcall
  | removeZrem orderId existing => exact ⟨⟨hbook.zrem _ _ _, hcall⟩, fun _ _ => hcall⟩
  | removeDel orderId | dropMalformed orderId =>
    exact ⟨⟨hbook.setRecord nofun, hcall⟩, fun _ _ => hcall⟩
  | updateGet orderId remaining =>
    refine ⟨⟨hbook, ?_⟩, fun _ _ => hcall⟩
    simp only [syncCall]
    split
    next existing hrecord => exact ⟨hcall, hbook.record orderId existing hrecord⟩
    all_goals exact hcall
  | updateSet orderId updated =>
    refine ⟨⟨hbook.setRecord fun entry heq => ?_, hcall.1⟩, fun _ _ => hcall.1⟩
    cases heq
    exact hcall.2

theorem crossCall_db {awaited : Awaited Shared Cross}
    (hawaited : crossCall eligibilityService shared call = some awaited) :
    awaited.effect.db = shared.db := by
  unfold crossCall at hawaited
  split at hawaited <;> cases hawaited
  case h_10.refl command rest _ => cases command <;> rfl
  all_goals rfl

theorem crossCall_filed {awaited : Awaited Shared Cross} (h : StepFiled shared call)
    (hawaited : crossCall eligibilityService shared call = some awaited) :
    StepFiled awaited.effect awaited.onReturn ∧
      ∀ applied error, CrossFiled shared.db.orders (awaited.onThrow applied error) := by
  obtain ⟨hbook, hcall⟩ := h
  unfold crossCall at hawaited
  unfold CrossFiled at hcall
  split at hawaited <;> rename_i hphase <;> simp only [hphase] at hcall <;> cases hawaited
  case h_5.refl =>
    exact ⟨⟨hbook, filed_readNext (by simp) fun m hm => hbook.zrangebyscore hm⟩,
      fun _ _ => trivial⟩
  case h_6.refl member rest read =>
    refine ⟨⟨hbook, ?_⟩, fun _ _ => trivial⟩
    simp only
    split
    next entry hrecord =>
      refine filed_readNext (fun entry' hentry => ?_)
        fun m hm => hcall.1 m (mem_cons_of_mem _ hm)
      rcases mem_append.mp hentry with hold | hlast
      · exact hcall.2 entry' hold
      · rw [mem_singleton.mp hlast, hbook.record _ entry hrecord]
        exact hcall.1 member mem_cons_self
    next => exact hcall
    next => trivial
    next => exact hcall
  case h_7.refl => exact ⟨⟨hbook.setRecord nofun, hcall⟩, fun _ _ => trivial⟩
  case h_8.refl =>
    exact ⟨⟨hbook.zrem _ _ _, filed_readNext hcall.2 fun m hm => hcall.1 m (mem_cons_of_mem _ hm)⟩,
      fun _ _ => trivial⟩
  case h_9.refl => exact ⟨⟨hbook, hcall⟩, fun _ _ => trivial⟩
  case h_10.refl command rest =>
    refine syncCall_filed hbook ?_
    unfold CrossFiled
    exact hcall
  case h_11.refl =>
    refine ⟨⟨hbook, ?_⟩, fun _ _ => trivial⟩
    simp only
    split
    · trivial
    · exact filed_consider hcall

/-! ## Along a run -/

/-- The action runs a match transaction that commits. -/
def System.commits (sys : System) (i : ℕ) (uuid : ℕ → String) (reply : Reply) : Bool :=
  match sys.calls[i]?.bind fun call => call.transaction sys.shared uuid, reply with
  | some outcome, .done | some outcome, .lost _ => outcome.commits
  | _, _ => false

/-- The tables are sound and keyed, the book is filed, and so is what every call holds. -/
structure CrossInv (sys : System) : Prop where
  keyed : Keyed sys.shared.db
  sound : CrossSound sys.shared.db
  book : sys.shared.book.Filed sys.shared.db.orders
  calls : ∀ call ∈ sys.calls, CrossFiled sys.shared.db.orders call

theorem matchOutcome_sound {db : CrossDb} {incomingOrder : InternalOrder} {makerOrderId : String}
    (remainingTakerSize : ℚ) (uuid : ℕ → String) (hkeyed : Keyed db) (hsound : CrossSound db)
    (hsides : StandsOpposite db.orders incomingOrder.side makerOrderId) :
    let after := (matchMakerOrder db incomingOrder makerOrderId remainingTakerSize uuid).database db
    Keyed after ∧ CrossSound after ∧ SameSides db.orders after.orders := by
  have hrefl : SameSides db.orders db.orders := fun order hmem => ⟨order, hmem, rfl, rfl⟩
  cases houtcome : matchMakerOrder db incomingOrder makerOrderId remainingTakerSize uuid with
  | committed after value =>
    obtain ⟨hkeyed', hsound'⟩ := matchMakerOrder_conserves hkeyed hsound hsides houtcome
    obtain ⟨maker, -, -, -, trade, -, -, -, -, horders, -⟩ := matchMakerOrder_committed houtcome
    refine ⟨hkeyed', hsound', ?_⟩
    rw [Tables.Outcome.database, horders]
    exact sameSides_updateMakerState db _ _ _
  | rolledBack value => exact ⟨hkeyed, hsound, hrefl⟩
  | aborted error => exact ⟨hkeyed, hsound, hrefl⟩

/-- **Step lemma.** One action of a call keeps the tables sound, and both the book and the call
filed. -/
theorem crossStep_inv {shared' : Shared} {call' : Cross} (hkeyed : Keyed shared.db)
    (hsound : CrossSound shared.db) (hfiled : StepFiled shared call)
    (h : crossStep eligibilityService shared call uuid reply = some (shared', call')) :
    Keyed shared'.db ∧ CrossSound shared'.db ∧ SameSides shared.db.orders shared'.db.orders ∧
      StepFiled shared' call' := by
  have hrefl : SameSides shared.db.orders shared.db.orders :=
    fun order hmem => ⟨order, hmem, rfl, rfl⟩
  obtain ⟨hbook, hcall⟩ := hfiled
  unfold crossStep at h
  split at h
  next makerEntry rest hphase =>
    simp only [CrossFiled, hphase] at hcall
    have hrest := fun entry hentry => hcall entry (mem_cons_of_mem _ hentry)
    split at h <;> cases h
    · refine ⟨hkeyed, hsound, hrefl, hbook, ?_⟩
      split
      · exact hcall
      · exact filed_consider hrest
    · exact ⟨hkeyed, hsound, hrefl, hbook, trivial⟩
    · exact ⟨hkeyed, hsound, hrefl, hbook, trivial⟩
  next makerEntry rest hphase =>
    simp only [CrossFiled, hphase] at hcall
    have hrest := fun entry hentry => hcall entry (mem_cons_of_mem _ hentry)
    obtain ⟨hkeyed', hsound', hsides⟩ := matchOutcome_sound call.remainingTakerSize uuid hkeyed
      hsound (hcall makerEntry mem_cons_self)
    have hrest' := fun entry hentry => (hrest entry hentry).of_sameSides hsides
    unfold matchStep at h
    split at h <;> cases h
    · refine ⟨hkeyed', hsound', hsides, hbook.of_sameSides hsides, ?_⟩
      simp only
      split
      next => exact filed_afterMatch hrest' _
      next => exact filed_afterMatch hrest' _
      next => exact hrest'
    · exact ⟨hkeyed', hsound', hsides, hbook.of_sameSides hsides, hrest'⟩
    · exact ⟨hkeyed, hsound, hrefl, hbook, hrest⟩
  next =>
    obtain ⟨awaited, hawaited, h⟩ := Option.bind_eq_some_iff.mp h
    have hdb := crossCall_db hawaited
    obtain ⟨hreturn, hthrow⟩ := crossCall_filed ⟨hbook, hcall⟩ hawaited
    exact Awaited.settle_elim (P := fun s next => Keyed s.db ∧ CrossSound s.db ∧
        SameSides shared.db.orders s.db.orders ∧ StepFiled s next) h
      ⟨hdb ▸ hkeyed, hdb ▸ hsound, hdb ▸ hrefl, hreturn⟩
      (fun _ => ⟨hdb ▸ hkeyed, hdb ▸ hsound, hdb ▸ hrefl, hreturn.book, hdb ▸ hthrow true _⟩)
      (fun _ => ⟨hkeyed, hsound, hrefl, hbook, hthrow false _⟩)

theorem act_inv {sys' : System} {action : Action} (h : CrossInv sys)
    (hact : act eligibilityService sys action = some sys') : CrossInv sys' := by
  cases action with
  | start incomingOrder =>
    cases hact
    refine ⟨h.keyed, h.sound, h.book, fun call hmem => ?_⟩
    rcases mem_append.mp hmem with hold | hnew
    · exact h.calls call hold
    · rw [mem_singleton.mp hnew]
      exact filed_loop
  | cross i uuid reply =>
    simp only [act] at hact
    split at hact
    next => cases hact
    next call hcall =>
      obtain ⟨⟨shared, call'⟩, hstep, rfl⟩ := Option.map_eq_some_iff.mp hact
      obtain ⟨hkeyed, hsound, hsides, hfiled⟩ := crossStep_inv h.keyed h.sound
        ⟨h.book, h.calls call (mem_of_getElem? hcall)⟩ hstep
      refine ⟨hkeyed, hsound, hfiled.book, fun other hmem => ?_⟩
      rcases mem_or_eq_of_mem_set hmem with hold | rfl
      · exact (h.calls other hold).of_sameSides hsides
      · exact hfiled.call
  | book change =>
    simp only [act] at hact
    obtain ⟨book, hchange, rfl⟩ := Option.map_eq_some_iff.mp hact
    exact ⟨h.keyed, h.sound, h.book.change h.keyed.orders hchange, h.calls⟩

theorem crossStep_db {shared' : Shared} {call' : Cross}
    (h : crossStep eligibilityService shared call uuid reply = some (shared', call')) :
    shared'.db = shared.db ∨ ∃ outcome, call.transaction shared uuid = some outcome ∧
      (reply = .done ∨ ∃ error, reply = .lost error) ∧ shared'.db = outcome.database shared.db := by
  unfold crossStep at h
  split at h
  next => split at h <;> cases h <;> exact .inl rfl
  next makerEntry rest hphase =>
    have htransaction : call.transaction shared uuid = some (matchMakerOrder shared.db
        call.incomingOrder makerEntry.orderId call.remainingTakerSize uuid) := by
      simp [Cross.transaction, hphase]
    unfold matchStep at h
    split at h <;> cases h
    · exact .inr ⟨_, htransaction, .inl rfl, rfl⟩
    · exact .inr ⟨_, htransaction, .inr ⟨_, rfl⟩, rfl⟩
    · exact .inl rfl
  next =>
    obtain ⟨awaited, hawaited, h⟩ := Option.bind_eq_some_iff.mp h
    have hdb := crossCall_db hawaited
    exact .inl (Awaited.settle_elim (P := fun s _ => s.db = shared.db) h hdb (fun _ => hdb)
      fun _ => rfl)

/-- A transaction that fails, finds the maker gone or the trade recorded writes nothing. -/
theorem act_db {sys' : System} {i : ℕ}
    (hact : act eligibilityService sys (.cross i uuid reply) = some sys')
    (hcommits : sys.commits i uuid reply = false) : sys'.shared.db = sys.shared.db := by
  simp only [act] at hact
  split at hact
  next => cases hact
  next call hcall =>
    obtain ⟨⟨shared, call'⟩, hstep, rfl⟩ := Option.map_eq_some_iff.mp hact
    rcases crossStep_db hstep with hsame | ⟨outcome, htransaction, hreply, hdb⟩
    · exact hsame
    · rw [hdb]
      refine Tables.Outcome.database_eq ?_ sys.shared.db
      simp only [System.commits, hcall, Option.bind_some, htransaction] at hcommits
      rcases hreply with rfl | ⟨error, rfl⟩ <;> exact hcommits

/-- Orders as they are placed: nothing is traded yet, and the book is filed as it is written. -/
structure Placed (sys : System) : Prop where
  ids : (sys.shared.db.orders.map InternalOrder.id).Nodup
  untraded : sys.shared.db.trades = [] ∧ sys.shared.db.journal = []
  remaining : ∀ order ∈ sys.shared.db.orders, order.remaining_size = order.initial_size
  positive : ∀ order ∈ sys.shared.db.orders, 0 < order.initial_size
  status : ∀ order ∈ sys.shared.db.orders, order.status ≠ .FILLED
  book : sys.shared.book.Filed sys.shared.db.orders
  calls : sys.calls = []

theorem Placed.inv (h : Placed sys) : CrossInv sys := by
  obtain ⟨htrades, hjournal⟩ := h.untraded
  refine ⟨⟨h.ids, by simp [htrades], by simp [hjournal]⟩, ⟨?_, ?_, ?_, by simp [htrades],
    by simp [htrades]⟩, h.book, by simp [h.calls]⟩
  · intro order hmem
    simp [tradedSize, htrades, h.remaining order hmem]
  · intro order hmem
    rw [h.remaining order hmem]
    exact (h.positive order hmem).le
  · intro order hmem
    rw [h.remaining order hmem]
    exact iff_of_false (h.status order hmem) (h.positive order hmem).ne'

/-- **Internal crossing conserves.** Along every run of `attemptCross` calls, for any takers and
any interleaving, over any book and whoever else writes it: each maker's initial size is what
remains of it and what its trades have taken, never less than nothing remains, it is filled
exactly when nothing does, trades are at the maker's price and their exposures mirror each other;
and an action in which no match transaction commits leaves the database as it is. -/
theorem attemptCross_conserves (eligibilityService : Bool) {init sys : System}
    (hinit : Placed init) (hrun : Reaches (act eligibilityService) init sys) :
    CrossSound sys.shared.db ∧
      ∀ i uuid reply sys', act eligibilityService sys (.cross i uuid reply) = some sys' →
        sys.commits i uuid reply = false → sys'.shared.db = sys.shared.db :=
  ⟨(hrun.invariant hinit.inv fun _ _ _ h _ hact => act_inv h hact).sound,
    fun _ _ _ _ hact hcommits => act_db hact hcommits⟩

/-! ## One maker and one taker -/

def makerOrder : InternalOrder :=
  { id := "maker"
    market_id := "market"
    user_id := "alice"
    side := .sell
    price := 2 / 5
    initial_size := 10
    remaining_size := 10
    status := .OPEN
    resolution_profile_id := none
    created_at := 1 }

def takerOrder : InternalOrder :=
  { id := "taker"
    market_id := "market"
    user_id := "bob"
    side := .buy
    price := 1 / 2
    initial_size := 4
    remaining_size := 4
    status := .OPEN
    resolution_profile_id := none
    created_at := 2 }

/-- These orders, an empty book, and no calls. -/
def placed (orders : List InternalOrder) : System :=
  { shared :=
      { db := { orders := orders, trades := [], exposure := [], journal := [] }
        book := { index := fun _ _ => [], records := fun _ => none } }
    calls := [] }

theorem placed_filed (orders : List InternalOrder) : (placed orders).shared.book.Filed orders :=
  ⟨fun _ _ _ h => absurd h not_mem_nil, nofun⟩

def addOrder (order : InternalOrder) : List Action :=
  [.book (.zadd order.id), .book (.setOrder order.id (toBookOrder order))]

/-- Call `i` has these calls answered in turn; `run` names what it inserts. -/
def callGoesOn (i : ℕ) (run : String) (replies : List Reply) : List Action :=
  replies.map fun reply => .cross i (fun n => run ++ Nat.repr n) reply

theorem makerOrder_placed : Placed (placed [makerOrder]) := by
  refine ⟨by simp [placed], ⟨rfl, rfl⟩, ?_, ?_, ?_, placed_filed _, rfl⟩ <;>
    simp [placed, makerOrder]

/-- The taker takes four of the maker's ten. -/
theorem oneMatch_conserves : ∃ sys, Reaches (act false) (placed [makerOrder]) sys ∧
      tradedSize sys.shared.db (·.makerOrderId) "maker" = 4 ∧ CrossSound sys.shared.db := by
  have hplayed : (play (act false) (fun _ _ => True) (addOrder makerOrder ++ [.start takerOrder] ++
        callGoesOn 0 "first" (List.replicate 7 .done)) (placed [makerOrder])).map
      (fun sys => tradedSize sys.shared.db (·.makerOrderId) "maker") = some 4 := by
    decide +kernel
  obtain ⟨sys, hplay, hsize⟩ := Option.map_eq_some_iff.mp hplayed
  have hrun : Reaches (act false) (placed [makerOrder]) sys := Run.of_play _ hplay
  exact ⟨sys, hrun, hsize, (attemptCross_conserves false makerOrder_placed hrun).1⟩

end LotusRfq.Crossing
