import LotusRfq.Common.Exposure

/-!
# LotusRfq — one match of the internal crossing engine

The match transaction on the maker's row: the maker is read under its row lock, the trade is
inserted unless the two orders have traded before, the maker's remaining size goes down, and
both users' exposures move. Everything is committed together or not at all.

* **`matchMakerOrder_committed`** — what a transaction that commits has done.
-/

namespace LotusRfq.Crossing

inductive InternalOrderStatus where
  | OPEN
  | PARTIAL
  | FILLED
  | CANCELLED
  deriving DecidableEq

/-- A row of `internal_orders`, and the taker's order. -/
structure InternalOrder where
  id : String
  market_id : String
  user_id : String
  side : Side
  price : ℚ
  initial_size : ℚ
  remaining_size : ℚ
  status : InternalOrderStatus
  resolution_profile_id : Option String
  created_at : ℕ
  deriving DecidableEq

structure Trade where
  id : String
  market_id : String
  buy_order_id : String
  sell_order_id : String
  price : ℚ
  size : ℚ
  deriving DecidableEq

structure MatchPayload where
  price : ℚ
  size : ℚ
  maxLossDelta : ℚ
  maxGainDelta : ℚ
  takerOrderId : String
  makerOrderId : String
  side : Side

structure CrossDb where
  orders : List InternalOrder
  trades : List Trade
  exposure : List ExposureRow
  journal : List (JournalRow MatchPayload)

structure MatchResult where
  trade : Trade
  matchSize : ℚ
  newMakerRemaining : ℚ
  newMakerStatus : InternalOrderStatus
  makerOrderId : String

/-- What the transaction tells its caller when it does not throw. -/
inductive MatchEnd where
  | stale
  | duplicate (maker : InternalOrder)
  | matched (result : MatchResult)

def loadMakerForUpdate (db : CrossDb) (makerOrderId : String) : Option InternalOrder :=
  match Tables.select InternalOrder.id makerOrderId db.orders with
  | none => none
  | some maker =>
    if (maker.status ≠ .OPEN ∧ maker.status ≠ .PARTIAL) ∨ maker.remaining_size ≤ 0 then none
    else some maker

def tradeOf (incomingOrder maker : InternalOrder) (matchSize : ℚ) (tradeId : String) : Trade :=
  { id := tradeId
    market_id := incomingOrder.market_id
    buy_order_id := if incomingOrder.side = .buy then incomingOrder.id else maker.id
    sell_order_id := if incomingOrder.side = .sell then incomingOrder.id else maker.id
    price := maker.price
    size := matchSize }

/-- The insert throws when a check of the table or its primary key fails, and does nothing when
the two orders have traded before (`uq_trades_match`). -/
def insertTradeIfNeeded (db : CrossDb) (trade : Trade) : Except String (Option CrossDb) :=
  if trade.price ≤ 0 ∨ trade.size ≤ 0 then .error "trades: check constraint"
  else if ∃ other ∈ db.trades, other.buy_order_id = trade.buy_order_id ∧
      other.sell_order_id = trade.sell_order_id then
    .ok none
  else if ∃ other ∈ db.trades, other.id = trade.id then .error "trades: primary key"
  else .ok (some { db with trades := db.trades ++ [trade] })

def updateMakerState (db : CrossDb) (makerOrderId : String) (remaining : ℚ)
    (status : InternalOrderStatus) : CrossDb :=
  { db with
    orders := Tables.update InternalOrder.id makerOrderId
      (fun order => { order with remaining_size := remaining, status := status }) db.orders }

/-- `atomicUpdateExposure`: one user's side of a trade. -/
def atomicUpdateExposure (db : CrossDb) (userId marketId : String) (side : Side) (trade : Trade)
    (takerOrderId makerOrderId newId : String) : Except String CrossDb := do
  let delta ← calculateExposureDelta side trade.price trade.size
  let (exposure, entry) := applyExposure db.exposure userId marketId side delta.maxLossDelta
    (delta.maxGainDelta - delta.maxLossDelta) newId "internal-match" trade.id
    (⟨trade.price, trade.size, delta.maxLossDelta, delta.maxGainDelta, takerOrderId, makerOrderId,
      side⟩ : MatchPayload)
  return { db with exposure := exposure, journal := db.journal ++ [entry] }

/-- The transaction; `uuid 0` is the trade's id, the others those of new exposure rows. -/
def matchMakerOrder (db : CrossDb) (incomingOrder : InternalOrder) (makerOrderId : String)
    (remainingTakerSize : ℚ) (uuid : ℕ → String) : Tables.Outcome CrossDb MatchEnd :=
  match loadMakerForUpdate db makerOrderId with
  | none => .rolledBack .stale
  | some maker =>
    let matchSize := min remainingTakerSize maker.remaining_size
    let trade := tradeOf incomingOrder maker matchSize (uuid 0)
    match insertTradeIfNeeded db trade with
    | .error error => .aborted error
    | .ok none => .rolledBack (.duplicate maker)
    | .ok (some db) =>
      let newMakerRemaining := maker.remaining_size - matchSize
      let newMakerStatus := if newMakerRemaining = 0 then .FILLED else .PARTIAL
      let db := updateMakerState db maker.id newMakerRemaining newMakerStatus
      let booked : Except String CrossDb := do
        let db ← atomicUpdateExposure db incomingOrder.user_id incomingOrder.market_id
          incomingOrder.side trade incomingOrder.id maker.id (uuid 1)
        atomicUpdateExposure db maker.user_id incomingOrder.market_id maker.side trade
          incomingOrder.id maker.id (uuid 2)
      match booked with
      | .error error => .aborted error
      | .ok db => .committed db (.matched
          ⟨trade, matchSize, newMakerRemaining, newMakerStatus, maker.id⟩)

/-! ## What a commit has done -/

variable {db : CrossDb} {makerOrderId : String} {db' : CrossDb}

theorem loadMakerForUpdate_some {maker : InternalOrder}
    (h : loadMakerForUpdate db makerOrderId = some maker) :
    maker ∈ db.orders ∧ maker.id = makerOrderId ∧ 0 < maker.remaining_size ∧
      (maker.status = .OPEN ∨ maker.status = .PARTIAL) := by
  unfold loadMakerForUpdate at h
  split at h
  next => cases h
  next hselect =>
    split at h
    next => cases h
    next hopen =>
      cases h
      obtain ⟨hmem, hid⟩ := Tables.mem_of_select hselect
      push Not at hopen
      refine ⟨hmem, hid, hopen.2, ?_⟩
      by_cases hstatus : maker.status = .OPEN
      · exact .inl hstatus
      · exact .inr (hopen.1 hstatus)

theorem insertTradeIfNeeded_some {trade : Trade}
    (h : insertTradeIfNeeded db trade = .ok (some db')) :
    0 < trade.size ∧ (∀ other ∈ db.trades, other.id ≠ trade.id) ∧
      db' = { db with trades := db.trades ++ [trade] } := by
  unfold insertTradeIfNeeded at h
  split at h
  next => cases h
  next hchecks =>
    split at h
    next => cases h
    next =>
      split at h
      next => cases h
      next hkey =>
        cases h
        push Not at hchecks hkey
        exact ⟨hchecks.2, hkey, rfl⟩

theorem updateMakerState_ids (db : CrossDb) (makerOrderId : String) (remaining : ℚ)
    (status : InternalOrderStatus) :
    (updateMakerState db makerOrderId remaining status).orders.map InternalOrder.id =
      db.orders.map InternalOrder.id := by
  refine Tables.keys_update makerOrderId ?_ db.orders
  exact fun _ => rfl

structure IsEntry (trade : Trade) (takerOrderId makerOrderId : String) (side : Side)
    (delta : ExposureDelta) (entry : JournalRow MatchPayload) : Prop where
  delta_eq : calculateExposureDelta side trade.price trade.size = .ok delta
  reference_id : entry.reference_id = trade.id
  change : entry.change = delta.maxGainDelta - delta.maxLossDelta
  payload : entry.payload = ⟨trade.price, trade.size, delta.maxLossDelta, delta.maxGainDelta,
    takerOrderId, makerOrderId, side⟩

theorem atomicUpdateExposure_ok {userId marketId : String} {side : Side} {trade : Trade}
    {takerOrderId newId : String}
    (h : atomicUpdateExposure db userId marketId side trade takerOrderId makerOrderId newId = .ok
      db') :
    db'.orders = db.orders ∧ db'.trades = db.trades ∧ ∃ delta entry,
      IsEntry trade takerOrderId makerOrderId side delta entry ∧
        db'.journal = db.journal ++ [entry] := by
  unfold atomicUpdateExposure at h
  cases hdelta : calculateExposureDelta side trade.price trade.size with
  | error error => simp [hdelta, bind, Except.bind] at h
  | ok delta =>
    simp only [hdelta, bind, Except.bind, pure, Except.pure, Except.ok.injEq] at h
    subst h
    exact ⟨rfl, rfl, delta, _, ⟨hdelta, by simp, by simp, by simp⟩, rfl⟩

/-- **A committed match.** The maker was open with something left; one trade at its price for the
smaller of the two sizes is new, the maker is down by as much and filled exactly when nothing is
left, and the journal has one row for each side. -/
theorem matchMakerOrder_committed {incomingOrder : InternalOrder} {remainingTakerSize : ℚ}
    {uuid : ℕ → String} {value : MatchEnd}
    (h : matchMakerOrder db incomingOrder makerOrderId remainingTakerSize uuid = .committed db'
      value) :
    ∃ maker ∈ db.orders, maker.id = makerOrderId ∧ 0 < maker.remaining_size ∧
      ∃ trade, trade = tradeOf incomingOrder maker (min remainingTakerSize maker.remaining_size)
          (uuid 0) ∧
      0 < trade.size ∧ (∀ other ∈ db.trades, other.id ≠ trade.id) ∧
      value = .matched ⟨trade, trade.size, maker.remaining_size - trade.size,
        if maker.remaining_size - trade.size = 0 then .FILLED else .PARTIAL, maker.id⟩ ∧
      db'.orders = (updateMakerState db maker.id (maker.remaining_size - trade.size)
        (if maker.remaining_size - trade.size = 0 then .FILLED else .PARTIAL)).orders ∧
      db'.trades = db.trades ++ [trade] ∧
      ∃ takerDelta takerEntry makerDelta makerEntry,
        IsEntry trade incomingOrder.id maker.id incomingOrder.side takerDelta takerEntry ∧
        IsEntry trade incomingOrder.id maker.id maker.side makerDelta makerEntry ∧
        db'.journal = db.journal ++ [takerEntry, makerEntry] := by
  unfold matchMakerOrder at h
  split at h
  next => cases h
  next maker hload =>
    obtain ⟨hmem, hid, hopen, -⟩ := loadMakerForUpdate_some hload
    simp only at h
    split at h
    next => cases h
    next => cases h
    next db₁ hinsert =>
      obtain ⟨hsize, hkey, rfl⟩ := insertTradeIfNeeded_some hinsert
      split at h
      next => cases h
      next db₄ hbooked =>
        cases h
        obtain ⟨db₃, htaker, hmaker⟩ := Tables.bind_eq_ok.mp hbooked
        obtain ⟨horders₃, htrades₃, takerDelta, takerEntry, htakerEntry, hjournal₃⟩ :=
          atomicUpdateExposure_ok htaker
        obtain ⟨horders₄, htrades₄, makerDelta, makerEntry, hmakerEntry, hjournal₄⟩ :=
          atomicUpdateExposure_ok hmaker
        refine ⟨maker, hmem, hid, hopen, _, rfl, hsize, hkey, rfl, horders₄.trans horders₃,
          htrades₄.trans htrades₃, takerDelta, takerEntry, makerDelta, makerEntry, htakerEntry,
          hmakerEntry, ?_⟩
        rw [hjournal₄, hjournal₃]
        simp [updateMakerState]

end LotusRfq.Crossing
