import LotusRfq.Crossing.BookReads

/-!
# LotusRfq — the order book filed anew from the table

`InternalCrossBookRebuilder` takes the record of every open order out of the book, with the member
that the record names, and files the order again. It looks at no other member: what an order that
is closed has left behind stays, and is given out as long as its record is there.

* **`mem_rebuilt`** — what the index holds afterwards;
* **`rebuild_restores_iff`** — when the reads give the open orders and no others.
-/

namespace LotusRfq.Crossing

open LotusRfq.Js List OrderBook

/-! ## The source -/

structure RebuildInternalCrossBookOptions where
  dryRun : Bool
  marketIds : List String

structure RebuildInternalCrossBookResult where
  dryRun : Bool
  markets : List String
  postgresOpenOrders : ℕ
  rebuiltOrders : ℕ
  missingRedisOrders : List String
  staleRedisOrderIds : List String

def isAuthoritative (marketIds : List String) (order : InternalOrder) : Bool :=
  (order.status = .OPEN ∨ order.status = .PARTIAL) ∧ 0 < order.remaining_size ∧
    (marketIds = [] ∨ order.market_id ∈ marketIds)

/-- `ORDER BY market_id, side, price, created_at`. -/
def compareRows (left right : InternalOrder) : Ordering :=
  (compare left.market_id right.market_id).then
    ((compare (decide (left.side = .sell)) (decide (right.side = .sell))).then
      ((compare left.price right.price).then (compare left.created_at right.created_at)))

def loadAuthoritativeOrders (orders : List InternalOrder) (marketIds : List String) :
    List InternalOrder :=
  sortWith compareRows (orders.filter (isAuthoritative marketIds))

def matchesAuthoritativeOrder (snapshot : RedisBookOrder) (order : InternalOrder) : Bool :=
  snapshot.orderId = order.id ∧ snapshot.marketId = order.market_id ∧
    snapshot.side = order.side ∧ snapshot.userId = order.user_id ∧
    snapshot.price = order.price ∧ snapshot.remaining = order.remaining_size

def isStaleSnapshot (book : OrderBook) (order : InternalOrder) : Bool :=
  match book.records order.id with
  | some (.order snapshot) => !matchesAuthoritativeOrder snapshot order
  | _ => true

def toInternalOrder (order : InternalOrder) : InternalOrder :=
  { order with resolution_profile_id := none }

def filedAs (order : InternalOrder) : RedisBookOrder := toBookOrder (toInternalOrder order)

/-- `removeOrder(order.id).catch(() => undefined)`, then `addOrder`. -/
def refile (book : OrderBook) (order : InternalOrder) : OrderBook :=
  let removed := match book.removeOrder order.id with
    | .ok (book, _) => book
    | .error _ => book
  removed.addOrder (toInternalOrder order)

def rebuild (options : RebuildInternalCrossBookOptions) (orders : List InternalOrder)
    (book : OrderBook) : OrderBook × RebuildInternalCrossBookResult :=
  let authoritativeOrders := loadAuthoritativeOrders orders options.marketIds
  (if options.dryRun then book else authoritativeOrders.foldl refile book,
    { dryRun := options.dryRun
      markets := (authoritativeOrders.map (·.market_id)).eraseDups
      postgresOpenOrders := authoritativeOrders.length
      rebuiltOrders := if options.dryRun then 0 else authoritativeOrders.length
      -- `getOrderSnapshot` answers with an object even where there is no record
      missingRedisOrders := []
      staleRedisOrderIds := (authoritativeOrders.filter (isStaleSnapshot book)).map (·.id) })

/-! ## What the reads should give -/

/-- The open orders of a side of a market as they are filed, in the order of their positions. -/
structure OpenOrders (orders : List InternalOrder) (marketId : String) (side : Side)
    (result : List RedisBookOrder) : Prop where
  sorted : result.Pairwise fun left right =>
    compareMembers (positionOf left) (positionOf right) = .lt
  exactly : ∀ entry, entry ∈ result ↔ ∃ order ∈ loadAuthoritativeOrders orders [],
    order.market_id = marketId ∧ order.side = side ∧ entry = filedAs order

/-- Every read with no limit gives the open orders. -/
def Restored (orders : List InternalOrder) (book : OrderBook) : Prop :=
  ∀ marketId takerSide priceLimit limit,
    (∀ entry ∈ book.index marketId takerSide.opposite,
      entry.1 ≤ scoreFor takerSide.opposite priceLimit) →
    (book.index marketId takerSide.opposite).length ≤ limit →
    ∃ book' result, book.getBestOppositeOrders marketId takerSide priceLimit limit =
      .ok (book', result) ∧ OpenOrders orders marketId takerSide.opposite result

/-! ## When the book is restored -/

def placeOf (order : InternalOrder) : String × Side × BookMember :=
  (order.market_id, order.side, memberFor order.created_at order.id)

def OrderBook.recordedAt (book : OrderBook) (orderId : String) :
    Option (String × Side × BookMember) :=
  match book.records orderId with
  | some (.order entry) => some (entry.marketId, entry.side, entry.member)
  | _ => none

/-- A place that is not an open order's, and that no record of an open order names. -/
def Untouched (rows : List InternalOrder) (book : OrderBook)
    (place : String × Side × BookMember) : Prop :=
  ∀ row ∈ rows, place ≠ placeOf row ∧ book.recordedAt row.id ≠ some place

/-- Nothing is read for a member: it names no order, or one that is not open and has no record of
the right shape. -/
def NothingAt (rows : List InternalOrder) (book : OrderBook) (member : BookMember) : Prop :=
  member.orderId = "" ∨ (∀ row ∈ rows, row.id ≠ member.orderId) ∧
    (book.records member.orderId = none ∨ book.records member.orderId = some .malformed)

/-- Nothing is read for the members that stay beside the open orders, and no order is taken out
again for the record of a later one. -/
structure Rebuildable (rows : List InternalOrder) (book : OrderBook) : Prop where
  leftover : ∀ marketId side, ∀ entry ∈ book.index marketId side,
    Untouched rows book (marketId, side, entry.2) → NothingAt rows book entry.2
  kept : rows.Pairwise fun earlier later => book.recordedAt later.id ≠ some (placeOf earlier)

/-- Every record is kept under its own order's id, and names a member of that order. -/
def OwnRecords (book : OrderBook) : Prop :=
  ∀ orderId entry, book.records orderId = some (.order entry) →
    entry.orderId = orderId ∧ entry.member.orderId = orderId

/-! ## One order filed again -/

section Refile

variable {book : OrderBook} {row : InternalOrder} {rows : List InternalOrder} {marketId : String}
  {side : Side} {entry : ℚ × BookMember}

theorem refile_records (book : OrderBook) (row : InternalOrder) (orderId : String) :
    (refile book row).records orderId =
      if orderId = row.id then some (.order (filedAs row))
      else book.records orderId := by
  unfold refile OrderBook.removeOrder OrderBook.getOrderById
  by_cases heq : orderId = row.id
  · rw [if_pos heq]
    exact if_pos heq
  · rw [if_neg heq]
    cases hrecord : book.records row.id with
    | none => exact if_neg heq
    | some record =>
      cases record with
      | unparsable => exact if_neg heq
      | malformed => exact (if_neg heq).trans (if_neg heq)
      | order found => exact (if_neg heq).trans (if_neg heq)

theorem mem_refile : entry ∈ (refile book row).index marketId side ↔
    if (marketId, side, entry.2) = placeOf row then entry.1 = scoreFor row.side row.price
    else entry ∈ book.index marketId side ∧
      book.recordedAt row.id ≠ some (marketId, side, entry.2) := by
  have hadd (removed : OrderBook) :
      entry ∈ (removed.addOrder (toInternalOrder row)).index marketId side ↔
        if (marketId, side, entry.2) = placeOf row then entry.1 = scoreFor row.side row.price
        else entry ∈ removed.index marketId side := by
    refine mem_zadd.trans ?_
    simp only [placeOf, Prod.ext_iff, toBookOrder, toInternalOrder]
    grind
  unfold refile OrderBook.removeOrder OrderBook.getOrderById OrderBook.recordedAt
  cases hrecord : book.records row.id with
  | none => exact (hadd book).trans (by simp)
  | some record =>
    cases record with
    | unparsable => exact (hadd book).trans (by simp)
    | malformed => exact (hadd (book.setRecord row.id none)).trans (by simp [setRecord])
    | order found =>
      refine (hadd _).trans ?_
      split
      · rfl
      · refine mem_zrem.trans (and_congr_right fun _ => not_congr ?_)
        simp only [Option.some.injEq, Prod.mk.injEq, eq_comm]

/-! ## All of them -/

theorem recordedAt_refile {orderId : String} (h : orderId ≠ row.id) :
    (refile book row).recordedAt orderId = book.recordedAt orderId := by
  rw [OrderBook.recordedAt, refile_records, if_neg h]
  rfl

theorem records_rebuilt (hids : rows.Pairwise fun left right => left.id ≠ right.id)
    (orderId : String) :
    (∀ row ∈ rows, row.id = orderId → (rows.foldl refile book).records orderId =
      some (.order (filedAs row))) ∧
    ((∀ row ∈ rows, row.id ≠ orderId) →
      (rows.foldl refile book).records orderId = book.records orderId) := by
  induction rows generalizing book with
  | nil => exact ⟨nofun, fun _ => rfl⟩
  | cons first rest ih =>
    obtain ⟨hfirst, hrest⟩ := pairwise_cons.mp hids
    obtain ⟨hown, hother⟩ := @ih (refile book first) hrest
    rw [refile_records] at hother
    refine ⟨fun row hrow hid => ?_, fun hnone => ?_⟩
    · rcases mem_cons.mp hrow with rfl | hmem
      · rw [if_pos hid.symm] at hother
        exact hother fun later hlater heq => hfirst later hlater (hid.trans heq.symm)
      · exact hown row hmem hid
    · obtain ⟨hne, hnone⟩ := forall_mem_cons.mp hnone
      rw [foldl_cons, hother hnone, if_neg hne.symm]

/-- **The index after a rebuild**: the open orders, and the members that were left alone. -/
theorem mem_rebuilt (hids : rows.Pairwise fun left right => left.id ≠ right.id)
    (hkept : rows.Pairwise fun earlier later => book.recordedAt later.id ≠ some (placeOf earlier)) :
    entry ∈ (rows.foldl refile book).index marketId side ↔
      (∃ row ∈ rows, (marketId, side, entry.2) = placeOf row ∧
        entry.1 = scoreFor row.side row.price) ∨
      entry ∈ book.index marketId side ∧ Untouched rows book (marketId, side, entry.2) := by
  induction rows generalizing book with
  | nil => simp [Untouched]
  | cons first rest ih =>
    obtain ⟨hfirst, hrest⟩ := pairwise_cons.mp hids
    obtain ⟨hfirstKept, hrestKept⟩ := pairwise_cons.mp hkept
    have hrecorded : ∀ row ∈ rest, (refile book first).recordedAt row.id =
        book.recordedAt row.id := fun row hrow => recordedAt_refile (hfirst row hrow).symm
    have huntouched : Untouched rest (refile book first) (marketId, side, entry.2) ↔
        Untouched rest book (marketId, side, entry.2) :=
      forall₂_congr fun row hrow => by rw [hrecorded row hrow]
    have hagain : rest.Pairwise fun earlier later =>
        (refile book first).recordedAt later.id ≠ some (placeOf earlier) :=
      hrestKept.imp_of_mem fun {earlier later} _ hlater h => by rwa [hrecorded later hlater]
    rw [foldl_cons, ih hrest hagain, huntouched, mem_refile]
    by_cases hplace : (marketId, side, entry.2) = placeOf first
    · -- no later order has this place, or a record that names it
      have hlater : ∀ row ∈ rest, (marketId, side, entry.2) ≠ placeOf row := by
        intro row hrow heq
        exact hfirst row hrow (congrArg (fun place => place.2.2.orderId) (hplace.symm.trans heq))
      have hrestUntouched : Untouched rest book (marketId, side, entry.2) := fun row hrow =>
        ⟨hlater row hrow, hplace ▸ hfirstKept row hrow⟩
      simp only [if_pos hplace, hrestUntouched, and_true]
      constructor
      · rintro (⟨row, hrow, heq, -⟩ | hscore)
        · exact absurd heq (hlater row hrow)
        · exact .inl ⟨first, mem_cons_self, hplace, hscore⟩
      · rintro (⟨row, hrow, heq, hscore⟩ | ⟨-, hall⟩)
        · rcases mem_cons.mp hrow with rfl | hmem
          · exact .inr hscore
          · exact absurd heq (hlater row hmem)
        · exact absurd hplace (hall first mem_cons_self).1
    · simp [hplace, Untouched, and_assoc]

theorem nodup_rebuilt (h : ∀ market s, ((book.index market s).map Prod.snd).Nodup)
    (market : String) (s : Side) :
    (((rows.foldl refile book).index market s).map Prod.snd).Nodup := by
  induction rows generalizing book with
  | nil => exact h market s
  | cons first rest ih =>
    refine ih fun market s => nodup_zadd (fun market s => ?_) market s
    unfold OrderBook.removeOrder OrderBook.getOrderById
    cases hrecord : book.records first.id with
    | none => exact h market s
    | some record =>
      cases record with
      | order found => exact nodup_zrem h market s
      | malformed => exact h market s
      | unparsable => exact h market s

end Refile

/-! ## A read of any book -/

section Read

variable {book : OrderBook} {orders : List InternalOrder} {marketId : String} {side : Side}

def OrderBook.readable (book : OrderBook) (member : BookMember) : Bool :=
  member.orderId = "" ∨ book.records member.orderId ≠ some .unparsable

theorem readMembers_all (book : OrderBook) (members : List BookMember) :
    (readMembers marketId side book members).map Prod.snd =
      if members.all book.readable then .ok (members.filterMap book.entryAt)
      else .error "SyntaxError" := by
  induction members generalizing book with
  | nil => rfl
  | cons member rest ih =>
    rw [readMembers, filterMap_cons, all_cons, OrderBook.entryAt, OrderBook.readable]
    by_cases hempty : member.orderId = ""
    · simpa [extractOrderId, hempty] using ih book
    · simp only [extractOrderId, hempty, if_false, OrderBook.getOrderById]
      cases hrecord : book.records member.orderId with
      | none => exact (ih (book.zrem marketId side member)).trans (by simp; rfl)
      | some record =>
        cases record with
        | unparsable => simp [Except.map, bind, Except.bind]
        | malformed =>
          -- the record that goes has said no more than none
          have hsame : (book.setRecord member.orderId none).entryAt = book.entryAt ∧
              (book.setRecord member.orderId none).readable = book.readable := by
            constructor <;> funext other
            · simp only [OrderBook.entryAt, OrderBook.setRecord]
              grind
            · simp only [OrderBook.readable, OrderBook.setRecord]
              grind
          refine (ih ((book.setRecord member.orderId none).zrem marketId side member)).trans ?_
          show (if rest.all (book.setRecord member.orderId none).readable then
            Except.ok (rest.filterMap (book.setRecord member.orderId none).entryAt) else _) = _
          rw [hsame.1, hsame.2]
          simp
        | order found =>
          have hrest := ih book
          simp only [bind, Except.bind]
          cases hread : readMembers marketId side book rest <;>
            by_cases hall : rest.all book.readable = true <;>
              simp_all [Except.map, pure, Except.pure]

def OrderBook.readAll (book : OrderBook) (marketId : String) (side : Side) : List RedisBookOrder :=
  ((sortWith compareMembers (book.index marketId side)).map Prod.snd).filterMap book.entryAt

theorem restored_iff : Restored orders book ↔ ∀ marketId side,
      (∀ entry ∈ book.index marketId side, book.readable entry.2 = true) ∧
        OpenOrders orders marketId side (book.readAll marketId side) := by
  -- a read with no limit goes through the whole index
  have hread : ∀ marketId takerSide priceLimit limit,
      (∀ entry ∈ book.index marketId takerSide.opposite,
        entry.1 ≤ scoreFor takerSide.opposite priceLimit) →
      (book.index marketId takerSide.opposite).length ≤ limit →
      (book.getBestOppositeOrders marketId takerSide priceLimit limit).map Prod.snd =
        if ((sortWith compareMembers (book.index marketId takerSide.opposite)).map
          Prod.snd).all book.readable then .ok (book.readAll marketId takerSide.opposite)
        else .error "SyntaxError" := by
    intro marketId takerSide priceLimit limit hbound hlimit
    have hall : (book.index marketId takerSide.opposite).filter
        (·.1 ≤ scoreFor takerSide.opposite priceLimit) = book.index marketId takerSide.opposite :=
      filter_eq_self.mpr fun entry hentry => decide_eq_true (hbound entry hentry)
    rw [OrderBook.getBestOppositeOrders, readMembers_all, OrderBook.zrangebyscore, hall,
      take_of_length_le (by rwa [(sortWith_perm _ _).length_eq])]
    rfl
  have hreadable : ∀ marketId side,
      ((sortWith compareMembers (book.index marketId side)).map Prod.snd).all book.readable = true ↔
        ∀ entry ∈ book.index marketId side, book.readable entry.2 = true := by
    intro marketId side
    simp
  constructor
  · intro hrestored marketId side
    obtain ⟨max, hmax⟩ := exists_bound (book.index marketId side)
    rw [← opposite_opposite side] at hmax ⊢
    have hbound : ∀ entry ∈ book.index marketId side.opposite.opposite,
        entry.1 ≤ scoreFor side.opposite.opposite (scoreFor side.opposite.opposite max) :=
      fun entry hentry => (scoreFor_scoreFor _ max).symm ▸ hmax entry hentry
    obtain ⟨book', result, hok, hopen⟩ := hrestored marketId side.opposite _ _ hbound le_rfl
    have heq := hread marketId side.opposite _ _ hbound le_rfl
    rw [hok] at heq
    split at heq
    next hall =>
      cases heq
      exact ⟨(hreadable _ _).mp hall, hopen⟩
    next => cases heq
  · intro h marketId takerSide priceLimit limit hbound hlimit
    obtain ⟨hall, hopen⟩ := h marketId takerSide.opposite
    have heq := hread marketId takerSide priceLimit limit hbound hlimit
    rw [if_pos ((hreadable _ _).mpr hall)] at heq
    obtain ⟨⟨book', result⟩, hok, rfl⟩ := Tables.map_eq_ok.mp heq
    exact ⟨book', _, hok, hopen⟩

end Read

/-! ## The book after a rebuild -/

section Rebuilt

variable {book : OrderBook} {orders rows : List InternalOrder} {marketId : String} {side : Side}
  (hids : rows.Pairwise fun left right => left.id ≠ right.id) (hnamed : ∀ row ∈ rows, row.id ≠ "")

include hids hnamed

theorem entryAt_own {row : InternalOrder} (hrow : row ∈ rows) {entry : ℚ × BookMember}
    (hplace : (marketId, side, entry.2) = placeOf row)
    (hscore : entry.1 = scoreFor row.side row.price) :
    (rows.foldl refile book).readable entry.2 = true ∧
      (rows.foldl refile book).entryAt entry.2 = some (filedAs row) ∧
      positionOf (filedAs row) = entry := by
  have hmember : entry.2 = memberFor row.created_at row.id := congrArg (·.2.2) hplace
  have hrecord : (rows.foldl refile book).records entry.2.orderId = some (.order (filedAs row)) :=
    (records_rebuilt hids entry.2.orderId).1 row hrow (by rw [hmember]; rfl)
  have hsome : entry.2.orderId ≠ "" := hmember ▸ hnamed row hrow
  refine ⟨?_, ?_, Prod.ext hscore.symm hmember.symm⟩
  · simp [OrderBook.readable, hrecord]
  · rw [OrderBook.entryAt, if_neg hsome, hrecord]

theorem entryAt_rebuilt (h : Rebuildable rows book) {entry : ℚ × BookMember}
    (hentry : entry ∈ (rows.foldl refile book).index marketId side) :
    (rows.foldl refile book).readable entry.2 = true ∧
      ∀ order, (rows.foldl refile book).entryAt entry.2 = some order →
        positionOf order = entry ∧ ∃ row ∈ rows, row.market_id = marketId ∧ row.side = side ∧
          order = filedAs row := by
  rcases (mem_rebuilt hids h.kept).mp hentry with ⟨row, hrow, hplace, hscore⟩ | ⟨hold, huntouched⟩
  · obtain ⟨hreadable, hat, hposition⟩ := @entryAt_own book rows marketId side hids hnamed row hrow
      entry hplace hscore
    refine ⟨hreadable, fun order horder => ?_⟩
    cases hat.symm.trans horder
    exact ⟨hposition, row, hrow, congrArg (·.1) hplace.symm, congrArg (·.2.1) hplace.symm, rfl⟩
  · rcases h.leftover marketId side entry hold huntouched with hempty | ⟨hnone, hrecord⟩
    · simp [OrderBook.readable, OrderBook.entryAt, hempty]
    · rw [← (records_rebuilt hids entry.2.orderId).2 hnone] at hrecord
      rcases hrecord with hrecord | hrecord <;>
        simp [OrderBook.readable, OrderBook.entryAt, hrecord]

/-- **A rebuild restores the book** where nothing else is left to read. -/
theorem restored_of_rebuildable (h : Rebuildable (loadAuthoritativeOrders orders []) book)
    (hrows : rows = loadAuthoritativeOrders orders [])
    (hindex : ∀ market s, ((book.index market s).map Prod.snd).Nodup) :
    Restored orders (rows.foldl refile book) := by
  rw [← hrows] at h
  refine restored_iff.mpr fun marketId side => ⟨fun entry hentry =>
    (entryAt_rebuilt hids hnamed h hentry).1, ?_, fun order => ?_⟩
  · have hsorted := sortWith_lt (@nodup_rebuilt book rows hindex marketId side).of_map
    rw [OrderBook.readAll, pairwise_filterMap, pairwise_map]
    refine hsorted.imp_of_mem fun {left right} hleft hright hlt => ?_
    intro order horder other hother
    rw [((entryAt_rebuilt hids hnamed h (mem_sortWith.mp hleft)).2 order horder).1,
      ((entryAt_rebuilt hids hnamed h (mem_sortWith.mp hright)).2 other hother).1]
    exact hlt
  · rw [← hrows, OrderBook.readAll, mem_filterMap]
    constructor
    · rintro ⟨member, hmember, horder⟩
      obtain ⟨entry, hentry, rfl⟩ := mem_map.mp hmember
      exact ((entryAt_rebuilt hids hnamed h (mem_sortWith.mp hentry)).2 order horder).2
    · rintro ⟨row, hrow, rfl, rfl, rfl⟩
      let entry : ℚ × BookMember := (scoreFor row.side row.price, memberFor row.created_at row.id)
      have hentry : entry ∈ (rows.foldl refile book).index row.market_id row.side :=
        (mem_rebuilt hids h.kept).mpr (.inl ⟨row, hrow, rfl, rfl⟩)
      exact ⟨entry.2, mem_map_of_mem (mem_sortWith.mpr hentry),
        (@entryAt_own book rows _ _ hids hnamed row hrow entry rfl rfl).2.1⟩

theorem rebuildable_of_restored (hown : OwnRecords book)
    (hrows : rows = loadAuthoritativeOrders orders [])
    (h : Restored orders (rows.foldl refile book)) : Rebuildable rows book := by
  have hkept : rows.Pairwise fun earlier later =>
      book.recordedAt later.id ≠ some (placeOf earlier) := by
    refine hids.imp fun {earlier later} hne heq => ?_
    unfold OrderBook.recordedAt at heq
    split at heq
    next found hrecord =>
      have hmember : found.member.orderId = earlier.id :=
        congrArg (·.2.2.orderId) (Option.some.inj heq)
      exact hne (hmember.symm.trans (hown later.id found hrecord).2)
    next => cases heq
  refine ⟨fun marketId side entry hentry huntouched => or_iff_not_imp_left.mpr fun hsome => ?_, hkept⟩
  obtain ⟨hreadable, hopen⟩ := restored_iff.mp h marketId side
  have hstays := (mem_rebuilt hids hkept).mpr (.inr ⟨hentry, huntouched⟩)
  -- what is read for the member would be an open order, which is read for its own member already
  have hnothing : (rows.foldl refile book).entryAt entry.2 = none := by
    by_contra hread
    obtain ⟨order, horder⟩ := Option.ne_none_iff_exists'.mp hread
    have hmember := mem_map_of_mem (f := Prod.snd) ((@mem_sortWith _ compareMembers _ _).mpr hstays)
    obtain ⟨row, hrow, rfl, rfl, rfl⟩ :=
      (hopen.exactly order).mp (mem_filterMap.mpr ⟨entry.2, hmember, horder⟩)
    rw [← hrows] at hrow
    let own : ℚ × BookMember := (scoreFor row.side row.price, memberFor row.created_at row.id)
    have hownStays : own ∈ (rows.foldl refile book).index row.market_id row.side :=
      (mem_rebuilt hids hkept).mpr (.inl ⟨row, hrow, rfl, rfl⟩)
    have heq := eq_of_filterMap_nodup (nodup_of_positions hopen.sorted) hmember
      (mem_map_of_mem (mem_sortWith.mpr hownStays)) horder
      (@entryAt_own book rows _ _ hids hnamed row hrow own rfl rfl).2.1
    exact (huntouched row hrow).1 (by rw [heq]; rfl)
  rw [OrderBook.entryAt, if_neg hsome] at hnothing
  have hclosed : ∀ row ∈ rows, row.id ≠ entry.2.orderId := by
    intro row hrow hid
    rw [(records_rebuilt hids entry.2.orderId).1 row hrow hid] at hnothing
    cases hnothing
  have hsame := (@records_rebuilt book rows hids entry.2.orderId).2 hclosed
  have hreadable := hreadable entry hstays
  rw [OrderBook.readable, hsame] at hreadable
  rw [hsame] at hnothing
  refine ⟨hclosed, ?_⟩
  cases hrecord : book.records entry.2.orderId with
  | none => exact .inl rfl
  | some record =>
    cases record with
    | order found => simp [hrecord] at hnothing
    | malformed => exact .inr rfl
    | unparsable => simp [hrecord, hsome] at hreadable

end Rebuilt

/-- **When a rebuild restores the book.** The reads give the open orders and no others if nothing
can be read for the members that stay beside them, and no order is taken out again for the record
of a later one; and only then, if the records are those of their own orders. -/
theorem rebuild_restores_iff (orders : List InternalOrder) (book : OrderBook)
    (hids : (orders.map InternalOrder.id).Nodup) (hnamed : ∀ order ∈ orders, order.id ≠ "")
    (hindex : ∀ market s, ((book.index market s).map Prod.snd).Nodup) :
    (Rebuildable (loadAuthoritativeOrders orders []) book →
      Restored orders (rebuild ⟨false, []⟩ orders book).1) ∧
    (OwnRecords book → Restored orders (rebuild ⟨false, []⟩ orders book).1 →
      Rebuildable (loadAuthoritativeOrders orders []) book) := by
  have hrows : (loadAuthoritativeOrders orders []).Pairwise fun left right =>
      left.id ≠ right.id := by
    have hnodup := ((sortWith_perm compareRows
      (orders.filter (isAuthoritative []))).map InternalOrder.id).nodup_iff.mpr
        ((filter_sublist.map _).nodup hids)
    exact pairwise_map.mp hnodup
  have hnames : ∀ row ∈ loadAuthoritativeOrders orders [], row.id ≠ "" := fun row hrow =>
    hnamed row (mem_of_mem_filter (mem_sortWith.mp hrow))
  exact ⟨fun h => restored_of_rebuildable hrows hnames h rfl hindex,
    fun hown h => rebuildable_of_restored hrows hnames hown rfl h⟩

/-! ## An order that was filled -/

/-- Its record and its member are still there. -/
def filledOrder : InternalOrder := { makerOrder with remaining_size := 0, status := .FILLED }

theorem makerOrder_restored :
    Restored [makerOrder] (rebuild ⟨false, []⟩ [makerOrder] emptyBook).1 :=
  (rebuild_restores_iff [makerOrder] emptyBook (by decide) (by decide)
    fun _ _ => nodup_nil).1 ⟨nofun, by decide⟩

theorem filledOrder_still_read :
    ¬ ∀ orders book, (orders.map InternalOrder.id).Nodup → (∀ order ∈ orders, order.id ≠ "") →
      (∀ market s, ((book.index market s).map Prod.snd).Nodup) →
      Restored orders (rebuild ⟨false, []⟩ orders book).1 := by
  intro h
  have hrestored := h [filledOrder] (emptyBook.addOrder makerOrder) (by decide) (by decide)
    (nodup_zadd fun _ _ => nodup_nil)
  obtain ⟨book', result, hread, hopen⟩ := hrestored "market" .buy 1 1 (by decide +kernel)
    (by decide +kernel)
  have hgiven : ((rebuild ⟨false, []⟩ [filledOrder] (emptyBook.addOrder makerOrder)).1
      |>.getBestOppositeOrders "market" .buy 1 1).toOption.map Prod.snd =
        some [toBookOrder makerOrder] := by decide +kernel
  rw [hread] at hgiven
  have hresult : result = [toBookOrder makerOrder] := Option.some.inj hgiven
  have hmem := (hopen.exactly (toBookOrder makerOrder)).mp (hresult ▸ mem_singleton_self _)
  exact absurd hmem (by decide +kernel)

end LotusRfq.Crossing
