import LotusRfq.Lib.Deltas
import LotusRfq.MarketData.OrderbookStream

/-!
# LotusRfq — a book that is kept from the stream

A consumer of a subscription keeps a book: a full message replaces it, a delta sets levels and
deletes the ones of size zero. What it reads is the book with the best prices first.

* **`applyAll_encoded`** — the deltas lead from the published levels to the next ones;
* **`holds_iff_bestFirst`** — the book that was published is the best five, in order, exactly when the
  first five levels of the snapshot are;
* **`orderbookStream_reconstructs_iff`** — so along any deliveries.
-/

namespace LotusRfq.MarketData

open Js Deltas List

variable {δ : Type} {env : StreamEnv δ}

/-! ## The consumer -/

structure ConsumerBook where
  bids : List NormalizedQuoteLevel
  asks : List NormalizedQuoteLevel

/-- A level of size zero is deleted, any other is set. -/
def levelChange (level : NormalizedQuoteLevel) : Change NormalizedQuoteLevel String :=
  if numberOfText level.size = some 0 then .drop level.price else .put level

def applyDeltas (side deltas : List NormalizedQuoteLevel) : List NormalizedQuoteLevel :=
  applyAll (·.price) side (deltas.map levelChange)

def consume (book : ConsumerBook) : UpdateLevels → ConsumerBook
  | .snapshot bids asks => ⟨bids, asks⟩
  | .delta bidDeltas askDeltas => ⟨applyDeltas book.bids bidDeltas, applyDeltas book.asks askDeltas⟩

def levelPrice (level : NormalizedQuoteLevel) : ℚ := (numberOfText level.price).getD 0

/-- Bids, the highest price first. -/
def bidsFirst (left right : NormalizedQuoteLevel) : Ordering :=
  compare (levelPrice right) (levelPrice left)

/-- Asks, the lowest price first. -/
def asksFirst (left right : NormalizedQuoteLevel) : Ordering :=
  compare (levelPrice left) (levelPrice right)

def topFive (first : NormalizedQuoteLevel → NormalizedQuoteLevel → Ordering)
    (levels : List NormalizedQuoteLevel) : List NormalizedQuoteLevel :=
  (sortWith first levels).take 5

def recomputedChecksum (env : StreamEnv δ) (message : MarketOrderbookUpdate δ)
    (book : ConsumerBook) : δ :=
  let bids := sortWith bidsFirst book.bids
  let asks := sortWith asksFirst book.asks
  calculateOrderbookStreamChecksum env ⟨message.canonicalMarketId, message.canonicalOutcomeId,
    message.venue, bids.head?.map (·.price), asks.head?.map (·.price), bids, asks,
    message.blockers⟩

/-- The book is the top five of the snapshot, and its checksum the message's. -/
structure Holds (env : StreamEnv δ) (snapshot : NormalizedVenueQuoteSnapshot)
    (message : MarketOrderbookUpdate δ) (book : ConsumerBook) : Prop where
  bids : sortWith bidsFirst book.bids = topFive bidsFirst snapshot.bids
  asks : sortWith asksFirst book.asks = topFive asksFirst snapshot.asks
  checksum : recomputedChecksum env message book = message.checksum

def messagesFrom (env : StreamEnv δ) (key : String) (state : OrderbookStreamState)
    (deliveries : List Delivery) : List (Delivery × MarketOrderbookUpdate δ) :=
  (deliveries.zip (publishedFrom env state deliveries)).filter fun (delivery, _) =>
    subscriptionKey delivery.target = key

def Reconstructs (env : StreamEnv δ) :
    ConsumerBook → List (Delivery × MarketOrderbookUpdate δ) → Prop
  | _, [] => True
  | book, (delivery, message) :: rest =>
    Holds env delivery.snapshot message (consume book message.levels) ∧
      Reconstructs env (consume book message.levels) rest

/-! ## Sides -/

/-- Prices are numbers and no two are the same, and sizes are positive. -/
structure WellFormed (levels : List NormalizedQuoteLevel) : Prop where
  prices : ∀ level ∈ levels, (numberOfText level.price).isSome
  sizes : ∀ level ∈ levels, ∃ size, numberOfText level.size = some size ∧ 0 < size
  distinct : (levels.map levelPrice).Nodup

variable {levels : List NormalizedQuoteLevel} {level : NormalizedQuoteLevel}
  {previous current : List NormalizedQuoteLevel}

theorem WellFormed.sublist {part : List NormalizedQuoteLevel} (h : WellFormed levels)
    (hpart : part.Sublist levels) : WellFormed part :=
  ⟨fun level hmem => h.prices level (hpart.subset hmem),
    fun level hmem => h.sizes level (hpart.subset hmem), h.distinct.sublist (hpart.map levelPrice)⟩

theorem WellFormed.texts (h : WellFormed levels) : (levels.map (·.price)).Nodup := by
  have hprices : levels.map levelPrice =
      (levels.map (·.price)).map fun price => (numberOfText price).getD 0 := by
    rw [map_map]
    rfl
  have hdistinct := h.distinct
  rw [hprices] at hdistinct
  exact hdistinct.of_map

theorem levelAt_eq_some (hlevels : (levels.map (·.price)).Nodup) {price : String} :
    levelAt levels price = some level ↔ level ∈ levels ∧ level.price = price := by
  unfold levelAt
  constructor
  · intro h
    refine ⟨mem_reverse.mp (mem_of_find?_eq_some h), ?_⟩
    simpa using find?_some h
  · rintro ⟨hmem, rfl⟩
    cases hfind : levels.reverse.find? fun other => other.price = level.price with
    | none =>
      have hnone := find?_eq_none.mp hfind level (mem_reverse.mpr hmem)
      exact absurd (decide_eq_true rfl) hnone
    | some other =>
      have hother := mem_reverse.mp (mem_of_find?_eq_some hfind)
      have hprice : other.price = level.price := by simpa using find?_some hfind
      rw [inj_on_of_nodup_map hlevels hother hmem hprice]

theorem levelAt_isNone {price : String} :
    (levelAt levels price).isNone = true ↔ price ∉ levels.map (·.price) := by
  unfold levelAt
  rw [Option.isNone_iff_eq_none, find?_eq_none]
  simp

theorem mem_changed (hprevious : (previous.map (·.price)).Nodup) :
    level ∈ (calculatePublishedSideDeltas previous current).changed ↔
      level ∈ current ∧ level ∉ previous := by
  show level ∈ List.filter _ current ↔ _
  rw [mem_filter]
  refine and_congr_right fun _ => ?_
  rw [decide_eq_true_eq, not_iff_not, Option.map_eq_some_iff]
  constructor
  · rintro ⟨other, hat, hsize⟩
    obtain ⟨hmem, hprice⟩ := (levelAt_eq_some hprevious).mp hat
    have hsame : other = level := by
      cases other
      cases level
      cases hprice
      cases hsize
      rfl
    exact hsame ▸ hmem
  · intro hmem
    exact ⟨level, (levelAt_eq_some hprevious).mpr ⟨hmem, rfl⟩, rfl⟩

theorem mem_removed : level ∈ (calculatePublishedSideDeltas previous current).removed ↔
      level.size = "0" ∧ level.price ∈ previous.map (·.price) ∧
        level.price ∉ current.map (·.price) := by
  show level ∈ List.map _ (List.filter _ previous) ↔ _
  rw [mem_map]
  constructor
  · rintro ⟨old, hold, rfl⟩
    obtain ⟨hmem, hgone⟩ := mem_filter.mp hold
    exact ⟨rfl, mem_map.mpr ⟨old, hmem, rfl⟩, levelAt_isNone.mp hgone⟩
  · rintro ⟨hsize, hmem, hgone⟩
    obtain ⟨old, hold, hprice⟩ := mem_map.mp hmem
    refine ⟨old, mem_filter.mpr ⟨hold, ?_⟩, ?_⟩
    · rw [hprice]
      exact levelAt_isNone.mpr hgone
    · cases level
      cases hsize
      cases hprice
      rfl

theorem numberOfText_zero : numberOfText "0" = some 0 := by
  decide +kernel

theorem levelChange_put {size : ℚ} (hsize : numberOfText level.size = some size) (hpos : 0 < size) :
    levelChange level = .put level := by
  unfold levelChange
  rw [if_neg]
  rw [hsize]
  exact fun h => hpos.ne' (Option.some.inj h)

theorem levelChange_drop (hsize : level.size = "0") : levelChange level = .drop level.price := by
  unfold levelChange
  rw [if_pos]
  rw [hsize]
  exact numberOfText_zero

/-- **The deltas** lead from the published levels to the next ones. -/
theorem applyAll_encoded {side : List NormalizedQuoteLevel} (hprevious : WellFormed previous)
    (hcurrent : WellFormed current) (hside : side.Perm previous) :
    (applyDeltas side (encodePublishedOrderbookDeltas
      (calculatePublishedSideDeltas previous current))).Perm current := by
  have hput : ∀ level ∈ (calculatePublishedSideDeltas previous current).changed,
      levelChange level = .put level := fun level hmem => by
    obtain ⟨size, hsize, hpos⟩ := hcurrent.sizes level ((mem_changed hprevious.texts).mp hmem).1
    exact levelChange_put hsize hpos
  have hdrop : ∀ level ∈ (calculatePublishedSideDeltas previous current).removed,
      levelChange level = .drop level.price := fun level hmem =>
    levelChange_drop (mem_removed.mp hmem).1
  have hchanges : (encodePublishedOrderbookDeltas
        (calculatePublishedSideDeltas previous current)).map levelChange =
      (calculatePublishedSideDeltas previous current).changed.map .put ++
        (calculatePublishedSideDeltas previous current).removed.map fun level =>
          .drop level.price := by
    unfold encodePublishedOrderbookDeltas
    rw [map_append, map_congr_left hput, map_congr_left hdrop]
  unfold applyDeltas
  rw [hchanges]
  refine applyAll_perm hprevious.texts hcurrent.texts hside ?_ (fun level => ?_) fun price => ?_
  · -- no two changes are about the same price
    rw [map_append, map_map, map_map]
    refine nodup_append.mpr ⟨?_, ?_, ?_⟩
    · exact hcurrent.texts.sublist (filter_sublist.map _)
    · have hgone : (calculatePublishedSideDeltas previous current).removed.map (·.price) =
          (previous.filter fun level => (levelAt current level.price).isNone).map (·.price) := by
        rw [calculatePublishedSideDeltas, map_map]
        rfl
      show ((calculatePublishedSideDeltas previous current).removed.map (·.price)).Nodup
      rw [hgone]
      exact hprevious.texts.sublist (filter_sublist.map _)
    · rintro price hchanged price' hremoved rfl
      obtain ⟨level, hlevel, rfl⟩ := mem_map.mp hchanged
      obtain ⟨gone, hgone, hprice⟩ := mem_map.mp hremoved
      refine (mem_removed.mp hgone).2.2 ?_
      rw [show gone.price = level.price from hprice]
      exact mem_map.mpr ⟨level, ((mem_changed hprevious.texts).mp hlevel).1, rfl⟩
  · rw [mem_append, mem_map, mem_map, ← mem_changed hprevious.texts]
    constructor
    · rintro (⟨other, hmem, heq⟩ | ⟨other, -, heq⟩)
      · cases heq
        exact hmem
      · cases heq
    · exact fun hmem => Or.inl ⟨level, hmem, rfl⟩
  · rw [mem_append, mem_map, mem_map]
    constructor
    · rintro (⟨other, -, heq⟩ | ⟨other, hmem, heq⟩)
      · cases heq
      · cases heq
        exact (mem_removed.mp hmem).2
    · intro hgone
      exact Or.inr ⟨⟨price, "0"⟩, mem_removed.mpr ⟨rfl, hgone⟩, rfl⟩

/-! ## Reading -/

/-- An order that tells prices apart, in a consistent way. -/
structure ByPrice (first : NormalizedQuoteLevel → NormalizedQuoteLevel → Ordering) : Prop where
  trans : Std.TransCmp first
  eq : ∀ left right, first left right = .eq → levelPrice left = levelPrice right

theorem byPrice_bids : ByPrice bidsFirst where
  trans := transCmp_descending compare levelPrice
  eq _ _ h := (compare_eq_iff_eq.mp h).symm

theorem byPrice_asks : ByPrice asksFirst where
  trans := transCmp_ascending compare levelPrice
  eq _ _ h := compare_eq_iff_eq.mp h

section Reading

variable {first : NormalizedQuoteLevel → NormalizedQuoteLevel → Ordering}

theorem sorted_sortWith (hfirst : ByPrice first) (levels : List NormalizedQuoteLevel) :
    (sortWith first levels).Pairwise (notAfter first) := by
  have htrans := hfirst.trans
  exact pairwise_insertionSort _ levels

theorem sortWith_eq_of_perm (hfirst : ByPrice first) {left right : List NormalizedQuoteLevel}
    (hright : WellFormed right) (hperm : left.Perm right) :
    sortWith first left = sortWith first right := by
  have htrans := hfirst.trans
  refine List.Perm.eq_of_pairwise (fun a b ha hb hab hba => ?_) (sorted_sortWith hfirst left)
    (sorted_sortWith hfirst right)
    ((sortWith_perm first left).trans (hperm.trans (sortWith_perm first right).symm))
  have hsame : first a b = .eq := by
    cases horder : first a b with
    | eq => rfl
    | gt => exact absurd horder hab
    | lt => exact absurd (Std.OrientedCmp.gt_iff_lt.mpr horder) hba
  have ha' := hperm.subset (mem_sortWith.mp ha)
  exact inj_on_of_nodup_map hright.distinct ha' (mem_sortWith.mp hb) (hfirst.eq a b hsame)

theorem sortWith_take_five (hfirst : ByPrice first) (h : levels.take 5 = topFive first levels) :
    sortWith first (levels.take 5) = levels.take 5 := by
  refine List.Pairwise.insertionSort_eq ?_
  rw [h]
  exact (sorted_sortWith hfirst levels).sublist (take_sublist _ _)

end Reading

/-- The first five levels of each side are its best five, the best first. -/
def BestFirst (snapshot : NormalizedVenueQuoteSnapshot) : Prop :=
  snapshot.bids.take 5 = topFive bidsFirst snapshot.bids ∧
    snapshot.asks.take 5 = topFive asksFirst snapshot.asks

instance (snapshot : NormalizedVenueQuoteSnapshot) : Decidable (BestFirst snapshot) :=
  inferInstanceAs (Decidable (_ ∧ _))

@[simp] theorem snapshotForTargetLookup_bids (snapshot : NormalizedVenueQuoteSnapshot)
    (target : VenueOrderbookSubscriptionTarget) :
    (snapshotForTargetLookup snapshot target).bids = snapshot.bids := by
  unfold snapshotForTargetLookup
  split <;> rfl

@[simp] theorem snapshotForTargetLookup_asks (snapshot : NormalizedVenueQuoteSnapshot)
    (target : VenueOrderbookSubscriptionTarget) :
    (snapshotForTargetLookup snapshot target).asks = snapshot.asks := by
  unfold snapshotForTargetLookup
  split <;> rfl

/-- The published levels, in any order. -/
def Carries (book : ConsumerBook) (snapshot : NormalizedVenueQuoteSnapshot) : Prop :=
  book.bids.Perm (snapshot.bids.take 5) ∧ book.asks.Perm (snapshot.asks.take 5)

/-- **A book with the published levels** holds exactly when they are the best, in order. -/
theorem holds_iff_bestFirst (hdigest : Function.Injective env.digest) {delivery : Delivery}
    {state : OrderbookStreamState} {book : ConsumerBook}
    (hbids : WellFormed delivery.snapshot.bids) (hasks : WellFormed delivery.snapshot.asks)
    (hbook : Carries book delivery.snapshot) :
    Holds env delivery.snapshot (onSnapshot env delivery state).1 book ↔
      BestFirst delivery.snapshot := by
  have hreadBids := sortWith_eq_of_perm byPrice_bids (hbids.sublist (take_sublist 5 _)) hbook.1
  have hreadAsks := sortWith_eq_of_perm byPrice_asks (hasks.sublist (take_sublist 5 _)) hbook.2
  have hhead : ∀ levels : List NormalizedQuoteLevel, (levels.take 5).head? = levels.head? :=
    fun levels => by cases levels <;> rfl
  constructor
  · intro h
    have hcontent := hdigest h.checksum
    have hsides := congrArg (fun content => (content.bids, content.asks)) hcontent
    simp only [checksumContent, onSnapshot, publishMarketUpdate, snapshotForTargetLookup_bids,
      snapshotForTargetLookup_asks, Prod.mk.injEq] at hsides
    exact ⟨hsides.1.symm.trans h.bids, hsides.2.symm.trans h.asks⟩
  · rintro ⟨hbest, hbest'⟩
    have hsortedBids := sortWith_take_five byPrice_bids hbest
    have hsortedAsks := sortWith_take_five byPrice_asks hbest'
    refine ⟨by rw [hreadBids, hsortedBids, hbest], by rw [hreadAsks, hsortedAsks, hbest'], ?_⟩
    unfold recomputedChecksum
    simp only [hreadBids, hreadAsks, hsortedBids, hsortedAsks, hhead, onSnapshot,
      publishMarketUpdate, snapshotForTargetLookup_bids, snapshotForTargetLookup_asks]

/-! ## Runs -/

/-- The book has what was published last for the subscription. -/
def Tracks (key : String) (state : OrderbookStreamState) (book : ConsumerBook) : Prop :=
  ∀ levels, state.lastPublishedLevelsBySubscription.lookup key = some levels →
    (book.bids.Perm levels.bids ∧ WellFormed levels.bids) ∧
      book.asks.Perm levels.asks ∧ WellFormed levels.asks

theorem lookup_onSnapshot (delivery : Delivery) (state : OrderbookStreamState) (key : String) :
    (onSnapshot env delivery state).2.lastPublishedLevelsBySubscription.lookup key =
      if key = subscriptionKey delivery.target
        then some ⟨delivery.snapshot.bids.take 5, delivery.snapshot.asks.take 5⟩
        else state.lastPublishedLevelsBySubscription.lookup key := by
  unfold onSnapshot publishMarketUpdate
  simp only [snapshotForTargetLookup_bids, snapshotForTargetLookup_asks]
  exact OrderedMap.lookup_set ..

section

variable {delivery : Delivery} {state : OrderbookStreamState} {book : ConsumerBook}
  (hbids : WellFormed delivery.snapshot.bids) (hasks : WellFormed delivery.snapshot.asks)

include hbids hasks

/-- **One message** leaves a book with the published levels. -/
theorem carries_consume (htracks : Tracks (subscriptionKey delivery.target) state book) :
    Carries (consume book (onSnapshot env delivery state).1.levels) delivery.snapshot := by
  have hfull : Carries ⟨delivery.snapshot.bids.take 5, delivery.snapshot.asks.take 5⟩
      delivery.snapshot := ⟨List.Perm.refl _, List.Perm.refl _⟩
  unfold onSnapshot publishMarketUpdate
  simp only [snapshotForTargetLookup_bids, snapshotForTargetLookup_asks]
  cases hlast : state.lastPublishedLevelsBySubscription.lookup
      (subscriptionKey delivery.target) with
  | none => exact hfull
  | some previousLevels =>
    obtain ⟨⟨hbook, hprevious⟩, hbook', hprevious'⟩ := htracks previousLevels hlast
    simp only
    split
    · exact hfull
    · exact ⟨applyAll_encoded hprevious (hbids.sublist (take_sublist 5 _)) hbook,
        applyAll_encoded hprevious' (hasks.sublist (take_sublist 5 _)) hbook'⟩

theorem tracks_onSnapshot (hbook : Carries book delivery.snapshot) :
    Tracks (subscriptionKey delivery.target) (onSnapshot env delivery state).2 book := by
  intro levels hlevels
  rw [lookup_onSnapshot, if_pos rfl] at hlevels
  cases hlevels
  exact ⟨⟨hbook.1, hbids.sublist (take_sublist 5 _)⟩, hbook.2, hasks.sublist (take_sublist 5 _)⟩

end

/-- The sides of every snapshot of the subscription are well formed. -/
abbrev DeliveriesWellFormed (key : String) (deliveries : List Delivery) : Prop :=
  ∀ delivery ∈ deliveries, subscriptionKey delivery.target = key →
    WellFormed delivery.snapshot.bids ∧ WellFormed delivery.snapshot.asks

section Messages

variable {key : String} {delivery : Delivery} {deliveries : List Delivery}
  {state : OrderbookStreamState}

theorem messagesFrom_own (hkey : subscriptionKey delivery.target = key) :
    messagesFrom env key state (delivery :: deliveries) =
      (delivery, (onSnapshot env delivery state).1) ::
        messagesFrom env key (onSnapshot env delivery state).2 deliveries := by
  unfold messagesFrom
  rw [publishedFrom, zip_cons_cons, filter_cons_of_pos (by simpa using hkey)]

theorem messagesFrom_other (hkey : subscriptionKey delivery.target ≠ key) :
    messagesFrom env key state (delivery :: deliveries) =
      messagesFrom env key (onSnapshot env delivery state).2 deliveries := by
  unfold messagesFrom
  rw [publishedFrom, zip_cons_cons, filter_cons_of_neg (by simpa using hkey)]

end Messages

theorem reconstructs_from (hdigest : Function.Injective env.digest) (key : String)
    {deliveries : List Delivery} (hvalid : DeliveriesWellFormed key deliveries)
    (state : OrderbookStreamState) (book : ConsumerBook) (htracks : Tracks key state book) :
    Reconstructs env book (messagesFrom env key state deliveries) ↔
      ∀ delivery ∈ deliveries, subscriptionKey delivery.target = key →
        BestFirst delivery.snapshot := by
  induction deliveries generalizing state book with
  | nil => simp [messagesFrom, Reconstructs]
  | cons delivery deliveries ih =>
    have hrest : DeliveriesWellFormed key deliveries :=
      fun later hmem => hvalid later (mem_cons_of_mem _ hmem)
    rw [forall_mem_cons]
    by_cases hkey : subscriptionKey delivery.target = key
    · obtain ⟨hbids, hasks⟩ := hvalid delivery mem_cons_self hkey
      have hcarries : Carries (consume book (onSnapshot env delivery state).1.levels)
          delivery.snapshot := carries_consume hbids hasks (hkey ▸ htracks)
      rw [messagesFrom_own hkey, Reconstructs, holds_iff_bestFirst hdigest hbids hasks hcarries,
        ih hrest _ _ (hkey ▸ tracks_onSnapshot hbids hasks hcarries)]
      exact and_congr_left fun _ => ⟨fun h _ => h, fun h => h hkey⟩
    · have hkept : Tracks key (onSnapshot env delivery state).2 book := fun levels hlevels => by
        rw [lookup_onSnapshot, if_neg (Ne.symm hkey)] at hlevels
        exact htracks levels hlevels
      rw [messagesFrom_other hkey, ih hrest _ _ hkept]
      exact ⟨fun h => ⟨fun h' => absurd h' hkey, h⟩, fun h => h.2⟩

/-- **The stream reconstructs the book** exactly when every snapshot of the subscription has its
best five levels first; the messages of every topic are numbered in any case. -/
theorem orderbookStream_reconstructs_iff (env : StreamEnv δ)
    (hdigest : Function.Injective env.digest) (key : String) (deliveries : List Delivery)
    (hvalid : DeliveriesWellFormed key deliveries) :
    ((∀ topic, ((publishedFrom env freshStream deliveries).filter fun message =>
          message.topic = topic).map (·.seq) =
        List.range' 1 ((publishedFrom env freshStream deliveries).filter fun message =>
          message.topic = topic).length) ∧
      Reconstructs env ⟨[], []⟩ (messagesFrom env key freshStream deliveries)) ↔
      ∀ delivery ∈ deliveries, subscriptionKey delivery.target = key →
        BestFirst delivery.snapshot := by
  have htracks : Tracks key freshStream ⟨[], []⟩ := by
    rintro levels ⟨⟩
  rw [reconstructs_from hdigest key hvalid freshStream ⟨[], []⟩ htracks]
  exact and_iff_right fun topic => seqs_of_topic topic deliveries

/-! ### A side with the best price last -/

def exactContent : StreamEnv ChecksumContent where
  digest := id
  base64url := id

def polymarketTarget : VenueOrderbookSubscriptionTarget :=
  ⟨"market", some "YES", "POLYMARKET", "0x1", some "1"⟩

def polymarketBook (bids asks : List NormalizedQuoteLevel) : Delivery :=
  ⟨polymarketTarget, ⟨"POLYMARKET", "0x1", some "1", bids, asks, none⟩⟩

theorem positive_iff (text : String) : (numberOfText text).any (0 < ·) = true ↔
    ∃ size, numberOfText text = some size ∧ 0 < size := by
  cases numberOfText text <;> simp

instance (levels : List NormalizedQuoteLevel) : Decidable (WellFormed levels) :=
  decidable_of_iff
    ((∀ level ∈ levels, (numberOfText level.price).isSome) ∧
      (∀ level ∈ levels, (numberOfText level.size).any (0 < ·)) ∧ (levels.map levelPrice).Nodup)
    ⟨fun ⟨hprices, hsizes, hdistinct⟩ =>
        ⟨hprices, fun level hmem => (positive_iff _).mp (hsizes level hmem), hdistinct⟩,
      fun ⟨hprices, hsizes, hdistinct⟩ =>
        ⟨hprices, fun level hmem => (positive_iff _).mpr (hsizes level hmem), hdistinct⟩⟩

/-- The best bid moves, and an ask changes its size. -/
def bestFirstBooks : List Delivery :=
  [polymarketBook [⟨"0.49", "10"⟩, ⟨"0.48", "5"⟩] [⟨"0.51", "10"⟩],
    polymarketBook [⟨"0.50", "12"⟩, ⟨"0.48", "5"⟩] [⟨"0.51", "8"⟩]]

theorem orderbookStream_reconstructs_moved :
    DeliveriesWellFormed (subscriptionKey polymarketTarget) bestFirstBooks ∧
    Reconstructs exactContent ⟨[], []⟩ (messagesFrom exactContent (subscriptionKey polymarketTarget)
      freshStream bestFirstBooks) := by
  have hvalid : DeliveriesWellFormed (subscriptionKey polymarketTarget) bestFirstBooks := by
    have hall : ∀ delivery ∈ bestFirstBooks,
        WellFormed delivery.snapshot.bids ∧ WellFormed delivery.snapshot.asks := by
      decide +kernel
    exact fun delivery hmem _ => hall delivery hmem
  have hbest : ∀ delivery ∈ bestFirstBooks, BestFirst delivery.snapshot := by
    decide +kernel
  exact ⟨hvalid, ((orderbookStream_reconstructs_iff exactContent (fun _ _ h => h)
    (subscriptionKey polymarketTarget) bestFirstBooks hvalid).mpr
      fun delivery hmem _ => hbest delivery hmem).2⟩

/-- Bids as some venues send them, the highest price last. -/
def bestLastBook : Delivery :=
  polymarketBook [⟨"0.40", "1"⟩, ⟨"0.41", "1"⟩, ⟨"0.42", "1"⟩, ⟨"0.43", "1"⟩, ⟨"0.44", "1"⟩,
    ⟨"0.49", "1"⟩] []

/-- The best bid is not among the published levels. -/
theorem orderbookStream_bestLast :
    WellFormed bestLastBook.snapshot.bids ∧ WellFormed bestLastBook.snapshot.asks ∧
    ¬ Reconstructs exactContent ⟨[], []⟩ (messagesFrom exactContent (subscriptionKey polymarketTarget)
      freshStream [bestLastBook]) := by
  refine ⟨by decide +kernel, by decide +kernel, fun h => ?_⟩
  have hkey : subscriptionKey bestLastBook.target = subscriptionKey polymarketTarget := rfl
  rw [messagesFrom_own hkey] at h
  have hbids := h.1.bids
  revert hbids
  decide +kernel

end LotusRfq.MarketData
