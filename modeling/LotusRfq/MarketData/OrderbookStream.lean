import LotusRfq.Common.JsonValues
import LotusRfq.Lib.OrderedMap

/-!
# LotusRfq — the stream of order books

Every snapshot of a venue's book is published to the topic of its market and outcome: the first five
levels of each side, or only how they differ from what was published before for the subscription. A
publish is taken to succeed.

* **`seqs_of_topic`** — the messages of a topic are numbered from one, without a gap.
-/

namespace LotusRfq.MarketData

open Js

/-! ## Snapshots -/

structure NormalizedQuoteLevel where
  price : String
  size : String
  deriving DecidableEq

structure NormalizedVenueQuoteSnapshot where
  venue : String
  venueMarketId : String
  venueOutcomeId : Option String
  bids : List NormalizedQuoteLevel
  asks : List NormalizedQuoteLevel
  blockers : Option (List String)

structure VenueOrderbookSubscriptionTarget where
  canonicalMarketId : String
  canonicalOutcomeId : Option String
  venue : String
  venueMarketId : String
  venueOutcomeId : Option String

def normalizeVenue (venue : String) : String :=
  let normalized := (trim venue).toUpper
  if normalized = "PREDICT" then "PREDICT_FUN" else normalized

/-- The target's ids in the place of the venue's own. -/
def snapshotForTargetLookup (snapshot : NormalizedVenueQuoteSnapshot)
    (target : VenueOrderbookSubscriptionTarget) : NormalizedVenueQuoteSnapshot :=
  if snapshot.venueMarketId = target.venueMarketId ∧
      snapshot.venueOutcomeId = target.venueOutcomeId then snapshot
  else { snapshot with
    venueMarketId := target.venueMarketId
    venueOutcomeId := target.venueOutcomeId.filter (· ≠ "") }

def subscriptionKey (target : VenueOrderbookSubscriptionTarget) : String :=
  "|".intercalate [normalizeVenue target.venue, target.venueMarketId,
    target.venueOutcomeId.getD "_", target.canonicalMarketId, target.canonicalOutcomeId.getD "_"]

/-! ### Blockers -/

/-- `[A-Za-z0-9_-]`. -/
def isTokenChar (c : Char) : Bool := c.isAlphanum || c = '_' || c = '-'

/-- A run of such characters, the last one first. -/
def redactRun (run : List Char) : List Char :=
  if 32 ≤ run.length then "REDACTED".toList else run.reverse

/-- `replace(/[A-Za-z0-9_-]{32,}/g, "REDACTED")`, after a run that has been read. -/
def redactFrom (run : List Char) : List Char → List Char
  | [] => redactRun run
  | c :: rest =>
    if isTokenChar c then redactFrom (c :: run) rest else redactRun run ++ c :: redactFrom [] rest

def sanitizeStrings (values : List String) : List String :=
  (values.map fun value => String.ofList ((redactFrom [] value.toList).take 120)).filter hasText

/-! ## Deltas -/

structure PublishedOrderbookLevels where
  bids : List NormalizedQuoteLevel
  asks : List NormalizedQuoteLevel

structure PublishedOrderbookSideDeltas where
  changed : List NormalizedQuoteLevel
  removed : List NormalizedQuoteLevel

/-- `new Map(levels.map(level => [level.price, level])).get(price)`. -/
def levelAt (levels : List NormalizedQuoteLevel) (price : String) : Option NormalizedQuoteLevel :=
  levels.reverse.find? fun level => level.price = price

def calculatePublishedSideDeltas (previous current : List NormalizedQuoteLevel) :
    PublishedOrderbookSideDeltas where
  changed := current.filter fun level =>
    (levelAt previous level.price).map (·.size) ≠ some level.size
  removed := (previous.filter fun level => (levelAt current level.price).isNone).map fun level =>
    ⟨level.price, "0"⟩

def encodePublishedOrderbookDeltas (deltas : PublishedOrderbookSideDeltas) :
    List NormalizedQuoteLevel :=
  deltas.changed ++ deltas.removed

/-! ## The checksum -/

structure ChecksumContent where
  market : String
  outcome : Option String
  venue : Option String
  bestBid : Option String
  bestAsk : Option String
  bids : List NormalizedQuoteLevel
  asks : List NormalizedQuoteLevel
  blockers : List String

/-- The first half of the SHA-256 digest of the content as JSON, and how a text is encoded in a
topic. -/
structure StreamEnv (δ : Type) where
  digest : ChecksumContent → δ
  base64url : String → String

variable {δ : Type} (env : StreamEnv δ)

structure ChecksumInput where
  canonicalMarketId : String
  canonicalOutcomeId : Option String
  venue : String
  bestBid : Option String
  bestAsk : Option String
  bids : List NormalizedQuoteLevel
  asks : List NormalizedQuoteLevel
  blockers : List String

def checksumContent (input : ChecksumInput) : ChecksumContent where
  market := input.canonicalMarketId
  outcome := input.canonicalOutcomeId
  venue := if input.venue = "" then none else some (normalizeVenue input.venue)
  bestBid := input.bestBid
  bestAsk := input.bestAsk
  bids := input.bids
  asks := input.asks
  blockers := sortWith compare input.blockers

def calculateOrderbookStreamChecksum (input : ChecksumInput) : δ :=
  env.digest (checksumContent input)

/-! ## Messages -/

inductive UpdateLevels where
  | snapshot (bids asks : List NormalizedQuoteLevel)
  | delta (bidDeltas askDeltas : List NormalizedQuoteLevel)

structure MarketOrderbookUpdate (δ : Type) where
  topic : String
  seq : ℕ
  canonicalMarketId : String
  canonicalOutcomeId : Option String
  venue : String
  venueMarketId : String
  venueOutcomeId : Option String
  bestBid : Option String
  bestAsk : Option String
  blockers : List String
  levels : UpdateLevels
  checksum : δ

structure OrderbookStreamState where
  sequenceByTopic : List (String × ℕ)
  lastPublishedLevelsBySubscription : List (String × PublishedOrderbookLevels)

def marketOrderbookTopic (canonicalMarketId : String) (canonicalOutcomeId : Option String) : String :=
  "markets:orderbook:" ++ env.base64url canonicalMarketId ++ ":" ++
    env.base64url (canonicalOutcomeId.getD "_")

def nextSequence (sequenceByTopic : List (String × ℕ)) (topic : String) : ℕ :=
  (sequenceByTopic.lookup topic).getD 0 + 1

def publishMarketUpdate (snapshot : NormalizedVenueQuoteSnapshot)
    (target : VenueOrderbookSubscriptionTarget) (state : OrderbookStreamState) :
    MarketOrderbookUpdate δ × OrderbookStreamState :=
  let topic := marketOrderbookTopic env target.canonicalMarketId target.canonicalOutcomeId
  let bestBid := snapshot.bids.head?.map (·.price)
  let bestAsk := snapshot.asks.head?.map (·.price)
  let blockers := sanitizeStrings (snapshot.blockers.getD [])
  let bids := snapshot.bids.take 5
  let asks := snapshot.asks.take 5
  let publishKey := subscriptionKey target
  let levels := match state.lastPublishedLevelsBySubscription.lookup publishKey with
    | none => UpdateLevels.snapshot bids asks
    | some previousLevels =>
      if blockers ≠ [] then .snapshot bids asks
      else .delta
        (encodePublishedOrderbookDeltas (calculatePublishedSideDeltas previousLevels.bids bids))
        (encodePublishedOrderbookDeltas (calculatePublishedSideDeltas previousLevels.asks asks))
  let seq := nextSequence state.sequenceByTopic topic
  ({ topic, seq, bestBid, bestAsk, blockers, levels
     canonicalMarketId := target.canonicalMarketId
     canonicalOutcomeId := target.canonicalOutcomeId
     venue := normalizeVenue snapshot.venue
     venueMarketId := snapshot.venueMarketId
     venueOutcomeId := snapshot.venueOutcomeId
     checksum := calculateOrderbookStreamChecksum env
      ⟨target.canonicalMarketId, target.canonicalOutcomeId, normalizeVenue snapshot.venue, bestBid,
        bestAsk, bids, asks, blockers⟩ },
    ⟨OrderedMap.set topic seq state.sequenceByTopic,
      OrderedMap.set publishKey ⟨bids, asks⟩ state.lastPublishedLevelsBySubscription⟩)

structure Delivery where
  target : VenueOrderbookSubscriptionTarget
  snapshot : NormalizedVenueQuoteSnapshot

/-- `onSnapshot`, as far as it publishes. -/
def onSnapshot (delivery : Delivery) (state : OrderbookStreamState) :
    MarketOrderbookUpdate δ × OrderbookStreamState :=
  publishMarketUpdate env (snapshotForTargetLookup delivery.snapshot delivery.target)
    delivery.target state

def publishedFrom : OrderbookStreamState → List Delivery → List (MarketOrderbookUpdate δ)
  | _, [] => []
  | state, delivery :: deliveries =>
    (onSnapshot env delivery state).1 :: publishedFrom (onSnapshot env delivery state).2 deliveries

def freshStream : OrderbookStreamState := ⟨[], []⟩

/-! ## Sequence numbers -/

variable {env}

theorem seqs_from (topic : String) (deliveries : List Delivery) (state : OrderbookStreamState) :
    ((publishedFrom env state deliveries).filter fun message => message.topic = topic).map (·.seq) =
      List.range' (nextSequence state.sequenceByTopic topic)
        ((publishedFrom env state deliveries).filter fun message =>
          message.topic = topic).length := by
  induction deliveries generalizing state with
  | nil => rfl
  | cons delivery deliveries ih =>
    have hstate : (onSnapshot env delivery state).2.sequenceByTopic = OrderedMap.set
        (onSnapshot env delivery state).1.topic (onSnapshot env delivery state).1.seq
        state.sequenceByTopic := rfl
    have hseq : (onSnapshot env delivery state).1.seq =
        nextSequence state.sequenceByTopic (onSnapshot env delivery state).1.topic := rfl
    rw [publishedFrom]
    have hrest := ih (onSnapshot env delivery state).2
    have hnext : nextSequence (onSnapshot env delivery state).2.sequenceByTopic topic =
        if topic = (onSnapshot env delivery state).1.topic
          then nextSequence state.sequenceByTopic topic + 1
          else nextSequence state.sequenceByTopic topic := by
      rw [hstate, nextSequence, OrderedMap.lookup_set]
      split
      next hsame =>
        rw [hseq, ← hsame]
        rfl
      next => rfl
    by_cases hsame : (onSnapshot env delivery state).1.topic = topic
    · rw [List.filter_cons_of_pos (by simpa using hsame), List.map_cons, hrest, hnext,
        if_pos hsame.symm, List.length_cons, List.range'_succ, hseq, hsame]
    · rw [List.filter_cons_of_neg (by simpa using hsame), hrest, hnext,
        if_neg (Ne.symm hsame)]

/-- **The messages of a topic** are numbered from one, without a gap. -/
theorem seqs_of_topic (topic : String) (deliveries : List Delivery) :
    ((publishedFrom env freshStream deliveries).filter fun message => message.topic = topic).map
        (·.seq) = List.range' 1 ((publishedFrom env freshStream deliveries).filter fun message =>
          message.topic = topic).length :=
  seqs_from topic deliveries freshStream

end LotusRfq.MarketData
