import LotusRfq.Common.Exposure
import LotusRfq.Common.JsonValues
import LotusRfq.Sor.CostModel

/-!
# LotusRfq — the route scout and the residual of an RFQ

`RouteScout.discoverCandidates` asks its sources for quotes of every leg the RFQ's metadata lists,
or of one leg of its own where the list does not pass the schema. `buildResidualRFQ` rewrites the
legs to the size the internal crossing has left, as a text; the schema wants a number.

* **`extractLegs_residual`** — no list of legs survives the rewriting.
-/

namespace LotusRfq.Sor

open LotusRfq.Js

inductive STPMode where
  | CANCEL_NEWEST
  | CANCEL_OLDEST
  | CANCEL_BOTH
  | NONE
  deriving DecidableEq

structure CanonicalRFQInput where
  rfqId : String
  idempotencyKey : String
  canonicalMarketId : String
  canonicalOutcomeId : Option String
  takerId : String
  side : Side
  quantity : String
  stpMode : STPMode
  metadata : Option (List (String × Json))

/-! ## Legs -/

/-- A leg; its quantity is none where `Number` reads none. -/
structure RFQLeg where
  leg_id : String
  canonical_market_id : String
  canonical_outcome_id : Option String
  side : Side
  quantity : Option ℚ
  deriving DecidableEq

def parseOptionalText : Option Json → Option (Option String)
  | none => some none
  | some (.string text) => some (some text)
  | _ => none

def parseSide : Option Json → Option Side
  | some (.string "buy") => some .buy
  | some (.string "sell") => some .sell
  | _ => none

/-- `z.number().positive()`. -/
def parsePositive : Option Json → Option ℚ
  | some (.number n) => if 0 < n.value then some n.value else none
  | _ => none

def parseUuid (isUuid : String → Bool) : Option Json → Option String
  | some (.string text) => if isUuid text then some text else none
  | _ => none

def parseText : Option Json → Option String
  | some (.string text) => some text
  | _ => none

/-- `RFQLegSchema`; `isUuid` is the format zod asks of an id. -/
def parseLeg (isUuid : String → Bool) : Json → Option RFQLeg
  | .object fields => do
    let legId ← parseUuid isUuid (fields.lookup "leg_id")
    let marketId ← parseText (fields.lookup "canonical_market_id")
    let outcomeId ← parseOptionalText (fields.lookup "canonical_outcome_id")
    let side ← parseSide (fields.lookup "side")
    let quantity ← parsePositive (fields.lookup "quantity")
    return ⟨legId, marketId, outcomeId, side, some quantity⟩
  | _ => none

/-- `rfq.metadata?.legs`, where it is an array. -/
def CanonicalRFQInput.metadataLegs (rfq : CanonicalRFQInput) : Option (List Json) :=
  match rfq.metadata.bind (·.lookup "legs") with
  | some (.array items) => some items
  | _ => none

/-- The legs the metadata lists, where they all pass the schema. -/
def CanonicalRFQInput.listedLegs (rfq : CanonicalRFQInput) (isUuid : String → Bool) :
    Option (List RFQLeg) :=
  rfq.metadataLegs.bind (·.mapM (parseLeg isUuid))

/-- `extractLegs`; `legUuid` is the id drawn for the leg of an RFQ that lists none. -/
def extractLegs (isUuid : String → Bool) (legUuid : String) (rfq : CanonicalRFQInput) :
    List RFQLeg :=
  let single : RFQLeg :=
    { leg_id := legUuid
      canonical_market_id := rfq.canonicalMarketId
      canonical_outcome_id := rfq.canonicalOutcomeId.filter (· ≠ "")
      side := rfq.side
      quantity := numberOfText rfq.quantity }
  match rfq.listedLegs isUuid with
  | some (leg :: legs) => leg :: legs
  | _ => [single]

/-- The fields `{ ...leg }` copies: those of a record, or the items of an array under their
indices. -/
def spreadFields : Json → Option (List (String × Json))
  | .object fields => some fields
  | .array items => some (items.zipIdx.map fun item => (toString item.2, item.1))
  | _ => none

/-- What `buildResidualRFQ` makes of a leg. -/
def residualLeg (remainingSize : String) (leg : Json) : Json :=
  match spreadFields leg with
  | some fields =>
    ((Json.object fields).set "quantity" (.string remainingSize)).set "target_quantity"
      (.string remainingSize)
  | none => leg

def buildResidualRFQ (rfq : CanonicalRFQInput) (remainingSize : String) : CanonicalRFQInput :=
  { rfq with
    quantity := remainingSize
    metadata := match rfq.metadataLegs with
      | some legs => rfq.metadata.map
          (OrderedMap.set "legs" (.array (legs.map (residualLeg remainingSize))))
      | none => rfq.metadata }

/-! ## Discovery -/

inductive QuoteSource where
  | whole_combo_lp
  | per_leg_lp
  | canonical_orderbook
  | internal_crossing

def QuoteSource.text : QuoteSource → String
  | .whole_combo_lp => "whole_combo_lp"
  | .per_leg_lp => "per_leg_lp"
  | .canonical_orderbook => "canonical_orderbook"
  | .internal_crossing => "internal_crossing"

def QuoteSource.providerType : QuoteSource → LiquiditySource
  | .whole_combo_lp | .per_leg_lp => .LP
  | .canonical_orderbook => .VENUE
  | .internal_crossing => .INTERNAL_CROSS

/-- A quote, a snapshot or a hint; `names` are the ids the scout files beside its source. -/
structure SourceQuote where
  providerId : String
  availableSize : ℚ
  quotedPrice : ℚ
  fees : Option (List (String × ℚ))
  latencyMs : Option ℚ
  fillProb : Option ℚ
  names : List (String × MetadataValue)
  metadata : List (String × MetadataValue)

structure RouteSources where
  wholeComboQuotes : List SourceQuote
  perLegQuotes : RFQLeg → List SourceQuote
  orderbookSnapshots : RFQLeg → List SourceQuote
  internalHints : RFQLeg → List SourceQuote

def RouteSources.quotesOf (sources : RouteSources) (leg : RFQLeg) :
    List (QuoteSource × SourceQuote) :=
  sources.wholeComboQuotes.map (QuoteSource.whole_combo_lp, ·) ++
    (sources.perLegQuotes leg).map (QuoteSource.per_leg_lp, ·) ++
    (sources.orderbookSnapshots leg).map (QuoteSource.canonical_orderbook, ·) ++
    (sources.internalHints leg).map (QuoteSource.internal_crossing, ·)

/-- `{ ...left, ...right }`. -/
def spread (left right : List (String × MetadataValue)) : List (String × MetadataValue) :=
  right.foldl (fun fields entry => OrderedMap.set entry.1 entry.2 fields) left

def normalizeCandidate (id legId : String) (source : QuoteSource) (quote : SourceQuote) :
    PricedCandidate :=
  { id := id
    leg_id := legId
    provider_id := quote.providerId
    available_size := quote.availableSize
    metadata := some (spread (spread [("source", .text source.text)] quote.names) quote.metadata)
    provider_type := source.providerType
    quoted_price := quote.quotedPrice
    fees := quote.fees.getD []
    latency_ms := ⌊quote.latencyMs.getD 0⌋.toNat
    fill_prob := max 0 (min 1 (quote.fillProb.getD (1 / 2))) }

/-- What a discovery draws and reads: fresh ids, and the candidates cached for the RFQ, the quote
and the policy. -/
structure Discovery where
  isUuid : String → Bool
  legUuid : String
  uuid : ℕ → String
  sources : RouteSources
  cached : Option (List PricedCandidate)

/-- The candidates of some legs, with the ids in the order they are drawn. -/
def Discovery.candidatesOf (discovery : Discovery) (legs : List RFQLeg) : List PricedCandidate :=
  let quotes := legs.flatMap fun leg =>
    (discovery.sources.quotesOf leg).map fun quote => (leg.leg_id, quote)
  quotes.zipIdx.map fun entry =>
    normalizeCandidate (discovery.uuid entry.2) entry.1.1 entry.1.2.1 entry.1.2.2

/-- `discoverCandidates`, for a quote of this quantity. -/
def discoverCandidates (discovery : Discovery) (rfq : CanonicalRFQInput) (quantity : ℚ) :
    Except String (List PricedCandidate) :=
  if quantity ≤ 0 then .error "invalid_input"
  else
    let candidates := match discovery.cached with
      | some cached => cached
      | none => discovery.candidatesOf (extractLegs discovery.isUuid discovery.legUuid rfq)
    if candidates.all PricedCandidate.valid then .ok candidates else .error "invalid_candidates"

/-! ## The residual loses its legs -/

theorem parseLeg_residual (isUuid : String → Bool) (remainingSize : String) (leg : Json) :
    parseLeg isUuid (residualLeg remainingSize leg) = none := by
  unfold residualLeg
  cases hfields : spreadFields leg with
  | some fields =>
    have hquantity : List.lookup "quantity" (("target_quantity", Json.string remainingSize) ::
        ("quantity", Json.string remainingSize) :: fields) = some (.string remainingSize) := rfl
    simp only [Json.set, parseLeg, hquantity, parsePositive]
    simp
  | none =>
    cases leg with
    | object fields =>
      cases hfields
    | array items =>
      cases hfields
    | _ => rfl

theorem metadataLegs_residual (rfq : CanonicalRFQInput) (remainingSize : String) :
    (buildResidualRFQ rfq remainingSize).metadataLegs =
      rfq.metadataLegs.map (List.map (residualLeg remainingSize)) := by
  unfold buildResidualRFQ
  cases hlegs : rfq.metadataLegs with
  | none =>
    simp only [CanonicalRFQInput.metadataLegs] at hlegs ⊢
    exact hlegs
  | some legs =>
    obtain ⟨metadata, hmetadata⟩ : ∃ metadata, rfq.metadata = some metadata := by
      cases hmetadata : rfq.metadata with
      | none => simp [CanonicalRFQInput.metadataLegs, hmetadata] at hlegs
      | some metadata => exact ⟨metadata, rfl⟩
    simp [CanonicalRFQInput.metadataLegs, hmetadata, OrderedMap.lookup_set]

/-- **The residual lists no legs.** Whatever legs the metadata of an RFQ lists, the scout makes one
leg of its own for the residual. -/
theorem extractLegs_residual (isUuid : String → Bool) (legUuid : String)
    (rfq : CanonicalRFQInput) (remainingSize : String) :
    ∀ leg ∈ extractLegs isUuid legUuid (buildResidualRFQ rfq remainingSize),
      leg.leg_id = legUuid := by
  have hparsed : ∀ leg legs,
      (buildResidualRFQ rfq remainingSize).listedLegs isUuid ≠ some (leg :: legs) := by
    unfold CanonicalRFQInput.listedLegs
    rw [metadataLegs_residual]
    intro leg legs h
    cases hlegs : rfq.metadataLegs with
    | none => simp [hlegs] at h
    | some items =>
      cases items with
      | nil => simp [hlegs] at h
      | cons item items => simp [hlegs, parseLeg_residual] at h
  unfold extractLegs
  split
  · rename_i leg legs heq
    exact absurd heq (hparsed leg legs)
  · intro leg hleg
    rw [List.mem_singleton.mp hleg]

variable {discovery : Discovery} {rfq : CanonicalRFQInput} {quantity : ℚ}
  {candidates : List PricedCandidate}

/-- **Nothing refers to a listed leg.** What is discovered for the residual of an RFQ, rather than
read from the cache, is for the leg the scout has made. -/
theorem discovered_leg {remainingSize : String} (hmiss : discovery.cached = none)
    (h : discoverCandidates discovery (buildResidualRFQ rfq remainingSize) quantity = .ok
      candidates) : ∀ candidate ∈ candidates, candidate.leg_id = discovery.legUuid := by
  unfold discoverCandidates at h
  split at h
  · cases h
  · simp only [hmiss] at h
    split at h
    · cases h
      intro candidate hcandidate
      obtain ⟨entry, hentry, rfl⟩ := List.mem_map.mp hcandidate
      have hquote := List.fst_mem_of_mem_zipIdx hentry
      obtain ⟨leg, hleg, hquote⟩ := List.mem_flatMap.mp hquote
      obtain ⟨quote, -, hquote⟩ := List.mem_map.mp hquote
      have hid := extractLegs_residual discovery.isUuid discovery.legUuid rfq remainingSize leg hleg
      rw [← hid]
      exact (congrArg Prod.fst hquote).symm
    · cases h

theorem discovered_pos (h : discoverCandidates discovery rfq quantity = .ok candidates) :
    0 < quantity := by
  unfold discoverCandidates at h
  split at h
  · cases h
  · rename_i hpos
    exact not_le.mp hpos

theorem discovered_cached {cached : List PricedCandidate} (hcached : discovery.cached = some cached)
    (h : discoverCandidates discovery rfq quantity = .ok candidates) : candidates = cached := by
  unfold discoverCandidates at h
  split at h
  · cases h
  · simp only [hcached] at h
    split at h
    · cases h
      rfl
    · cases h

end LotusRfq.Sor
