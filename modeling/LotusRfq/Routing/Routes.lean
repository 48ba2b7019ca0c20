import LotusRfq.Routing.Scores
import Mathlib.Data.List.Sort

/-!
# LotusRfq — the routes over one venue and over several

The amount of a quote is taken from the candidates in the order of their effective prices, small
candidates last; in staging a large amount is first split over several venues. The better of the
two kinds of route is the quote.
-/

namespace LotusRfq.Routing

inductive SmartRoutePolicyMode where
  | PRODUCTION | STAGING
deriving DecidableEq

structure SmartRoutePolicy where
  mode : SmartRoutePolicyMode := .PRODUCTION
  highNotionalUsd : ℚ := 199
  productionHighNotionalMinBps : ℚ := 0
  productionLowNotionalMinBps : ℚ := 10
  stagingHighNotionalMinBps : ℚ := 0
  stagingLowNotionalMinBps : ℚ := 1
  minimumPositiveImprovement : ℚ := 1 / 1000000
  stagingForcePairNotionalUsd : ℚ := 4995 / 100
  stagingForceExpandedRouteNotionalUsd : ℚ := 500
  stagingForcedRouteMinLegNotionalUsd : ℚ := 1

structure Fill where
  candidate : TradeRouteCandidate
  size : ℚ
deriving DecidableEq

def Fill.leg (fill : Fill) : ExecutableRouteLeg := toLeg fill.candidate fill.size

/-- A scored route beside the fills that its legs are made from and the candidates that its score
looks them up in. -/
structure BuiltRoute where
  fills : List Fill
  sourceCandidates : List TradeRouteCandidate
  route : ScoredRoute

def buildRoute (side : TradeSide) (routeType : TradeRouteType) (fills : List Fill)
    (sourceCandidates : List TradeRouteCandidate) (skippedDustVenues : List String) :
    BuiltRoute where
  fills := fills
  sourceCandidates := sourceCandidates
  route := scoreRoute side routeType (fills.map Fill.leg) sourceCandidates skippedDustVenues

section

variable (side : TradeSide)

/-- `compareCandidatesByEffectivePrice(side, left, right) <= 0` -/
def notAfter (left right : TradeRouteCandidate) : Prop :=
  match side with
  | .buy => effectiveCandidatePrice .buy left left.availableSize ≤
      effectiveCandidatePrice .buy right right.availableSize
  | .sell => effectiveCandidatePrice .sell right right.availableSize ≤
      effectiveCandidatePrice .sell left left.availableSize

instance (left right : TradeRouteCandidate) : Decidable (notAfter side left right) := by
  unfold notAfter
  cases side <;> infer_instance

def sortCandidates (candidates : List TradeRouteCandidate) : List TradeRouteCandidate :=
  candidates.insertionSort fun left right => notAfter side left right

/-! ## Taking the amount from the best candidates -/

structure Allocation where
  remaining : ℚ
  fills : List Fill := []
  skippedDust : List TradeRouteCandidate := []

/-- `const size = Math.min(available, remaining)` and what is done with it. -/
def Allocation.take (allocation : Allocation) (candidate : TradeRouteCandidate) : Allocation :=
  let size := min (candidate.availableSize : ℚ) allocation.remaining
  if size ≤ 0 then allocation
  else { allocation with
    fills := allocation.fills ++ [⟨candidate, size⟩]
    remaining := allocation.remaining - size }

/-- A round of the first loop; after the `break` nothing changes any more. -/
def takeBest (minimumLegSize : ℚ) (allocation : Allocation) (candidate : TradeRouteCandidate) :
    Allocation :=
  let available : ℚ := candidate.availableSize
  if allocation.remaining ≤ 0 then allocation
  else if 0 < available ∧ available < minimumLegSize ∧ minimumLegSize < allocation.remaining then
    { allocation with skippedDust := allocation.skippedDust ++ [candidate] }
  else allocation.take candidate

def takeDust (allocation : Allocation) (candidate : TradeRouteCandidate) : Allocation :=
  if allocation.remaining ≤ routeDustTolerance then allocation else allocation.take candidate

def allocate (executable : List TradeRouteCandidate) (amount : ℚ) : Allocation :=
  let best := (sortCandidates side executable).foldl
    (takeBest (max (1 / 100) (amount * (5 / 100)))) { remaining := amount }
  best.skippedDust.foldl takeDust best

/-! ## Splitting the amount over venues in staging -/

/-- `byVenue.set(venue, candidate)`, where a venue keeps its place. -/
def keepBetter (candidate : TradeRouteCandidate) :
    List TradeRouteCandidate → List TradeRouteCandidate
  | [] => [candidate]
  | current :: rest =>
    if current.venue = candidate.venue then
      (if notAfter side current candidate then current else candidate) :: rest
    else current :: keepBetter candidate rest

def bestExecutableCandidateByVenue (candidates : List TradeRouteCandidate) :
    List TradeRouteCandidate :=
  sortCandidates side (candidates.foldl (fun byVenue candidate => keepBetter side candidate byVenue)
    [])

/-- A `for` loop of the filling: what remains, the fills, and whether it has progressed. -/
def fillPass (remaining : ℚ) : List Fill → ℚ × List Fill × Bool
  | [] => (remaining, [], false)
  | fill :: rest =>
    if remaining ≤ routeDustTolerance then (remaining, fill :: rest, false)
    else
      let available := max 0 ((fill.candidate.availableSize : ℚ) - fill.size)
      if available ≤ routeDustTolerance then
        let (left, fills, progressed) := fillPass remaining rest
        (left, fill :: fills, progressed)
      else
        let size := min available remaining
        let (left, fills, _) := fillPass (remaining - size) rest
        (left, { fill with size := fill.size + size } :: fills, true)

/-- The `while` loop, with the number of its rounds bounded by `fuel`: `none` if that is too few,
`some none` for `null`. -/
def fillAll : ℕ → ℚ → List Fill → Option (Option (List Fill))
  | fuel, remaining, fills =>
    if remaining ≤ routeDustTolerance then some (some fills)
    else
      match fuel with
      | 0 => none
      | fuel + 1 =>
        let (left, filled, progressed) := fillPass remaining fills
        if progressed then fillAll fuel left filled else some none

/-- The candidates are of different venues, so that the maps by venue are lists beside them. -/
def allocateForcedSplit (fuel : ℕ) (candidates : List TradeRouteCandidate)
    (amount minLegSize : ℚ) : Option (Option (List Fill)) :=
  let totalCapacity := (candidates.map fun candidate => (candidate.availableSize : ℚ)).sum
  let baseLegSize := min minLegSize (amount / candidates.length)
  if candidates.length < 2 ∨ totalCapacity + routeDustTolerance < amount ∨
      ∃ candidate ∈ candidates, candidate.availableSize + routeDustTolerance < baseLegSize then
    some none
  else
    (fillAll fuel (amount - candidates.length * baseLegSize)
      ((sortCandidates side candidates).map fun candidate => ⟨candidate, baseLegSize⟩)).map
      (Option.map (List.filter fun fill => routeDustTolerance < fill.size))

def stagingForcedMinimumLegSize (policy : SmartRoutePolicy)
    (candidates : List TradeRouteCandidate) (amount : ℚ) : ℚ :=
  let prices := candidates.map fun candidate =>
    effectiveCandidatePrice side candidate candidate.availableSize
  let bestPrice := max (1 / 1000000) (prices.foldl min (prices.headD 0))
  let minByNotional := policy.stagingForcedRouteMinLegNotionalUsd / bestPrice
  max (1 / 1000000) (min (amount * (2 / 100)) minByNotional)

/-- `amount * bestReferencePrice` -/
def estimatedNotional (best : List TradeRouteCandidate) (amount : ℚ) : ℚ :=
  match best with
  | [] => 0
  | first :: _ => amount * effectiveCandidatePrice side first first.availableSize

def desiredVenueCount (policy : SmartRoutePolicy) (best : List TradeRouteCandidate) (amount : ℚ) :
    ℕ :=
  if policy.stagingForceExpandedRouteNotionalUsd ≤ estimatedNotional side best amount then
    min best.length 4
  else 2

def selectedCandidates (policy : SmartRoutePolicy) (executable : List TradeRouteCandidate)
    (amount : ℚ) : List TradeRouteCandidate :=
  let best := bestExecutableCandidateByVenue side executable
  best.take (desiredVenueCount side policy best amount)

/-- The fills of `buildStagingPreferredMultiVenueRoute`; its `while` loop has two rounds at most. -/
def stagingFills (policy : SmartRoutePolicy) (executable : List TradeRouteCandidate) (amount : ℚ) :
    Option (List Fill) :=
  let best := bestExecutableCandidateByVenue side executable
  let selected := selectedCandidates side policy executable amount
  let minLegSize := stagingForcedMinimumLegSize side policy selected amount
  if policy.mode ≠ .STAGING ∨ best.length < 2 ∨
      estimatedNotional side best amount < policy.stagingForcePairNotionalUsd ∨
      ∃ candidate ∈ selected, (candidate.availableSize : ℚ) < minLegSize then none
  else
    match allocateForcedSplit side 2 selected amount minLegSize with
    | some (some fills) =>
      if (fills.map fun fill => fill.candidate.venue).dedup.length <
          desiredVenueCount side policy best amount then none
      else some fills
    | _ => none

/-! ## Choosing a route -/

def buildMultiVenueRoute (policy : SmartRoutePolicy) (executable : List TradeRouteCandidate)
    (amount : ℚ) : Option BuiltRoute :=
  if executable.length < 2 then none
  else
    match stagingFills side policy executable amount with
    | some fills =>
      let built := buildRoute side .CROSS_VENUE fills executable []
      some { built with route := { built.route with stagingForced := true } }
    | none =>
      let allocation := allocate side executable amount
      if routeDustTolerance < allocation.remaining ∨ allocation.fills.length < 2 ∨
          (allocation.fills.map fun fill => fill.candidate.venue).dedup.length < 2 then none
      else
        some (buildRoute side .CROSS_VENUE allocation.fills executable
          (allocation.skippedDust.map TradeRouteCandidate.venue))

/-- `left.score - right.score <= 0` of a buy, the other way round of a sell. -/
def scoredNotAfter (left right : ScoredRoute) : Prop :=
  match side with
  | .buy => left.score ≤ right.score
  | .sell => right.score ≤ left.score

instance (left right : ScoredRoute) : Decidable (scoredNotAfter side left right) := by
  unfold scoredNotAfter
  cases side <;> infer_instance

def singleVenueRoute (candidate : TradeRouteCandidate) (amount : ℚ) : BuiltRoute :=
  buildRoute side .SINGLE_VENUE [⟨candidate, amount⟩] [candidate] []

def buildSingleVenueRoute (executable : List TradeRouteCandidate) (amount : ℚ) :
    Option BuiltRoute :=
  (((executable.filter fun candidate => amount ≤ (candidate.availableSize : ℚ)).map
    fun candidate => singleVenueRoute side candidate amount).insertionSort
      fun left right => scoredNotAfter side left.route right.route).head?

def routeSavings (selected alternative : ScoredRoute) : ℚ :=
  match side with
  | .buy => alternative.effectiveNotional - selected.effectiveNotional
  | .sell => selected.effectiveNotional - alternative.effectiveNotional

def routeImprovementThreshold (policy : SmartRoutePolicy) (singleRoute multiRoute : ScoredRoute) :
    ℚ :=
  let referenceNotional := max (max singleRoute.effectiveNotional multiRoute.effectiveNotional) 0
  let bpsRate := match policy.mode with
    | .STAGING => if policy.highNotionalUsd ≤ referenceNotional then
        policy.stagingHighNotionalMinBps else policy.stagingLowNotionalMinBps
    | .PRODUCTION => if policy.highNotionalUsd ≤ referenceNotional then
        policy.productionHighNotionalMinBps else policy.productionLowNotionalMinBps
  let extraFixedFees : ℚ := (multiRoute.legs.length - singleRoute.legs.length : ℕ) * (1 / 10000)
  max (max policy.minimumPositiveImprovement (referenceNotional * bpsRate / 10000)) extraFixedFees

def chooseRoute (policy : SmartRoutePolicy) :
    Option BuiltRoute → Option BuiltRoute → Option BuiltRoute
  | none, multiRoute => multiRoute
  | some single, none => some single
  | some single, some multi =>
    if multi.route.stagingForced then some multi
    else if routeImprovementThreshold policy single.route multi.route ≤
        routeSavings side multi.route single.route then some multi
    else some single

def selectBestRoute (policy : SmartRoutePolicy) (executable : List TradeRouteCandidate)
    (amount : ℚ) : Option BuiltRoute :=
  chooseRoute side policy (buildSingleVenueRoute side executable amount)
    (buildMultiVenueRoute side policy executable amount)

end

end LotusRfq.Routing
