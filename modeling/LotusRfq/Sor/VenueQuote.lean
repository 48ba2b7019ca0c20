import LotusRfq.Common.Exposure
import LotusRfq.Common.Js
import LotusRfq.Lib.GreedyFill

/-!
# LotusRfq — the quote of a venue

`calculateVenueQuote` walks the usable levels of a book from the best price on. That is the cheapest
way to buy an amount and the dearest to sell it, in whatever order the levels come.

* **`calculateVenueQuote_optimal`** — what the fill, its price and the scores are.
-/

namespace LotusRfq.Sor

open Js GreedyFill

/-! ## The source -/

structure NormalizedQuoteLevel where
  price : ℚ
  size : ℚ
  deriving DecidableEq, Repr

def NormalizedQuoteLevel.usable (level : NormalizedQuoteLevel) : Bool :=
  0 < level.price && 0 < level.size

/-- The best price for the taker of the other side first: asks ascend, bids descend. -/
def normalizeBook (levels : List NormalizedQuoteLevel) : Side → List NormalizedQuoteLevel
  | .buy => sortWith (fun left right => compare left.price right.price)
      (levels.filter NormalizedQuoteLevel.usable)
  | .sell => sortWith (fun left right => compare right.price left.price)
      (levels.filter NormalizedQuoteLevel.usable)

/-- The loop of `walkBook`: the filled size and the notional. -/
def walkLevels : List NormalizedQuoteLevel → (remaining filledSize notional : ℚ) → ℚ × ℚ
  | [], _, filledSize, notional => (filledSize, notional)
  | level :: rest, remaining, filledSize, notional =>
    if remaining ≤ 0 then (filledSize, notional)
    else
      let size := min remaining level.size
      walkLevels rest (remaining - size) (filledSize + size) (notional + size * level.price)

open NormalizedQuoteLevel (price usable)

def bps (numerator denominator : ℚ) : ℚ :=
  if denominator ≤ 0 then 0 else numerator / denominator * 10000

def roundNumber (value : ℚ) : ℚ := toDecimalPlaces 12 value

/-- The fill, and the fields of the result that are computed from it. -/
structure VenueQuote where
  filledSize : ℚ
  notional : ℚ
  weightedPrice : ℚ
  topPrice : Option ℚ
  slippage : ℚ
  price : ℚ
  availableSize : ℚ
  spreadBps : ℚ
  slippageBps : ℚ
  liquidityScore : ℚ
  deriving DecidableEq, Repr

def calculateVenueQuote (bids asks : List NormalizedQuoteLevel) (side : Side) (amount : ℚ) :
    VenueQuote :=
  let bids := normalizeBook bids .sell
  let asks := normalizeBook asks .buy
  let bestBid := bids.head?.map price
  let bestAsk := asks.head?.map price
  let bookSide := if side = .buy then asks else bids
  let topPrice := if side = .buy then bestAsk else bestBid
  let (filledSize, notional) := walkLevels bookSide amount 0 0
  let totalDepth := (bookSide.map (·.size)).sum
  let weightedPrice := if 0 < filledSize then notional / filledSize else 0
  let spreadBps :=
    match bestBid, bestAsk with
    | some bestBid, some bestAsk => bps (bestAsk - bestBid) ((bestBid + bestAsk) / 2)
    | _, _ => 0
  let slippageBps :=
    match topPrice with
    | none => 0
    | some topPrice =>
      if side = .buy then bps (weightedPrice - topPrice) topPrice
      else bps (topPrice - weightedPrice) topPrice
  let utilization := if 0 < totalDepth then filledSize / totalDepth else 1
  { filledSize := filledSize
    notional := notional
    weightedPrice := weightedPrice
    topPrice := topPrice
    slippage := slippageBps
    price := roundNumber weightedPrice
    availableSize := roundNumber totalDepth
    spreadBps := roundNumber (max 0 spreadBps)
    slippageBps := roundNumber (max 0 slippageBps)
    liquidityScore := roundNumber
      (max 0 (min 1 (1 - spreadBps / 2000 - slippageBps / 2000 - utilization * (1 / 4)))) }

/-! ## What the taker pays -/

/-- A price as a cost to the taker: of two, the greater is the worse. -/
def signed : Side → ℚ → ℚ
  | .buy, price => price
  | .sell, price => -price

def usableLevels (bids asks : List NormalizedQuoteLevel) : Side → List NormalizedQuoteLevel
  | .buy => asks.filter usable
  | .sell => bids.filter usable

def bookSide (bids asks : List NormalizedQuoteLevel) : Side → List NormalizedQuoteLevel
  | .buy => normalizeBook asks .buy
  | .sell => normalizeBook bids .sell

abbrev walk (bids asks : List NormalizedQuoteLevel) (side : Side) (amount : ℚ) :
    List (NormalizedQuoteLevel × ℚ) :=
  greedy (·.size) (bookSide bids asks side) amount

section

variable {bids asks : List NormalizedQuoteLevel} {side : Side} {amount : ℚ}

theorem bookSide_perm (bids asks : List NormalizedQuoteLevel) (side : Side) :
    (bookSide bids asks side).Perm (usableLevels bids asks side) := by
  cases side with
  | buy => exact sortWith_perm _ _
  | sell => exact sortWith_perm _ _

theorem bookSide_usable {level : NormalizedQuoteLevel} (h : level ∈ bookSide bids asks side) :
    0 < level.price ∧ 0 < level.size := by
  have hmem := (bookSide_perm bids asks side).mem_iff.mp h
  cases side <;> simpa [usableLevels, usable] using (List.mem_filter.mp hmem).2

theorem bookSide_sorted (bids asks : List NormalizedQuoteLevel) (side : Side) :
    (bookSide bids asks side).Pairwise fun a b => signed side a.price ≤ signed side b.price := by
  cases side with
  | buy =>
    have := transCmp_ascending compare price
    refine (List.pairwise_insertionSort (notAfter _) _).imp fun hle => ?_
    exact not_lt.mp fun hlt => hle (compare_gt_iff_gt.mpr hlt)
  | sell =>
    have := transCmp_descending compare price
    refine (List.pairwise_insertionSort (notAfter _) _).imp fun hle => neg_le_neg ?_
    exact not_lt.mp fun hlt => hle (compare_gt_iff_gt.mpr hlt)

theorem walkLevels_eq {levels : List NormalizedQuoteLevel} (hsize : ∀ level ∈ levels, 0 ≤ level.size)
    {remaining : ℚ} (hremaining : 0 ≤ remaining) (filledSize notional : ℚ) :
    walkLevels levels remaining filledSize notional =
      (filledSize + ((greedy (·.size) levels remaining).map Prod.snd).sum,
        notional + total price (greedy (·.size) levels remaining)) := by
  induction levels generalizing remaining filledSize notional with
  | nil => simp [walkLevels, greedy, total]
  | cons level rest ih =>
    rw [walkLevels]
    split
    next hle =>
      rw [le_antisymm hle hremaining, greedy_zero hsize]
      simp [total, Function.comp_def]
    next hlt =>
      rw [ih (fun other hother => hsize other (List.mem_cons_of_mem _ hother))
        (sub_nonneg.mpr (min_le_left _ _)), min_comm]
      simp [greedy, total, add_assoc]

theorem total_signed (side : Side) (parts : List (NormalizedQuoteLevel × ℚ)) :
    total (fun level => signed side level.price) parts = signed side (total price parts) := by
  cases side with
  | buy => rfl
  | sell =>
    simp only [total, signed, mul_neg, neg_eq_neg_one_mul (_ * _)]
    rw [List.sum_map_mul_left, neg_one_mul]

theorem walk_way (hamount : 0 ≤ amount) : Way (·.size) (usableLevels bids asks side)
    (min amount ((usableLevels bids asks side).map (·.size)).sum) (walk bids asks side amount) := by
  have hsize : ∀ level ∈ bookSide bids asks side, 0 ≤ level.size :=
    fun level hlevel => (bookSide_usable hlevel).2.le
  have hway := greedy_way hsize hamount
  rw [((bookSide_perm bids asks side).map (·.size)).sum_eq] at hway
  exact ⟨hway.offers.trans (bookSide_perm bids asks side), hway.bounds, hway.amount⟩

theorem walk_least (hamount : 0 ≤ amount) {parts : List (NormalizedQuoteLevel × ℚ)}
    (h : Way (·.size) (usableLevels bids asks side)
      (min amount ((usableLevels bids asks side).map (·.size)).sum) parts) :
    signed side (total price (walk bids asks side amount)) ≤ signed side (total price parts) := by
  rw [← total_signed, ← total_signed]
  refine greedy_least (bookSide_sorted bids asks side)
    (fun level hlevel => (bookSide_usable hlevel).2.le) hamount ⟨?_, h.bounds, ?_⟩
  · exact h.offers.trans (bookSide_perm bids asks side).symm
  · rw [h.amount, ((bookSide_perm bids asks side).map (·.size)).sum_eq]

theorem signed_injective (side : Side) {x y : ℚ} (h : signed side x = signed side y) : x = y := by
  cases side with
  | buy => exact h
  | sell => exact neg_inj.mp h

theorem signed_div (side : Side) (x y : ℚ) : signed side (x / y) = signed side x / y := by
  cases side with
  | buy => rfl
  | sell => exact (neg_div y x).symm

theorem calculateVenueQuote_fill (bids asks : List NormalizedQuoteLevel) (side : Side)
    (hamount : 0 < amount) :
    let quote := calculateVenueQuote bids asks side amount
    quote.filledSize =
        min amount ((usableLevels bids asks side).map (·.size)).sum ∧
      quote.notional = total price (walk bids asks side amount) ∧
      quote.weightedPrice = (if 0 < quote.filledSize then quote.notional / quote.filledSize
        else 0) ∧
      quote.topPrice = (bookSide bids asks side).head?.map price := by
  have hsize : ∀ level ∈ bookSide bids asks side, 0 ≤ level.size :=
    fun level hlevel => (bookSide_usable hlevel).2.le
  have hloop := walkLevels_eq hsize hamount.le 0 0
  rw [zero_add, zero_add, (walk_way hamount.le).amount] at hloop
  cases side with
  | buy =>
    simp only [bookSide] at hloop
    simp only [calculateVenueQuote, if_pos, hloop]
    exact ⟨trivial, rfl, trivial, rfl⟩
  | sell =>
    simp only [bookSide] at hloop
    simp only [calculateVenueQuote, reduceCtorEq, if_false, hloop]
    exact ⟨trivial, rfl, trivial, rfl⟩

theorem walk_best {top : NormalizedQuoteLevel} (h : (bookSide bids asks side).head? = some top) :
    ∀ level ∈ usableLevels bids asks side, signed side top.price ≤ signed side level.price := by
  intro level hlevel
  have hmem := (bookSide_perm bids asks side).mem_iff.mpr hlevel
  have hsorted := bookSide_sorted bids asks side
  obtain ⟨rest, hrest⟩ := List.head?_eq_some_iff.mp h
  rw [hrest] at hmem hsorted
  rcases List.mem_cons.mp hmem with rfl | hmem
  · exact le_rfl
  · exact (List.pairwise_cons.mp hsorted).1 level hmem

theorem filled_pos (hamount : 0 < amount) {top : NormalizedQuoteLevel}
    (h : (bookSide bids asks side).head? = some top) :
    0 < min amount ((usableLevels bids asks side).map (·.size)).sum := by
  have hmem := (bookSide_perm bids asks side).mem_iff.mp (List.mem_of_head? h)
  have hsize : ∀ size ∈ (usableLevels bids asks side).map (·.size), 0 ≤ size := by
    intro size hsize
    obtain ⟨level, hlevel, rfl⟩ := List.mem_map.mp hsize
    exact (bookSide_usable ((bookSide_perm bids asks side).mem_iff.mpr hlevel)).2.le
  refine lt_min hamount ((bookSide_usable (List.mem_of_head? h)).2.trans_le ?_)
  exact List.single_le_sum hsize _ (List.mem_map_of_mem hmem)

theorem roundNumber_nonneg {x : ℚ} (hx : 0 ≤ x) : 0 ≤ roundNumber x := by
  rw [roundNumber, toDecimalPlaces, if_pos hx]
  have hfloor : 0 ≤ ⌊x * 10 ^ 12 + 1 / 2⌋ := Int.floor_nonneg.mpr (by positivity)
  exact div_nonneg (by exact_mod_cast hfloor) (by positivity)

theorem roundNumber_le_one {x : ℚ} (hx : 0 ≤ x) (hle : x ≤ 1) : roundNumber x ≤ 1 := by
  rw [roundNumber, toDecimalPlaces, if_pos hx, div_le_one (by positivity)]
  have hfloor : ⌊x * 10 ^ 12 + 1 / 2⌋ < 10 ^ 12 + 1 := by
    rw [Int.floor_lt]
    push_cast
    linarith
  exact_mod_cast Int.lt_add_one_iff.mp hfloor

structure Optimal (bids asks : List NormalizedQuoteLevel) (side : Side) (amount : ℚ)
    (quote : VenueQuote) : Prop where
  filledSize : quote.filledSize =
    min amount ((usableLevels bids asks side).map (·.size)).sum
  attained : ∃ parts, Way (·.size) (usableLevels bids asks side)
    quote.filledSize parts ∧ total price parts = quote.notional
  best : ∀ parts, Way (·.size) (usableLevels bids asks side)
    quote.filledSize parts →
      signed side quote.notional ≤ signed side (total price parts)
  between : usableLevels bids asks side ≠ [] → ∃ top, quote.topPrice = some top ∧
    signed side top ≤ signed side quote.weightedPrice ∧
    ∃ part ∈ walk bids asks side amount, 0 < part.2 ∧
      signed side quote.weightedPrice ≤ signed side part.1.price
  reordered : ∀ bids' asks', bids.Perm bids' → asks.Perm asks' →
    let quote' := calculateVenueQuote bids' asks' side amount
    (quote'.filledSize, quote'.notional, quote'.weightedPrice) =
      (quote.filledSize, quote.notional, quote.weightedPrice)
  grows : usableLevels bids asks side ≠ [] → ∀ more ≥ amount, signed side quote.weightedPrice ≤
    signed side (calculateVenueQuote bids asks side more).weightedPrice
  slippage : 0 ≤ quote.slippage ∧ 0 ≤ quote.slippageBps
  liquidityScore : 0 ≤ quote.liquidityScore ∧ quote.liquidityScore ≤ 1

theorem exists_top (h : usableLevels bids asks side ≠ []) :
    ∃ top, (bookSide bids asks side).head? = some top := by
  cases hbook : bookSide bids asks side with
  | nil => exact absurd ((hbook ▸ bookSide_perm bids asks side).symm.eq_nil) h
  | cons top rest => exact ⟨top, rfl⟩

theorem between_of_top (hamount : 0 < amount) {top : NormalizedQuoteLevel}
    (h : (bookSide bids asks side).head? = some top) :
    let quote := calculateVenueQuote bids asks side amount
    quote.topPrice = some top.price ∧ signed side top.price ≤ signed side quote.weightedPrice ∧
      ∃ part ∈ walk bids asks side amount, 0 < part.2 ∧
        signed side quote.weightedPrice ≤ signed side part.1.price := by
  have hpos := filled_pos hamount h
  obtain ⟨hfilled, hnotional, hweighted, htop⟩ := calculateVenueQuote_fill bids asks side hamount
  intro quote
  have haverage := (walk_way hamount.le).average hpos (walk_best h)
  rw [if_pos (hfilled ▸ hpos), hfilled, hnotional] at hweighted
  rw [total_signed, ← signed_div, ← hweighted] at haverage
  rw [h] at htop
  exact ⟨htop, haverage⟩

theorem bps_nonneg {numerator denominator : ℚ} (h : 0 ≤ numerator) : 0 ≤ bps numerator denominator := by
  unfold bps
  split
  next => exact le_rfl
  next hpos => exact mul_nonneg (div_nonneg h (not_le.mp hpos).le) (by norm_num)

theorem slippage_nonneg (hamount : 0 < amount) :
    0 ≤ (calculateVenueQuote bids asks side amount).slippage := by
  have hslippage : (calculateVenueQuote bids asks side amount).slippage =
      match (calculateVenueQuote bids asks side amount).topPrice with
      | none => 0
      | some topPrice =>
        if side = .buy then
          bps ((calculateVenueQuote bids asks side amount).weightedPrice - topPrice) topPrice
        else bps (topPrice - (calculateVenueQuote bids asks side amount).weightedPrice) topPrice :=
    rfl
  rw [hslippage, (calculateVenueQuote_fill bids asks side hamount).2.2.2]
  cases htop : (bookSide bids asks side).head? with
  | none => exact le_rfl
  | some top =>
    have hle := (between_of_top hamount htop).2.1
    cases side with
    | buy => exact bps_nonneg (sub_nonneg.mpr hle)
    | sell => exact bps_nonneg (sub_nonneg.mpr (neg_le_neg_iff.mp hle))

/-- **A quote is the best way to take its size**, whatever the order of the levels. -/
theorem calculateVenueQuote_optimal (bids asks : List NormalizedQuoteLevel) (side : Side)
    {amount : ℚ} (hamount : 0 < amount) :
    Optimal bids asks side amount (calculateVenueQuote bids asks side amount) := by
  obtain ⟨hfilled, hnotional, hweighted, htop⟩ := calculateVenueQuote_fill bids asks side hamount
  refine ⟨hfilled, ⟨_, hfilled ▸ walk_way hamount.le, hnotional.symm⟩, fun parts hparts => ?_,
    fun hsome => ?_, fun bids' asks' hbids hasks => ?_, fun hsome more hmore => ?_,
    ⟨slippage_nonneg hamount, roundNumber_nonneg (le_max_left _ _)⟩,
    roundNumber_nonneg (le_max_left _ _),
    roundNumber_le_one (le_max_left _ _) (max_le zero_le_one (min_le_left _ _))⟩
  · rw [hnotional]
    exact walk_least hamount.le (hfilled ▸ hparts)
  · obtain ⟨top, h⟩ := exists_top hsome
    exact ⟨top.price, between_of_top hamount h⟩
  · -- the least cost of a size depends on the levels only
    have hlevels : (usableLevels bids asks side).Perm (usableLevels bids' asks' side) := by
      cases side with
      | buy => exact hasks.filter _
      | sell => exact hbids.filter _
    have hsum := (hlevels.map (·.size)).sum_eq
    obtain ⟨hfilled', hnotional', hweighted', -⟩ :=
      calculateVenueQuote_fill bids' asks' side hamount
    have hway : Way (·.size) (usableLevels bids asks side) _
        (walk bids asks side amount) := walk_way hamount.le
    have hway' : Way (·.size) (usableLevels bids' asks' side) _
        (walk bids' asks' side amount) := walk_way hamount.le
    have htotal := signed_injective side (le_antisymm
      (walk_least hamount.le ⟨hway.offers.trans hlevels, hway.bounds, hsum ▸ hway.amount⟩)
      (walk_least hamount.le ⟨hway'.offers.trans hlevels.symm, hway'.bounds, hsum ▸ hway'.amount⟩))
    intro quote'
    rw [hweighted, hweighted', hnotional, hnotional', hfilled, hfilled', hsum, htotal]
  · obtain ⟨top, h⟩ := exists_top hsome
    have hmore' := hamount.trans_le hmore
    obtain ⟨hfilled', hnotional', hweighted', -⟩ := calculateVenueQuote_fill bids asks side hmore'
    have hmono := greedy_average_mono (bookSide_sorted bids asks side)
      (fun level hlevel => (bookSide_usable hlevel).2.le) hamount.le hmore
    rw [((bookSide_perm bids asks side).map (·.size)).sum_eq, total_signed,
      total_signed, ← signed_div, ← signed_div] at hmono
    rw [hweighted, hweighted', if_pos (hfilled ▸ filled_pos hamount h),
      if_pos (hfilled' ▸ filled_pos hmore' h), hfilled, hfilled', hnotional, hnotional']
    exact hmono (filled_pos hamount h)

/-- A book with a level that cannot be used, and two that are out of order. -/
theorem calculateVenueQuote_optimal_two :
    Optimal [] [⟨3/5, 10⟩, ⟨0, 5⟩, ⟨1/2, 4⟩] .buy 6
      (calculateVenueQuote [] [⟨3/5, 10⟩, ⟨0, 5⟩, ⟨1/2, 4⟩] .buy 6) :=
  calculateVenueQuote_optimal [] [⟨3/5, 10⟩, ⟨0, 5⟩, ⟨1/2, 4⟩] .buy (by norm_num)

end

end LotusRfq.Sor
