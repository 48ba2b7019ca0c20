import LotusRfq.Common.Numbers

/-!
# LotusRfq — the amounts of a Polymarket market buy

The collateral of an order is a multiple of a cent and its shares are a multiple of a
hundred-thousandth, both in millionths, and their quotient is a price on the market's grid. The
search goes down from the price of the signed amounts to the quoted one, and at each price it
takes as many shares as there are.

* **`step_dvd_iff`** — the shares whose collateral is a whole number of cents;
* **`marketBuyAmounts_spec`** — the search finds the highest price that has amounts, if any has.
-/

namespace LotusRfq.Bundles

open Js

/-- `PolymarketTickSize`: 0.1 and so on. -/
inductive PolymarketTickSize where
  | tenth
  | hundredth
  | thousandth
  | tenThousandth

structure TickFraction where
  numerator : ℕ
  denominator : ℕ

/-- The digits behind the point, which are zeros and a last one. -/
def PolymarketTickSize.fractional : PolymarketTickSize → ℕ
  | .tenth => 1
  | .hundredth => 2
  | .thousandth => 3
  | .tenThousandth => 4

def polymarketTickFraction (tickSize : PolymarketTickSize) : TickFraction :=
  ⟨1, 10 ^ tickSize.fractional⟩

/-- What the grid's prices are multiples of. -/
def PolymarketTickSize.value (tickSize : PolymarketTickSize) : ℚ :=
  (polymarketTickFraction tickSize).numerator / (polymarketTickFraction tickSize).denominator

def POLYMARKET_MARKET_BUY_COLLATERAL_QUANTUM_ATOMIC : ℕ := 10000

def POLYMARKET_MARKET_BUY_SHARE_QUANTUM_ATOMIC : ℕ := 10

def roundDownAtomic (value quantum : ℕ) : ℕ := value / quantum * quantum

def quantizedTakerAmount (takerAmount : ℕ+) : ℕ :=
  roundDownAtomic takerAmount POLYMARKET_MARKET_BUY_SHARE_QUANTUM_ATOMIC

/-- The loop of `gcd`. -/
def gcd (a b : ℕ) : ℕ :=
  if b = 0 then a else gcd b (a % b)
termination_by b
decreasing_by exact Nat.mod_lt a (Nat.pos_of_ne_zero (by assumption))

def lcm (left right : ℕ) : ℕ := left / gcd left right * right

def polymarketTakerStepForCollateralPrecision (ticks : ℕ) (tick : TickFraction) : ℕ :=
  let denominator := tick.denominator * POLYMARKET_MARKET_BUY_COLLATERAL_QUANTUM_ATOMIC
  let numerator := ticks * tick.numerator
  lcm POLYMARKET_MARKET_BUY_SHARE_QUANTUM_ATOMIC (denominator / gcd denominator numerator)

/-- A price that is not finite is `none`. -/
def polymarketMinimumBuyTicks (quotedPrice : Option Number) (tick : TickFraction) : ℕ :=
  match quotedPrice with
  | none => 1
  | some price =>
    if price.value ≤ 0 then 1
    else ⌈rounded (rounded (price.value * tick.denominator) / tick.numerator)⌉₊

structure OrderAmounts where
  makerAmount : ℕ
  takerAmount : ℕ

/-- One turn of the search. Where it goes on, there is `none`. -/
def candidateAmounts (makerAmount quantizedTakerAmount : ℕ) (tick : TickFraction) (ticks : ℕ) :
    Option OrderAmounts :=
  let takerStep := polymarketTakerStepForCollateralPrecision ticks tick
  let candidateTaker := roundDownAtomic quantizedTakerAmount takerStep
  if candidateTaker = 0 then none
  else
    let numerator := candidateTaker * ticks * tick.numerator
    if numerator % tick.denominator ≠ 0 then none
    else
      let candidateMaker := numerator / tick.denominator
      if 0 < candidateMaker ∧ candidateMaker ≤ makerAmount ∧
          candidateMaker % POLYMARKET_MARKET_BUY_COLLATERAL_QUANTUM_ATOMIC = 0 then
        some ⟨candidateMaker, candidateTaker⟩
      else none

/-- The loop of the search, from its first ticks down to the least. -/
def searchTicks (candidate : ℕ → Option OrderAmounts) (minTicks : ℕ) : ℕ → Option OrderAmounts
  | 0 => none
  | ticks + 1 =>
    if ticks + 1 < minTicks then none
    else
      match candidate (ticks + 1) with
      | some amounts => some amounts
      | none => searchTicks candidate minTicks ticks

/-- The amounts come parsed, above zero. -/
def polymarketVenuePrecisionMarketBuyAmounts (makerAmount takerAmount : ℕ+)
    (quantizedTakerAmount : ℕ) (tickSize : PolymarketTickSize) (quotedPrice : Option Number) :
    Option OrderAmounts :=
  let tick := polymarketTickFraction tickSize
  let maxTicks := (makerAmount : ℕ) * tick.denominator / (takerAmount * tick.numerator)
  let minTicks := polymarketMinimumBuyTicks quotedPrice tick
  if maxTicks = 0 ∨ minTicks = 0 ∨ maxTicks < minTicks then none
  else searchTicks (candidateAmounts makerAmount quantizedTakerAmount tick) minTicks maxTicks

/-! ## The steps of the shares -/

theorem gcd_eq (a b : ℕ) : gcd a b = Nat.gcd a b := by
  induction a, b using gcd.induct with
  | case1 a => rw [gcd, if_pos rfl, Nat.gcd_zero_right]
  | case2 a b hb ih =>
    rw [gcd, if_neg hb, ih, Nat.gcd_comm a b]
    exact (Nat.gcd_rec b a).symm ▸ Nat.gcd_comm _ _

theorem lcm_eq (left right : ℕ) : lcm left right = Nat.lcm left right := by
  rw [lcm, gcd_eq, Nat.lcm_eq_mul_div, Nat.div_mul_right_comm (Nat.gcd_dvd_left left right)]

theorem denominator_pos (tickSize : PolymarketTickSize) :
    0 < (polymarketTickFraction tickSize).denominator := Nat.pow_pos (by decide)

/-- **The step of a price.** The shares are a multiple of it where they are of their own quantum
and the collateral is of its. -/
theorem step_dvd_iff {tickSize : PolymarketTickSize} {ticks shares : ℕ} :
    polymarketTakerStepForCollateralPrecision ticks (polymarketTickFraction tickSize) ∣ shares ↔
      POLYMARKET_MARKET_BUY_SHARE_QUANTUM_ATOMIC ∣ shares ∧
      (polymarketTickFraction tickSize).denominator *
        POLYMARKET_MARKET_BUY_COLLATERAL_QUANTUM_ATOMIC ∣ shares * ticks := by
  have hpos : 0 < (polymarketTickFraction tickSize).denominator *
      POLYMARKET_MARKET_BUY_COLLATERAL_QUANTUM_ATOMIC :=
    Nat.mul_pos (denominator_pos tickSize) (by decide)
  have hone : ticks * (polymarketTickFraction tickSize).numerator = ticks := Nat.mul_one ticks
  rw [polymarketTakerStepForCollateralPrecision, lcm_eq, Nat.lcm_dvd_iff, gcd_eq, hone,
    Nat.div_dvd_iff_dvd_mul (Nat.gcd_dvd_left _ _) (Nat.gcd_pos_of_pos_left _ hpos),
    Nat.mul_comm (Nat.gcd _ _), Nat.dvd_mul_gcd_iff_dvd_mul]

theorem roundDownAtomic_le (value quantum : ℕ) : roundDownAtomic value quantum ≤ value :=
  Nat.div_mul_le_self value quantum

theorem dvd_roundDownAtomic (value quantum : ℕ) : quantum ∣ roundDownAtomic value quantum :=
  Nat.dvd_mul_left quantum _

theorem le_roundDownAtomic {value quantum other : ℕ} (hdvd : quantum ∣ other)
    (hle : other ≤ value) : other ≤ roundDownAtomic value quantum := by
  obtain ⟨count, rfl⟩ := hdvd
  rcases Nat.eq_zero_or_pos quantum with rfl | hpos
  · simp
  · rw [roundDownAtomic, Nat.mul_comm quantum]
    exact Nat.mul_le_mul_right quantum ((Nat.le_div_iff_mul_le hpos).mpr (by rwa [Nat.mul_comm]))

/-! ## The bounds of the search -/

section

variable {tickSize : PolymarketTickSize} {quotedPrice : Option Number} {ticks : ℕ}

theorem value_eq (tickSize : PolymarketTickSize) :
    tickSize.value = 1 / (10 : ℚ) ^ tickSize.fractional := by
  simp [PolymarketTickSize.value, polymarketTickFraction]

theorem minimumBuyTicks_le_iff (hticks : 0 < ticks) :
    polymarketMinimumBuyTicks quotedPrice (polymarketTickFraction tickSize) ≤ ticks ↔
      ∀ price, quotedPrice = some price → price.value ≤ ticks * tickSize.value := by
  cases quotedPrice with
  | none =>
    show 1 ≤ ticks ↔ _
    simp
    omega
  | some price =>
    have hscale : (0 : ℚ) < 10 ^ tickSize.fractional := by positivity
    have hexact : rounded (rounded (price.value * (polymarketTickFraction tickSize).denominator) /
        (polymarketTickFraction tickSize).numerator) = price.value * 10 ^ tickSize.fractional := by
      simp [polymarketTickFraction, exact_of_scale]
    simp only [polymarketMinimumBuyTicks, Option.some.injEq, forall_eq', hexact, value_eq]
    split
    · next hnone =>
      have hle : price.value ≤ ticks * (1 / 10 ^ tickSize.fractional) := hnone.trans (by positivity)
      exact iff_of_true (Nat.succ_le_of_lt hticks) hle
    · rw [Nat.ceil_le, mul_one_div, le_div_iff₀ hscale]

theorem minimumBuyTicks_pos :
    0 < polymarketMinimumBuyTicks quotedPrice (polymarketTickFraction tickSize) := by
  by_contra hnone
  have hle : polymarketMinimumBuyTicks quotedPrice (polymarketTickFraction tickSize) = 0 := by
    omega
  cases quotedPrice with
  | none => cases hle
  | some price =>
    simp only [polymarketMinimumBuyTicks] at hle
    split at hle
    · cases hle
    · next hpos =>
      have hscale : (0 : ℚ) < 10 ^ tickSize.fractional := by positivity
      have hzero : price.value * 10 ^ tickSize.fractional ≤ 0 := by
        simpa [polymarketTickFraction, exact_of_scale] using hle
      exact hpos (nonpos_of_mul_nonpos_left hzero hscale)

theorem le_maxTicks_iff {makerAmount takerAmount : ℕ+} :
    ticks ≤ (makerAmount : ℕ) * (polymarketTickFraction tickSize).denominator /
        (takerAmount * (polymarketTickFraction tickSize).numerator) ↔
      ticks * tickSize.value ≤ (makerAmount : ℚ) / (takerAmount : ℚ) := by
  have hscale : (0 : ℚ) < 10 ^ tickSize.fractional := by positivity
  have htaker : (0 : ℚ) < (takerAmount : ℕ) := by exact_mod_cast takerAmount.pos
  simp only [polymarketTickFraction, Nat.mul_one, value_eq]
  rw [Nat.le_div_iff_mul_le takerAmount.pos, mul_one_div, div_le_div_iff₀ hscale htaker]
  exact_mod_cast Iff.rfl

end

/-! ## What the search finds -/

theorem searchTicks_eq_some {candidate : ℕ → Option OrderAmounts} {minTicks maxTicks : ℕ}
    {amounts : OrderAmounts} (h : searchTicks candidate minTicks maxTicks = some amounts) :
    ∃ ticks, 0 < ticks ∧ minTicks ≤ ticks ∧ ticks ≤ maxTicks ∧ candidate ticks = some amounts ∧
      ∀ other, ticks < other → other ≤ maxTicks → candidate other = none := by
  induction maxTicks with
  | zero => cases h
  | succ maxTicks ih =>
    rw [searchTicks] at h
    split at h
    · cases h
    · next hle =>
      split at h
      · next found hfound =>
        cases h
        exact ⟨maxTicks + 1, by omega, by omega, le_rfl, hfound, fun other => by omega⟩
      · next hnone =>
        obtain ⟨ticks, hpos, hmin, hmax, hticks, habove⟩ := ih h
        refine ⟨ticks, hpos, hmin, by omega, hticks, fun other hlt hother => ?_⟩
        rcases Nat.lt_or_ge maxTicks other with hlast | hbelow
        · rwa [show other = maxTicks + 1 by omega]
        · exact habove other hlt hbelow

theorem searchTicks_eq_none {candidate : ℕ → Option OrderAmounts} {minTicks maxTicks : ℕ}
    (h : searchTicks candidate minTicks maxTicks = none) {ticks : ℕ} (hpos : 0 < ticks)
    (hmin : minTicks ≤ ticks) (hmax : ticks ≤ maxTicks) : candidate ticks = none := by
  induction maxTicks with
  | zero => omega
  | succ maxTicks ih =>
    rw [searchTicks, if_neg (by omega)] at h
    split at h
    · cases h
    · next hnone =>
      rcases Nat.lt_or_ge maxTicks ticks with hlast | hbelow
      · rwa [show ticks = maxTicks + 1 by omega]
      · exact ih h hbelow

section

variable (makerAmount takerAmount : ℕ+) (tickSize : PolymarketTickSize)
  (quotedPrice : Option Number)

/-- Amounts that the venue takes, at a price of that many ticks. -/
structure Feasible (ticks : ℕ) (amounts : OrderAmounts) : Prop where
  ticks_pos : 0 < ticks
  taker_pos : 0 < amounts.takerAmount
  taker_le : amounts.takerAmount ≤ quantizedTakerAmount takerAmount
  taker_dvd : POLYMARKET_MARKET_BUY_SHARE_QUANTUM_ATOMIC ∣ amounts.takerAmount
  maker_le : amounts.makerAmount ≤ makerAmount
  maker_dvd : POLYMARKET_MARKET_BUY_COLLATERAL_QUANTUM_ATOMIC ∣ amounts.makerAmount
  price : (amounts.makerAmount : ℚ) / amounts.takerAmount = ticks * tickSize.value
  quoted : ∀ price, quotedPrice = some price →
    price.value ≤ (amounts.makerAmount : ℚ) / amounts.takerAmount
  signed : (amounts.makerAmount : ℚ) / amounts.takerAmount ≤ (makerAmount : ℚ) / (takerAmount : ℚ)

variable {makerAmount takerAmount tickSize quotedPrice} {ticks : ℕ} {amounts : OrderAmounts}

theorem price_eq_iff {maker taker : ℕ} (htaker : 0 < taker) :
    (maker : ℚ) / taker = ticks * tickSize.value ↔
      taker * ticks = maker * (polymarketTickFraction tickSize).denominator := by
  have hscale : (10 : ℚ) ^ tickSize.fractional ≠ 0 := by positivity
  have hne : (taker : ℚ) ≠ 0 := by exact_mod_cast htaker.ne'
  rw [value_eq, mul_one_div, div_eq_div_iff hne hscale, eq_comm, mul_comm (ticks : ℚ)]
  simp only [polymarketTickFraction]
  exact_mod_cast Iff.rfl

/-- **A turn at a price within the bounds** passes its checks: as many shares as there are, and
the collateral they cost. -/
theorem candidateAmounts_eq (hticks : 0 < ticks)
    (hsigned : ticks * tickSize.value ≤ (makerAmount : ℚ) / (takerAmount : ℚ)) :
    let shares := roundDownAtomic (quantizedTakerAmount takerAmount)
      (polymarketTakerStepForCollateralPrecision ticks (polymarketTickFraction tickSize))
    candidateAmounts makerAmount (quantizedTakerAmount takerAmount)
        (polymarketTickFraction tickSize) ticks =
      if shares = 0 then none
      else some ⟨shares * ticks / (polymarketTickFraction tickSize).denominator, shares⟩ := by
  intro shares
  unfold candidateAmounts
  simp only
  split
  · rfl
  next hshares =>
    have hstep : polymarketTakerStepForCollateralPrecision ticks
        (polymarketTickFraction tickSize) ∣ shares := dvd_roundDownAtomic _ _
    have hdenominator := denominator_pos tickSize
    obtain ⟨-, cents, hcents⟩ := step_dvd_iff.mp hstep
    have hone : shares * ticks * (polymarketTickFraction tickSize).numerator = shares * ticks :=
      Nat.mul_one _
    have hmaker : shares * ticks / (polymarketTickFraction tickSize).denominator =
        POLYMARKET_MARKET_BUY_COLLATERAL_QUANTUM_ATOMIC * cents := by
      rw [hcents, Nat.mul_assoc]
      exact Nat.mul_div_cancel_left _ hdenominator
    have hpositive : 0 < shares * ticks := Nat.mul_pos (Nat.pos_of_ne_zero hshares) hticks
    rw [hone, if_neg (by rw [hcents, Nat.mul_assoc, Nat.mul_mod_right]; simp), if_pos]
    refine ⟨?_, ?_, by rw [hmaker]; exact Nat.mul_mod_right _ _⟩
    · rw [hmaker]
      rcases Nat.eq_zero_or_pos cents with rfl | hsome
      · rw [Nat.mul_zero] at hcents
        omega
      · exact Nat.mul_pos (by decide) hsome
    · -- fewer shares than were signed for, at a price that is not above the signed one
      have hle : shares ≤ takerAmount := (roundDownAtomic_le _ _).trans (roundDownAtomic_le _ _)
      have hpaid : 0 < (takerAmount : ℕ) * (polymarketTickFraction tickSize).numerator :=
        Nat.mul_pos takerAmount.pos Nat.one_pos
      rw [← le_maxTicks_iff, Nat.le_div_iff_mul_le hpaid] at hsigned
      refine Nat.div_le_of_le_mul ?_
      calc shares * ticks ≤ takerAmount * ticks := Nat.mul_le_mul_right ticks hle
        _ = ticks * (takerAmount * (polymarketTickFraction tickSize).numerator) := by
            rw [Nat.mul_comm]
            exact congrArg (ticks * ·) (Nat.mul_one _).symm
        _ ≤ _ := hsigned.trans_eq (Nat.mul_comm _ _)

theorem feasible_of_candidate (hticks : 0 < ticks)
    (hsigned : ticks * tickSize.value ≤ (makerAmount : ℚ) / (takerAmount : ℚ))
    (hquoted : ∀ price, quotedPrice = some price → price.value ≤ ticks * tickSize.value)
    (h : candidateAmounts makerAmount (quantizedTakerAmount takerAmount)
      (polymarketTickFraction tickSize) ticks = some amounts) :
    Feasible makerAmount takerAmount tickSize quotedPrice ticks amounts := by
  have hmaker : amounts.makerAmount ≤ makerAmount := by
    unfold candidateAmounts at h
    simp only at h
    split at h
    · cases h
    split at h
    · cases h
    split at h
    · next hchecks =>
      cases h
      exact hchecks.2.1
    · cases h
  rw [candidateAmounts_eq hticks hsigned] at h
  split at h
  · cases h
  next hshares =>
    cases h
    have hpos := Nat.pos_of_ne_zero hshares
    obtain ⟨htaker, hdvd⟩ := step_dvd_iff.mp
      (dvd_roundDownAtomic (quantizedTakerAmount takerAmount) _)
    have hprice := (@price_eq_iff tickSize ticks _ _ hpos).mpr
      (Nat.div_mul_cancel (dvd_of_mul_right_dvd hdvd)).symm
    exact ⟨hticks, hpos, roundDownAtomic_le _ _, htaker, hmaker,
      Nat.dvd_div_of_mul_dvd hdvd, hprice,
      fun price hsome => (hquoted price hsome).trans_eq hprice.symm, hprice.trans_le hsigned⟩

theorem Feasible.found (h : Feasible makerAmount takerAmount tickSize quotedPrice ticks amounts) :
    polymarketMinimumBuyTicks quotedPrice (polymarketTickFraction tickSize) ≤ ticks ∧
      ticks * tickSize.value ≤ (makerAmount : ℚ) / (takerAmount : ℚ) ∧
      candidateAmounts makerAmount (quantizedTakerAmount takerAmount)
        (polymarketTickFraction tickSize) ticks ≠ none := by
  have hsigned := h.price.symm.trans_le h.signed
  refine ⟨(minimumBuyTicks_le_iff h.ticks_pos).mpr fun price hsome =>
    (h.quoted price hsome).trans_eq h.price, hsigned, ?_⟩
  have hstep : polymarketTakerStepForCollateralPrecision ticks
      (polymarketTickFraction tickSize) ∣ amounts.takerAmount := by
    refine step_dvd_iff.mpr ⟨h.taker_dvd, ?_⟩
    rw [(price_eq_iff h.taker_pos).mp h.price, Nat.mul_comm]
    exact Nat.mul_dvd_mul_right h.maker_dvd _
  have hshares := le_roundDownAtomic hstep h.taker_le
  rw [candidateAmounts_eq h.ticks_pos hsigned, if_neg (by have := h.taker_pos; omega)]
  simp

variable (makerAmount takerAmount tickSize quotedPrice)

/-- Feasible amounts at the highest price that has some. -/
def Best (amounts : OrderAmounts) : Prop :=
  ∃ ticks, Feasible makerAmount takerAmount tickSize quotedPrice ticks amounts ∧
    ∀ other otherAmounts, Feasible makerAmount takerAmount tickSize quotedPrice other
      otherAmounts → other ≤ ticks

theorem best_of_some (h : polymarketVenuePrecisionMarketBuyAmounts makerAmount takerAmount
    (quantizedTakerAmount takerAmount) tickSize quotedPrice = some amounts) :
    Best makerAmount takerAmount tickSize quotedPrice amounts := by
  unfold polymarketVenuePrecisionMarketBuyAmounts at h
  simp only at h
  split at h
  · cases h
  obtain ⟨ticks, hpos, hmin, hmax, hcandidate, habove⟩ := searchTicks_eq_some h
  refine ⟨ticks, feasible_of_candidate hpos (le_maxTicks_iff.mp hmax)
    ((minimumBuyTicks_le_iff hpos).mp hmin) hcandidate, fun other otherAmounts hother => ?_⟩
  by_contra hlt
  obtain ⟨-, hsigned, hsome⟩ := hother.found
  exact hsome (habove other (by omega) (le_maxTicks_iff.mpr hsigned))

/-- **The amounts of a market buy.** They are found where there are any, at the highest price that
has some; and the checks of a turn that has shares are always passed. -/
theorem marketBuyAmounts_spec :
    (∀ amounts, polymarketVenuePrecisionMarketBuyAmounts makerAmount takerAmount
        (quantizedTakerAmount takerAmount) tickSize quotedPrice = some amounts →
      Best makerAmount takerAmount tickSize quotedPrice amounts) ∧
    (polymarketVenuePrecisionMarketBuyAmounts makerAmount takerAmount
        (quantizedTakerAmount takerAmount) tickSize quotedPrice = none ↔
      ¬ ∃ ticks amounts, Feasible makerAmount takerAmount tickSize quotedPrice ticks amounts) ∧
    ∀ ticks quantized,
      let tick := polymarketTickFraction tickSize
      let numerator := roundDownAtomic quantized
        (polymarketTakerStepForCollateralPrecision ticks tick) * ticks * tick.numerator
      numerator % tick.denominator = 0 ∧
        numerator / tick.denominator % POLYMARKET_MARKET_BUY_COLLATERAL_QUANTUM_ATOMIC = 0 := by
  refine ⟨fun amounts h => best_of_some _ _ _ _ h, ⟨fun h hsome => ?_, fun h => ?_⟩,
    fun ticks quantized => ?_⟩
  · obtain ⟨ticks, amounts, hfeasible⟩ := hsome
    obtain ⟨hmin, hsigned, hcandidate⟩ := hfeasible.found
    have hmax := le_maxTicks_iff.mpr hsigned
    have hpos := hfeasible.ticks_pos
    have hleast := @minimumBuyTicks_pos tickSize quotedPrice
    unfold polymarketVenuePrecisionMarketBuyAmounts at h
    simp only at h
    rw [if_neg (by omega)] at h
    exact hcandidate (searchTicks_eq_none h hpos hmin hmax)
  · by_contra hne
    obtain ⟨amounts, hamounts⟩ := Option.ne_none_iff_exists'.mp hne
    obtain ⟨ticks, hfeasible, -⟩ := best_of_some _ _ _ _ hamounts
    exact h ⟨ticks, amounts, hfeasible⟩
  · intro tick numerator
    obtain ⟨-, hdvd⟩ := step_dvd_iff.mp (dvd_roundDownAtomic quantized
      (polymarketTakerStepForCollateralPrecision ticks tick))
    rw [show numerator = _ * ticks from Nat.mul_one _]
    exact ⟨Nat.mod_eq_zero_of_dvd (dvd_of_mul_right_dvd hdvd),
      Nat.mod_eq_zero_of_dvd (Nat.dvd_div_of_mul_dvd hdvd)⟩

end

end LotusRfq.Bundles
