import LotusRfq.Common.Numbers
import LotusRfq.Funding.Types

/-!
# LotusRfq — splitting an amount over venues

A request splits its amount by percentages or by amounts. The validation looks at the percentages
where there are any, the construction at the amounts; a target may give both. Percentages and
shares are worked out with 20 digits.

* **`amounts_sum`** — what the built amounts come to;
* **`split_adds_iff`** — when that is the amount of the request.
-/

namespace LotusRfq.Funding

open Js List

/-- `FundingTargetRequest`, and `WithdrawalSourceRequest` with the source's names. -/
structure SplitRequest where
  venue : FundingVenue
  amount : Option ℚ
  percentage : Option Number

/-- `positiveAmount`, and the range of a percentage. -/
def SplitRequest.inRange (request : SplitRequest) : Prop :=
  (∀ amount, request.amount = some amount → 0 ≤ amount) ∧
    ∀ percentage, request.percentage = some percentage →
      0 < percentage.value ∧ percentage.value ≤ 100

def FundingTargetRequestSchema (request : SplitRequest) : Prop :=
  request.inRange ∧ (request.amount.isSome ∨ request.percentage.isSome)

def WithdrawalSourceRequestSchema (request : SplitRequest) : Prop :=
  request.inRange ∧ (request.amount.isSome ∨ request.percentage.isSome) ∧
    ¬ (request.amount.isSome ∧ request.percentage.isSome)

structure SplitInput where
  amount : ℚ
  requests : List SplitRequest

def CreateFundingIntentSchema (input : SplitInput) : Prop :=
  0 ≤ input.amount ∧ input.requests ≠ [] ∧
    ∀ request ∈ input.requests, FundingTargetRequestSchema request

def CreateWithdrawalIntentSchema (input : SplitInput) : Prop :=
  0 ≤ input.amount ∧ input.requests ≠ [] ∧
    ∀ request ∈ input.requests, WithdrawalSourceRequestSchema request

def SplitInput.percentages (input : SplitInput) : List ℚ :=
  input.requests.filterMap fun request => request.percentage.map Number.value

def plusAll (values : List ℚ) : ℚ := values.foldl (fun sum value => rounded (sum + value)) 0

/-- What the two validations share, with their messages of the code `TARGET_SPLIT_INVALID`. -/
def validateShares (mixed percentages amounts : String) (input : SplitInput) : Except String Unit :=
  if input.percentages ≠ [] ∧ input.percentages.length ≠ input.requests.length then .error mixed
  else if input.percentages ≠ [] then
    if plusAll input.percentages ≠ 100 then .error percentages else .ok ()
  else if plusAll (input.requests.map fun request => request.amount.getD 0) ≠ input.amount then
    .error amounts
  else .ok ()

def validateSplit : SplitInput → Except String Unit :=
  validateShares "Use either percentages for all targets or explicit amounts for all targets."
    "Funding target percentages must sum to 100."
    "Funding target amounts must match source amount."

def validateWithdrawalSplit (input : SplitInput) : Except String Unit :=
  if (input.requests.map SplitRequest.venue).dedup.length ≠ input.requests.length then
    .error "Withdrawal sources must use each venue at most once."
  else
    validateShares
      "Use either percentages for all withdrawal sources or explicit amounts for all sources."
      "Withdrawal source percentages must sum to 100."
      "Withdrawal source amounts must match withdrawal amount." input

/-- `targetAmount` and `sourceAmount`. -/
def amountOf (total : ℚ) (request : SplitRequest) : ℚ :=
  request.amount.getD
    (rounded (rounded (total * (request.percentage.map Number.value).getD 0) / 100))

def buildTargets (preferredToken : FundingVenue → String) (randomUUID : ℕ → String)
    (input : SplitInput) (fundingIntentId : String) : Except String (List FundingTarget) := do
  validateSplit input
  return input.requests.mapIdx fun i request =>
    { fundingTargetId := randomUUID i
      fundingIntentId := fundingIntentId
      targetVenue := request.venue
      targetToken := preferredToken request.venue
      targetAmount := amountOf input.amount request
      status := .LEG_CREATED }

/-- `balances` is the first balance of a venue in the token. -/
def buildWithdrawalSources (supportsWithdrawal : FundingVenue → Bool)
    (balances : FundingVenue → Option ℚ) (randomUUID : ℕ → String) (token : String)
    (input : SplitInput) (withdrawalIntentId : String) :
    Except String (List WithdrawalSource) := do
  validateWithdrawalSplit input
  let sources := input.requests.mapIdx fun i request =>
    { withdrawalSourceId := randomUUID i
      withdrawalIntentId := withdrawalIntentId
      sourceVenue := request.venue
      sourceToken := token
      sourceAmount := amountOf input.amount request
      status := .WITHDRAWAL_LEG_CREATED : WithdrawalSource }
  match input.requests.find? fun request => !supportsWithdrawal request.venue with
  | some request => .error (request.venue.text ++ " withdrawals are not enabled.")
  | none =>
    match sources.find? fun source =>
        (balances source.sourceVenue).all fun available => available < source.sourceAmount with
    | some source => .error (source.sourceVenue.text ++ " venue-ready balance is insufficient.")
    | none => return sources

/-! ## What the amounts come to -/

/-- What a request is given beyond its percentage of the total: its amount where it gives one, and
else what the rounding adds to its share. -/
def beyondShare (total : ℚ) (request : SplitRequest) : ℚ :=
  let share := total * (request.percentage.map Number.value).getD 0 / 100
  match request.amount with
  | some amount => amount - share
  | none => rounded (rounded (share * 100) / 100) - share

/-- With percentages, what is given beyond them makes up for what they leave of the total; without,
the amounts come to it, none of their digits lost. -/
def SplitAdds (input : SplitInput) : Prop :=
  if input.percentages = [] then
    (input.requests.map fun request => request.amount.getD 0).sum = input.amount
  else (input.requests.map (beyondShare input.amount)).sum =
    input.amount * (100 - input.percentages.sum) / 100

theorem amountOf_eq (total : ℚ) (request : SplitRequest) :
    amountOf total request = beyondShare total request +
      total * (request.percentage.map Number.value).getD 0 / 100 := by
  unfold amountOf beyondShare
  cases request.amount with
  | some amount => simp
  | none => simp

/-- **What the amounts come to**: the percentages of the total, and what is given beyond them. -/
theorem amounts_sum (total : ℚ) (requests : List SplitRequest) :
    (requests.map (amountOf total)).sum = (requests.map (beyondShare total)).sum +
      total * (requests.filterMap fun request => request.percentage.map Number.value).sum /
        100 := by
  induction requests with
  | nil => simp
  | cons request rest ih =>
    rw [map_cons, sum_cons, map_cons, sum_cons, ih, amountOf_eq, filterMap_cons]
    cases request.percentage with
    | none => simp; ring
    | some percentage => simp; ring

variable {input : SplitInput}

theorem sum_eq_iff
    (hgiven : ∀ request ∈ input.requests, request.amount.isSome ∨ request.percentage.isSome) :
    (input.requests.map (amountOf input.amount)).sum = input.amount ↔ SplitAdds input := by
  unfold SplitAdds
  split
  next hnone =>
    have hamounts : input.requests.map (amountOf input.amount) =
        input.requests.map fun request => request.amount.getD 0 := by
      refine map_congr_left fun request hrequest => ?_
      have hpercentage : request.percentage = none := by
        simpa using filterMap_eq_nil_iff.mp hnone request hrequest
      obtain ⟨amount, hamount⟩ := Option.isSome_iff_exists.mp
        ((hgiven request hrequest).resolve_right (by rw [hpercentage]; decide))
      rw [amountOf, hamount]
      rfl
    rw [hamounts]
  next =>
    rw [amounts_sum, ← SplitInput.percentages]
    constructor
    · intro h
      linarith
    · intro h
      linarith

theorem buildTargets_ok {preferredToken : FundingVenue → String} {randomUUID : ℕ → String}
    {fundingIntentId : String} {targets : List FundingTarget}
    (h : buildTargets preferredToken randomUUID input fundingIntentId = .ok targets) :
    targets.map FundingTarget.targetAmount = input.requests.map (amountOf input.amount) := by
  unfold buildTargets at h
  cases hvalid : validateSplit input with
  | error error =>
    rw [hvalid] at h
    cases h
  | ok =>
    rw [hvalid] at h
    cases h
    exact ext_getElem? fun i => by simp [Function.comp_def]

theorem buildWithdrawalSources_ok {supportsWithdrawal : FundingVenue → Bool}
    {balances : FundingVenue → Option ℚ} {randomUUID : ℕ → String}
    {token withdrawalIntentId : String} {sources : List WithdrawalSource}
    (h : buildWithdrawalSources supportsWithdrawal balances randomUUID token input
      withdrawalIntentId = .ok sources) :
    sources.map WithdrawalSource.sourceAmount = input.requests.map (amountOf input.amount) := by
  unfold buildWithdrawalSources at h
  cases hvalid : validateWithdrawalSplit input with
  | error error =>
    rw [hvalid] at h
    cases h
  | ok =>
    rw [hvalid] at h
    simp only [bind, Except.bind] at h
    split at h
    · cases h
    split at h
    · cases h
    cases h
    exact ext_getElem? fun i => by simp [Function.comp_def]

/-- Two halves, one of which also gives an amount. -/
def halfAndMore : SplitInput :=
  ⟨100, [⟨.POLYMARKET, some 70, some (.ofInt 50 (by decide))⟩,
    ⟨.LIMITLESS, none, some (.ofInt 50 (by decide))⟩]⟩

theorem halfAndMore_valid : CreateFundingIntentSchema halfAndMore := by
  refine ⟨by decide, by simp [halfAndMore], ?_⟩
  simp [halfAndMore, FundingTargetRequestSchema, SplitRequest.inRange, Number.ofInt]
  norm_num

theorem halfAndMore_built : ∃ targets,
    buildTargets (fun _ => "USDC") Nat.repr halfAndMore "1" = .ok targets := by
  have hvalid : validateSplit halfAndMore = .ok () := by decide +kernel
  unfold buildTargets
  rw [hvalid]
  exact ⟨_, rfl⟩

end LotusRfq.Funding
