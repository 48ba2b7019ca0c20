import LotusRfq.Routing.Scores
import Mathlib.Algebra.BigOperators.Ring.List

/-!
# LotusRfq — how much an exit sells

An exit sells a percentage of every verified position, or a custom amount: from the position of one
venue, or from all positions in proportion. The sizes are written by `decimal`, which may write more
than a position has.

* **`percent_within_iff`**, **`single_within_iff`**, **`all_within_iff`** — the three ways to sell;
* **`exit_within_iff`** — when an exit sells no more than it may.
-/

namespace LotusRfq.Routing

open List

inductive SellMode where
  | SINGLE_VENUE_SELL | SELL_ALL

inductive SellSizeMode where
  | PERCENT | CUSTOM_AMOUNT

inductive PositionStatus where
  | VERIFIED | PENDING | RECOVERY | DISABLED
deriving DecidableEq

structure VerifiedExecutionPosition where
  positionId : String
  venue : String
  verifiedSize : ℚ
  averageEntryPrice : ℚ
  sellableSize : ℚ
  status : PositionStatus
deriving DecidableEq

/-- The rows of `user_execution_positions` for a user, a market and an outcome. -/
structure PositionRows where
  rows : List VerifiedExecutionPosition
  ids : (rows.map VerifiedExecutionPosition.positionId).Nodup
  /-- `uq_user_execution_positions` -/
  venues : (rows.map VerifiedExecutionPosition.venue).Nodup
  sizes : ∀ position ∈ rows, 0 ≤ position.sellableSize

structure PrepareExitRequest where
  sellMode : SellMode
  venue : Option String := none
  sizeMode : SellSizeMode
  percent : Option ℕ := none
  amount : Option ℚ≥0 := none
  candidates : List TradeRouteCandidate

/-- `Number(input.amount ?? "")` -/
def PrepareExitRequest.customAmount (input : PrepareExitRequest) : ℚ :=
  (input.amount.getD 0 : ℚ≥0)

structure PreparedSellAllocation where
  venue : String
  positionId : String
  sellSize : ℚ
  availableSize : ℚ
  price : ℚ
deriving DecidableEq

def PositionRows.listVerifiedPositions (table : PositionRows) (venue : Option String) :
    List VerifiedExecutionPosition :=
  table.rows.filter fun position => 0 < position.verifiedSize ∧ position.status = .VERIFIED ∧
    ∀ v ∈ venue, position.venue = v

/-- The venue is given trimmed. -/
def requireVenue (venue : Option String) : Except String String :=
  match venue with
  | none => .error "SINGLE_VENUE_SELL requires venue."
  | some venue => if venue = "" then .error "SINGLE_VENUE_SELL requires venue." else .ok venue

def verifiedPositions (table : PositionRows) (input : PrepareExitRequest) :
    Except String (List VerifiedExecutionPosition) := do
  let venue ← match input.sellMode with
    | .SINGLE_VENUE_SELL => some <$> requireVenue input.venue
    | .SELL_ALL => .ok none
  return (table.listVerifiedPositions venue).filter fun position =>
    position.status = .VERIFIED ∧ 0 < position.sellableSize

def sellableTotal (positions : List VerifiedExecutionPosition) : ℚ :=
  (positions.map VerifiedExecutionPosition.sellableSize).sum

def sellAllocation (input : PrepareExitRequest) (position : VerifiedExecutionPosition) (size : ℚ) :
    PreparedSellAllocation where
  venue := position.venue
  positionId := position.positionId
  sellSize := decimal size
  availableSize := decimal position.sellableSize
  price := ((candidateByVenue input.candidates position.venue).map
    TradeRouteCandidate.price).getD position.averageEntryPrice

def allocateEach (input : PrepareExitRequest) (positions : List VerifiedExecutionPosition)
    (size : VerifiedExecutionPosition → ℚ) : List PreparedSellAllocation :=
  (positions.map fun position => sellAllocation input position (size position)).filter
    fun allocation => 0 < allocation.sellSize

def allocateSellSizes (input : PrepareExitRequest) (positions : List VerifiedExecutionPosition) :
    Except String (List PreparedSellAllocation) :=
  match input.sizeMode with
  | .PERCENT =>
    let percent := input.percent.getD 0
    if percent ≠ 25 ∧ percent ≠ 50 ∧ percent ≠ 100 then
      .error "Sell percent must be 25, 50, or 100."
    else .ok (allocateEach input positions fun position => position.sellableSize * percent / 100)
  | .CUSTOM_AMOUNT =>
    let customAmount := input.customAmount
    if customAmount ≤ 0 then .error "amount must be greater than zero."
    else if sellableTotal positions < customAmount then
      .error "Custom sell amount cannot exceed verified sellable position size."
    else
      match input.sellMode with
      | .SINGLE_VENUE_SELL =>
        .ok ((positions.take 1).map fun position => sellAllocation input position customAmount)
      | .SELL_ALL =>
        .ok (allocateEach input positions fun position =>
          customAmount * (position.sellableSize / sellableTotal positions))

def prepareExit (table : PositionRows) (input : PrepareExitRequest) :
    Except String (List PreparedSellAllocation) := do
  let positions ← verifiedPositions table input
  if positions = [] then return []
  allocateSellSizes input positions

/-! ## What an exit may sell -/

/-- The custom amount of the request, else all that is sellable. -/
def exitLimit (input : PrepareExitRequest) (positions : List VerifiedExecutionPosition) : ℚ :=
  match input.sizeMode with
  | .PERCENT => sellableTotal positions
  | .CUSTOM_AMOUNT => input.customAmount

/-- No allocation is above the sellable size of its position, nor all of them above the limit. -/
def Within (table : PositionRows) (allocations : List PreparedSellAllocation) (limit : ℚ) : Prop :=
  (∀ allocation ∈ allocations, ∃ position ∈ table.rows,
    position.positionId = allocation.positionId ∧ allocation.sellSize ≤ position.sellableSize) ∧
  (allocations.map PreparedSellAllocation.sellSize).sum ≤ limit

def shareOf (positions : List VerifiedExecutionPosition) (amount : ℚ)
    (position : VerifiedExecutionPosition) : ℚ :=
  amount * (position.sellableSize / sellableTotal positions)

def NotRoundedUp (input : PrepareExitRequest) (positions : List VerifiedExecutionPosition) : Prop :=
  match input.sizeMode, input.sellMode with
  | .PERCENT, _ =>
    input.percent = some 100 → ∀ position ∈ positions, rounding position.sellableSize ≤ 0
  | .CUSTOM_AMOUNT, .SINGLE_VENUE_SELL => rounding input.customAmount ≤ 0
  | .CUSTOM_AMOUNT, .SELL_ALL =>
    (∀ position ∈ positions, rounding (shareOf positions input.customAmount position) ≤
      position.sellableSize - shareOf positions input.customAmount position) ∧
    (positions.map fun position =>
      rounding (shareOf positions input.customAmount position)).sum ≤ 0

/-- An amount that is sold is one above zero and at most what is sellable. -/
def Sellable (input : PrepareExitRequest) (positions : List VerifiedExecutionPosition) : Prop :=
  input.sizeMode = .CUSTOM_AMOUNT →
    0 < input.customAmount ∧ input.customAmount ≤ sellableTotal positions

/-! ## The positions of an exit -/

variable {amount : ℚ}

section

variable {table : PositionRows} {input : PrepareExitRequest}
  {held : List VerifiedExecutionPosition}

/-- The positions of an exit are rows with something to sell, of one venue if it is for one. -/
theorem verifiedPositions_eq (hpositions : verifiedPositions table input = .ok held) :
    held.Sublist table.rows ∧ (∀ position ∈ held, 0 < position.sellableSize) ∧
      (input.sellMode = .SINGLE_VENUE_SELL →
        ∃ venue, ∀ position ∈ held, position.venue = venue) := by
  have hfiltered : ∃ venue, held = (table.listVerifiedPositions venue).filter (fun position =>
      position.status = .VERIFIED ∧ 0 < position.sellableSize) ∧
      (input.sellMode = .SINGLE_VENUE_SELL → ∃ v, venue = some v) := by
    unfold verifiedPositions at hpositions
    cases hmode : input.sellMode with
    | SINGLE_VENUE_SELL =>
      rw [hmode] at hpositions
      cases hvenue : requireVenue input.venue with
      | error message => simp [hvenue, bind, Except.bind] at hpositions
      | ok venue =>
        rw [hvenue] at hpositions
        exact ⟨some venue, (Except.ok.inj hpositions).symm, fun _ => ⟨venue, rfl⟩⟩
    | SELL_ALL =>
      rw [hmode] at hpositions
      exact ⟨none, (Except.ok.inj hpositions).symm, nofun⟩
  obtain ⟨venue, rfl, hsingle⟩ := hfiltered
  refine ⟨filter_sublist.trans filter_sublist, ?_, ?_⟩
  · intro position hmem
    simp only [mem_filter, decide_eq_true_eq] at hmem
    exact hmem.2.2
  · intro hmode
    obtain ⟨v, rfl⟩ := hsingle hmode
    refine ⟨v, fun position hmem => ?_⟩
    simp only [PositionRows.listVerifiedPositions, mem_filter, decide_eq_true_eq,
      Option.mem_def, Option.some.injEq, forall_eq'] at hmem
    exact hmem.1.2.2.2

theorem eq_of_venue (hsublist : held.Sublist table.rows) {venue : String}
    (hvenue : ∀ position ∈ held, position.venue = venue) (hne : held ≠ []) :
    ∃ position, held = [position] := by
  match held, hne with
  | [position], _ => exact ⟨position, rfl⟩
  | first :: second :: rest, _ =>
    have hnodup := (hsublist.map VerifiedExecutionPosition.venue).nodup table.venues
    simp only [map_cons, nodup_cons, mem_cons, not_or] at hnodup
    exact absurd ((hvenue first (by simp)).trans (hvenue second (by simp)).symm) hnodup.1.1

theorem eq_of_positionId {first second : VerifiedExecutionPosition} (hfirst : first ∈ table.rows)
    (hsecond : second ∈ table.rows) (hid : first.positionId = second.positionId) : first = second :=
  inj_on_of_nodup_map table.ids hfirst hsecond hid

theorem exists_position_iff {position : VerifiedExecutionPosition} (hrow : position ∈ table.rows)
    (size : ℚ) :
    (∃ other ∈ table.rows, other.positionId = (sellAllocation input position size).positionId ∧
      (sellAllocation input position size).sellSize ≤ other.sellableSize) ↔
    rounding size ≤ position.sellableSize - size := by
  have hsize : (sellAllocation input position size).sellSize = size + rounding size :=
    decimal_eq size
  rw [hsize]
  constructor
  · intro ⟨other, hother, hid, hle⟩
    rw [eq_of_positionId hother hrow hid] at hle
    linarith
  · intro hle
    exact ⟨position, hrow, rfl, by linarith⟩

variable {size : VerifiedExecutionPosition → ℚ}

theorem allocateEach_within_iff (hsublist : held.Sublist table.rows)
    (hpositive : ∀ position ∈ held, 0 < position.sellableSize) :
    (∀ allocation ∈ allocateEach input held size, ∃ position ∈ table.rows,
      position.positionId = allocation.positionId ∧ allocation.sellSize ≤ position.sellableSize) ↔
    ∀ position ∈ held, rounding (size position) ≤ position.sellableSize - size position := by
  simp only [allocateEach, mem_filter, mem_map, decide_eq_true_eq]
  constructor
  · intro hall position hmem
    by_cases hsold : 0 < (sellAllocation input position (size position)).sellSize
    · exact (exists_position_iff (hsublist.subset hmem) _).mp
        (hall _ ⟨⟨position, hmem, rfl⟩, hsold⟩)
    · -- Nothing of the position is sold.
      have hnone : size position + rounding (size position) ≤ 0 := by
        rw [← decimal_eq]
        exact not_lt.mp hsold
      have hsellable := hpositive position hmem
      linarith
  · rintro hall allocation ⟨⟨position, hmem, rfl⟩, -⟩
    exact (exists_position_iff (hsublist.subset hmem) _).mpr (hall position hmem)

theorem allocateEach_sum (hnonneg : ∀ position ∈ held, 0 ≤ size position) :
    ((allocateEach input held size).map PreparedSellAllocation.sellSize).sum =
      (held.map size).sum + (held.map fun position => rounding (size position)).sum := by
  induction held with
  | nil => simp [allocateEach]
  | cons position rest ih =>
    have htail := ih fun other hother => hnonneg other (mem_cons_of_mem _ hother)
    have hhead : 0 ≤ decimal (size position) := decimal_nonneg (hnonneg position mem_cons_self)
    have hsize : (sellAllocation input position (size position)).sellSize =
        decimal (size position) := rfl
    have hrounding := decimal_eq (size position)
    unfold allocateEach at htail ⊢
    rw [map_cons, filter_cons]
    by_cases hsold : 0 < decimal (size position)
    · rw [if_pos (by simpa [hsize] using hsold), map_cons, sum_cons, htail, hsize]
      simp only [map_cons, sum_cons]
      linarith
    · rw [if_neg (by simpa [hsize] using hsold), htail]
      simp only [map_cons, sum_cons]
      linarith

theorem within_each_iff (hsublist : held.Sublist table.rows)
    (hpositive : ∀ position ∈ held, 0 < position.sellableSize)
    (hnonneg : ∀ position ∈ held, 0 ≤ size position) (limit : ℚ) :
    Within table (allocateEach input held size) limit ↔
      (∀ position ∈ held, rounding (size position) ≤ position.sellableSize - size position) ∧
      (held.map size).sum + (held.map fun position => rounding (size position)).sum ≤
        limit := by
  rw [Within, allocateEach_within_iff hsublist hpositive, allocateEach_sum hnonneg]

/-! ## The three ways to sell -/

theorem percent_within_iff (hsublist : held.Sublist table.rows)
    (hpositive : ∀ position ∈ held, 0 < position.sellableSize) {percent : ℕ}
    (hpercent : percent = 25 ∨ percent = 50 ∨ percent = 100) :
    Within table (allocateEach input held fun position =>
        position.sellableSize * percent / 100) (sellableTotal held) ↔
      (percent = 100 → ∀ position ∈ held, rounding position.sellableSize ≤ 0) := by
  rw [within_each_iff hsublist hpositive (fun position hmem => by
    have hsellable := hpositive position hmem
    positivity)]
  constructor
  · rintro ⟨heach, -⟩ rfl position hmem
    have hle := heach position hmem
    have hwhole : position.sellableSize * (100 : ℕ) / 100 = position.sellableSize := by
      push_cast
      ring
    rw [hwhole] at hle
    linarith
  · intro hrounding
    have heach : ∀ position ∈ held, rounding (position.sellableSize * percent / 100) ≤
        position.sellableSize - position.sellableSize * percent / 100 := by
      intro position hmem
      have hsellable := hpositive position hmem
      by_cases hfull : percent = 100
      · subst hfull
        have hwhole : position.sellableSize * (100 : ℕ) / 100 = position.sellableSize := by
          push_cast
          ring
        rw [hwhole, sub_self]
        exact hrounding rfl position hmem
      · have hhalf : (percent : ℚ) ≤ 50 := by
          have hnat : percent ≤ 50 := by omega
          exact_mod_cast hnat
        have hpart : 0 ≤ position.sellableSize * percent / 100 := by positivity
        have hdouble := decimal_le_double hpart
        rw [decimal_eq] at hdouble
        have hle : 2 * (position.sellableSize * percent / 100) ≤ position.sellableSize := by
          rw [mul_div_assoc', div_le_iff₀ (by norm_num)]
          nlinarith
        linarith
    refine ⟨heach, ?_⟩
    rw [← sum_map_add, sellableTotal]
    refine sum_le_sum fun position hmem => ?_
    have hle := heach position hmem
    linarith

theorem single_within_iff {position : VerifiedExecutionPosition} (hrow : position ∈ table.rows)
    (hle : amount ≤ position.sellableSize) :
    Within table [sellAllocation input position amount] amount ↔ rounding amount ≤ 0 := by
  have hsize : (sellAllocation input position amount).sellSize = amount + rounding amount :=
    decimal_eq amount
  simp only [Within, mem_singleton, forall_eq]
  rw [exists_position_iff hrow, map_singleton, sum_singleton, hsize]
  constructor
  · rintro ⟨-, hsum⟩
    linarith
  · intro hrounding
    constructor <;> linarith

theorem shares_sum (htotal : sellableTotal held ≠ 0) :
    (held.map (shareOf held amount)).sum = amount := by
  unfold shareOf
  simp only [div_eq_mul_inv]
  rw [sum_map_mul_left, sum_map_mul_right, ← sellableTotal, mul_inv_cancel₀ htotal, mul_one]

theorem all_within_iff (hsublist : held.Sublist table.rows)
    (hpositive : ∀ position ∈ held, 0 < position.sellableSize) (hamount : 0 < amount)
    (hle : amount ≤ sellableTotal held) :
    Within table (allocateEach input held (shareOf held amount)) amount ↔
      (∀ position ∈ held, rounding (shareOf held amount position) ≤
        position.sellableSize - shareOf held amount position) ∧
      (held.map fun position => rounding (shareOf held amount position)).sum ≤ 0 := by
  have htotal : 0 < sellableTotal held := hamount.trans_le hle
  rw [within_each_iff hsublist hpositive (fun position hmem => by
    have hsellable := hpositive position hmem
    exact mul_nonneg hamount.le (div_nonneg hsellable.le htotal.le)), shares_sum htotal.ne']
  exact and_congr_right fun _ => add_le_iff_nonpos_right amount

end

/-! ## When an exit sells no more than it may -/

theorem exit_within_iff_of_positions {table : PositionRows} {input : PrepareExitRequest}
    {held : List VerifiedExecutionPosition}
    (hpositions : verifiedPositions table input = .ok held) :
    (∀ allocations, prepareExit table input = .ok allocations →
      Within table allocations (exitLimit input held)) ↔
    (Sellable input held → NotRoundedUp input held) := by
  obtain ⟨hsublist, hpositive, hvenue⟩ := verifiedPositions_eq hpositions
  have hprepare : prepareExit table input =
      if held = [] then .ok [] else allocateSellSizes input held := by
    unfold prepareExit
    rw [hpositions]
    rfl
  rw [hprepare]
  unfold allocateSellSizes exitLimit Sellable NotRoundedUp
  by_cases hempty : held = []
  · -- Nothing is sold.
    subst hempty
    have hamount : 0 ≤ input.customAmount := (input.amount.getD 0).2
    cases input.sizeMode with
    | PERCENT => simp [Within, sellableTotal]
    | CUSTOM_AMOUNT =>
      have hnone : sellableTotal [] = 0 := rfl
      simp only [if_pos, Except.ok.injEq, forall_eq', Within, map_nil, sum_nil, hnone]
      constructor
      · intro _ hsold
        have hpair := hsold trivial
        linarith
      · intro _
        exact ⟨fun _ h => absurd h not_mem_nil, hamount⟩
  · rw [if_neg hempty]
    cases input.sizeMode with
    | PERCENT =>
      by_cases hpercent : input.percent.getD 0 = 25 ∨ input.percent.getD 0 = 50 ∨
          input.percent.getD 0 = 100
      · have hwithin := @percent_within_iff table input held hsublist hpositive _ hpercent
        have hfull : input.percent.getD 0 = 100 ↔ input.percent = some 100 := by
          cases input.percent <;> simp
        simp only [if_neg (show ¬ (input.percent.getD 0 ≠ 25 ∧ input.percent.getD 0 ≠ 50 ∧
          input.percent.getD 0 ≠ 100) by omega), Except.ok.injEq, forall_eq']
        rw [hwithin, hfull]
        exact ⟨fun h _ => h, fun h => h nofun⟩
      · have hother : input.percent ≠ some 100 := by
          intro hfull
          rw [hfull] at hpercent
          exact hpercent (Or.inr (Or.inr rfl))
        simp only [if_pos (show input.percent.getD 0 ≠ 25 ∧ input.percent.getD 0 ≠ 50 ∧
          input.percent.getD 0 ≠ 100 by omega)]
        exact ⟨fun _ _ hfull => absurd hfull hother, nofun⟩
    | CUSTOM_AMOUNT =>
      by_cases hsold : 0 < input.customAmount ∧ input.customAmount ≤ sellableTotal held
      · rw [if_neg (not_le.mpr hsold.1), if_neg (not_lt.mpr hsold.2)]
        simp only [hsold, and_self, forall_const]
        cases hmode : input.sellMode with
        | SINGLE_VENUE_SELL =>
          obtain ⟨venue, hvenue⟩ := hvenue hmode
          obtain ⟨position, rfl⟩ := eq_of_venue hsublist hvenue hempty
          have hle : input.customAmount ≤ position.sellableSize := by
            simpa [sellableTotal] using hsold.2
          simp only [take_succ_cons, take_zero, map_cons, map_nil, Except.ok.injEq, forall_eq']
          exact single_within_iff (hsublist.subset mem_cons_self) hle
        | SELL_ALL =>
          simp only [Except.ok.injEq, forall_eq']
          exact all_within_iff hsublist hpositive hsold.1 hsold.2
      · -- The request is refused.
        refine ⟨fun _ h => absurd (h rfl) hsold, fun _ allocations hallocations => ?_⟩
        by_cases hzero : input.customAmount ≤ 0
        · rw [if_pos hzero] at hallocations
          exact nomatch hallocations
        · rw [if_neg hzero, if_pos (not_le.mp fun h => hsold ⟨not_le.mp hzero, h⟩)] at hallocations
          exact nomatch hallocations

/-- A position of a little under one share. -/
def nearlyOne : PositionRows where
  rows := [⟨"position-1", "POLYMARKET", 199999999 / 200000000, 1 / 2, 199999999 / 200000000,
    .VERIFIED⟩]
  ids := by simp
  venues := by simp
  sizes := by
    simp only [mem_singleton, forall_eq]
    norm_num

def sellAllOfIt : PrepareExitRequest where
  sellMode := .SELL_ALL
  sizeMode := .PERCENT
  percent := some 100
  candidates := []

end LotusRfq.Routing
