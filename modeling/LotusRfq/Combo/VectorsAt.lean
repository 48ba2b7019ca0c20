import LotusRfq.Combo.ResidualAllocation
import LotusRfq.Lib.DecimalSums

/-!
# LotusRfq — residual vectors at a precision

`ResidualVectorBuilder` adds decimals of a fixed number of digits. Sizes of one outcome that share
a last place within that many digits are added exactly, and their entry is the net size.

* **`entryOf_vectorAt`** — the entry of an outcome whose sizes fit.
-/

namespace LotusRfq.Combo

open Tables Decimals List

/-! ## At a precision -/

/-- `addTo`, the sum to `precision` digits. -/
def addToAt (precision : ℕ) (totals : SizeVector) (key : String) (size : ℚ) : SizeVector :=
  OrderedMap.set key (toSignificant precision ((totals.lookup key).getD 0 + size)) totals

def vectorAt (precision : ℕ) (legs : List LegRow) : SizeVector :=
  legs.foldl (fun totals leg => addToAt precision totals (legKey leg) (signedSize leg)) []

/-- `ResidualVectorBuilder.build`, its sums to `precision` digits. -/
def buildResidualVectorAt (precision : ℕ) (combo : LoadedCombo) : Except String ResidualVector :=
  let residualLegs := combo.legs.filter fun leg => 0 < leg.remaining_size
  (buildResidualVector combo).map fun vector => { vector with
    vector := vectorAt precision residualLegs
    grossAbsSize := addAll precision 0 (residualLegs.map LegRow.remaining_size) }

/-! ## The legs of an outcome -/

def openSize (combo : LoadedCombo) (key : String) (side : Side) : ℚ :=
  ((combo.legs.filter fun leg => legKey leg = key ∧ leg.side = side).map LegRow.remaining_size).sum

/-- The outcome's sizes are whole at `places`, and each side of it fits. -/
structure LegsFit (precision : ℕ) (places : ℤ) (combo : LoadedCombo) (key : String) : Prop where
  onGrid : ∀ leg ∈ combo.legs, legKey leg = key → OnGrid places leg.remaining_size
  fits : ∀ side, FitsIn precision places (openSize combo key side)

def residualLegsOf (combo : LoadedCombo) (key : String) : List LegRow :=
  (combo.legs.filter fun leg => 0 < leg.remaining_size).filter fun leg => legKey leg = key

def sideOf (signed : ℚ) : Side := if 0 < signed then .buy else .sell

section Vector

variable {precision : ℕ} {places : ℤ} {combo : LoadedCombo} {key : String}

theorem entryOf_foldl_addToAt {α : Type*} (key : α → String) (size : α → ℚ) (items : List α)
    (totals : SizeVector) (k : String) : entryOf (items.foldl (fun totals item =>
        addToAt precision totals (key item) (size item)) totals) k =
      addAll precision (entryOf totals k) ((items.filter fun item => key item = k).map size) := by
  induction items generalizing totals with
  | nil => rfl
  | cons item rest ih =>
    rw [foldl_cons, ih, filter_cons]
    have hentry : entryOf (addToAt precision totals (key item) (size item)) k =
        if k = key item then toSignificant precision (entryOf totals (key item) + size item)
        else entryOf totals k := by
      unfold entryOf addToAt
      rw [OrderedMap.lookup_set]
      split <;> rfl
    by_cases hkey : key item = k
    · subst hkey
      rw [hentry, if_pos rfl, if_pos (decide_eq_true rfl)]
      rfl
    · rw [hentry, if_neg (Ne.symm hkey), if_neg (by simpa using hkey)]

theorem keys_foldl_addToAt {α : Type*} (key : α → String) (size : α → ℚ) (items : List α)
    (totals : SizeVector) : (items.foldl (fun totals item =>
        addToAt precision totals (key item) (size item)) totals).map Prod.fst =
      (items.map key).foldl OrderedMap.addNew (totals.map Prod.fst) := by
  induction items generalizing totals with
  | nil => rfl
  | cons item rest ih => rw [foldl_cons, ih, addToAt, OrderedMap.keys_set]; rfl

theorem exists_leg_of_entry {legs : List LegRow} (h : entryOf (vectorAt precision legs) key ≠ 0) :
    ∃ leg ∈ legs, legKey leg = key := by
  by_contra hnone
  push Not at hnone
  rw [vectorAt, entryOf_foldl_addToAt, filter_eq_nil_iff.mpr fun leg hleg => by
    simpa using hnone leg hleg] at h
  exact h rfl

theorem positives_signedSize (side : Side) (legs : List LegRow)
    (hnonneg : ∀ leg ∈ legs, 0 ≤ leg.remaining_size) :
    positives ((legs.map signedSize).map fun size => if side = .buy then size else -size) =
      ((legs.filter fun leg => leg.side = side).map LegRow.remaining_size).sum := by
  induction legs with
  | nil => rfl
  | cons leg rest ih =>
    have hrest := ih fun other hother => hnonneg other (mem_cons_of_mem _ hother)
    have hleg := hnonneg leg mem_cons_self
    rw [map_cons, map_cons, positives_cons, hrest, filter_cons]
    cases hside : leg.side <;> cases side <;> simp [signedSize, hside, hleg]

theorem sum_remaining_filter_pos (p : LegRow → Bool) (legs : List LegRow)
    (hnonneg : ∀ leg ∈ legs, 0 ≤ leg.remaining_size) :
    ((legs.filter fun leg => p leg && decide (0 < leg.remaining_size)).map
      LegRow.remaining_size).sum = ((legs.filter p).map LegRow.remaining_size).sum := by
  induction legs with
  | nil => rfl
  | cons leg rest ih =>
    have hrest := ih fun other hother => hnonneg other (mem_cons_of_mem _ hother)
    by_cases hpos : 0 < leg.remaining_size
    · by_cases hp : p leg
      · simp [hpos, hp, hrest]
      · simp [hpos, hp, hrest]
    · have hzero : leg.remaining_size = 0 :=
        le_antisymm (not_lt.mp hpos) (hnonneg leg mem_cons_self)
      by_cases hp : p leg
      · simp [hp, hzero, hrest]
      · simp [hp, hpos, hrest]

theorem mem_residualLegsOf {leg : LegRow} (h : leg ∈ residualLegsOf combo key) :
    leg ∈ combo.legs ∧ 0 < leg.remaining_size ∧ legKey leg = key := by
  unfold residualLegsOf at h
  rw [mem_filter, mem_filter, decide_eq_true_eq, decide_eq_true_eq] at h
  exact ⟨h.1.1, h.1.2, h.2⟩

theorem positives_residualLegsOf (side : Side)
    (hnonneg : ∀ leg ∈ combo.legs, 0 ≤ leg.remaining_size) :
    positives (((residualLegsOf combo key).map signedSize).map fun size =>
      if side = .buy then size else -size) = openSize combo key side := by
  rw [positives_signedSize side _ fun leg hleg => (mem_residualLegsOf hleg).2.1.le]
  unfold residualLegsOf openSize
  rw [filter_filter, filter_filter,
    ← sum_remaining_filter_pos (fun leg => legKey leg = key ∧ leg.side = side) _ hnonneg]
  congr 3
  funext leg
  simp only [Bool.decide_and]
  grind

theorem onGrid_signedSize {leg : LegRow} (h : OnGrid places leg.remaining_size) :
    OnGrid places (signedSize leg) := by
  unfold signedSize
  cases leg.side with
  | buy => exact h
  | sell => exact h.neg

theorem netSize_eq (combo : LoadedCombo) (key : String) :
    netSize combo key = openSize combo key .buy - openSize combo key .sell := by
  unfold netSize openSize
  induction combo.legs with
  | nil => simp
  | cons leg rest ih =>
    by_cases hkey : legKey leg = key
    · cases hside : leg.side with
      | buy =>
        simp only [filter_cons, hkey, hside, decide_true, if_true, map_cons,
          sum_cons, ih, signedSize, and_self, reduceCtorEq, and_false, decide_false,
          Bool.false_eq_true, if_false]
        ring
      | sell =>
        simp only [filter_cons, hkey, hside, decide_true, if_true, map_cons,
          sum_cons, ih, signedSize, and_self, reduceCtorEq, and_false, decide_false,
          Bool.false_eq_true, if_false]
        ring
    · simp only [filter_cons, hkey, decide_false, Bool.false_eq_true, if_false, false_and, ih]

theorem entryOf_vectorAt (hnonneg : ∀ leg ∈ combo.legs, 0 ≤ leg.remaining_size)
    (hfit : LegsFit precision places combo key) :
    entryOf (vectorAt precision (combo.legs.filter fun leg => 0 < leg.remaining_size)) key =
      netSize combo key := by
  rw [vectorAt, entryOf_foldl_addToAt, entryOf_nil, netSize,
    ← sum_signedSize_filter_pos combo.legs key hnonneg]
  refine @addAll_eq _ places _ (fun size hsize => ?_) ?_ ?_
  · obtain ⟨leg, hleg, rfl⟩ := mem_map.mp hsize
    obtain ⟨hmem, -, hkey⟩ := mem_residualLegsOf hleg
    exact onGrid_signedSize (hfit.onGrid leg hmem hkey)
  · have hbuy := @positives_residualLegsOf _ key .buy hnonneg
    simp only [if_true, map_id'] at hbuy
    exact hbuy ▸ hfit.fits .buy
  · have hsell := @positives_residualLegsOf _ key .sell hnonneg
    simp only [reduceCtorEq, if_false] at hsell
    exact hsell ▸ hfit.fits .sell

theorem buildResidualVectorAt_ok {combo : LoadedCombo} {vector : ResidualVector}
    (h : buildResidualVectorAt precision combo = .ok vector) :
    (∀ leg ∈ combo.legs, 0 ≤ leg.remaining_size) ∧
      vector.vector = vectorAt precision (combo.legs.filter fun leg => 0 < leg.remaining_size) := by
  unfold buildResidualVectorAt at h
  cases hbuild : buildResidualVector combo with
  | error error =>
    rw [hbuild] at h
    cases h
  | ok exact' =>
    rw [hbuild] at h
    cases h
    exact ⟨(buildResidualVector_vector hbuild).nonneg, rfl⟩

theorem abs_netSize_le {combo : LoadedCombo} {key : String}
    (hnonneg : ∀ leg ∈ combo.legs, 0 ≤ leg.remaining_size) :
    |netSize combo key| ≤ openSize combo key (sideOf (netSize combo key)) := by
  have hopen : ∀ side, 0 ≤ openSize combo key side := by
    intro side
    refine sum_nonneg fun size hsize => ?_
    obtain ⟨leg, hleg, rfl⟩ := mem_map.mp hsize
    exact hnonneg leg (mem_of_mem_filter hleg)
  have hbuy := hopen .buy
  have hsell := hopen .sell
  rw [netSize_eq]
  unfold sideOf
  split
  next hpos =>
    rw [abs_of_pos hpos]
    linarith
  next hneg =>
    rw [abs_of_nonpos (not_lt.mp hneg)]
    linarith

end Vector

end LotusRfq.Combo
