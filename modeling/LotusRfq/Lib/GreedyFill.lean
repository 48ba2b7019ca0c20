import Mathlib.Algebra.BigOperators.Ring.List
import Mathlib.Algebra.Order.BigOperators.Group.List
import Mathlib.Algebra.Order.Field.Basic
import Mathlib.Tactic.Linarith
import Mathlib.Tactic.Ring

/-!
# The cheapest way to fill an amount

An amount is taken from offers, of each no more than it has. Walking the offers by cost and taking
all that is left of the amount is the cheapest way. The argument is by prices: at any price, what a
way costs beyond the price is at least what the cheaper offers save on it, and the walk costs exactly
that at the price it has come to.

* **`greedy_least`** — no way costs less;
* **`greedy_average_mono`** — the average cost does not fall as the amount grows.
-/

namespace GreedyFill

open List

variable {α K : Type*} [Field K] [LinearOrder K] [IsStrictOrderedRing K]
  {size cost : α → K} {offers : List α} {amount left : K} {parts : List (α × K)}

structure Way (size : α → K) (offers : List α) (amount : K) (parts : List (α × K)) : Prop where
  offers : (parts.map Prod.fst).Perm offers
  bounds : ∀ part ∈ parts, 0 ≤ part.2 ∧ part.2 ≤ size part.1
  amount : (parts.map Prod.snd).sum = amount

def total (cost : α → K) (parts : List (α × K)) : K :=
  (parts.map fun part => part.2 * cost part.1).sum

def saved (size cost : α → K) (price : K) (offers : List α) : K :=
  (offers.map fun offer => max (price - cost offer) 0 * size offer).sum

def greedy (size : α → K) : List α → K → List (α × K)
  | [], _ => []
  | offer :: rest, left =>
    (offer, min (size offer) left) :: greedy size rest (left - min (size offer) left)

omit [IsStrictOrderedRing K] in
theorem greedy_offers (offers : List α) (left : K) :
    (greedy size offers left).map Prod.fst = offers := by
  induction offers generalizing left with
  | nil => rfl
  | cons offer rest ih => rw [greedy, map_cons, ih]

theorem greedy_way (hsize : ∀ offer ∈ offers, 0 ≤ size offer) (hleft : 0 ≤ left) :
    Way size offers (min left (offers.map size).sum) (greedy size offers left) := by
  induction offers generalizing left with
  | nil => exact ⟨.refl _, by simp [greedy], by simp [greedy, hleft]⟩
  | cons offer rest ih =>
    have hhere := hsize offer mem_cons_self
    have hrest := fun other hother => hsize other (mem_cons_of_mem _ hother)
    have hsum : 0 ≤ (rest.map size).sum := sum_nonneg fun x hx => by
      obtain ⟨other, hother, rfl⟩ := mem_map.mp hx
      exact hrest other hother
    have hway := ih hrest (sub_nonneg.mpr (min_le_right (size offer) left))
    refine ⟨by rw [greedy_offers], fun part hpart => ?_, ?_⟩
    · rcases mem_cons.mp hpart with rfl | hpart
      · exact ⟨le_min hhere hleft, min_le_left _ _⟩
      · exact hway.bounds part hpart
    · rw [greedy, map_cons, sum_cons, hway.amount, map_cons, sum_cons]
      rcases le_total (size offer) left with hle | hle
      · rw [min_eq_left hle, ← min_add_add_left, add_sub_cancel]
      · rw [min_eq_right hle, sub_self, min_eq_left hsum, add_zero, min_eq_left (by linarith)]

theorem total_ge (h : Way size offers amount parts) (price : K) :
    price * amount - saved size cost price offers ≤ total cost parts := by
  have hsaved : saved size cost price offers =
      (parts.map fun part => max (price - cost part.1) 0 * size part.1).sum := by
    rw [saved, ← (h.offers.map _).sum_eq, map_map]
    rfl
  have hpart : ∀ part ∈ parts, price * part.2 ≤
      part.2 * cost part.1 + max (price - cost part.1) 0 * size part.1 := by
    intro part hpart
    obtain ⟨hnonneg, hle⟩ := h.bounds part hpart
    have hmax : (price - cost part.1) * part.2 ≤ max (price - cost part.1) 0 * size part.1 :=
      (mul_le_mul_of_nonneg_right (le_max_left _ 0) hnonneg).trans
        (mul_le_mul_of_nonneg_left hle (le_max_right _ _))
    linarith
  have hsum := sum_le_sum hpart
  rw [sum_map_mul_left, h.amount, sum_map_add] at hsum
  rw [hsaved, total]
  linarith

omit [IsStrictOrderedRing K] in
theorem greedy_zero (hsize : ∀ offer ∈ offers, 0 ≤ size offer) :
    greedy size offers 0 = offers.map fun offer => (offer, 0) := by
  induction offers with
  | nil => rfl
  | cons offer rest ih =>
    rw [greedy, min_eq_right (hsize offer mem_cons_self), sub_zero, map_cons,
      ih fun other hother => hsize other (mem_cons_of_mem _ hother)]

section

variable (hsorted : offers.Pairwise fun a b => cost a ≤ cost b)
  (hsize : ∀ offer ∈ offers, 0 ≤ size offer) (hleft : 0 ≤ left)

include hsorted hsize hleft

theorem greedy_price {low : K} (hlow : ∀ offer ∈ offers, low ≤ cost offer) :
    ∃ price, low ≤ price ∧ total cost (greedy size offers left) =
      price * ((greedy size offers left).map Prod.snd).sum - saved size cost price offers := by
  induction offers generalizing left low with
  | nil => exact ⟨low, le_rfl, by simp [greedy, total, saved]⟩
  | cons offer rest ih =>
    obtain ⟨hfirst, hsorted⟩ := pairwise_cons.mp hsorted
    have hrest := fun other hother => hsize other (mem_cons_of_mem _ hother)
    rcases le_total (size offer) left with hle | hle
    · -- the whole offer is taken, so the price is at least its own
      obtain ⟨price, hprice, heq⟩ := ih hsorted hrest (sub_nonneg.mpr hle) hfirst
      refine ⟨price, (hlow offer mem_cons_self).trans hprice, ?_⟩
      rw [greedy, min_eq_left hle]
      simp only [total, saved, map_cons, sum_cons] at heq ⊢
      rw [heq, max_eq_left (sub_nonneg.mpr hprice)]
      ring
    · -- nothing is left after it, and no offer is cheaper
      have hsaved : saved size cost (cost offer) (offer :: rest) = 0 := sum_eq_zero fun x hx => by
          obtain ⟨other, hother, rfl⟩ := mem_map.mp hx
          have hcheap : cost offer ≤ cost other := by
            rcases mem_cons.mp hother with rfl | hother
            · exact le_rfl
            · exact hfirst other hother
          rw [max_eq_right (sub_nonpos.mpr hcheap), zero_mul]
      refine ⟨cost offer, hlow offer mem_cons_self, ?_⟩
      rw [hsaved, greedy, min_eq_right hle, sub_self, greedy_zero hrest]
      simp [total, Function.comp_def]
      ring

/-- **No way costs less** than the walk by cost. -/
theorem greedy_least (h : Way size offers (min left (offers.map size).sum) parts) :
    total cost (greedy size offers left) ≤ total cost parts := by
  have hlow : ∃ low, ∀ offer ∈ offers, low ≤ cost offer := by
    cases offers with
    | nil => exact ⟨0, by simp⟩
    | cons offer rest => exact ⟨cost offer, forall_mem_cons.mpr ⟨le_rfl,
        (pairwise_cons.mp hsorted).1⟩⟩
  obtain ⟨low, hlow⟩ := hlow
  obtain ⟨price, -, heq⟩ := greedy_price hsorted hsize hleft hlow
  rw [heq, (greedy_way hsize hleft).amount]
  exact total_ge h price

end

theorem Way.average (h : Way size offers amount parts) (hamount : 0 < amount) {low : K}
    (hlow : ∀ offer ∈ offers, low ≤ cost offer) : low ≤ total cost parts / amount ∧
      ∃ part ∈ parts, 0 < part.2 ∧ total cost parts / amount ≤ cost part.1 := by
  have hmem : ∀ part ∈ parts, part.1 ∈ offers := fun part hpart =>
    h.offers.mem_iff.mp (mem_map_of_mem hpart)
  constructor
  · rw [le_div_iff₀ hamount, ← h.amount, ← sum_map_mul_left]
    refine sum_le_sum fun part hpart => ?_
    rw [mul_comm]
    exact mul_le_mul_of_nonneg_left (hlow _ (hmem part hpart)) (h.bounds part hpart).1
  · by_contra hnone
    push Not at hnone
    have hle : ∀ part ∈ parts, part.2 * cost part.1 ≤ part.2 * (total cost parts / amount) := by
      intro part hpart
      rcases (h.bounds part hpart).1.eq_or_lt with hzero | hpos
      · rw [← hzero, zero_mul, zero_mul]
      · exact mul_le_mul_of_nonneg_left (hnone part hpart hpos).le hpos.le
    obtain ⟨part, hpart, hpos⟩ : ∃ part ∈ parts, 0 < part.2 := by
      by_contra hall
      push Not at hall
      have hzero : (parts.map Prod.snd).sum = 0 := sum_eq_zero fun x hx => by
        obtain ⟨part, hpart, rfl⟩ := mem_map.mp hx
        exact le_antisymm (hall part hpart) (h.bounds part hpart).1
      exact hamount.ne' (h.amount.symm.trans hzero)
    have hlt := sum_lt_sum _ _ hle
      ⟨part, hpart, mul_lt_mul_of_pos_left (hnone part hpart hpos) hpos⟩
    rw [sum_map_mul_right, h.amount, mul_div_cancel₀ _ hamount.ne'] at hlt
    exact lt_irrefl _ hlt

theorem Way.scale (h : Way size offers amount parts) {t : K} (ht : 0 ≤ t) (ht' : t ≤ 1) :
    Way size offers (t * amount) (parts.map fun part => (part.1, t * part.2)) := by
  refine ⟨?_, ?_, ?_⟩
  · rw [map_map]
    exact h.offers
  · intro part hpart
    obtain ⟨before, hbefore, rfl⟩ := mem_map.mp hpart
    obtain ⟨hnonneg, hle⟩ := h.bounds before hbefore
    exact ⟨mul_nonneg ht hnonneg, (mul_le_of_le_one_left hnonneg ht').trans hle⟩
  · rw [map_map, ← h.amount, ← sum_map_mul_left]
    rfl

omit [LinearOrder K] [IsStrictOrderedRing K] in
theorem total_scale (cost : α → K) (parts : List (α × K)) (t : K) :
    total cost (parts.map fun part => (part.1, t * part.2)) = t * total cost parts := by
  rw [total, total, map_map, ← sum_map_mul_left]
  exact congrArg sum (map_congr_left fun part _ => mul_assoc _ _ _)

/-- **The average cost does not fall** as the amount grows. -/
theorem greedy_average_mono (hsorted : offers.Pairwise fun a b => cost a ≤ cost b)
    (hsize : ∀ offer ∈ offers, 0 ≤ size offer) (hleft : 0 ≤ left) {more : K} (hmore : left ≤ more)
    (hfilled : 0 < min left (offers.map size).sum) :
    total cost (greedy size offers left) / min left (offers.map size).sum ≤
      total cost (greedy size offers more) / min more (offers.map size).sum := by
  have hle : min left (offers.map size).sum ≤ min more (offers.map size).sum :=
    min_le_min_right _ hmore
  have hpos := hfilled.trans_le hle
  have hway := (greedy_way hsize (hleft.trans hmore)).scale
    (div_nonneg hfilled.le hpos.le) ((div_le_one hpos).mpr hle)
  rw [div_mul_cancel₀ _ hpos.ne'] at hway
  have hleast := greedy_least hsorted hsize hleft hway
  rw [total_scale] at hleast
  rw [div_le_iff₀ hfilled]
  calc total cost (greedy size offers left)
      ≤ min left (offers.map size).sum / min more (offers.map size).sum *
          total cost (greedy size offers more) := hleast
    _ = total cost (greedy size offers more) / min more (offers.map size).sum *
          min left (offers.map size).sum := by ring

end GreedyFill
