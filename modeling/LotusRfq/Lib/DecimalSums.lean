import LotusRfq.Lib.Decimals

/-!
# Sums of decimals

A running sum that keeps a fixed number of significant digits. It is exact on numbers that are
whole multiples of one power of ten and whose positive and negative parts both fit.

* **`addAll_eq`** — a running sum of numbers that fit is not rounded.
-/

namespace Decimals

open List

/-- A whole multiple of `10 ^ -places`. -/
def OnGrid (places : ℤ) (x : ℚ) : Prop := ∃ n : ℤ, x * 10 ^ places = n

variable {xs : List ℚ}

section Grid

variable {digits : ℕ} {places : ℤ} {x y : ℚ}

theorem OnGrid.zero : OnGrid places 0 := ⟨0, by simp⟩

theorem OnGrid.neg (h : OnGrid places x) : OnGrid places (-x) := by
  obtain ⟨n, hn⟩ := h
  exact ⟨-n, by rw [neg_mul, hn]; push_cast; rfl⟩

theorem OnGrid.add (hx : OnGrid places x) (hy : OnGrid places y) : OnGrid places (x + y) := by
  obtain ⟨n, hn⟩ := hx
  obtain ⟨m, hm⟩ := hy
  exact ⟨n + m, by rw [add_mul, hn, hm]; push_cast; rfl⟩

theorem OnGrid.sub (hx : OnGrid places x) (hy : OnGrid places y) : OnGrid places (x - y) := by
  rw [sub_eq_add_neg]
  exact hx.add hy.neg

theorem OnGrid.abs (h : OnGrid places x) : OnGrid places |x| := by
  rcases abs_choice x with heq | heq
  · rwa [heq]
  · rw [heq]
    exact h.neg

theorem OnGrid.min (hx : OnGrid places x) (hy : OnGrid places y) : OnGrid places (min x y) := by
  rcases min_choice x y with heq | heq
  · rwa [heq]
  · rwa [heq]

theorem OnGrid.sum (h : ∀ x ∈ xs, OnGrid places x) : OnGrid places xs.sum := by
  induction xs with
  | nil => exact .zero
  | cons x rest ih =>
    rw [sum_cons]
    exact (h x mem_cons_self).add (ih fun y hy => h y (mem_cons_of_mem _ hy))

theorem FitsIn.onGrid (h : FitsIn digits places x) : OnGrid places x := by
  obtain ⟨n, hn, -⟩ := h
  exact ⟨n, hn⟩

theorem OnGrid.fitsIn (h : OnGrid places x) (hlt : |x| * 10 ^ places < 10 ^ digits) :
    FitsIn digits places x := by
  obtain ⟨n, hn⟩ := h
  refine ⟨n, hn, ?_⟩
  have hscale : (0 : ℚ) < 10 ^ places := by positivity
  rw [← abs_of_pos hscale, ← abs_mul, hn] at hlt
  exact_mod_cast hlt

theorem FitsIn.lt (h : FitsIn digits places x) : |x| * 10 ^ places < 10 ^ digits := by
  obtain ⟨n, hn, hlt⟩ := h
  have hscale : (0 : ℚ) < 10 ^ places := by positivity
  rw [← abs_of_pos hscale, ← abs_mul, hn]
  exact_mod_cast hlt

theorem FitsIn.of_le (hx : FitsIn digits places x) (hy : OnGrid places y) (hle : |y| ≤ |x|) :
    FitsIn digits places y := by
  refine hy.fitsIn (lt_of_le_of_lt ?_ hx.lt)
  exact mul_le_mul_of_nonneg_right hle (by positivity)

end Grid

theorem OnGrid.mono {places' : ℤ} (h : OnGrid places x) (hle : places ≤ places') :
    OnGrid places' x := by
  obtain ⟨n, hn⟩ := h
  obtain ⟨k, hk⟩ := Int.le.dest hle
  refine ⟨n * 10 ^ k, ?_⟩
  rw [← hk, zpow_add₀ (by norm_num), ← mul_assoc, hn, zpow_natCast]
  push_cast
  rfl

/-! ## The sign and the size of what is rounded -/

section Rounded

variable (hdigits : 0 < digits)
include hdigits

theorem toSignificant_nonneg (hx : 0 ≤ x) : 0 ≤ toSignificant digits x := by
  have hmono := toSignificant_mono hdigits le_rfl hx
  rwa [toSignificant_zero] at hmono

theorem toSignificant_zpow (k : ℤ) : toSignificant digits (10 ^ k) = 10 ^ k := by
  refine @toSignificant_eq _ (-k) _ ⟨1, ?_, ?_⟩
  · rw [← zpow_add₀ (by norm_num), add_neg_cancel, zpow_zero, Int.cast_one]
  · rw [abs_one]
    exact one_lt_pow₀ (by norm_num) (by omega)

theorem toSignificant_pos (hx : 0 < x) : 0 < toSignificant digits x := by
  have hlow : (10 : ℚ) ^ Int.log 10 x ≤ x := by
    exact_mod_cast Int.zpow_log_le_self (b := 10) (by decide) hx
  have hmono := toSignificant_mono hdigits (by positivity) hlow
  rw [toSignificant_zpow hdigits] at hmono
  exact lt_of_lt_of_le (by positivity) hmono

theorem toSignificant_le_one (hx : x ≤ 1) : toSignificant digits x ≤ 1 := by
  rcases le_or_gt 0 x with hnonneg | hneg
  · have hmono := toSignificant_mono hdigits hnonneg hx
    have hone := toSignificant_zpow hdigits 0
    rw [zpow_zero] at hone
    rwa [hone] at hmono
  · have hflip := toSignificant_nonneg hdigits (neg_nonneg.mpr hneg.le)
    rw [toSignificant_neg] at hflip
    linarith

end Rounded

/-! ## Running sums -/

/-- The running sum from `total` on, each sum to `digits` digits. -/
def addAll (digits : ℕ) (total : ℚ) (xs : List ℚ) : ℚ :=
  xs.foldl (fun total x => toSignificant digits (total + x)) total

theorem addAll_nonneg (hdigits : 0 < digits) (hxs : ∀ x ∈ xs, 0 ≤ x) {total : ℚ}
    (htotal : 0 ≤ total) : 0 ≤ addAll digits total xs := by
  induction xs generalizing total with
  | nil => exact htotal
  | cons x rest ih =>
    refine ih (fun y hy => hxs y (mem_cons_of_mem _ hy)) (toSignificant_nonneg hdigits ?_)
    exact add_nonneg htotal (hxs x mem_cons_self)

theorem addAll_pos (hdigits : 0 < digits) (hxs : ∀ x ∈ xs, 0 ≤ x) {total : ℚ} (htotal : 0 < total) :
    0 < addAll digits total xs := by
  induction xs generalizing total with
  | nil => exact htotal
  | cons x rest ih =>
    refine ih (fun y hy => hxs y (mem_cons_of_mem _ hy)) (toSignificant_pos hdigits ?_)
    exact add_pos_of_pos_of_nonneg htotal (hxs x mem_cons_self)

def positives (xs : List ℚ) : ℚ := (xs.map fun x => max x 0).sum

theorem positives_cons (x : ℚ) (xs : List ℚ) : positives (x :: xs) = max x 0 + positives xs := by
  simp [positives]

theorem positives_nonneg (xs : List ℚ) : 0 ≤ positives xs := by
  refine sum_nonneg fun y hy => ?_
  obtain ⟨x, -, rfl⟩ := mem_map.mp hy
  exact le_max_right x 0

theorem positives_of_nonneg (h : ∀ x ∈ xs, 0 ≤ x) : positives xs = xs.sum := by
  have hmap : xs.map (fun x => max x 0) = xs.map id :=
    map_congr_left fun x hx => max_eq_left (h x hx)
  rw [positives, hmap, map_id]

theorem positives_of_nonpos (h : ∀ x ∈ xs, x ≤ 0) : positives xs = 0 := by
  refine sum_eq_zero fun y hy => ?_
  obtain ⟨x, hx, rfl⟩ := mem_map.mp hy
  exact max_eq_right (h x hx)

theorem negatives_cons (x : ℚ) (xs : List ℚ) :
    positives ((x :: xs).map Neg.neg) = max (-x) 0 + positives (xs.map Neg.neg) := by
  rw [map_cons, positives_cons]

section

variable {digits : ℕ} {places : ℤ} {total : ℚ} {xs : List ℚ}

/-- A running sum stays between what its negative and what its positive numbers come to. -/
theorem addAll_eq_of (htotal : OnGrid places total) (hgrid : ∀ x ∈ xs, OnGrid places x)
    (hlow : -10 ^ digits < (total - positives (xs.map Neg.neg)) * 10 ^ places)
    (hhigh : (total + positives xs) * 10 ^ places < 10 ^ digits) :
    addAll digits total xs = total + xs.sum := by
  induction xs generalizing total with
  | nil => simp [addAll]
  | cons x rest ih =>
    have hrest : ∀ y ∈ rest, OnGrid places y := fun y hy => hgrid y (mem_cons_of_mem _ hy)
    have hnext := htotal.add (hgrid x mem_cons_self)
    have hscale : (0 : ℚ) < 10 ^ places := by positivity
    rw [negatives_cons] at hlow
    rw [positives_cons] at hhigh
    have hlow' : -10 ^ digits < (total + x - positives (rest.map Neg.neg)) * 10 ^ places := by
      refine lt_of_lt_of_le hlow (mul_le_mul_of_nonneg_right ?_ hscale.le)
      have hmax := le_max_left (-x) 0
      linarith
    have hhigh' : (total + x + positives rest) * 10 ^ places < 10 ^ digits := by
      refine lt_of_le_of_lt (mul_le_mul_of_nonneg_right ?_ hscale.le) hhigh
      have hmax := le_max_left x 0
      linarith
    have hbelow : (total + x) * 10 ^ places < 10 ^ digits := by
      refine lt_of_le_of_lt (mul_le_mul_of_nonneg_right ?_ hscale.le) hhigh'
      have hpos := positives_nonneg rest
      linarith
    have habove : -10 ^ digits < (total + x) * 10 ^ places := by
      refine lt_of_lt_of_le hlow' (mul_le_mul_of_nonneg_right ?_ hscale.le)
      have hpos := positives_nonneg (rest.map Neg.neg)
      linarith
    have hfits : FitsIn digits places (total + x) := by
      refine hnext.fitsIn ?_
      rw [← abs_of_pos hscale, ← abs_mul]
      exact abs_lt.mpr ⟨habove, hbelow⟩
    have hsum := ih hnext hrest hlow' hhigh'
    rw [sum_cons, ← add_assoc, ← hsum]
    show addAll digits (toSignificant digits (total + x)) rest = _
    rw [toSignificant_eq hfits]

/-- **A running sum of numbers that fit is not rounded.** -/
theorem addAll_eq (hgrid : ∀ x ∈ xs, OnGrid places x)
    (hpositives : FitsIn digits places (positives xs))
    (hnegatives : FitsIn digits places (positives (xs.map Neg.neg))) :
    addAll digits 0 xs = xs.sum := by
  have hhigh := hpositives.lt
  have hlow := hnegatives.lt
  rw [abs_of_nonneg (positives_nonneg _)] at hhigh hlow
  have hsum : addAll digits 0 xs = 0 + xs.sum := by
    refine addAll_eq_of .zero hgrid ?_ ?_
    · rw [zero_sub, neg_mul]
      exact neg_lt_neg hlow
    · rwa [zero_add]
  rwa [zero_add] at hsum

theorem addAll_eq_of_nonneg (hgrid : ∀ x ∈ xs, OnGrid places x) (hnonneg : ∀ x ∈ xs, 0 ≤ x)
    (hfits : FitsIn digits places xs.sum) : addAll digits 0 xs = xs.sum := by
  refine addAll_eq hgrid (by rwa [positives_of_nonneg hnonneg]) ?_
  have hzero : positives (xs.map Neg.neg) = 0 := by
    refine positives_of_nonpos fun y hy => ?_
    obtain ⟨x, hx, rfl⟩ := mem_map.mp hy
    exact neg_nonpos.mpr (hnonneg x hx)
  rw [hzero]
  exact .zero

/-- A running sum of numbers that are not negative and come to no more than one that fits. -/
theorem addAll_eq_of_le (hgrid : ∀ x ∈ xs, OnGrid places x) (hnonneg : ∀ x ∈ xs, 0 ≤ x)
    {bound : ℚ} (hfits : FitsIn digits places bound) (hle : xs.sum ≤ bound) :
    addAll digits 0 xs = xs.sum := by
  have hsum : 0 ≤ xs.sum := sum_nonneg hnonneg
  refine addAll_eq_of_nonneg hgrid hnonneg (hfits.of_le (.sum hgrid) ?_)
  rwa [abs_of_nonneg hsum, abs_of_nonneg (hsum.trans hle)]

end

end Decimals
