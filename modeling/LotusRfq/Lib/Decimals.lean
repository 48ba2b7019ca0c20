import Mathlib.Algebra.Order.Field.Power
import Mathlib.Data.Int.Log
import Mathlib.Data.Rat.Floor
import Mathlib.Tactic.Positivity

/-!
# Decimals of a fixed number of digits

Arithmetic that keeps a fixed number of significant digits, the nearest decimal with halves away
from zero. `FitsIn digits places` is where it is exact: whole multiples of `10 ^ -places` below
`10 ^ (digits - places)`, which what is left of one after taking another from it fits in again.

* **`toSignificant_eq`** — a number that fits is not rounded;
* **`toSignificant_mono`** — rounding keeps the order.
-/

namespace Decimals

/-- The nearest whole number, halves away from zero. -/
def roundHalfUp (x : ℚ) : ℤ := if 0 ≤ x then ⌊x + 1 / 2⌋ else -⌊-x + 1 / 2⌋

/-- The nearest decimal of `digits` significant digits. -/
def toSignificant (digits : ℕ) (x : ℚ) : ℚ :=
  let scale : ℚ := 10 ^ ((digits : ℤ) - 1 - Int.log 10 |x|)
  roundHalfUp (x * scale) / scale

/-- A whole multiple of `10 ^ -places` of at most `digits` digits. -/
def FitsIn (digits : ℕ) (places : ℤ) (x : ℚ) : Prop :=
  ∃ n : ℤ, x * 10 ^ places = n ∧ |n| < 10 ^ digits

theorem floor_half (n : ℤ) : ⌊(n : ℚ) + 1 / 2⌋ = n := by
  rw [Int.floor_intCast_add]
  norm_num

@[simp] theorem roundHalfUp_intCast (n : ℤ) : roundHalfUp n = n := by
  unfold roundHalfUp
  split
  · exact floor_half n
  · rw [show -(n : ℚ) = ((-n : ℤ) : ℚ) by push_cast; rfl, floor_half, neg_neg]

section

variable {digits : ℕ} {places : ℤ} {x y : ℚ}

theorem FitsIn.zero : FitsIn digits places 0 := ⟨0, by simp, by positivity⟩

section

variable (h : FitsIn digits places x)

include h

theorem FitsIn.neg : FitsIn digits places (-x) := by
  obtain ⟨n, hn, hlt⟩ := h
  exact ⟨-n, by rw [neg_mul, hn]; push_cast; rfl, by rwa [abs_neg]⟩

theorem FitsIn.abs : FitsIn digits places |x| := by
  rcases abs_choice x with heq | heq
  · rwa [heq]
  · rw [heq]
    exact h.neg

theorem FitsIn.scale (k : ℕ) : FitsIn digits (places - k) (x * 10 ^ k) := by
  obtain ⟨n, hn, hlt⟩ := h
  refine ⟨n, ?_, hlt⟩
  rw [← hn, mul_assoc, ← zpow_natCast (10 : ℚ) k, ← zpow_add₀ (by norm_num)]
  congr 2
  omega

theorem FitsIn.mono {more : ℕ} (hle : digits ≤ more) : FitsIn more places x := by
  obtain ⟨n, hn, hlt⟩ := h
  exact ⟨n, hn, hlt.trans_le (pow_le_pow_right₀ (by decide) hle)⟩

theorem FitsIn.places_le (hne : x ≠ 0) : places ≤ (digits : ℤ) - 1 - Int.log 10 |x| := by
  obtain ⟨n, hn, hlt⟩ := h
  have hpos : 0 < |x| := abs_pos.mpr hne
  have hscale : (0 : ℚ) < 10 ^ places := by positivity
  have hupper : |x| * 10 ^ places < 10 ^ digits := by
    calc |x| * 10 ^ places = |x * 10 ^ places| := by rw [abs_mul, abs_of_pos hscale]
      _ = ((|n| : ℤ) : ℚ) := by rw [hn, Int.cast_abs]
      _ < ((10 ^ digits : ℤ) : ℚ) := by exact_mod_cast hlt
      _ = 10 ^ digits := by push_cast; rfl
  have hlower : (10 : ℚ) ^ Int.log 10 |x| ≤ |x| := by
    have hlog := Int.zpow_log_le_self (b := 10) (by decide) hpos
    exact_mod_cast hlog
  have hlt : (10 : ℚ) ^ (Int.log 10 |x| + places) < 10 ^ (digits : ℤ) := by
    rw [zpow_add₀ (by norm_num), zpow_natCast]
    exact lt_of_le_of_lt (mul_le_mul_of_nonneg_right hlower hscale.le) hupper
  have hexp := (zpow_lt_zpow_iff_right₀ (by norm_num : (1 : ℚ) < 10)).mp hlt
  omega

/-- **A number that fits is not rounded.** -/
theorem toSignificant_eq : toSignificant digits x = x := by
  unfold toSignificant
  by_cases hzero : x = 0
  · subst hzero
    have hround : roundHalfUp 0 = 0 := roundHalfUp_intCast 0
    simp [hround]
  · have hle := h.places_le hzero
    obtain ⟨n, hn, -⟩ := h
    -- the scale is that of the last place, times ten for each digit that is to spare
    obtain ⟨spare, hspare⟩ := Int.eq_ofNat_of_zero_le (sub_nonneg.mpr hle)
    have hscale : (10 : ℚ) ^ ((digits : ℤ) - 1 - Int.log 10 |x|) = 10 ^ places * 10 ^ spare := by
      rw [show (digits : ℤ) - 1 - Int.log 10 |x| = places + spare by omega,
        zpow_add₀ (by norm_num), zpow_natCast]
    have hwhole : x * 10 ^ ((digits : ℤ) - 1 - Int.log 10 |x|) = ((n * 10 ^ spare : ℤ) : ℚ) := by
      rw [hscale, ← mul_assoc, hn]
      push_cast
      rfl
    simp only
    rw [hwhole, roundHalfUp_intCast, ← hwhole]
    exact mul_div_cancel_right₀ x (by positivity)

end

theorem FitsIn.sub_min (hx : FitsIn digits places x) (hy : FitsIn digits places y)
    (hx0 : 0 ≤ x) (hy0 : 0 ≤ y) : FitsIn digits places (x - min x y) := by
  obtain ⟨n, hn, hlt⟩ := hx
  obtain ⟨m, hm, -⟩ := hy
  have hscale : (0 : ℚ) < 10 ^ places := by positivity
  have hn0 : 0 ≤ n := by
    have hcast : (0 : ℚ) ≤ n := by
      rw [← hn]
      exact mul_nonneg hx0 hscale.le
    exact_mod_cast hcast
  have hm0 : 0 ≤ m := by
    have hcast : (0 : ℚ) ≤ m := by
      rw [← hm]
      exact mul_nonneg hy0 hscale.le
    exact_mod_cast hcast
  have hmin : min x y * 10 ^ places = ((min n m : ℤ) : ℚ) := by
    rw [min_mul_of_nonneg _ _ hscale.le, hn, hm, Int.cast_min]
  refine ⟨n - min n m, by rw [sub_mul, hn, hmin]; push_cast; rfl, ?_⟩
  rw [abs_of_nonneg hn0] at hlt
  rw [abs_of_nonneg (sub_nonneg.mpr (min_le_left n m))]
  exact lt_of_le_of_lt (sub_le_self n (le_min hn0 hm0)) hlt

end

/-! ## Rounding and the order -/

theorem roundHalfUp_mono {x y : ℚ} (h : x ≤ y) : roundHalfUp x ≤ roundHalfUp y := by
  unfold roundHalfUp
  by_cases hx : 0 ≤ x
  · rw [if_pos hx, if_pos (hx.trans h)]
    exact Int.floor_le_floor (by linarith)
  · rw [if_neg hx]
    have hneg : -⌊-x + 1 / 2⌋ ≤ 0 := by
      have hfloor : 0 ≤ ⌊-x + 1 / 2⌋ := Int.floor_nonneg.mpr (by linarith)
      omega
    split
    · rename_i hy
      exact hneg.trans (Int.floor_nonneg.mpr (by linarith))
    · exact neg_le_neg (Int.floor_le_floor (by linarith))

theorem le_rounded {bound scale x : ℚ} (hscale : 0 < scale) {n : ℤ} (hn : bound * scale = n)
    (h : bound ≤ x) : bound ≤ roundHalfUp (x * scale) / scale := by
  rw [le_div_iff₀ hscale, hn]
  have hround := roundHalfUp_mono (mul_le_mul_of_nonneg_right h hscale.le)
  rw [hn, roundHalfUp_intCast] at hround
  exact_mod_cast hround

theorem rounded_le {bound scale x : ℚ} (hscale : 0 < scale) {n : ℤ} (hn : bound * scale = n)
    (h : x ≤ bound) : roundHalfUp (x * scale) / scale ≤ bound := by
  rw [div_le_iff₀ hscale, hn]
  have hround := roundHalfUp_mono (mul_le_mul_of_nonneg_right h hscale.le)
  rw [hn, roundHalfUp_intCast] at hround
  exact_mod_cast hround

theorem toSignificant_zero (digits : ℕ) : toSignificant digits 0 = 0 :=
  toSignificant_eq (FitsIn.zero : FitsIn digits 0 0)

theorem pow_mul_scale (digits : ℕ) (log : ℤ) (k : ℕ) :
    (10 : ℚ) ^ (log - digits + 1 + k) * 10 ^ ((digits : ℤ) - 1 - log) = ((10 ^ k : ℤ) : ℚ) := by
  rw [← zpow_add₀ (by norm_num), show log - digits + 1 + k + ((digits : ℤ) - 1 - log) = k by ring]
  push_cast
  exact zpow_natCast _ _

/-- **Rounding keeps the order.** -/
theorem toSignificant_mono {digits : ℕ} (hdigits : 0 < digits) {x y : ℚ} (hx : 0 ≤ x)
    (h : x ≤ y) : toSignificant digits x ≤ toSignificant digits y := by
  rcases hx.eq_or_lt with rfl | hpos
  · rw [toSignificant_zero]
    refine div_nonneg ?_ (by positivity)
    have hround := roundHalfUp_mono
      (mul_nonneg (b := (10 : ℚ) ^ ((digits : ℤ) - 1 - Int.log 10 |y|)) h (by positivity))
    rw [show (0 : ℚ) = ((0 : ℤ) : ℚ) by norm_num, roundHalfUp_intCast] at hround
    exact_mod_cast hround
  · have hpos' : 0 < y := hpos.trans_le h
    unfold toSignificant
    rw [abs_of_pos hpos, abs_of_pos hpos']
    rcases (Int.log_mono_right (b := 10) hpos h).eq_or_lt with hlog | hlog
    · -- one scale for both
      rw [hlog]
      have hround := roundHalfUp_mono (mul_le_mul_of_nonneg_right h
        (show (0 : ℚ) ≤ 10 ^ ((digits : ℤ) - 1 - Int.log 10 y) by positivity))
      exact div_le_div_of_nonneg_right (by exact_mod_cast hround) (by positivity)
    · -- a power of ten lies between the two
      have hlow : (10 : ℚ) ^ Int.log 10 y ≤ y := by
        exact_mod_cast Int.zpow_log_le_self (b := 10) (by decide) hpos'
      have hhigh : x < (10 : ℚ) ^ (Int.log 10 x + 1) := by
        exact_mod_cast Int.lt_zpow_succ_log_self (b := 10) (by decide) x
      calc (roundHalfUp (x * 10 ^ ((digits : ℤ) - 1 - Int.log 10 x)) : ℚ) /
            10 ^ ((digits : ℤ) - 1 - Int.log 10 x)
          ≤ 10 ^ (Int.log 10 x + 1) := by
            refine rounded_le (by positivity) (n := 10 ^ digits) ?_ hhigh.le
            have hscale := pow_mul_scale digits (Int.log 10 x) digits
            rwa [show Int.log 10 x - digits + 1 + digits = Int.log 10 x + 1 by ring] at hscale
        _ ≤ 10 ^ Int.log 10 y := zpow_le_zpow_right₀ (by norm_num) (by omega)
        _ ≤ (roundHalfUp (y * 10 ^ ((digits : ℤ) - 1 - Int.log 10 y)) : ℚ) /
            10 ^ ((digits : ℤ) - 1 - Int.log 10 y) := by
            refine le_rounded (by positivity) (n := 10 ^ (digits - 1)) ?_ hlow
            have hscale := pow_mul_scale digits (Int.log 10 y) (digits - 1)
            rwa [show Int.log 10 y - digits + 1 + ((digits - 1 : ℕ) : ℤ) = Int.log 10 y by
              omega] at hscale

theorem roundHalfUp_neg (x : ℚ) : roundHalfUp (-x) = -roundHalfUp x := by
  unfold roundHalfUp
  rcases lt_trichotomy x 0 with hlt | rfl | hgt
  · rw [if_pos (by linarith), if_neg (by linarith), neg_neg]
  · norm_num
  · rw [if_neg (by linarith), if_pos hgt.le, neg_neg]

theorem toSignificant_neg (digits : ℕ) (x : ℚ) :
    toSignificant digits (-x) = -toSignificant digits x := by
  unfold toSignificant
  simp only [abs_neg, neg_mul, roundHalfUp_neg]
  push_cast
  exact neg_div _ _

end Decimals
