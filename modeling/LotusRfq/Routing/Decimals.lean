import Mathlib.Data.Rat.Floor
import Mathlib.Tactic.Positivity

/-!
# LotusRfq — the sizes of a route as texts

A size is written as the whole number that it is next to, or with 12 digits after the point. Either
may be above the size.

* **`decimal_eq`** — a text is the size and what the writing has moved it by;
* **`decimal_pos_iff`** — which sizes are not written as zero;
* **`decimal_le_double`** — a text is at most twice the size.
-/

namespace LotusRfq.Routing

def routeDustTolerance : ℚ := 1 / 100000000

/-- `value.toFixed(12)`; `round` is `Math.round`. -/
def toFixed12 (value : ℚ) : ℚ := round (value * 10 ^ 12) / 10 ^ 12

def decimal (value : ℚ) : ℚ :=
  let roundedInteger := round value
  if value.isInt ∨ |value - roundedInteger| ≤ routeDustTolerance then roundedInteger
  else toFixed12 value

/-- How far a value is moved: to the whole number that it is next to, or to 12 digits. -/
def rounding (value : ℚ) : ℚ :=
  (if |value - round value| ≤ routeDustTolerance then (round value : ℚ)
    else toFixed12 value) - value

theorem decimal_eq (value : ℚ) : decimal value = value + rounding value := by
  unfold decimal rounding
  by_cases hint : value.isInt
  · -- A whole number is its own rounding.
    have hvalue : value = value.num := by
      rw [Rat.isInt, beq_iff_eq] at hint
      exact (Rat.coe_int_num_of_den_eq_one hint).symm
    have hround : round value = value.num := by
      rw [hvalue, round_intCast]
      simp
    have hzero : |value - round value| ≤ routeDustTolerance := by
      rw [hround, ← hvalue, sub_self, abs_zero, routeDustTolerance]
      norm_num
    rw [if_pos (Or.inl hint), if_pos hzero]
    ring
  · by_cases hnear : |value - round value| ≤ routeDustTolerance
    · rw [if_pos (Or.inr hnear), if_pos hnear]
      ring
    · rw [if_neg (by tauto), if_neg hnear]
      ring

variable {value : ℚ}

theorem round_nonneg (hnonneg : 0 ≤ value) : 0 ≤ round value := by
  rw [round_eq]
  exact Int.floor_nonneg.mpr (by linarith)

theorem decimal_nonneg (hnonneg : 0 ≤ value) : 0 ≤ decimal value := by
  simp only [decimal, toFixed12]
  split
  · exact_mod_cast round_nonneg hnonneg
  · have hscaled : 0 ≤ round (value * 10 ^ 12) := round_nonneg (by positivity)
    have hcast : (0 : ℚ) ≤ round (value * 10 ^ 12) := by exact_mod_cast hscaled
    positivity

theorem toFixed12_near (value : ℚ) : |value - toFixed12 value| ≤ 1 / (2 * 10 ^ 12) := by
  have hnear := abs_le.mp (abs_sub_round (value * 10 ^ 12))
  have hscaled : toFixed12 value * 10 ^ 12 = round (value * 10 ^ 12) :=
    div_mul_cancel₀ _ (by positivity)
  rw [← hscaled] at hnear
  rw [abs_le]
  constructor
  · linarith
  · linarith

theorem near_of_le (hnonneg : 0 ≤ value) (hle : value ≤ routeDustTolerance) :
    |value - round value| ≤ routeDustTolerance := by
  have htol : routeDustTolerance = 1 / 100000000 := rfl
  have hround : round value = 0 := by
    rw [round_eq, Int.floor_eq_iff]
    constructor
    · push_cast
      linarith
    · push_cast
      linarith
  rw [hround, Int.cast_zero, sub_zero, abs_of_nonneg hnonneg]
  exact hle

theorem decimal_pos_iff (value : ℚ) : 0 < decimal value ↔ routeDustTolerance < value := by
  have htol : routeDustTolerance = 1 / 100000000 := rfl
  rw [decimal_eq]
  unfold rounding
  by_cases hnear : |value - round value| ≤ routeDustTolerance
  · rw [if_pos hnear, add_sub_cancel]
    have hbounds := abs_le.mp hnear
    constructor
    · intro hpos
      have hone : (1 : ℚ) ≤ round value := by exact_mod_cast Int.cast_pos.mp hpos
      linarith
    · intro hlt
      linarith
  · rw [if_neg hnear, add_sub_cancel]
    have hbounds := abs_le.mp (toFixed12_near value)
    constructor
    · intro hpos
      by_contra hsmall
      -- Only below zero is such a small value not next to a whole number.
      have hneg : value < 0 := by
        by_contra hnonneg
        exact hnear (near_of_le (not_lt.mp hnonneg) (not_lt.mp hsmall))
      have hround : 0 < round (value * 10 ^ 12) := by
        rw [toFixed12, div_pos_iff_of_pos_right (by positivity)] at hpos
        exact_mod_cast hpos
      have hscaled : value * 10 ^ 12 < 0 := mul_neg_of_neg_of_pos hneg (by positivity)
      have hfloor := round_eq (value * 10 ^ 12)
      have hle : ⌊value * 10 ^ 12 + 1 / 2⌋ ≤ 0 := Int.floor_le_iff.mpr (by push_cast; linarith)
      omega
    · intro hlt
      linarith

theorem decimal_le_double (hnonneg : 0 ≤ value) : decimal value ≤ 2 * value := by
  have htol : routeDustTolerance = 1 / 100000000 := rfl
  rw [decimal_eq]
  unfold rounding
  by_cases hnear : |value - round value| ≤ routeDustTolerance
  · rw [if_pos hnear]
    have hbounds := abs_le.mp hnear
    -- Next to a whole number there is either nothing or nearly one.
    have hzero : round value ≤ 0 ∨ 1 ≤ round value := by omega
    rcases hzero with hzero | hone
    · have hcast : (round value : ℚ) ≤ 0 := by exact_mod_cast hzero
      linarith
    · have hcast : (1 : ℚ) ≤ round value := by exact_mod_cast hone
      linarith
  · rw [if_neg hnear]
    have hbounds := abs_le.mp (toFixed12_near value)
    have hlarge : routeDustTolerance < value := by
      by_contra hsmall
      exact hnear (near_of_le hnonneg (not_lt.mp hsmall))
    linarith

end LotusRfq.Routing
