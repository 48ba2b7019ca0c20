import LotusRfq.Lib.Decimals

/-!
# LotusRfq — numbers in decimal arithmetic

A number goes into decimal arithmetic as it prints, with at most 17 digits; what comes out of a
product, a quotient, a sum or a difference has at most 20.

* **`exact_of_scale`** — a number times a small power of ten is not rounded.
-/

namespace LotusRfq.Js

open Decimals

/-- The significant digits that decimal arithmetic keeps. -/
def PRECISION : ℕ := 20

structure Number where
  value : ℚ
  prints : ∃ places : ℤ, FitsIn 17 places value

def Number.ofInt (n : ℤ) (h : |n| < 10 ^ 17) : Number := ⟨n, 0, n, by simp, h⟩

def rounded (x : ℚ) : ℚ := toSignificant PRECISION x

theorem rounded_eq {x : ℚ} {places : ℤ} (h : FitsIn PRECISION places x) : rounded x = x :=
  toSignificant_eq h

/-- **A number times a power of ten** is not rounded. -/
theorem exact_of_scale (number : Number) (k : ℕ) :
    rounded (number.value * 10 ^ k) = number.value * 10 ^ k := by
  obtain ⟨places, hfits⟩ := number.prints
  exact rounded_eq ((hfits.scale k).mono (by decide))

theorem Number.exact (number : Number) : rounded number.value = number.value := by
  simpa using exact_of_scale number 0

theorem rounded_nonneg {x : ℚ} (h : 0 ≤ x) : 0 ≤ rounded x :=
  (toSignificant_zero PRECISION).symm.trans_le (toSignificant_mono (by decide) le_rfl h)

theorem rounded_le {x bound : ℚ} (hbound : 0 ≤ bound) (hexact : rounded bound = bound)
    (h : x ≤ bound) : rounded x ≤ bound := by
  rcases le_total 0 x with hpos | hneg
  · rw [← hexact]
    exact toSignificant_mono (by decide) hpos h
  · have hnone : rounded x ≤ 0 := by
      have hopposite := rounded_nonneg (neg_nonneg.mpr hneg)
      rw [rounded, toSignificant_neg] at hopposite
      exact neg_nonneg.mp hopposite
    exact hnone.trans hbound

theorem le_rounded {x bound : ℚ} (hbound : 0 ≤ bound) (hexact : rounded bound = bound)
    (h : bound ≤ x) : bound ≤ rounded x := by
  rw [← hexact]
  exact toSignificant_mono (by decide) hbound h

theorem rounded_units (n : ℤ) (k : ℕ) (h : |n| < 10 ^ PRECISION) :
    rounded (n * (1 / 10 ^ k)) = n * (1 / 10 ^ k) :=
  @rounded_eq _ k ⟨n, by rw [zpow_natCast]; field_simp, h⟩

theorem rounded_intCast (n : ℤ) (h : |n| < 10 ^ PRECISION) : rounded n = n := by
  simpa using rounded_units n 0 h

end LotusRfq.Js
