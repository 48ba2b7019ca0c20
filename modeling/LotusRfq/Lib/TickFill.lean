import Mathlib.Algebra.Order.Floor.Ring
import Mathlib.Algebra.Order.BigOperators.Group.List
import Mathlib.Tactic.Ring

/-!
# Greedy fills in whole ticks

A target is handed out along a list of capacities. Each share is the smaller of the capacity
and what is left, rounded down to a multiple of the tick. In units of the tick this is the
greedy fill of integers, and it has a closed form: with `C` the capacities in whole ticks, `S`
their prefix sums and `T` the target in whole ticks, the first `i` shares add up to
`min (S i) T` ticks.

* **`sum_take_sizes`** — that prefix sum;
* **`getElem_sizes`** — the size of one share;
* **`serves_iff`** — when every share that is needed reaches a given minimum;
* **`lt_length_granted`**, **`getElem_granted`** — the shares up to the one that reaches the
  target.
-/

namespace TickFill

open List

variable {K : Type*} [Field K] [LinearOrder K] [IsStrictOrderedRing K] [FloorRing K]

/-- How many whole ticks fit into a size. -/
def ticks (tick x : K) : ℤ := ⌊x / tick⌋

def floorTick (tick x : K) : K := ticks tick x * tick

/-- The shares along a list of capacities, whatever is left at the end. -/
def sizes (tick : K) : K → List K → List K
  | _, [] => []
  | left, capacity :: capacities =>
    let share := floorTick tick (min capacity left)
    share :: sizes tick (left - share) capacities

/-- The capacities before position `i`, in whole ticks. -/
def before (tick : K) (capacities : List K) (i : ℕ) : ℤ :=
  ((capacities.take i).map (ticks tick)).sum

variable {tick : K}

/-! ## Rounding -/

theorem ticks_min (htick : 0 < tick) (x y : K) :
    ticks tick (min x y) = min (ticks tick x) (ticks tick y) := by
  have hmono : Monotone (ticks tick) := fun a b hab =>
    Int.floor_le_floor (div_le_div_of_nonneg_right hab htick.le)
  exact hmono.map_min

theorem ticks_sub (htick : 0 < tick) (x : K) (n : ℤ) :
    ticks tick (x - n * tick) = ticks tick x - n := by
  rw [ticks, ticks, sub_div, mul_div_cancel_right₀ _ htick.ne', Int.floor_sub_intCast]

theorem ticks_nonneg (htick : 0 < tick) {x : K} (hx : 0 ≤ x) : 0 ≤ ticks tick x :=
  Int.floor_nonneg.mpr (div_nonneg hx htick.le)

theorem ticks_mul_le (htick : 0 < tick) (x : K) : ticks tick x * tick ≤ x := by
  have h := Int.floor_le (x / tick)
  rwa [le_div_iff₀ htick] at h

/-- A whole number of ticks fits into `x` exactly when it is at most the whole ticks of `x`. -/
theorem intCast_mul_le_iff (htick : 0 < tick) (n : ℤ) (x : K) :
    n * tick ≤ x ↔ n ≤ ticks tick x := by
  rw [ticks, Int.le_floor, le_div_iff₀ htick]

/-! ## One share -/

theorem share_eq (htick : 0 < tick) (capacity left : K) : floorTick tick (min capacity left) =
      (min (ticks tick capacity) (ticks tick left) : ℤ) * tick := by
  rw [floorTick, ticks_min htick]

theorem ticks_left (htick : 0 < tick) (capacity left : K) :
    ticks tick (left - floorTick tick (min capacity left)) =
      ticks tick left - min (ticks tick capacity) (ticks tick left) := by
  rw [share_eq htick, ticks_sub htick]

theorem left_nonneg (htick : 0 < tick) (c left : K) : 0 ≤ left - floorTick tick (min c left) :=
  sub_nonneg.mpr ((ticks_mul_le htick _).trans (min_le_right _ _))

variable {caps : List K} {i : ℕ} {left : K}

theorem before_nonneg (htick : 0 < tick) (hcap : ∀ c ∈ caps, 0 ≤ c) (i : ℕ) :
    0 ≤ before tick caps i := by
  refine sum_nonneg fun n hn => ?_
  obtain ⟨c, hc, rfl⟩ := mem_map.mp hn
  exact ticks_nonneg htick (hcap c (mem_of_mem_take hc))

omit [IsStrictOrderedRing K] in
@[simp] theorem before_zero (caps : List K) : before tick caps 0 = 0 := by
  simp [before]

omit [IsStrictOrderedRing K] in
@[simp] theorem before_cons_succ (c : K) (caps : List K) (i : ℕ) :
    before tick (c :: caps) (i + 1) = ticks tick c + before tick caps i := by
  simp [before]

omit [IsStrictOrderedRing K] in
theorem before_succ (caps : List K) {i : ℕ} (hi : i < caps.length) :
    before tick caps (i + 1) = before tick caps i + ticks tick caps[i] := by
  rw [before, take_succ_eq_append_getElem hi, map_append, sum_append]
  simp [before]

theorem before_mono (htick : 0 < tick) (hcap : ∀ c ∈ caps, 0 ≤ c) {j : ℕ} (hij : i ≤ j) :
    before tick caps i ≤ before tick caps j := by
  induction j, hij using Nat.le_induction with
  | base => exact le_refl _
  | succ j hj ih =>
    rcases Nat.lt_or_ge j caps.length with hlt | hge
    · rw [before_succ caps hlt]
      have := ticks_nonneg htick (hcap _ (getElem_mem hlt))
      omega
    · have hall : before tick caps (j + 1) = before tick caps j := by
        rw [before, before, take_of_length_le (by omega), take_of_length_le hge]
      rw [hall]
      exact ih

/-! ## The closed form -/

omit [IsStrictOrderedRing K] in
@[simp] theorem length_sizes (left : K) (caps : List K) :
    (sizes tick left caps).length = caps.length := by
  induction caps generalizing left with
  | nil => rfl
  | cons c caps ih => rw [sizes, length_cons, length_cons, ih]

theorem min_add_min {c s t : ℤ} (hs : 0 ≤ s) : min c t + min s (t - min c t) = min (c + s) t := by
  omega

/-- **Prefix sums.** The first `i` shares take the capacities before `i`, up to the target. -/
theorem sum_take_sizes (htick : 0 < tick) (hcap : ∀ c ∈ caps, 0 ≤ c) (hleft : 0 ≤ left) (i : ℕ) :
    ((sizes tick left caps).take i).sum =
      (min (before tick caps i) (ticks tick left) : ℤ) * tick := by
  induction caps generalizing left i with
  | nil =>
    have h0 : min 0 (ticks tick left) = 0 := min_eq_left (ticks_nonneg htick hleft)
    simp [sizes, before, h0]
  | cons c caps ih =>
    cases i with
    | zero =>
      have h0 : min 0 (ticks tick left) = 0 := min_eq_left (ticks_nonneg htick hleft)
      rw [before_zero, h0]
      simp
    | succ i =>
      have hrest := fun c' h => hcap c' (mem_cons_of_mem _ h)
      have hticks := ticks_nonneg htick hleft
      have hleft' := left_nonneg htick c left
      rw [sizes, take_succ_cons, sum_cons, ih hrest hleft' i, ticks_left htick,
        share_eq htick, before_cons_succ, ← add_mul, ← Int.cast_add,
        min_add_min (before_nonneg htick hrest i)]

/-- **One share.** The size handed out at position `i`. -/
theorem getElem_sizes (htick : 0 < tick) (hcap : ∀ c ∈ caps, 0 ≤ c) (hleft : 0 ≤ left)
    (hi : i < caps.length) (hi' : i < (sizes tick left caps).length) : (sizes tick left caps)[i] =
      (min (ticks tick caps[i])
        (ticks tick left - min (before tick caps i) (ticks tick left)) : ℤ) * tick := by
  induction caps generalizing left i with
  | nil => simp at hi
  | cons c caps ih =>
    have hticks := ticks_nonneg htick hleft
    cases i with
    | zero =>
      have h0 : ticks tick left - min 0 (ticks tick left) = ticks tick left := by omega
      simp only [sizes, getElem_cons_zero, before_zero, h0]
      exact share_eq htick c left
    | succ i =>
      have hrest := fun c' h => hcap c' (mem_cons_of_mem _ h)
      have hbefore := before_nonneg htick hrest i
      have hleft' := left_nonneg htick c left
      have hi₁ : i < caps.length := by simpa using hi
      simp only [sizes, getElem_cons_succ, before_cons_succ]
      rw [ih hrest hleft' hi₁, ticks_left htick]
      congr 2
      omega

/-! ## A minimum for every share that is needed -/

/-- Walking down the capacities, every share reached while something is left is at least
`least`. -/
def Serves (tick least : K) : K → List K → Prop
  | _, [] => True
  | left, capacity :: capacities =>
    left ≤ 0 ∨ (least ≤ floorTick tick (min capacity left) ∧
      Serves tick least (left - floorTick tick (min capacity left)) capacities)

theorem sum_take_sizes_nonneg (htick : 0 < tick) (hcap : ∀ c ∈ caps, 0 ≤ c)
    (hleft : 0 ≤ left) (i : ℕ) : 0 ≤ ((sizes tick left caps).take i).sum := by
  rw [sum_take_sizes htick hcap hleft]
  have hmin := le_min (before_nonneg htick hcap i) (ticks_nonneg htick hleft)
  exact mul_nonneg (Int.cast_nonneg hmin) htick.le

theorem serves_iff_sizes (htick : 0 < tick) (least : K) (hcap : ∀ c ∈ caps, 0 ≤ c)
    (hleft : 0 < left) : Serves tick least left caps ↔ ∀ i (hi : i < (sizes tick left caps).length),
        ((sizes tick left caps).take i).sum < left → least ≤ (sizes tick left caps)[i] := by
  induction caps generalizing left with
  | nil => simp [Serves, sizes]
  | cons c caps ih =>
    have hrest := fun c' h => hcap c' (mem_cons_of_mem _ h)
    have hleft' := left_nonneg htick c left
    rw [Serves, or_iff_right (not_le.mpr hleft)]
    constructor
    · rintro ⟨hshare, hserves⟩ i hi hlt
      cases i with
      | zero => exact hshare
      | succ i =>
        simp only [sizes, take_succ_cons, sum_cons] at hlt
        -- something is left here, so something was left after the first share
        have hpos := sum_take_sizes_nonneg htick hrest hleft' i
        have hleft'' : 0 < left - floorTick tick (min c left) := by linarith
        have hlt' : ((sizes tick (left - floorTick tick (min c left)) caps).take i).sum <
            left - floorTick tick (min c left) := by linarith
        exact (ih hrest hleft'').mp hserves i (by simpa [sizes] using hi) hlt'
    · intro h
      refine ⟨h 0 (by simp) (by simpa using hleft), ?_⟩
      rcases hleft'.lt_or_eq with hpos | hzero
      · refine (ih hrest hpos).mpr fun i hi hlt => ?_
        have hi' : i + 1 < (sizes tick left (c :: caps)).length := by simpa [sizes] using hi
        refine h (i + 1) hi' ?_
        simp only [sizes, take_succ_cons, sum_cons]
        linarith
      · -- nothing is left: the rest is served whatever it is
        cases caps with
        | nil => trivial
        | cons c' caps => exact Or.inl hzero.ge

/-- **When every share is large enough**, said of the capacities alone. -/
theorem serves_iff (htick : 0 < tick) (least : K) (hcap : ∀ c ∈ caps, 0 ≤ c) (hleft : 0 < left) :
    Serves tick least left caps ↔ ∀ i (hi : i < caps.length),
        (min (before tick caps i) (ticks tick left) : ℤ) * tick < left →
        least ≤ (min (ticks tick caps[i])
          (ticks tick left - min (before tick caps i) (ticks tick left)) : ℤ) * tick := by
  rw [serves_iff_sizes htick least hcap hleft]
  simp only [length_sizes, sum_take_sizes htick hcap hleft.le]
  constructor
  · intro h i hi hlt
    rw [← getElem_sizes htick hcap hleft.le hi (by rw [length_sizes]; exact hi)]
    exact h i hi hlt
  · intro h i hi hlt
    rw [getElem_sizes htick hcap hleft.le hi (by rw [length_sizes]; exact hi)]
    exact h i hi hlt

/-! ## Stopping at the target -/

/-- The shares handed out until nothing is left. -/
def granted (tick : K) : K → List K → List K
  | _, [] => []
  | left, capacity :: capacities =>
    if left ≤ 0 then []
    else
      let share := floorTick tick (min capacity left)
      share :: granted tick (left - share) capacities

omit [IsStrictOrderedRing K] in
theorem granted_initial (left : K) (caps : List K) :
    granted tick left caps <+: sizes tick left caps := by
  induction caps generalizing left with
  | nil => exact prefix_refl _
  | cons c caps ih =>
    rw [granted, sizes]
    split
    · exact nil_prefix
    · exact (prefix_cons_inj _).mpr (ih _)

section

variable {caps : List K} {left : K} (htick : 0 < tick) (hcap : ∀ c ∈ caps, 0 ≤ c)

include htick hcap

theorem lt_length_granted_iff_sizes (hleft : 0 < left) (i : ℕ) :
    i < (granted tick left caps).length ↔
      i < caps.length ∧ ((sizes tick left caps).take i).sum < left := by
  induction caps generalizing left i with
  | nil => simp [granted]
  | cons c caps ih =>
    have hrest := fun c' h => hcap c' (mem_cons_of_mem _ h)
    have hleft' := left_nonneg htick c left
    rw [granted, if_neg (not_le.mpr hleft)]
    cases i with
    | zero => simp [hleft]
    | succ i =>
      simp only [length_cons, Nat.add_lt_add_iff_right, sizes, take_succ_cons, sum_cons]
      rw [← lt_sub_iff_add_lt']
      rcases hleft'.lt_or_eq with hpos | hzero
      · exact ih hrest hpos i
      · -- nothing is left, and no later prefix is negative
        have hsum := sum_take_sizes_nonneg htick hrest hleft' i
        have hnone : granted tick (left - floorTick tick (min c left)) caps = [] := by
          cases caps with
          | nil => rfl
          | cons c' caps => rw [granted, if_pos hzero.ge]
        rw [hnone, ← hzero]
        rw [← hzero] at hsum
        simp only [length_nil, Nat.not_lt_zero, false_iff, not_and, not_lt]
        exact fun _ => hsum

theorem lt_length_granted (hleft : 0 < left) (i : ℕ) : i < (granted tick left caps).length ↔
      i < caps.length ∧ (min (before tick caps i) (ticks tick left) : ℤ) * tick < left := by
  rw [lt_length_granted_iff_sizes htick hcap hleft, sum_take_sizes htick hcap hleft.le]

theorem getElem_granted (hleft : 0 < left) (hi : i < (granted tick left caps).length)
    (hi' : i < caps.length) : (granted tick left caps)[i] = (min (ticks tick caps[i])
        (ticks tick left - min (before tick caps i) (ticks tick left)) : ℤ) * tick := by
  rw [(granted_initial left caps).getElem hi]
  exact getElem_sizes htick hcap hleft.le hi' _

/-- **What is handed out.** The shares add up to the whole ticks of all capacities, up to those of
the target. -/
theorem sum_granted (hleft : 0 ≤ left) : (granted tick left caps).sum =
      (min (before tick caps caps.length) (ticks tick left) : ℤ) * tick := by
  have hticks := ticks_nonneg htick hleft
  induction caps generalizing left with
  | nil => simp [granted, before, min_eq_left hticks]
  | cons c caps ih =>
    have hrest := fun c' h => hcap c' (mem_cons_of_mem _ h)
    have hbefore := before_nonneg htick hrest caps.length
    rw [granted, length_cons, before_cons_succ]
    split
    · rename_i hdone
      have hnone : ticks tick left = 0 := by
        rw [le_antisymm hdone hleft, ticks, zero_div, Int.floor_zero]
      have hc := ticks_nonneg htick (hcap c mem_cons_self)
      rw [hnone, min_eq_right (add_nonneg hc hbefore)]
      simp
    · have hleft' := left_nonneg htick c left
      rw [sum_cons, ih hrest hleft' (ticks_nonneg htick hleft'), ticks_left htick,
        share_eq htick, ← add_mul, ← Int.cast_add, min_add_min hbefore]

theorem sum_granted_le (hleft : 0 ≤ left) : (granted tick left caps).sum ≤ left := by
  rw [(prefix_iff_eq_take.mp (granted_initial left caps)), sum_take_sizes htick hcap hleft]
  refine le_trans ?_ (ticks_mul_le htick left)
  exact mul_le_mul_of_nonneg_right (Int.cast_le.mpr (min_le_right _ _)) htick.le

end

end TickFill
