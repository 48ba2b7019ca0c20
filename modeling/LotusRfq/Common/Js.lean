import Mathlib.Data.List.Sort
import Mathlib.Data.List.Perm.Basic
import Mathlib.Algebra.Order.Ring.Rat

/-!
# LotusRfq — the pieces of the JavaScript runtime the services lean on

`Array.prototype.sort` with a comparator is a stable sort: `sortWith` is the stable insertion
sort by the same comparator, and any two stable sorts by a consistent comparator agree.

A JavaScript number is read as the rational it prints as, and `Decimal` arithmetic on such
numbers as exact arithmetic. Binary rounding is not modelled.
-/

namespace LotusRfq.Js

variable {α : Type*}

/-- The order a comparator induces: `left` may stand before `right`. -/
abbrev notAfter (compare : α → α → Ordering) (left right : α) : Prop :=
  compare left right ≠ .gt

/-- `[...items].sort(compare)`. -/
def sortWith (compare : α → α → Ordering) (items : List α) : List α :=
  items.insertionSort (notAfter compare)

theorem sortWith_perm (compare : α → α → Ordering) (items : List α) :
    (sortWith compare items).Perm items :=
  List.perm_insertionSort _ items

variable {compare : α → α → Ordering} {items : List α} {x : α} {κ : Type}

@[simp] theorem mem_sortWith : x ∈ sortWith compare items ↔ x ∈ items :=
  (sortWith_perm compare items).mem_iff

instance notAfter_total (compare : α → α → Ordering) [Std.OrientedCmp compare] :
    Std.Total (notAfter compare) where
  total left right := by
    by_cases h : compare left right = .gt
    · have hflip : compare right left = .lt := Std.OrientedCmp.gt_iff_lt.mp h
      exact .inr fun hgt => absurd (hflip.symm.trans hgt) (by decide)
    · exact .inl h

instance notAfter_trans (compare : α → α → Ordering) [Std.TransCmp compare] :
    IsTrans α (notAfter compare) where
  trans _ _ _ h h' :=
    Ordering.isLE_iff_ne_gt.mp (Std.TransCmp.isLE_trans (Ordering.isLE_iff_ne_gt.mpr h)
      (Ordering.isLE_iff_ne_gt.mpr h'))

theorem transCmp_descending (compare : κ → κ → Ordering) [Std.TransCmp compare] (key : α → κ) :
    Std.TransCmp fun left right => compare (key right) (key left) where
  eq_swap := Std.OrientedCmp.eq_swap
  isLE_trans h h' := Std.TransCmp.isLE_trans h' h

theorem transCmp_ascending (compare : κ → κ → Ordering) [Std.TransCmp compare] (key : α → κ) :
    Std.TransCmp fun left right => compare (key left) (key right) where
  eq_swap := Std.OrientedCmp.eq_swap
  isLE_trans h h' := Std.TransCmp.isLE_trans h h'

theorem transCmp_lessAndEq [LinearOrder κ] (key : α → κ) :
    Std.TransCmp fun left right => compareOfLessAndEq (key left) (key right) := by
  simp only [← LinearOrder.compare_eq_compareOfLessAndEq]
  exact transCmp_ascending compare key

theorem transCmp_lessAndEq_descending [LinearOrder κ] (key : α → κ) :
    Std.TransCmp fun left right => compareOfLessAndEq (key right) (key left) := by
  simp only [← LinearOrder.compare_eq_compareOfLessAndEq]
  exact transCmp_descending compare key

theorem head_sortWith [Std.TransCmp compare] (h : (sortWith compare items).head? = some x) :
    x ∈ items ∧ ∀ y ∈ items, compare y x ≠ .lt := by
  have hsorted : (sortWith compare items).Pairwise (notAfter compare) :=
    List.pairwise_insertionSort _ items
  have hmem : x ∈ sortWith compare items := List.mem_of_head? h
  refine ⟨mem_sortWith.mp hmem, fun y hy hlt => ?_⟩
  replace hy : y ∈ sortWith compare items := mem_sortWith.mpr hy
  obtain ⟨rest, hrest⟩ : ∃ rest, sortWith compare items = x :: rest := List.head?_eq_some_iff.mp h
  rw [hrest] at hsorted hy
  rcases List.mem_cons.mp hy with rfl | hlater
  · exact absurd (Std.ReflCmp.compare_self.symm.trans hlt) (by decide)
  · exact (List.pairwise_cons.mp hsorted).1 y hlater (Std.OrientedCmp.gt_iff_lt.mpr hlt)

theorem head_sortWith_iff [Std.TransCmp compare]
    (htold : ∀ a ∈ items, ∀ b ∈ items, compare a b = .eq → a = b) :
    (sortWith compare items).head? = some x ↔
      x ∈ items ∧ ∀ y ∈ items, y ≠ x → compare x y = .lt := by
  constructor
  · intro h
    obtain ⟨hmem, hleast⟩ := head_sortWith h
    refine ⟨hmem, fun y hy hne => ?_⟩
    cases hcompare : compare x y with
    | lt => rfl
    | eq => exact absurd (htold x hmem y hy hcompare).symm hne
    | gt => exact absurd (Std.OrientedCmp.gt_iff_lt.mp hcompare) (hleast y hy)
  · rintro ⟨hmem, hfirst⟩
    cases hhead : (sortWith compare items).head? with
    | none =>
      have hsorted := (sortWith_perm compare items).mem_iff.mpr hmem
      rw [List.head?_eq_none_iff.mp hhead] at hsorted
      cases hsorted
    | some y =>
      obtain ⟨hy, hleast⟩ := head_sortWith hhead
      by_contra hne
      exact hleast x hmem (hfirst y hy fun heq => hne (congrArg some heq))

/-- `Number.MAX_SAFE_INTEGER`. -/
def MAX_SAFE_INTEGER : ℚ := 2 ^ 53 - 1

/-- The characters `String.prototype.trim` strips. -/
def isTrimmed (c : Char) : Bool :=
  let n := c.toNat
  (9 ≤ n && n ≤ 13) || n == 0x20 || n == 0xA0 || n == 0x1680 || (0x2000 ≤ n && n ≤ 0x200A) ||
    n == 0x2028 || n == 0x2029 || n == 0x202F || n == 0x205F || n == 0x3000 || n == 0xFEFF

/-- `value.trim().length > 0`. -/
def hasText (value : String) : Bool := value.toList.any fun c => !isTrimmed c

end LotusRfq.Js
