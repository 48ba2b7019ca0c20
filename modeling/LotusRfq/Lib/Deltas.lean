import Mathlib.Data.List.Perm.Basic
import Mathlib.Data.List.Nodup

/-!
# Changes of a keyed collection

A collection with at most one element for a key, kept as a list in any order. A change puts an
element in the place of the one with its key, or drops a key.

* **`mem_applyAll`** — what a list of changes leaves;
* **`applyAll_perm`** — the changes from one collection to another lead from any order of the one to
  an order of the other.
-/

namespace Deltas

open List

variable {α κ : Type} [DecidableEq κ] (key : α → κ)

inductive Change (α κ : Type) where
  | put (x : α)
  | drop (k : κ)

def Change.about : Change α κ → κ
  | .put x => key x
  | .drop k => k

def apply (items : List α) : Change α κ → List α
  | .put x => items.filter (fun y => key y ≠ key x) ++ [x]
  | .drop k => items.filter fun y => key y ≠ k

def applyAll (items : List α) (changes : List (Change α κ)) : List α :=
  changes.foldl (apply key) items

variable {key} {items : List α} {changes : List (Change α κ)}

theorem mem_apply {change : Change α κ} {y : α} :
    y ∈ apply key items change ↔ change = .put y ∨ (y ∈ items ∧ key y ≠ change.about key) := by
  cases change with
  | put x =>
    rw [apply, mem_append, mem_singleton, mem_filter, decide_eq_true_eq,
      Change.put.injEq, or_comm, eq_comm]
    rfl
  | drop k =>
    rw [apply, mem_filter, decide_eq_true_eq]
    simp [Change.about]

theorem apply_nodup {change : Change α κ} (h : (items.map key).Nodup) :
    ((apply key items change).map key).Nodup := by
  have hfilter : ∀ k, ((items.filter fun y => key y ≠ k).map key).Nodup := fun k =>
    h.sublist (filter_sublist.map key)
  cases change with
  | drop k => exact hfilter k
  | put x =>
    rw [apply, map_append, map_singleton]
    refine nodup_append.mpr ⟨hfilter _, nodup_singleton _, ?_⟩
    rintro k hk k' hk' rfl
    obtain ⟨y, hy, rfl⟩ := mem_map.mp hk
    have hne := of_decide_eq_true (mem_filter.mp hy).2
    exact hne (mem_singleton.mp hk')

theorem applyAll_nodup (h : (items.map key).Nodup) :
    ((applyAll key items changes).map key).Nodup := by
  induction changes generalizing items with
  | nil => exact h
  | cons change changes ih => exact ih (apply_nodup h)

/-- **What is left**: what was put, and what no change was about. -/
theorem mem_applyAll (hchanges : (changes.map (Change.about key)).Nodup) {y : α} :
    y ∈ applyAll key items changes ↔
      .put y ∈ changes ∨ (y ∈ items ∧ key y ∉ changes.map (Change.about key)) := by
  induction changes generalizing items with
  | nil => simp [applyAll]
  | cons change changes ih =>
    rw [map_cons, nodup_cons] at hchanges
    show y ∈ applyAll key (apply key items change) changes ↔ _
    rw [ih hchanges.2, mem_apply, mem_cons, map_cons, mem_cons, not_or]
    constructor
    · rintro (hput | ⟨hnow | ⟨hitem, hne⟩, hnot⟩)
      · exact Or.inl (Or.inr hput)
      · exact Or.inl (Or.inl hnow.symm)
      · exact Or.inr ⟨hitem, hne, hnot⟩
    · rintro ((hnow | hput) | ⟨hitem, hne, hnot⟩)
      · -- no later change is about what is put now
        refine Or.inr ⟨Or.inl hnow.symm, ?_⟩
        rw [← hnow] at hchanges
        exact hchanges.1
      · exact Or.inl hput
      · exact Or.inr ⟨Or.inr ⟨hitem, hne⟩, hnot⟩

/-- **From one collection to another.** The changes put what is new and drop the keys that are
gone. -/
theorem applyAll_perm {previous current : List α} (hprevious : (previous.map key).Nodup)
    (hcurrent : (current.map key).Nodup) (hitems : items.Perm previous)
    (hchanges : (changes.map (Change.about key)).Nodup)
    (hput : ∀ x, .put x ∈ changes ↔ x ∈ current ∧ x ∉ previous)
    (hdrop : ∀ k, .drop k ∈ changes ↔ k ∈ previous.map key ∧ k ∉ current.map key) :
    (applyAll key items changes).Perm current := by
  have hitemsNodup : (items.map key).Nodup := (hitems.map key).nodup_iff.mpr hprevious
  refine (perm_ext_iff_of_nodup (applyAll_nodup hitemsNodup).of_map hcurrent.of_map).mpr
    fun y => ?_
  have habout : ∀ k, k ∈ changes.map (Change.about key) ↔
      (∃ x, x ∈ current ∧ x ∉ previous ∧ key x = k) ∨
        (k ∈ previous.map key ∧ k ∉ current.map key) := by
    intro k
    rw [mem_map]
    constructor
    · rintro ⟨change, hmem, rfl⟩
      cases change with
      | put x => exact Or.inl ⟨x, ((hput x).mp hmem).1, ((hput x).mp hmem).2, rfl⟩
      | drop k => exact Or.inr ((hdrop k).mp hmem)
    · rintro (⟨x, hx, hnew, rfl⟩ | hgone)
      · exact ⟨.put x, (hput x).mpr ⟨hx, hnew⟩, rfl⟩
      · exact ⟨.drop k, (hdrop k).mpr hgone, rfl⟩
  rw [mem_applyAll hchanges, hput, hitems.mem_iff, habout]
  constructor
  · rintro (⟨hy, -⟩ | ⟨hy, hnot⟩)
    · exact hy
    · -- the key is still there, with an element that is not new
      rw [not_or] at hnot
      have hkept : key y ∈ current.map key := by
        by_contra hgone
        exact hnot.2 ⟨mem_map_of_mem hy, hgone⟩
      obtain ⟨x, hx, hkey⟩ := mem_map.mp hkept
      have hold : x ∈ previous := by
        by_contra hnew
        exact hnot.1 ⟨x, hx, hnew, hkey⟩
      rw [← inj_on_of_nodup_map hprevious hold hy hkey]
      exact hx
  · intro hy
    by_cases hold : y ∈ previous
    · refine Or.inr ⟨hold, not_or.mpr ⟨?_, ?_⟩⟩
      · rintro ⟨x, hx, hnew, hkey⟩
        rw [inj_on_of_nodup_map hcurrent hx hy hkey] at hnew
        exact hnew hold
      · rintro ⟨-, hgone⟩
        exact hgone (mem_map_of_mem hy)
    · exact Or.inl ⟨hy, hold⟩

end Deltas
