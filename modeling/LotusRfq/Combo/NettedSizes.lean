import LotusRfq.Combo.GroupResiduals

/-!
# LotusRfq — netting leaves no more than there was

What is left of sizes that are netted by outcome is no more than the sizes come to, and what can be
offset between two vectors is no more than either holds. Where the sizes fit the precision this is
what the decimals say too.

* **`Sized.residual_le`** — the residual of vectors that fit together;
* **`Sized.potential_le`** — the offset of two vectors that each fit.
-/

namespace LotusRfq.Combo

open Tables Decimals List

/-! ## Sums by key -/

section ByKey

variable {α κ : Type*} [DecidableEq κ] {items : List α} {key : α → κ} {ks : List κ}

theorem sum_by_key_le {weight : α → ℚ} (hweight : ∀ item ∈ items, 0 ≤ weight item)
    (hks : ks.Nodup) :
    (ks.map fun k => ((items.filter fun item => key item = k).map weight).sum).sum ≤
      (items.map weight).sum := by
  induction ks generalizing items with
  | nil =>
    refine sum_nonneg fun x hx => ?_
    obtain ⟨item, hitem, rfl⟩ := mem_map.mp hx
    exact hweight item hitem
  | cons k rest ih =>
    rw [nodup_cons] at hks
    have hothers := @ih (items.filter fun item => key item ≠ k)
      (fun item hitem => hweight item (mem_of_mem_filter hitem)) hks.2
    -- the other keys have their items among those without this key
    have hsame : (rest.map fun k' => (((items.filter fun item => key item ≠ k).filter
        fun item => key item = k').map weight).sum) =
          rest.map fun k' => ((items.filter fun item => key item = k').map weight).sum := by
      refine map_congr_left fun k' hk' => ?_
      rw [filter_filter]
      congr 2
      refine filter_congr fun item _ => ?_
      by_cases heq : key item = k'
      · have hne : key item ≠ k := fun h => hks.1 (h ▸ heq ▸ hk')
        simp [heq, heq ▸ hne]
      · simp [heq]
    have hsplit : (items.map weight).sum =
        ((items.filter fun item => key item = k).map weight).sum +
          ((items.filter fun item => key item ≠ k).map weight).sum := by
      clear ih hothers hsame hweight
      induction items with
      | nil => simp
      | cons item others ih =>
        by_cases heq : key item = k
        · simp [heq, ih, add_assoc]
        · simp [heq, ih]
          ring
    rw [hsame] at hothers
    rw [map_cons, sum_cons, hsplit]
    linarith

theorem sum_abs_by_key_le {size : α → ℚ} (hks : ks.Nodup) :
    (ks.map fun k => |((items.filter fun item => key item = k).map size).sum|).sum ≤
      (items.map fun item => |size item|).sum := by
  calc (ks.map fun k => |((items.filter fun item => key item = k).map size).sum|).sum
      ≤ (ks.map fun k => ((items.filter fun item => key item = k).map
          fun item => |size item|).sum).sum := by
        refine sum_le_sum fun k _ => ?_
        have habs := @Multiset.abs_sum_le_sum_abs ℚ _ _ _
          ((items.filter fun item => key item = k).map size : List ℚ)
        rwa [Multiset.sum_coe, Multiset.map_coe, Multiset.sum_coe, map_map] at habs
    _ ≤ (items.map fun item => |size item|).sum :=
        sum_by_key_le (fun item _ => abs_nonneg (size item)) hks

end ByKey

def absSize (vector : SizeVector) : ℚ := (vector.map fun entry => |entry.2|).sum

variable {vector : SizeVector}

theorem sum_abs_entryOf_le (hkeys : (keysOf vector).Nodup) {keys : List String}
    (hnodup : keys.Nodup) : (keys.map fun key => |entryOf vector key|).sum ≤ absSize vector := by
  have hle := @sum_abs_by_key_le _ _ _ vector Prod.fst keys Prod.snd hnodup
  simp only [sum_filter_eq_entryOf hkeys] at hle
  exact hle

theorem absSize_eq (hkeys : (keysOf vector).Nodup) :
    absSize vector = ((keysOf vector).map fun key => |entryOf vector key|).sum := by
  rw [absSize, keysOf, map_map]
  refine congrArg List.sum (map_congr_left fun entry hentry => ?_)
  show _ = |entryOf vector entry.1|
  rw [entryOf_of_mem hkeys (show (entry.1, entry.2) ∈ vector from hentry)]

theorem sum_abs_flatten (vectors : List SizeVector) :
    (vectors.flatten.map fun entry => |entry.2|).sum = (vectors.map absSize).sum := by
  induction vectors with
  | nil => rfl
  | cons vector rest ih =>
    rw [flatten_cons, map_append, sum_append, ih, map_cons, sum_cons]
    rfl

theorem sum_abs_net_le {vectors : List SizeVector}
    (hkeys : ∀ vector ∈ vectors, (keysOf vector).Nodup) {keys : List String} (hnodup : keys.Nodup) :
    (keys.map fun key => |(vectors.map fun vector => entryOf vector key).sum|).sum ≤
      (vectors.map absSize).sum := by
  have hle := @sum_abs_by_key_le _ _ _ vectors.flatten Prod.fst keys Prod.snd hnodup
  rw [sum_abs_flatten] at hle
  refine le_trans (le_of_eq ?_) hle
  refine congrArg List.sum (map_congr_left fun key _ => ?_)
  rw [← sum_sizesOfKey hkeys]
  rfl

/-! ## Vectors that fit together -/

section Fits

variable {precision : ℕ} {places : ℤ} {locale : String → String → Ordering}

/-- The sizes of some vectors are whole at `places` and together no more than a size that fits. -/
structure NetFits (precision : ℕ) (places : ℤ) (vectors : List SizeVector) (total : ℚ) :
    Prop where
  keys : ∀ vector ∈ vectors, (keysOf vector).Nodup
  onGrid : ∀ vector ∈ vectors, ∀ entry ∈ vector, OnGrid places entry.2
  le : (vectors.map absSize).sum ≤ total
  fits : FitsIn precision places total

theorem onGrid_entryOf (hkeys : (keysOf vector).Nodup)
    (honGrid : ∀ entry ∈ vector, OnGrid places entry.2) (key : String) :
    OnGrid places (entryOf vector key) := by
  by_cases hkey : key ∈ keysOf vector
  · obtain ⟨⟨k, size⟩, hentry, rfl⟩ := mem_map.mp hkey
    rw [entryOf_of_mem hkeys hentry]
    exact honGrid _ hentry
  · rw [entryOf_eq_zero hkey]
    exact .zero

theorem positives_le_abs (xs : List ℚ) : positives xs ≤ (xs.map fun x => |x|).sum :=
  sum_le_sum fun x _ => max_le (le_abs_self x) (abs_nonneg x)

section

variable {vectors : List SizeVector} {total : ℚ} (h : NetFits precision places vectors total)
include h

theorem NetFits.of_perm {others : List SizeVector} (hperm : vectors.Perm others) :
    NetFits precision places others total := by
  refine ⟨fun vector hvector => h.keys vector (hperm.mem_iff.mpr hvector),
    fun vector hvector => h.onGrid vector (hperm.mem_iff.mpr hvector), ?_, h.fits⟩
  rw [← (hperm.map absSize).sum_eq]
  exact h.le

theorem NetFits.entriesFit (key : String) :
    EntriesFit precision places (vectors.map fun vector => entryOf vector key) := by
  have hgrid : ∀ size ∈ vectors.map fun vector => entryOf vector key, OnGrid places size := by
    intro size hsize
    obtain ⟨vector, hvector, rfl⟩ := mem_map.mp hsize
    exact onGrid_entryOf (h.keys vector hvector) (h.onGrid vector hvector) key
  have habs : ((vectors.map fun vector => entryOf vector key).map fun x => |x|).sum ≤ total := by
    rw [map_map]
    refine le_trans (sum_le_sum fun vector hvector => ?_) h.le
    have hone := sum_abs_entryOf_le (h.keys vector hvector) (nodup_singleton key)
    rwa [map_singleton, sum_singleton] at hone
  have hfits : ∀ sizes : List ℚ, (∀ size ∈ sizes, OnGrid places size) →
      (sizes.map fun x => |x|).sum ≤ total → FitsIn precision places (positives sizes) := by
    intro sizes hsizes hle
    have hnonneg := positives_nonneg sizes
    have hbound := (positives_le_abs sizes).trans hle
    refine h.fits.of_le (.sum fun x hx => ?_) ?_
    · obtain ⟨size, hsize, rfl⟩ := mem_map.mp hx
      rcases max_choice size 0 with heq | heq
      · rw [heq]
        exact hsizes size hsize
      · rw [heq]
        exact .zero
    · rwa [abs_of_nonneg hnonneg, abs_of_nonneg (hnonneg.trans hbound)]
  refine ⟨hgrid, hfits _ hgrid habs, hfits _ (fun size hsize => ?_) ?_⟩
  · obtain ⟨other, hother, rfl⟩ := mem_map.mp hsize
    exact (hgrid other hother).neg
  · rw [map_map]
    refine le_trans (le_of_eq (congrArg List.sum (map_congr_left fun x _ => ?_))) habs
    exact abs_neg x

theorem NetFits.entryOf_sum (key : String) : entryOf (sumVectorsAt precision vectors) key =
      (vectors.map fun vector => entryOf vector key).sum :=
  entryOf_sumVectorsAt_eq h.keys (h.entriesFit key)

theorem NetFits.leftOver {leftOver : SizeVector}
    (hsub : leftOver ⊆ sumVectorsAt precision vectors) (hnodup : (keysOf leftOver).Nodup) :
    addAll precision 0 (leftOver.map fun entry => |entry.2|) = absSize leftOver ∧
      absSize leftOver ≤ (vectors.map absSize).sum := by
  have hkeys := @nodup_keys_sumVectorsAt precision vectors
  have hentry : ∀ entry ∈ leftOver, entry.2 =
      (vectors.map fun vector => entryOf vector entry.1).sum := by
    intro entry hentry
    rw [← h.entryOf_sum, entryOf_of_mem hkeys (show (entry.1, entry.2) ∈ _ from hsub hentry)]
  have hle : absSize leftOver ≤ (vectors.map absSize).sum := by
    refine le_trans (le_of_eq ?_) (sum_abs_net_le h.keys hnodup)
    rw [absSize, keysOf, map_map]
    refine congrArg List.sum (map_congr_left fun entry hin => ?_)
    rw [hentry entry hin]
    rfl
  refine ⟨addAll_eq_of_le (fun x hx => ?_) (fun x hx => ?_) h.fits (hle.trans h.le), hle⟩
  · obtain ⟨entry, hin, rfl⟩ := mem_map.mp hx
    rw [hentry entry hin]
    exact (OnGrid.sum (h.entriesFit entry.1).onGrid).abs
  · obtain ⟨entry, -, rfl⟩ := mem_map.mp hx
    exact abs_nonneg _

theorem NetFits.held : addAll precision 0 (vectors.flatten.map fun entry => |entry.2|) =
    (vectors.map absSize).sum := by
  have hsum : (vectors.flatten.map fun entry => |entry.2|).sum = (vectors.map absSize).sum :=
    sum_abs_flatten vectors
  rw [← hsum]
  refine addAll_eq_of_le (fun x hx => ?_) (fun x hx => ?_) h.fits (hsum.le.trans h.le)
  · obtain ⟨entry, hentry, rfl⟩ := mem_map.mp hx
    obtain ⟨vector, hvector, hin⟩ := mem_flatten.mp hentry
    exact (h.onGrid vector hvector entry hin).abs
  · obtain ⟨entry, -, rfl⟩ := mem_map.mp hx
    exact abs_nonneg _

end

end Fits

/-! ## What two vectors offset -/

/-- The outcomes of which one has bought what the other has sold. -/
def opposedKeys (localeCompare : String → String → Ordering) (left right : OverlapGraphNode) :
    List String :=
  (Js.sortWith localeCompare <|
    ((keysOf left.vector ++ keysOf right.vector).foldl OrderedMap.addNew []).filter fun key =>
      key ∈ keysOf left.vector ∧ key ∈ keysOf right.vector).filter fun key =>
        entryOf left.vector key * entryOf right.vector key < 0

section Offsets

variable {precision : ℕ} {places : ℤ} {locale : String → String → Ordering}
  {left right : OverlapGraphNode}

theorem nodup_opposedKeys : (opposedKeys locale left right).Nodup := by
  refine List.Nodup.filter _ ((Js.sortWith_perm _ _).nodup_iff.mpr (List.Nodup.filter _ ?_))
  exact OrderedMap.nodup_foldl_addNew _ nodup_nil

theorem mem_opposedKeys {key : String} : key ∈ opposedKeys locale left right ↔
    entryOf left.vector key * entryOf right.vector key < 0 := by
  rw [opposedKeys, mem_filter, Js.mem_sortWith, mem_filter, OrderedMap.mem_foldl_addNew,
    decide_eq_true_eq, decide_eq_true_eq]
  refine ⟨fun hin => hin.2, fun hneg => ⟨?_, hneg⟩⟩
  have hleft : key ∈ keysOf left.vector := by
    by_contra hnot
    rw [entryOf_eq_zero hnot, zero_mul] at hneg
    exact lt_irrefl 0 hneg
  have hright : key ∈ keysOf right.vector := by
    by_contra hnot
    rw [entryOf_eq_zero hnot, mul_zero] at hneg
    exact lt_irrefl 0 hneg
  exact ⟨.inr (mem_append_left _ hleft), hleft, hright⟩

theorem overlapLegs_offsets :
    (overlapLegs locale left right).map OverlapGraphOverlapLeg.offsetSize =
      (opposedKeys locale left right).map fun key =>
        min |entryOf left.vector key| |entryOf right.vector key| := by
  unfold overlapLegs opposedKeys
  generalize Js.sortWith locale _ = sharedKeys
  induction sharedKeys with
  | nil => rfl
  | cons key rest ih =>
    rw [filterMap_cons, filter_cons]
    by_cases hneg : entryOf left.vector key * entryOf right.vector key < 0
    · have hleft : entryOf left.vector key ≠ 0 := by
        rintro heq
        rw [heq, zero_mul] at hneg
        exact lt_irrefl 0 hneg
      have hright : entryOf right.vector key ≠ 0 := by
        rintro heq
        rw [heq, mul_zero] at hneg
        exact lt_irrefl 0 hneg
      have hsigns : decide (0 < entryOf left.vector key) ≠
          decide (0 < entryOf right.vector key) := by
        rcases mul_neg_iff.mp hneg with ⟨hpos, hlt⟩ | ⟨hlt, hpos⟩
        · simp [hpos, hlt.le]
        · simp [hpos, hlt.le]
      simp only [hleft, hright, or_self, if_false, hsigns, hneg, decide_true, if_true, map_cons, ih]
    · by_cases hzero : entryOf left.vector key = 0 ∨ entryOf right.vector key = 0
      · simp only [hzero, if_true, hneg, decide_false, Bool.false_eq_true, if_false, ih]
      · have hsigns : decide (0 < entryOf left.vector key) =
            decide (0 < entryOf right.vector key) := by
          rw [not_or] at hzero
          rw [decide_eq_decide]
          rw [mul_neg_iff, not_or, not_and, not_and] at hneg
          constructor
          · intro hpos
            exact lt_of_le_of_ne (not_lt.mp (hneg.1 hpos)) (Ne.symm hzero.2)
          · intro hpos
            by_contra hnot
            exact hneg.2 (lt_of_le_of_ne (not_lt.mp hnot) hzero.1) hpos
        simp only [hzero, if_false, hsigns, if_true, hneg, decide_false, Bool.false_eq_true, ih]

theorem offsets_nonneg : ∀ size ∈ (opposedKeys locale left right).map fun key =>
    min |entryOf left.vector key| |entryOf right.vector key|, 0 ≤ size := by
  intro size hsize
  obtain ⟨key, -, rfl⟩ := mem_map.mp hsize
  exact le_min (abs_nonneg _) (abs_nonneg _)

theorem sum_offsets_le (hleft : (keysOf left.vector).Nodup) (hright : (keysOf right.vector).Nodup) :
    ((opposedKeys locale left right).map fun key =>
        min |entryOf left.vector key| |entryOf right.vector key|).sum ≤
      min (absSize left.vector) (absSize right.vector) := by
  refine le_min ?_ ?_
  · refine le_trans (sum_le_sum fun key _ => min_le_left _ _) ?_
    exact sum_abs_entryOf_le hleft nodup_opposedKeys
  · refine le_trans (sum_le_sum fun key _ => min_le_right _ _) ?_
    exact sum_abs_entryOf_le hright nodup_opposedKeys

def FitsAlone (precision : ℕ) (node : OverlapGraphNode) : Prop :=
  ∃ places, NetFits precision places [node.vector] node.grossAbsSize

/-- Between vectors that fit by themselves, the potential is no more than either gross size. -/
theorem potential_le (hleft : FitsAlone precision left) (hright : FitsAlone precision right) :
    addAll precision 0 ((overlapLegs locale left right).map
      OverlapGraphOverlapLeg.offsetSize) ≤ min left.grossAbsSize right.grossAbsSize := by
  obtain ⟨placesL, hleft⟩ := hleft
  obtain ⟨placesR, hright⟩ := hright
  have hkeysL := hleft.keys _ mem_cons_self
  have hkeysR := hright.keys _ mem_cons_self
  have hleL := hleft.le
  have hleR := hright.le
  rw [map_singleton, sum_singleton] at hleL hleR
  have hbound := (@sum_offsets_le locale left right hkeysL hkeysR).trans (min_le_min hleL hleR)
  have hgrid : ∀ places, placesL ≤ places → placesR ≤ places →
      ∀ size ∈ (opposedKeys locale left right).map fun key =>
        min |entryOf left.vector key| |entryOf right.vector key|, OnGrid places size := by
    intro places hplacesL hplacesR size hsize
    obtain ⟨key, -, rfl⟩ := mem_map.mp hsize
    have hL := onGrid_entryOf hkeysL (hleft.onGrid _ mem_cons_self) key
    have hR := onGrid_entryOf hkeysR (hright.onGrid _ mem_cons_self) key
    exact (hL.mono hplacesL).abs.min (hR.mono hplacesR).abs
  rw [overlapLegs_offsets]
  -- the gross size on the finer of the two grids bounds the sum there
  rcases le_total placesL placesR with hfiner | hfiner
  · rw [addAll_eq_of_le (hgrid placesR hfiner le_rfl) offsets_nonneg hright.fits
      (hbound.trans (min_le_right _ _))]
    exact hbound
  · rw [addAll_eq_of_le (hgrid placesL le_rfl hfiner) offsets_nonneg hleft.fits
      (hbound.trans (min_le_left _ _))]
    exact hbound

theorem potential_pos (hprecision : 0 < precision) (h : overlapLegs locale left right ≠ []) :
    0 < addAll precision 0 ((overlapLegs locale left right).map
      OverlapGraphOverlapLeg.offsetSize) := by
  have hne : opposedKeys locale left right ≠ [] := by
    intro hnil
    have hmap := @overlapLegs_offsets locale left right
    rw [hnil, map_nil, map_eq_nil_iff] at hmap
    exact h hmap
  obtain ⟨key, rest, hcons⟩ := exists_cons_of_ne_nil hne
  have hkey : entryOf left.vector key * entryOf right.vector key < 0 :=
    mem_opposedKeys.mp (hcons ▸ mem_cons_self)
  have hfirst : 0 < min |entryOf left.vector key| |entryOf right.vector key| :=
    lt_min (abs_pos.mpr fun heq => by simp [heq] at hkey)
      (abs_pos.mpr fun heq => by simp [heq] at hkey)
  have hrest := @offsets_nonneg locale left right
  rw [overlapLegs_offsets]
  rw [hcons, map_cons] at hrest ⊢
  refine addAll_pos hprecision (fun size hsize => hrest size (mem_cons_of_mem _ hsize)) ?_
  show 0 < toSignificant precision (0 + _)
  rw [zero_add]
  exact toSignificant_pos hprecision hfirst

theorem overlapLegs_eq_nil_iff : overlapLegs locale left right = [] ↔
    ¬ ∃ key, entryOf left.vector key * entryOf right.vector key < 0 := by
  have hmap := @overlapLegs_offsets locale left right
  rw [← map_eq_nil_iff (f := OverlapGraphOverlapLeg.offsetSize), hmap,
    map_eq_nil_iff, eq_nil_iff_forall_not_mem, not_exists]
  exact forall_congr' fun key => not_congr mem_opposedKeys

/-- **The scores of an edge.** -/
theorem buildEdgeAt_scores (hprecision : 0 < precision) {edge : OverlapGraphEdge}
    (h : buildEdgeAt precision locale left right = .ok (some edge)) :
    0 < edge.exactOppositionScore ∧ edge.exactOppositionScore ≤ edge.partialOverlapScore ∧
      (FitsAlone precision left → FitsAlone precision right → edge.partialOverlapScore ≤ 1) := by
  unfold buildEdgeAt at h
  simp only at h
  split at h
  next => cases h
  next hlegs =>
    split at h
    next => cases h
    next hgross =>
      cases h
      rw [not_or, not_le, not_le] at hgross
      obtain ⟨hleft, hright⟩ := hgross
      have hpotential := @potential_pos precision locale left right hprecision hlegs
      have hmin : 0 < min left.grossAbsSize right.grossAbsSize := lt_min hleft hright
      have hmax : 0 < max left.grossAbsSize right.grossAbsSize := lt_max_of_lt_left hleft
      refine ⟨toSignificant_pos hprecision (div_pos hpotential hmax), ?_, fun hfitL hfitR => ?_⟩
      · refine toSignificant_mono hprecision (div_pos hpotential hmax).le ?_
        exact div_le_div_of_nonneg_left hpotential.le hmin min_le_max
      · exact toSignificant_le_one hprecision ((div_le_one hmin).mpr (potential_le hfitL hfitR))

end Offsets

end LotusRfq.Combo
