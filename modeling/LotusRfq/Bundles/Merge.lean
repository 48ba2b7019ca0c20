import LotusRfq.Bundles.Refresh

/-!
# LotusRfq — a result over what was stored

The legs of a status have distinct keys, and `mergeSubmittedLegFailures` keeps one leg for each: the
new one, unless it failed and the stored one did not.

* **`hasFilled_merge_iff`** — the filled legs of a merge;
* **`keys_merge`**, **`settled_merge`** — its keys are distinct, and it settles what was settled.
-/

namespace LotusRfq.Bundles

open OrderedMap

structure Keyed (m : List (SubmittedLegKey × SubmittedLeg)) : Prop where
  nodup : (m.map Prod.fst).Nodup
  key : ∀ entry ∈ m, submittedLegKey entry.2 = entry.1

/-- A leg of the key `key` is filled. -/
def HasFilled (legs : List SubmittedLeg) (key : SubmittedLegKey) : Prop :=
  ∃ leg ∈ legs, submittedLegKey leg = key ∧ leg.status = .FILLED

instance (legs : List SubmittedLeg) (key : SubmittedLegKey) : Decidable (HasFilled legs key) :=
  inferInstanceAs (Decidable (∃ leg ∈ legs, _))

variable {m : List (SubmittedLegKey × SubmittedLeg)} {key : SubmittedLegKey}
  {leg existing next : SubmittedLeg}

theorem Keyed.set (h : Keyed m) (hkey : submittedLegKey leg = key) : Keyed (set key leg m) where
  nodup := by
    rw [keys_set]
    exact nodup_addNew h.nodup key
  key entry hmem := by
    rcases mem_set hmem with hold | rfl
    · exact h.key entry hold
    · exact hkey

theorem Keyed.keys (h : Keyed m) : (m.map (·.2)).map submittedLegKey = m.map Prod.fst := by
  rw [List.map_map]
  exact List.map_congr_left h.key

theorem mem_of_lookup (h : m.lookup key = some leg) : (key, leg) ∈ m := by
  induction m with
  | nil => cases h
  | cons entry rest ih =>
    obtain ⟨key', leg'⟩ := entry
    rw [lookup_cons] at h
    split at h
    next heq =>
      cases h
      rw [heq]
      exact List.mem_cons_self
    next => exact List.mem_cons_of_mem _ (ih h)

theorem Keyed.hasFilled_iff (h : Keyed m) :
    HasFilled (m.map (·.2)) key ↔ ∃ leg, m.lookup key = some leg ∧ leg.status = .FILLED := by
  constructor
  · rintro ⟨leg, hmem, hkey, hfilled⟩
    obtain ⟨entry, hentry, rfl⟩ := List.mem_map.mp hmem
    have hkeys : (key, entry.2) ∈ m := by
      rw [← hkey, h.key entry hentry]
      exact hentry
    exact ⟨entry.2, lookup_of_mem h.nodup hkeys, hfilled⟩
  · rintro ⟨leg, hlookup, hfilled⟩
    have hentry := mem_of_lookup hlookup
    exact ⟨leg, List.mem_map.mpr ⟨_, hentry, rfl⟩, h.key _ hentry, hfilled⟩

variable {legs : List SubmittedLeg}

theorem hasFilled_cons : HasFilled (leg :: legs) key ↔
    (submittedLegKey leg = key ∧ leg.status = .FILLED) ∨ HasFilled legs key := by
  simp [HasFilled]

/-! ## One leg -/

theorem submittedLegKey_select (hkey : submittedLegKey existing = submittedLegKey next) :
    submittedLegKey (selectPreferredSubmittedLeg existing next) = submittedLegKey next := by
  unfold selectPreferredSubmittedLeg
  split
  · exact hkey
  · split
    · split <;> rfl
    · rfl

theorem select_FILLED_iff : (selectPreferredSubmittedLeg existing next).status = .FILLED ↔
    next.status = .FILLED ∨ (existing.status = .FILLED ∧ next.status = .FAILED) := by
  unfold selectPreferredSubmittedLeg
  by_cases hnext : next.status = .FAILED
  · by_cases hexisting : existing.status = .FAILED
    · -- both failed
      simp only [hnext, hexisting, ne_eq, not_true_eq_false, and_true, if_false, if_true]
      split <;> simp [hnext]
    · simp [hnext, hexisting]
  · simp [hnext]

theorem settled_select (hexisting : Settled existing) (hnext : Settled next) :
    Settled (selectPreferredSubmittedLeg existing next) := by
  unfold selectPreferredSubmittedLeg
  split
  · exact hexisting
  · split
    next =>
      split
      · exact hnext
      · exact hnext
    · exact hnext

theorem preferred_FILLED_iff {existing : Option SubmittedLeg} :
    (preferredLeg existing next).status = .FILLED ↔
      next.status = .FILLED ∨
        ((∃ leg, existing = some leg ∧ leg.status = .FILLED) ∧ next.status = .FAILED) := by
  cases existing with
  | none => simp [preferredLeg]
  | some existing => simp [preferredLeg, select_FILLED_iff]

/-! ## All legs -/

theorem Keyed.mergeLeg (h : Keyed m) (leg : SubmittedLeg) : Keyed (mergeLeg m leg) := by
  refine h.set ?_
  cases hlookup : m.lookup (submittedLegKey leg) with
  | none => rfl
  | some existing => exact submittedLegKey_select (h.key _ (mem_of_lookup hlookup))

theorem Keyed.foldl_mergeLeg (h : Keyed m) (legs : List SubmittedLeg) :
    Keyed (legs.foldl Bundles.mergeLeg m) := by
  induction legs generalizing m with
  | nil => exact h
  | cons leg legs ih => exact ih (h.mergeLeg leg)

/-- Legs of distinct keys leave a key filled when one of them is, or when it was filled before and
none of them has a say. -/
theorem foldl_mergeLeg_FILLED_iff (h : Keyed m) (hkeys : (legs.map submittedLegKey).Nodup) :
    (∃ leg, (legs.foldl mergeLeg m).lookup key = some leg ∧ leg.status = .FILLED) ↔
      HasFilled legs key ∨ ((∃ leg, m.lookup key = some leg ∧ leg.status = .FILLED) ∧
        ∀ leg ∈ legs, submittedLegKey leg = key → leg.status = .FAILED) := by
  induction legs generalizing m with
  | nil => simp [HasFilled]
  | cons leg legs ih =>
    rw [List.map_cons, List.nodup_cons] at hkeys
    rw [List.foldl_cons, ih (h.mergeLeg leg) hkeys.2, hasFilled_cons, mergeLeg, lookup_set]
    by_cases hkey : key = submittedLegKey leg
    · -- the leg itself decides, since no other has its key
      have hothers : ∀ other ∈ legs, submittedLegKey other ≠ key := fun other hmem heq =>
        hkeys.1 (List.mem_map.mpr ⟨other, hmem, heq.trans hkey⟩)
      have hnone : ¬ HasFilled legs key := fun ⟨other, hmem, heq, _⟩ => hothers other hmem heq
      have hvacuous : ∀ other ∈ legs, submittedLegKey other = key → other.status = .FAILED :=
        fun other hmem heq => absurd heq (hothers other hmem)
      subst hkey
      rw [if_pos rfl]
      simp only [hnone, false_or, or_false, Option.some.injEq, exists_eq_left', true_and,
        preferred_FILLED_iff, List.forall_mem_cons, forall_const]
      exact ⟨fun h => h.1.imp_right fun hold => ⟨hold.1, hold.2, hvacuous⟩,
        fun h => ⟨h.imp_right fun hold => ⟨hold.1, hold.2.1⟩, hvacuous⟩⟩
    · have hne : submittedLegKey leg ≠ key := fun heq => hkey heq.symm
      simp [hkey, hne]

section Merge

variable {localeCompare : String → String → Ordering} {existingLegs nextLegs : List SubmittedLeg}

def byKey (legs : List SubmittedLeg) : List (SubmittedLegKey × SubmittedLeg) :=
  legs.map fun leg => (submittedLegKey leg, leg)

theorem keyed_byKey (hkeys : (legs.map submittedLegKey).Nodup) : Keyed (byKey legs) where
  nodup := by simpa [byKey, Function.comp_def] using hkeys
  key entry hmem := by
    obtain ⟨leg, -, rfl⟩ := List.mem_map.mp hmem
    rfl

@[simp] theorem map_snd_byKey (legs : List SubmittedLeg) : (byKey legs).map (·.2) = legs := by
  simp [byKey, Function.comp_def]

theorem merge_perm (hexisting : (existingLegs.map submittedLegKey).Nodup)
    (hne : existingLegs ≠ []) : (mergeSubmittedLegFailures localeCompare existingLegs nextLegs).Perm
      ((nextLegs.foldl mergeLeg (byKey existingLegs)).map (·.2)) := by
  have hstored : existingLegs.foldl (fun merged leg => set (submittedLegKey leg) leg merged) [] =
      byKey existingLegs :=
    foldl_set id hexisting fun _ _ hmem => (List.not_mem_nil hmem).elim
  rw [mergeSubmittedLegFailures, if_neg hne]
  dsimp only
  rw [hstored]
  exact Js.sortWith_perm _ _

theorem HasFilled.perm {legs' : List SubmittedLeg} (h : legs.Perm legs') :
    HasFilled legs key ↔ HasFilled legs' key := by
  simp only [HasFilled, h.mem_iff]

/-- **The filled legs of a merge.** -/
theorem hasFilled_merge_iff (hexisting : (existingLegs.map submittedLegKey).Nodup)
    (hnext : (nextLegs.map submittedLegKey).Nodup) :
    HasFilled (mergeSubmittedLegFailures localeCompare existingLegs nextLegs) key ↔
      HasFilled nextLegs key ∨ (HasFilled existingLegs key ∧
        ∀ leg ∈ nextLegs, submittedLegKey leg = key → leg.status = .FAILED) := by
  by_cases hne : existingLegs = []
  · rw [mergeSubmittedLegFailures, if_pos hne, hne]
    simp [HasFilled]
  · have hkeyed := keyed_byKey hexisting
    have hbefore : HasFilled existingLegs key ↔
        ∃ leg, (byKey existingLegs).lookup key = some leg ∧ leg.status = .FILLED := by
      rw [← hkeyed.hasFilled_iff, map_snd_byKey]
    rw [HasFilled.perm (merge_perm hexisting hne), (hkeyed.foldl_mergeLeg nextLegs).hasFilled_iff,
      foldl_mergeLeg_FILLED_iff hkeyed hnext, hbefore]

theorem keys_merge (hexisting : (existingLegs.map submittedLegKey).Nodup)
    (hnext : (nextLegs.map submittedLegKey).Nodup) :
    ((mergeSubmittedLegFailures localeCompare existingLegs nextLegs).map
      submittedLegKey).Nodup := by
  by_cases hne : existingLegs = []
  · rw [mergeSubmittedLegFailures, if_pos hne]
    exact hnext
  · have hkeyed := (keyed_byKey hexisting).foldl_mergeLeg nextLegs
    rw [((merge_perm hexisting hne).map submittedLegKey).nodup_iff, hkeyed.keys]
    exact hkeyed.nodup

theorem forall_mem_foldl_mergeLeg {P : SubmittedLeg → Prop}
    (hselect : ∀ existing next, P existing → P next → P (selectPreferredSubmittedLeg existing next))
    (hm : ∀ entry ∈ m, P entry.2) (hnext : ∀ leg ∈ nextLegs, P leg) :
    ∀ entry ∈ nextLegs.foldl mergeLeg m, P entry.2 := by
  induction nextLegs generalizing m with
  | nil => exact hm
  | cons leg legs ih =>
    refine ih (fun entry hmem => ?_) fun other hmem => hnext other (List.mem_cons_of_mem _ hmem)
    have hleg := hnext leg List.mem_cons_self
    rcases mem_set hmem with hold | rfl
    · exact hm entry hold
    · cases hlookup : m.lookup (submittedLegKey leg) with
      | none => exact hleg
      | some existing => exact hselect existing leg (hm _ (mem_of_lookup hlookup)) hleg

/-- What holds of the stored and of the new legs, and of every choice between two, holds of a
merge. -/
theorem forall_mem_merge {P : SubmittedLeg → Prop}
    (hexisting : (existingLegs.map submittedLegKey).Nodup)
    (hselect : ∀ existing next, P existing → P next → P (selectPreferredSubmittedLeg existing next))
    (hstored : ∀ leg ∈ existingLegs, P leg) (hnext : ∀ leg ∈ nextLegs, P leg) :
    ∀ leg ∈ mergeSubmittedLegFailures localeCompare existingLegs nextLegs, P leg := by
  by_cases hne : existingLegs = []
  · rw [mergeSubmittedLegFailures, if_pos hne]
    exact hnext
  · intro leg hmem
    obtain ⟨entry, hentry, rfl⟩ := List.mem_map.mp ((merge_perm hexisting hne).mem_iff.mp hmem)
    refine forall_mem_foldl_mergeLeg hselect (fun entry hmem => ?_) hnext entry hentry
    obtain ⟨leg, hleg, rfl⟩ := List.mem_map.mp hmem
    exact hstored leg hleg

theorem settled_merge (hexisting : (existingLegs.map submittedLegKey).Nodup)
    (hsettled : ∀ leg ∈ existingLegs, Settled leg) (hnext : ∀ leg ∈ nextLegs, Settled leg) :
    ∀ leg ∈ mergeSubmittedLegFailures localeCompare existingLegs nextLegs, Settled leg :=
  forall_mem_merge hexisting (fun _ _ => settled_select) hsettled hnext

end Merge

end LotusRfq.Bundles
