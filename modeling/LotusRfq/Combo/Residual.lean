import LotusRfq.Combo.Netting

/-!
# LotusRfq — `ResidualVectorBuilder`

What a combo has left, as one signed size for each outcome it has legs on, a buy above zero. Two
combos can only be cleared against each other when their legs agree on the fields of the bucket.

* **`buildResidualVector_vector`** — the entry of an outcome is the sum over its legs.
-/

namespace LotusRfq.Combo

open Tables List

structure ResidualVector where
  entityId : String
  userId : String
  compatibilityBucket : String
  vector : SizeVector
  legCount : ℕ
  grossAbsSize : ℚ
  resolutionProfileId : Option String
  createdAt : ℤ
  deriving DecidableEq

def readBucketMetadata (leg : LegRow) : Except String (List String) :=
  match leg.metadata with
  | none => .error "missing_bucket_metadata"
  | some metadata =>
    let fields := [metadata.resolutionUniverse, metadata.expiryClass, metadata.settlementModel,
      metadata.resolutionRuleClass]
    if "" ∈ fields then .error "missing_bucket_metadata" else .ok fields

def resolveBucketMetadata : List LegRow → Except String (List String)
  | [] => .error "no_residual_legs"
  | leg :: rest => do
    let first ← readBucketMetadata leg
    rest.foldlM (fun first other => do
      let current ← readBucketMetadata other
      if current ≠ first then throw "bucket_mismatch"
      return first) first

def legKey (leg : LegRow) : String := leg.canonical_market_id ++ ":" ++ leg.canonical_outcome_id

def signedSize (leg : LegRow) : ℚ :=
  match leg.side with
  | .buy => leg.remaining_size
  | .sell => -leg.remaining_size

def addTo (totals : SizeVector) (key : String) (size : ℚ) : SizeVector :=
  OrderedMap.set key ((totals.lookup key).getD 0 + size) totals

/-- `ResidualVectorBuilder.build`. -/
def buildResidualVector (combo : LoadedCombo) : Except String ResidualVector :=
  let residualLegs := combo.legs.filter fun leg => 0 < leg.remaining_size
  if ∃ leg ∈ combo.legs, leg.remaining_size < 0 then .error "negative_residual_size"
  else if residualLegs = [] then .error "no_residual_legs"
  else do
    let bucket ← resolveBucketMetadata residualLegs
    let resolutionProfileId ← resolveComboResolutionProfileId combo
    return { entityId := combo.row.id
             userId := combo.row.user_id
             compatibilityBucket := String.intercalate "|" bucket
             vector := residualLegs.foldl (fun totals leg =>
               addTo totals (legKey leg) (signedSize leg)) []
             legCount := residualLegs.length
             grossAbsSize := (residualLegs.map LegRow.remaining_size).sum
             resolutionProfileId := resolutionProfileId
             createdAt := combo.row.created_at }

/-! ## Entries -/

def entryOf (vector : SizeVector) (key : String) : ℚ := (vector.lookup key).getD 0

@[simp] theorem entryOf_nil (key : String) : entryOf [] key = 0 := rfl

theorem entryOf_addTo (totals : SizeVector) (key key' : String) (size : ℚ) :
    entryOf (addTo totals key size) key' =
      entryOf totals key' + if key = key' then size else 0 := by
  unfold entryOf addTo
  rw [OrderedMap.lookup_set]
  split
  next heq =>
    subst heq
    simp
  next hne =>
    rw [if_neg fun heq => hne heq.symm, add_zero]

theorem entryOf_foldl_addTo {α : Type*} (key : α → String) (size : α → ℚ) (items : List α)
    (totals : SizeVector) (k : String) :
    entryOf (items.foldl (fun totals item => addTo totals (key item) (size item)) totals) k =
      entryOf totals k + ((items.filter fun item => key item = k).map size).sum := by
  induction items generalizing totals with
  | nil => simp
  | cons item rest ih =>
    rw [foldl_cons, ih, entryOf_addTo, filter_cons]
    by_cases hkey : key item = k
    · simp [hkey, add_assoc]
    · simp [hkey]

theorem keys_foldl_addTo {α : Type*} (key : α → String) (size : α → ℚ) (items : List α)
    (totals : SizeVector) :
    (items.foldl (fun totals item => addTo totals (key item) (size item)) totals).map Prod.fst =
      (items.map key).foldl OrderedMap.addNew (totals.map Prod.fst) := by
  induction items generalizing totals with
  | nil => rfl
  | cons item rest ih => rw [foldl_cons, ih, addTo, OrderedMap.keys_set]; rfl

variable {vector : SizeVector}

theorem entryOf_of_mem (hkeys : (vector.map Prod.fst).Nodup) {key : String} {size : ℚ}
    (h : (key, size) ∈ vector) : entryOf vector key = size := by
  rw [entryOf, OrderedMap.lookup_of_mem hkeys h, Option.getD_some]

theorem entryOf_eq_zero {key : String} (h : key ∉ vector.map Prod.fst) :
    entryOf vector key = 0 := by
  unfold entryOf
  induction vector with
  | nil => rfl
  | cons entry rest ih =>
    obtain ⟨k, v⟩ := entry
    rw [map_cons, mem_cons, not_or] at h
    rw [OrderedMap.lookup_cons, if_neg h.1]
    exact ih h.2

theorem sum_filter_eq_entryOf (hkeys : (vector.map Prod.fst).Nodup) (key : String) :
    ((vector.filter fun entry => entry.1 = key).map Prod.snd).sum = entryOf vector key := by
  induction vector with
  | nil => rfl
  | cons entry rest ih =>
    obtain ⟨k, v⟩ := entry
    rw [map_cons, nodup_cons] at hkeys
    have hrest := ih hkeys.2
    rw [entryOf, OrderedMap.lookup_cons]
    by_cases heq : k = key
    · subst heq
      rw [entryOf_eq_zero hkeys.1] at hrest
      simp [hrest]
    · rw [if_neg (Ne.symm heq)]
      show _ = entryOf rest key
      rw [← hrest]
      simp [heq]

/-- What a combo has left of an outcome: its buys less its sells. -/
def netSize (combo : LoadedCombo) (key : String) : ℚ :=
  ((combo.legs.filter fun leg => legKey leg = key).map signedSize).sum

structure VectorOf (combo : LoadedCombo) (vector : ResidualVector) : Prop where
  nonneg : ∀ leg ∈ combo.legs, 0 ≤ leg.remaining_size
  entityId : vector.entityId = combo.row.id
  userId : vector.userId = combo.row.user_id
  createdAt : vector.createdAt = combo.row.created_at
  keys : (vector.vector.map Prod.fst).Nodup
  mem_keys : ∀ key, key ∈ vector.vector.map Prod.fst ↔
    ∃ leg ∈ combo.legs, 0 < leg.remaining_size ∧ legKey leg = key
  entry : ∀ key, entryOf vector.vector key = netSize combo key

theorem sum_signedSize_filter_pos (legs : List LegRow) (key : String)
    (hnonneg : ∀ leg ∈ legs, 0 ≤ leg.remaining_size) :
    (((legs.filter fun leg => 0 < leg.remaining_size).filter fun leg => legKey leg = key).map
      signedSize).sum = ((legs.filter fun leg => legKey leg = key).map signedSize).sum := by
  induction legs with
  | nil => rfl
  | cons leg rest ih =>
    have hrest := ih fun other hother => hnonneg other (mem_cons_of_mem _ hother)
    by_cases hpos : 0 < leg.remaining_size
    · by_cases hkey : legKey leg = key
      · simp only [filter_cons, hpos, hkey, decide_true, if_true, map_cons, sum_cons, hrest]
      · simp only [filter_cons, hpos, hkey, decide_true, decide_false, if_true,
          Bool.false_eq_true, if_false, hrest]
    · have hzero : leg.remaining_size = 0 :=
        le_antisymm (not_lt.mp hpos) (hnonneg leg mem_cons_self)
      have hsigned : signedSize leg = 0 := by
        unfold signedSize
        split <;> simp [hzero]
      by_cases hkey : legKey leg = key
      · simp only [filter_cons, hpos, hkey, decide_true, decide_false, if_true,
          Bool.false_eq_true, if_false, map_cons, sum_cons, hsigned, zero_add, hrest]
      · simp only [filter_cons, hpos, hkey, decide_false, Bool.false_eq_true, if_false, hrest]

/-- **The vector of a combo.** The entry of an outcome is the sum over its legs. -/
theorem buildResidualVector_vector {combo : LoadedCombo} {vector : ResidualVector}
    (h : buildResidualVector combo = .ok vector) : VectorOf combo vector := by
  unfold buildResidualVector at h
  extract_lets residualLegs at h
  split at h
  next => cases h
  next hnegative =>
    split at h
    next => cases h
    next =>
      obtain ⟨bucket, -, h⟩ := bind_eq_ok.mp h
      obtain ⟨resolutionProfileId, -, h⟩ := bind_eq_ok.mp h
      cases h
      push Not at hnegative
      have hkeys := keys_foldl_addTo legKey signedSize residualLegs []
      refine ⟨hnegative, rfl, rfl, rfl, ?_, fun key => ?_, fun key => ?_⟩
      · rw [hkeys]
        exact OrderedMap.nodup_foldl_addNew _ nodup_nil
      · rw [hkeys, OrderedMap.mem_foldl_addNew]
        simp [residualLegs, and_assoc]
      · rw [entryOf_foldl_addTo, entryOf_nil, zero_add]
        exact sum_signedSize_filter_pos combo.legs key hnegative

end LotusRfq.Combo
