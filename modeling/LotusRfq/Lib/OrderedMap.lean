import Mathlib.Data.List.Induction
import Mathlib.Data.List.Nodup

/-!
# Insertion-ordered maps and sets

A map that iterates in insertion order, kept as the list of its entries, and a set kept as
the list of its elements. Reading is `List.lookup` and `∈`; the writes are here.

* **`set`** — overwrite the entry of a key in place, or append it;
* **`modify`** — change the value of a key that is present, and nothing otherwise;
* **`addNew`**, **`delete`** — add an element to a set, keeping the order of the ones already
  there, and remove one.

`lookup_set` and `lookup_modify` say everything a reader of the map can see of a write, and
**`lookup_fill`**, **`lookup_fillMissing`** what it sees of a loop of writes under distinct keys.
-/

namespace OrderedMap

open List

variable {κ ν : Type*} [DecidableEq κ]

/-- Overwrite the value of `k` in place, or append a new entry. -/
def set (k : κ) (v : ν) : List (κ × ν) → List (κ × ν)
  | [] => [(k, v)]
  | (k', v') :: m => if k' = k then (k, v) :: m else (k', v') :: set k v m

/-- Apply `f` to the value of `k`; a map without `k` stays as it is. -/
def modify (k : κ) (f : ν → ν) : List (κ × ν) → List (κ × ν)
  | [] => []
  | (k', v') :: m => if k' = k then (k', f v') :: m else (k', v') :: modify k f m

/-- Add `x` to a set, at the end when it is new. -/
def addNew (s : List κ) (x : κ) : List κ := if x ∈ s then s else s ++ [x]

/-- Remove `x` from a set. -/
def delete (s : List κ) (x : κ) : List κ := s.filter (· ≠ x)

/-! ## What a reader sees of a write -/

variable (m : List (κ × ν))

theorem lookup_cons (k k' : κ) (v : ν) :
    ((k, v) :: m).lookup k' = if k' = k then some v else m.lookup k' := by
  by_cases h : k' = k
  · simp [h]
  · have hb : (k' == k) = false := by simp [h]
    simp [List.lookup_cons, hb, h]

theorem lookup_of_mem {m : List (κ × ν)} (hkeys : (m.map Prod.fst).Nodup) {k : κ} {v : ν}
    (h : (k, v) ∈ m) : m.lookup k = some v := by
  induction m with
  | nil => cases h
  | cons entry rest ih =>
    obtain ⟨k', v'⟩ := entry
    rw [lookup_cons]
    rw [map_cons, nodup_cons] at hkeys
    rcases mem_cons.mp h with heq | hmem
    · cases heq
      rw [if_pos rfl]
    · have hkey : k ∈ rest.map Prod.fst := mem_map.mpr ⟨_, hmem, rfl⟩
      have hne : k ≠ k' := fun heq => hkeys.1 (heq ▸ hkey)
      rw [if_neg hne]
      exact ih hkeys.2 hmem

theorem lookup_set (k k' : κ) (v : ν) :
    (set k v m).lookup k' = if k' = k then some v else m.lookup k' := by
  induction m with
  | nil => rw [set, lookup_cons]
  | cons entry m ih =>
    obtain ⟨k₀, v₀⟩ := entry
    by_cases h₀ : k₀ = k
    · subst h₀
      rw [set, if_pos rfl, lookup_cons, lookup_cons]
      split <;> rfl
    · rw [set, if_neg h₀, lookup_cons, lookup_cons, ih]
      -- the two tests cannot both succeed, so their order does not matter
      by_cases h : k' = k
      · subst h
        simp [Ne.symm h₀]
      · simp [h]

theorem lookup_modify (k k' : κ) (f : ν → ν) :
    (modify k f m).lookup k' = if k' = k then (m.lookup k).map f else m.lookup k' := by
  induction m with
  | nil => simp [modify]
  | cons entry m ih =>
    obtain ⟨k₀, v₀⟩ := entry
    by_cases h₀ : k₀ = k
    · subst h₀
      rw [modify, if_pos rfl, lookup_cons, lookup_cons, lookup_cons, if_pos rfl, Option.map_some]
      split <;> rfl
    · rw [modify, if_neg h₀, lookup_cons, lookup_cons, lookup_cons, ih]
      by_cases h : k' = k
      · subst h
        simp [Ne.symm h₀]
      · simp [h]

theorem mem_set {m : List (κ × ν)} {k : κ} {v : ν} {entry : κ × ν} (h : entry ∈ set k v m) :
    entry ∈ m ∨ entry = (k, v) := by
  induction m with
  | nil => exact Or.inr (by simpa [set] using h)
  | cons entry₀ m ih =>
    rw [set] at h
    split at h <;> rcases mem_cons.mp h with rfl | h
    · exact Or.inr rfl
    · exact Or.inl (mem_cons_of_mem _ h)
    · exact Or.inl mem_cons_self
    · exact (ih h).imp_left (mem_cons_of_mem _)

theorem perm_flatMap_set {β : Type*} (content : ν → List β) {m : List (κ × ν)} {k : κ} {v fresh : ν}
    {added : List β} (hfresh : content fresh = [])
    (hv : content v = content ((m.lookup k).getD fresh) ++ added) :
    ((set k v m).flatMap fun entry => content entry.2).Perm
      ((m.flatMap fun entry => content entry.2) ++ added) := by
  induction m with
  | nil =>
    have hnew : content v = added := by
      rw [hv]
      show content fresh ++ added = added
      rw [hfresh, nil_append]
    simp [set, hnew]
  | cons entry m ih =>
    obtain ⟨k₀, v₀⟩ := entry
    rw [lookup_cons] at hv
    by_cases heq : k₀ = k
    · subst heq
      rw [if_pos rfl, Option.getD_some] at hv
      rw [set, if_pos rfl, flatMap_cons, flatMap_cons, hv]
      simp only [append_assoc]
      exact perm_append_comm.append_left _
    · rw [if_neg (Ne.symm heq)] at hv
      rw [set, if_neg heq, flatMap_cons, flatMap_cons, append_assoc]
      exact (ih hv).append_left _

theorem mem_modify {m : List (κ × ν)} {k : κ} {f : ν → ν} {entry : κ × ν}
    (h : entry ∈ modify k f m) : entry ∈ m ∨ ∃ v, (k, v) ∈ m ∧ entry = (k, f v) := by
  induction m with
  | nil => simp [modify] at h
  | cons entry₀ m ih =>
    obtain ⟨k₀, v₀⟩ := entry₀
    rw [modify] at h
    split at h
    · rename_i hk
      subst hk
      rcases mem_cons.mp h with rfl | h
      · exact Or.inr ⟨v₀, mem_cons_self, rfl⟩
      · exact Or.inl (mem_cons_of_mem _ h)
    · rcases mem_cons.mp h with rfl | h
      · exact Or.inl mem_cons_self
      · rcases ih h with h | ⟨v, h, heq⟩
        · exact Or.inl (mem_cons_of_mem _ h)
        · exact Or.inr ⟨v, mem_cons_of_mem _ h, heq⟩

@[simp] theorem mem_addNew {s : List κ} {x y : κ} : y ∈ addNew s x ↔ y ∈ s ∨ y = x := by
  by_cases h : x ∈ s
  · have hy : y = x → y ∈ s := fun e => e ▸ h
    simpa [addNew, h] using hy
  · simp [addNew, h]

@[simp] theorem mem_delete {s : List κ} {x y : κ} : y ∈ delete s x ↔ y ∈ s ∧ y ≠ x := by
  simp [delete]

theorem length_delete_lt {s : List κ} {x : κ} (h : x ∈ s) : (delete s x).length < s.length :=
  length_filter_lt_length_iff_exists.mpr ⟨x, h, by simp⟩

theorem nodup_addNew {s : List κ} (h : s.Nodup) (x : κ) : (addNew s x).Nodup := by
  unfold addNew
  split
  next => exact h
  next hx =>
    rw [nodup_append]
    exact ⟨h, nodup_singleton x, fun a ha b hb heq => hx (mem_singleton.mp hb ▸ heq ▸ ha)⟩

theorem mem_foldl_addNew {xs s : List κ} {y : κ} : y ∈ xs.foldl addNew s ↔ y ∈ s ∨ y ∈ xs := by
  induction xs generalizing s with
  | nil => simp
  | cons x xs ih => rw [foldl_cons, ih, mem_addNew, mem_cons, or_assoc]

theorem nodup_foldl_addNew (xs : List κ) {s : List κ} (h : s.Nodup) :
    (xs.foldl addNew s).Nodup := by
  induction xs generalizing s with
  | nil => exact h
  | cons x xs ih => exact ih (nodup_addNew h x)

theorem keys_set (k : κ) (v : ν) :
    (set k v m).map Prod.fst = addNew (m.map Prod.fst) k := by
  induction m with
  | nil => rfl
  | cons entry m ih =>
    obtain ⟨k₀, v₀⟩ := entry
    rw [set]
    split
    next heq =>
      subst heq
      simp [addNew]
    next hne =>
      rw [map_cons, ih, map_cons, addNew, addNew]
      by_cases hmem : k ∈ m.map Prod.fst
      · rw [if_pos hmem, if_pos (mem_cons_of_mem _ hmem)]
      · have hnew : k ∉ k₀ :: m.map Prod.fst :=
          fun h => (mem_cons.mp h).elim (fun heq => hne heq.symm) hmem
        rw [if_neg hmem, if_neg hnew, cons_append]

@[simp] theorem keys_modify (m : List (κ × ν)) (k : κ) (f : ν → ν) :
    (modify k f m).map Prod.fst = m.map Prod.fst := by
  induction m with
  | nil => rfl
  | cons entry m ih =>
    obtain ⟨k₀, v₀⟩ := entry
    rw [modify]
    split
    · rfl
    · rw [map_cons, ih, map_cons]

theorem set_of_not_mem {m : List (κ × ν)} {k : κ} (hk : k ∉ m.map Prod.fst) (v : ν) :
    set k v m = m ++ [(k, v)] := by
  induction m with
  | nil => rfl
  | cons entry rest ih =>
    rw [map_cons, mem_cons, not_or] at hk
    rw [set, if_neg (Ne.symm hk.1), ih hk.2, cons_append]

/-- Writing one entry for each item of a list, under distinct new keys, appends them. -/
theorem foldl_set {α : Type*} {key : α → κ} (value : α → ν) {items : List α} {m : List (κ × ν)}
    (hkeys : (items.map key).Nodup) (hnew : ∀ item ∈ items, key item ∉ m.map Prod.fst) :
    items.foldl (fun m item => set (key item) (value item) m) m =
      m ++ items.map fun item => (key item, value item) := by
  induction items generalizing m with
  | nil => simp
  | cons item rest ih =>
    rw [map_cons, nodup_cons] at hkeys
    rw [foldl_cons, set_of_not_mem (hnew item mem_cons_self), ih hkeys.2, map_cons,
      append_assoc, singleton_append]
    intro other hmem
    rw [map_append, mem_append, not_or]
    refine ⟨hnew other (mem_cons_of_mem _ hmem), fun hlast => hkeys.1 ?_⟩
    have heq : key other = key item := by simpa using hlast
    exact heq ▸ mem_map_of_mem hmem

theorem lookup_mapValues {ω : Type*} (f : ν → ω) (m : List (κ × ν)) (k : κ) :
    (m.map fun entry => (entry.1, f entry.2)).lookup k = (m.lookup k).map f := by
  induction m with
  | nil => rfl
  | cons entry m ih =>
    obtain ⟨k₀, v₀⟩ := entry
    rw [map_cons, lookup_cons, lookup_cons, ih]
    split
    · rfl
    · rfl

theorem nodup_keys_set {m : List (κ × ν)} (h : (m.map Prod.fst).Nodup) (k : κ) (v : ν) :
    ((set k v m).map Prod.fst).Nodup := by
  rw [keys_set]
  exact nodup_addNew h k

/-! ## Filling a map from a list -/

section Fill

variable {α : Type*} (key : α → κ)

/-- Write the entries `value` gives for the items of a list, one after another. -/
def fill (value : α → Option ν) (items : List α) (m : List (κ × ν)) : List (κ × ν) :=
  items.foldl (fun m item => match value item with
    | some v => set (key item) v m
    | none => m) m

/-- Write an entry for every item whose key is still missing. -/
def fillMissing (value : α → ν) (items : List α) (m : List (κ × ν)) : List (κ × ν) :=
  items.foldl (fun m item => if (m.lookup (key item)).isSome then m
    else set (key item) (value item) m) m

variable {key}

variable (value : α → Option ν)

theorem lookup_fill_of_not_mem {items : List α} {k : κ}
    (hk : k ∉ items.map key) (m : List (κ × ν)) :
    (fill key value items m).lookup k = m.lookup k := by
  induction items generalizing m with
  | nil => rfl
  | cons item items ih =>
    simp only [map_cons, mem_cons, not_or] at hk
    rw [fill, foldl_cons, ← fill, ih hk.2]
    cases value item with
    | none => rfl
    | some v => rw [lookup_set, if_neg hk.1]

/-- With distinct keys, a reader finds the value of the item, or what was there before. -/
theorem lookup_fill {items : List α} (hkeys : (items.map key).Nodup)
    {item : α} (hitem : item ∈ items) (m : List (κ × ν)) :
    (fill key value items m).lookup (key item) = (value item).or (m.lookup (key item)) := by
  induction items generalizing m with
  | nil => simp at hitem
  | cons item' items ih =>
    rw [map_cons, nodup_cons] at hkeys
    rw [fill, foldl_cons, ← fill]
    rcases mem_cons.mp hitem with rfl | hitem
    · rw [lookup_fill_of_not_mem value hkeys.1]
      cases value item with
      | none => rfl
      | some v => simp [lookup_set]
    · have hne : key item ≠ key item' := fun h =>
        hkeys.1 (h ▸ mem_map_of_mem hitem)
      rw [ih hkeys.2 hitem]
      cases value item' with
      | none => rfl
      | some v => rw [lookup_set, if_neg hne]

theorem lookup_fillMissing_of_isSome (value : α → ν) {items : List α} {k : κ} {v : ν}
    (m : List (κ × ν)) (hk : m.lookup k = some v) :
    (fillMissing key value items m).lookup k = some v := by
  induction items generalizing m with
  | nil => exact hk
  | cons item items ih =>
    rw [fillMissing, foldl_cons, ← fillMissing]
    refine ih _ ?_
    split
    · exact hk
    · rename_i hmissing
      rw [lookup_set, if_neg]
      · exact hk
      · rintro rfl
        simp [hk] at hmissing

/-- With distinct keys, a missing entry gets the value of its item and no other changes. -/
theorem lookup_fillMissing (value : α → ν) {items : List α} (hkeys : (items.map key).Nodup)
    {item : α} (hitem : item ∈ items) (m : List (κ × ν)) :
    (fillMissing key value items m).lookup (key item) =
      some ((m.lookup (key item)).getD (value item)) := by
  cases hm : m.lookup (key item) with
  | some v => exact lookup_fillMissing_of_isSome value m hm
  | none =>
    induction items generalizing m with
    | nil => simp at hitem
    | cons item' items ih =>
      rw [map_cons, nodup_cons] at hkeys
      rw [fillMissing, foldl_cons, ← fillMissing]
      rcases mem_cons.mp hitem with rfl | hitem
      · refine lookup_fillMissing_of_isSome value _ ?_
        simp [hm, lookup_set]
      · have hne : key item ≠ key item' := fun h =>
          hkeys.1 (h ▸ mem_map_of_mem hitem)
        refine ih hkeys.2 hitem _ ?_
        split
        · exact hm
        · rw [lookup_set, if_neg hne, hm]

theorem nodup_keys_fill (items : List α) {m : List (κ × ν)}
    (h : (m.map Prod.fst).Nodup) : ((fill key value items m).map Prod.fst).Nodup := by
  induction items generalizing m with
  | nil => exact h
  | cons item items ih =>
    rw [fill, foldl_cons, ← fill]
    apply ih
    cases value item with
    | none => exact h
    | some v => exact nodup_keys_set h _ v

theorem nodup_keys_fillMissing (value : α → ν) (items : List α) {m : List (κ × ν)}
    (h : (m.map Prod.fst).Nodup) : ((fillMissing key value items m).map Prod.fst).Nodup := by
  induction items generalizing m with
  | nil => exact h
  | cons item items ih =>
    rw [fillMissing, foldl_cons, ← fillMissing]
    apply ih
    split
    · exact h
    · exact nodup_keys_set h _ _

end Fill

/-! ## Grouping a list -/

section Group

variable {α : Type*}

/-- Collect the values of the items under their keys, keys in the order of their first items. -/
def group (key : α → κ) (value : α → ν) (items : List α) : List (κ × List ν) :=
  items.foldl (fun groups item =>
    if (groups.lookup (key item)).isSome then modify (key item) (· ++ [value item]) groups
    else set (key item) [value item] groups) []

variable {key : α → κ} {value : α → ν}

variable (items : List α)

theorem group_append (item : α) : group key value (items ++ [item]) =
      if ((group key value items).lookup (key item)).isSome then
        modify (key item) (· ++ [value item]) (group key value items)
      else set (key item) [value item] (group key value items) := by
  rw [group, foldl_append, foldl_cons, foldl_nil]
  rfl

theorem mem_keys_of_isSome {m : List (κ × ν)} {k : κ} (h : (m.lookup k).isSome = true) :
    k ∈ m.map Prod.fst := by
  obtain ⟨v, hv⟩ := Option.isSome_iff_exists.mp h
  obtain ⟨pre, post, hsplit, -⟩ := lookup_eq_some_iff.mp hv
  simp [hsplit]

theorem keys_group :
    (group key value items).map Prod.fst = (items.map key).foldl addNew [] := by
  induction items using List.reverseRecOn with
  | nil => rfl
  | append_singleton items item ih =>
    rw [group_append, map_append, foldl_append, ← ih, map_singleton, foldl_cons, foldl_nil]
    split
    · rename_i hpresent
      rw [keys_modify, addNew, if_pos (mem_keys_of_isSome hpresent)]
    · rw [keys_set]

theorem nodup_keys_group : ((group key value items).map Prod.fst).Nodup := by
  rw [keys_group]
  exact nodup_foldl_addNew _ nodup_nil

theorem mem_keys_group {items : List α} {k : κ} :
    k ∈ (group key value items).map Prod.fst ↔ ∃ item ∈ items, key item = k := by
  rw [keys_group, mem_foldl_addNew, mem_map, or_iff_right not_mem_nil]

theorem mem_group {items : List α} {entry : κ × List ν} (h : entry ∈ group key value items) :
    entry.2 ≠ [] ∧ ∀ v ∈ entry.2, ∃ item ∈ items, key item = entry.1 ∧ value item = v := by
  induction items using List.reverseRecOn generalizing entry with
  | nil => cases h
  | append_singleton items item ih =>
    have hkept : ∀ entry ∈ group key value items, entry.2 ≠ [] ∧ ∀ v ∈ entry.2,
        ∃ other ∈ items ++ [item], key other = entry.1 ∧ value other = v := by
      intro entry hentry
      obtain ⟨hsome, hvalues⟩ := ih hentry
      refine ⟨hsome, fun v hv => ?_⟩
      obtain ⟨other, hother, hkey, hvalue⟩ := hvalues v hv
      exact ⟨other, mem_append_left _ hother, hkey, hvalue⟩
    have hlast : item ∈ items ++ [item] := mem_append_right _ mem_cons_self
    rw [group_append] at h
    split at h
    · rcases mem_modify h with hold | ⟨values, hold, rfl⟩
      · exact hkept entry hold
      · refine ⟨by simp, fun v hv => ?_⟩
        rcases mem_append.mp hv with hv | hv
        · exact (hkept _ hold).2 v hv
        · exact ⟨item, hlast, rfl, (mem_singleton.mp hv).symm⟩
    · rcases mem_set h with hold | rfl
      · exact hkept entry hold
      · refine ⟨cons_ne_nil _ _, fun v hv => ?_⟩
        exact ⟨item, hlast, rfl, (mem_singleton.mp hv).symm⟩

end Group

end OrderedMap
