import Mathlib.Algebra.Order.BigOperators.Group.List
import Mathlib.Data.List.Nodup
import Mathlib.Data.List.Perm.Subperm
import Mathlib.Tactic.Abel

/-!
# Tables with a key, and transactions

A table is the list of its rows, some function of a row its primary key. A statement reads the
row of a key or rewrites it; a transaction is a body that ends in one of three ways, of which only
the first is seen by anyone else.

* **`select_eq_some`** — reading by key, in a table whose keys are distinct;
* **`select_update`** — reading by key after a rewrite;
* **`mem_update`**, **`sum_update`** — the rows, and the sums over them, after a rewrite;
* **`forall₂_update`**, **`exists_right`**, **`exists_left`** — tables whose rows correspond;
* **`mem_upsert`**, **`sum_upsert`** — the same after an insert that may meet a row of its key;
* **`mem_of_mapM`**, **`exists_of_mapM`**, **`foldlM_invariant`** — loops whose body may throw;
* **`mem_of_pairsM`**, **`exists_of_pairsM`** — such loops over all pairs;
* **`Outcome.database_eq`** — a transaction that does not commit leaves the tables as they were;
* **`sum_set`** — a sum over a list in which one entry is replaced;
* **`sum_add_le`** — a sum one of whose terms shrinks, and none grows.
-/

namespace Tables

open List

variable {ρ κ : Type*} [DecidableEq κ] (key : ρ → κ)

/-- `SELECT … WHERE key = k`. -/
def select (k : κ) (rows : List ρ) : Option ρ := rows.find? fun row => key row = k

/-- `UPDATE … WHERE key = k`. -/
def update (k : κ) (f : ρ → ρ) (rows : List ρ) : List ρ :=
  rows.map fun row => if key row = k then f row else row

/-- `INSERT … ON CONFLICT (key) DO UPDATE`. -/
def upsert (row : ρ) (merge : ρ → ρ) (rows : List ρ) : List ρ :=
  match select key (key row) rows with
  | none => rows ++ [row]
  | some _ => update key (key row) merge rows

variable {key}

variable {rows : List ρ} {row : ρ} {k : κ} {f : ρ → ρ} {β : Type*} {row' : ρ} {merge : ρ → ρ}
  {α M : Type*} {l : List α} {a : α} {ε : Type*} {b : β} {items : List α} {results : List β}

theorem mem_of_select (h : select key k rows = some row) : row ∈ rows ∧ key row = k :=
  ⟨mem_of_find?_eq_some h, by simpa using find?_some h⟩

theorem select_eq_none : select key k rows = none ↔ ∀ row ∈ rows, key row ≠ k := by
  simp [select]

omit [DecidableEq κ] in
theorem eq_of_key {rows : List ρ} (hkeys : (rows.map key).Nodup) {row row' : ρ} (h : row ∈ rows)
    (h' : row' ∈ rows) (heq : key row = key row') : row = row' :=
  inj_on_of_nodup_map hkeys h h' heq

theorem select_eq_some (hkeys : (rows.map key).Nodup) :
    select key k rows = some row ↔ row ∈ rows ∧ key row = k := by
  refine ⟨mem_of_select, fun ⟨hmem, hkey⟩ => ?_⟩
  cases hselect : select key k rows with
  | none => exact absurd hkey (select_eq_none.mp hselect row hmem)
  | some row' =>
    obtain ⟨hmem', hkey'⟩ := mem_of_select hselect
    rw [eq_of_key hkeys hmem' hmem (hkey'.trans hkey.symm)]

theorem select_update (k k' : κ) (hf : ∀ row, key (f row) = key row) (rows : List ρ) :
    select key k (update key k' f rows) =
      if k = k' then (select key k rows).map f else select key k rows := by
  unfold select update
  induction rows with
  | nil => simp
  | cons row rest ih =>
    rw [map_cons, find?_cons, find?_cons, ih]
    by_cases hrow : key row = k'
    · by_cases hk : k = k'
      · simp [hrow, hk, hf]
      · have hne : k' ≠ k := fun heq => hk heq.symm
        simp [hrow, hk, hf, hne]
    · by_cases hk : k = k'
      · have hne : key row ≠ k := fun heq => hrow (heq.trans hk)
        simp [hk, hrow]
      · simp [hk, hrow]

theorem map_update (k : κ) {g : ρ → β} (hf : ∀ row, g (f row) = g row) (rows : List ρ) :
    (update key k f rows).map g = rows.map g := by
  rw [update, map_map]
  refine map_congr_left fun row _ => ?_
  rw [Function.comp_apply]
  split
  · exact hf row
  · rfl

theorem keys_update (k : κ) (hf : ∀ row, key (f row) = key row) (rows : List ρ) :
    (update key k f rows).map key = rows.map key :=
  map_update k hf rows

theorem nodup_keys_update (k : κ) (hf : ∀ row, key (f row) = key row)
    (hkeys : (rows.map key).Nodup) : ((update key k f rows).map key).Nodup := by
  rw [keys_update k hf]
  exact hkeys

theorem mem_update : row' ∈ update key k f rows ↔
      (∃ row ∈ rows, key row = k ∧ f row = row') ∨ (row' ∈ rows ∧ key row' ≠ k) := by
  simp only [update, mem_map]
  constructor
  · rintro ⟨row, hmem, heq⟩
    by_cases hkey : key row = k
    · rw [if_pos hkey] at heq
      exact .inl ⟨row, hmem, hkey, heq⟩
    · rw [if_neg hkey] at heq
      exact .inr (heq ▸ ⟨hmem, hkey⟩)
  · rintro (⟨row, hmem, hkey, heq⟩ | ⟨hmem, hkey⟩)
    · exact ⟨row, hmem, by rw [if_pos hkey, heq]⟩
    · exact ⟨row', hmem, by rw [if_neg hkey]⟩

/-! ## Row by row -/

section Correspondence

omit [DecidableEq κ]

variable {R : ρ → ρ → Prop} {rows rows' rows'' : List ρ}

theorem forall₂_trans (htrans : ∀ {a b c : ρ}, R a b → R b c → R a c)
    (h : List.Forall₂ R rows rows') (h' : List.Forall₂ R rows' rows'') :
    List.Forall₂ R rows rows'' := by
  induction h generalizing rows'' with
  | nil => cases h'; exact .nil
  | cons hhead _ ih =>
    cases h' with
    | cons hhead' htail' => exact .cons (htrans hhead hhead') (ih htail')

theorem forall₂_update [DecidableEq κ] (hrefl : ∀ row, R row row) (hf : ∀ row, R row (f row))
    (k : κ) (rows : List ρ) : List.Forall₂ R rows (update key k f rows) := by
  rw [update, List.forall₂_map_right_iff, List.forall₂_same]
  intro row _
  split
  · exact hf row
  · exact hrefl row

theorem exists_right (h : List.Forall₂ R rows rows') (hrow : row ∈ rows) :
    ∃ row' ∈ rows', R row row' := by
  obtain ⟨i, hi, rfl⟩ := mem_iff_getElem.mp hrow
  have hi' : i < rows'.length := h.length_eq ▸ hi
  exact ⟨rows'[i], getElem_mem hi', h.get hi hi'⟩

theorem exists_left (h : List.Forall₂ R rows rows') (hrow : row' ∈ rows') :
    ∃ row ∈ rows, R row row' := by
  obtain ⟨i, hi, rfl⟩ := mem_iff_getElem.mp hrow
  have hi' : i < rows.length := h.length_eq ▸ hi
  exact ⟨rows[i], getElem_mem hi', h.get hi' hi⟩

theorem map_of_forall₂ {g : ρ → β} (h : List.Forall₂ R rows rows')
    (hg : ∀ {row row' : ρ}, R row row' → g row' = g row) : rows'.map g = rows.map g := by
  induction h with
  | nil => rfl
  | cons hhead _ ih => rw [map_cons, map_cons, hg hhead, ih]

end Correspondence

theorem flatMap_update_subperm (hkeys : (rows.map key).Nodup) (k : κ) {g : ρ → List β}
    {extra : List β} (hf : ∀ row, g (f row) = g row ++ extra) :
    ((update key k f rows).flatMap g).Subperm (rows.flatMap g ++ extra) := by
  induction rows with
  | nil => exact nil_subperm
  | cons row rest ih =>
    obtain ⟨hfresh, hrest⟩ := nodup_cons.mp hkeys
    show ((if key row = k then f row else row) :: update key k f rest).flatMap g |>.Subperm _
    rw [flatMap_cons, flatMap_cons, append_assoc]
    split
    next hrow =>
      -- no other row has the key
      have hsame : update key k f rest = rest := by
        rw [update]
        refine (map_congr_left fun other hother => ?_).trans (map_id rest)
        refine if_neg fun hkey => hfresh ?_
        rw [hrow, ← hkey]
        exact mem_map_of_mem hother
      rw [hsame, hf, append_assoc]
      exact (perm_append_comm.append_left (g row)).subperm
    next => exact (subperm_append_left (g row)).mpr (ih hrest)

theorem nodup_keys_upsert (hmerge : ∀ old, key (merge old) = key old)
    (hkeys : (rows.map key).Nodup) : ((upsert key row merge rows).map key).Nodup := by
  unfold upsert
  split
  next hnone =>
    rw [map_append, nodup_append]
    refine ⟨hkeys, nodup_singleton _, fun k hk k' hk' => ?_⟩
    obtain ⟨old, hold, rfl⟩ := mem_map.mp hk
    rw [mem_singleton.mp hk']
    exact select_eq_none.mp hnone old hold
  next => rwa [keys_update _ hmerge]

theorem mem_upsert (h : row' ∈ upsert key row merge rows) :
    (row' = row ∧ ∀ old ∈ rows, key old ≠ key row) ∨
      (∃ old ∈ rows, key old = key row ∧ row' = merge old) ∨
      (row' ∈ rows ∧ key row' ≠ key row) := by
  unfold upsert at h
  split at h
  next hnone =>
    have hkeys := select_eq_none.mp hnone
    rcases mem_append.mp h with hold | hnew
    · exact .inr (.inr ⟨hold, hkeys row' hold⟩)
    · exact .inl ⟨mem_singleton.mp hnew, hkeys⟩
  next =>
    rcases mem_update.mp h with ⟨old, hold, hkey, heq⟩ | hother
    · exact .inr (.inl ⟨old, hold, hkey, heq.symm⟩)
    · exact .inr (.inr hother)

theorem sum_set_add [AddCommMonoid M] {i : ℕ} (h : l[i]? = some a) (b : α) (g : α → M) :
    ((l.set i b).map g).sum + g a = (l.map g).sum + g b := by
  induction l generalizing i with
  | nil => simp at h
  | cons first rest ih =>
    cases i with
    | zero =>
      simp only [getElem?_cons_zero, Option.some.injEq] at h
      subst h
      simp only [set_cons_zero, map_cons, sum_cons]
      abel
    | succ i =>
      simp only [getElem?_cons_succ] at h
      simp only [set_cons_succ, map_cons, sum_cons, add_assoc, ih h]

section Sums

variable {M : Type*} [AddCommGroup M]

theorem sum_update (hkeys : (rows.map key).Nodup) (hrow : row ∈ rows) (f : ρ → ρ) (g : ρ → M) :
    ((update key (key row) f rows).map g).sum = (rows.map g).sum + (g (f row) - g row) := by
  induction rows with
  | nil => simp at hrow
  | cons first rest ih =>
    rw [map_cons, nodup_cons] at hkeys
    have hcons : update key (key row) f (first :: rest) =
        (if key first = key row then f first else first) :: update key (key row) f rest := rfl
    rw [hcons, map_cons, sum_cons, map_cons, sum_cons]
    rcases mem_cons.mp hrow with rfl | hmem
    · -- no other row has the key
      have hrest : update key (key row) f rest = rest := by
        refine (map_congr_left fun other hother => ?_).trans (map_id rest)
        have hne : key other ≠ key row :=
          fun heq => hkeys.1 (mem_map.mpr ⟨other, hother, heq⟩)
        rw [if_neg hne, id_eq]
      rw [if_pos rfl, hrest]
      abel
    · have hne : key first ≠ key row := fun heq => hkeys.1 (heq ▸ mem_map_of_mem hmem)
      rw [if_neg hne, ih hkeys.2 hmem]
      abel

theorem sum_upsert (hkeys : (rows.map key).Nodup) {g : ρ → M}
    (hmerge : ∀ old, key old = key row → g (merge old) = g old + g row) :
    ((upsert key row merge rows).map g).sum = (rows.map g).sum + g row := by
  unfold upsert
  split
  next => simp
  next old hselect =>
    obtain ⟨hold, hkey⟩ := mem_of_select hselect
    rw [← hkey, sum_update hkeys hold merge g, hmerge old hkey]
    abel

theorem sum_set {i : ℕ} (h : l[i]? = some a) (b : α) (g : α → M) :
    ((l.set i b).map g).sum = (l.map g).sum + (g b - g a) := by
  have hset := sum_set_add h b g
  rw [← add_sub_assoc, ← hset, add_sub_cancel_right]

end Sums

theorem sum_map_ite_zero [AddCommMonoid M] (p : α → Prop) [DecidablePred p] (f : α → M)
    (l : List α) :
    (l.map fun a => if p a then f a else 0).sum = ((l.filter fun a => p a).map f).sum := by
  rw [sum_map_ite]
  simp

theorem sum_add_le [AddCommMonoid M] [Preorder M] [AddLeftMono M] {f g : α → M}
    (hle : ∀ a ∈ l, f a ≤ g a) {d : M} (ha : a ∈ l) (hd : f a + d ≤ g a) :
    (l.map f).sum + d ≤ (l.map g).sum := by
  induction l with
  | nil => cases ha
  | cons first rest ih =>
    have hfirst := hle first mem_cons_self
    have hrest : ∀ a ∈ rest, f a ≤ g a := fun a h => hle a (mem_cons_of_mem _ h)
    rw [map_cons, sum_cons, map_cons, sum_cons]
    rcases mem_cons.mp ha with rfl | hmem
    · calc f a + (rest.map f).sum + d = f a + d + (rest.map f).sum := by abel
        _ ≤ g a + (rest.map g).sum := add_le_add hd (sum_le_sum hrest)
    · calc f first + (rest.map f).sum + d = f first + ((rest.map f).sum + d) := add_assoc _ _ _
        _ ≤ g first + (rest.map g).sum := add_le_add hfirst (ih hrest hmem)

/-! ## Transactions -/

variable {f : α → Except ε β}

theorem bind_eq_ok {x : Except ε α} : (x.bind f = .ok b) ↔ ∃ a, x = .ok a ∧ f a = .ok b := by
  cases x with
  | error error => simp [Except.bind]
  | ok a => simp [Except.bind]

theorem map_eq_ok {x : Except ε α} {f : α → β} : x.map f = .ok b ↔ ∃ a, x = .ok a ∧ f a = b := by
  cases x with
  | error error => simp [Except.map]
  | ok a => simp [Except.map]

section

variable {ε α β : Type*} {f : α → Except ε β} {items : List α} {results : List β}
  (h : items.mapM f = .ok results)

include h

theorem mem_of_mapM {result : β} (hresult : result ∈ results) :
    ∃ item ∈ items, f item = .ok result := by
  induction items generalizing results with
  | nil =>
    simp only [mapM_nil, pure, Except.pure, Except.ok.injEq] at h
    rw [← h] at hresult
    cases hresult
  | cons item rest ih =>
    rw [mapM_cons] at h
    obtain ⟨first, hfirst, h⟩ := bind_eq_ok.mp h
    obtain ⟨others, hothers, h⟩ := bind_eq_ok.mp h
    simp only [pure, Except.pure, Except.ok.injEq] at h
    rw [← h] at hresult
    rcases mem_cons.mp hresult with rfl | hmem
    · exact ⟨item, mem_cons_self, hfirst⟩
    · obtain ⟨item', hitem', heq⟩ := ih hothers hmem
      exact ⟨item', mem_cons_of_mem _ hitem', heq⟩

theorem exists_of_mapM {item : α} (hitem : item ∈ items) :
    ∃ result ∈ results, f item = .ok result := by
  induction items generalizing results with
  | nil => cases hitem
  | cons first rest ih =>
    rw [mapM_cons] at h
    obtain ⟨result, hresult, h⟩ := bind_eq_ok.mp h
    obtain ⟨others, hothers, h⟩ := bind_eq_ok.mp h
    simp only [pure, Except.pure, Except.ok.injEq] at h
    subst h
    rcases mem_cons.mp hitem with rfl | hmem
    · exact ⟨result, mem_cons_self, hresult⟩
    · obtain ⟨other, hother, heq⟩ := ih hothers hmem
      exact ⟨other, mem_cons_of_mem _ hother, heq⟩

theorem map_of_mapM {γ : Type*} {g : β → γ} {g' : α → γ}
    (hread : ∀ item ∈ items, ∀ result, f item = .ok result → g result = g' item) :
    results.map g = items.map g' := by
  induction items generalizing results with
  | nil =>
    simp only [mapM_nil, pure, Except.pure, Except.ok.injEq] at h
    rw [← h]
    rfl
  | cons first rest ih =>
    rw [mapM_cons] at h
    obtain ⟨result, hresult, h⟩ := bind_eq_ok.mp h
    obtain ⟨others, hothers, h⟩ := bind_eq_ok.mp h
    simp only [pure, Except.pure, Except.ok.injEq] at h
    rw [← h, map_cons, map_cons, hread first mem_cons_self result hresult,
      ih hothers fun item hitem => hread item (mem_cons_of_mem _ hitem)]

end

theorem mapM_ok (h : ∀ item ∈ items, ∃ result, f item = .ok result) :
    ∃ results, items.mapM f = .ok results := by
  induction items with
  | nil => exact ⟨[], rfl⟩
  | cons item rest ih =>
    obtain ⟨first, hfirst⟩ := h item mem_cons_self
    obtain ⟨others, hothers⟩ := ih fun other hother => h other (mem_cons_of_mem _ hother)
    exact ⟨first :: others, by rw [mapM_cons, hfirst, hothers]; rfl⟩

theorem mapM_filter {p : α → Bool} {q : β → Bool} (h : items.mapM f = .ok results)
    (hpq : ∀ item ∈ items, ∀ result, f item = .ok result → q result = p item) :
    (items.filter p).mapM f = .ok (results.filter q) := by
  induction items generalizing results with
  | nil =>
    cases h
    rfl
  | cons item rest ih =>
    rw [mapM_cons] at h
    obtain ⟨first, hfirst, h⟩ := bind_eq_ok.mp h
    obtain ⟨others, hothers, h⟩ := bind_eq_ok.mp h
    cases h
    have hrest := ih hothers fun other hother => hpq other (mem_cons_of_mem _ hother)
    rw [filter_cons, filter_cons, hpq item mem_cons_self first hfirst]
    split
    · rw [mapM_cons, hfirst, hrest]
      rfl
    · exact hrest

/-- A loop of reads over all pairs of items, each item with those after it. -/
def pairsM {ε α β : Type*} (f : α → α → Except ε β) : List α → Except ε (List β)
  | [] => .ok []
  | item :: rest => do
    let own ← rest.mapM (f item)
    let others ← pairsM f rest
    return own ++ others

theorem mem_of_pairsM {f : α → α → Except ε β} (h : pairsM f items = .ok results) {result : β}
    (hresult : result ∈ results) :
    ∃ left right, [left, right].Sublist items ∧ f left right = .ok result := by
  induction items generalizing results with
  | nil =>
    cases h
    cases hresult
  | cons first rest ih =>
    rw [pairsM] at h
    obtain ⟨own, hown, h⟩ := bind_eq_ok.mp h
    obtain ⟨others, hothers, h⟩ := bind_eq_ok.mp h
    cases h
    rcases mem_append.mp hresult with hfirst | hlater
    · obtain ⟨right, hright, hread⟩ := mem_of_mapM hown hfirst
      exact ⟨first, right, (singleton_sublist.mpr hright).cons_cons first, hread⟩
    · obtain ⟨left, right, hsub, hread⟩ := ih hothers hlater
      exact ⟨left, right, hsub.cons first, hread⟩

theorem exists_of_pairsM {f : α → α → Except ε β} (h : pairsM f items = .ok results)
    {left right : α} (hsub : [left, right].Sublist items) :
    ∃ result ∈ results, f left right = .ok result := by
  induction items generalizing results with
  | nil => cases hsub
  | cons first rest ih =>
    rw [pairsM] at h
    obtain ⟨own, hown, h⟩ := bind_eq_ok.mp h
    obtain ⟨others, hothers, h⟩ := bind_eq_ok.mp h
    cases h
    rcases sublist_cons_iff.mp hsub with hrest | ⟨_, heq, hright⟩
    · obtain ⟨result, hresult, hread⟩ := ih hothers hrest
      exact ⟨result, mem_append_right _ hresult, hread⟩
    · cases heq
      obtain ⟨result, hresult, hread⟩ := exists_of_mapM hown (singleton_sublist.mp hright)
      exact ⟨result, mem_append_left _ hresult, hread⟩

theorem foldlM_invariant {f : β → α → Except ε β} {P : β → Prop}
    (hstep : ∀ b, ∀ item ∈ items, ∀ b', P b → f b item = .ok b' → P b') {b' : β} (hb : P b)
    (h : items.foldlM f b = .ok b') : P b' := by
  induction items generalizing b with
  | nil =>
    simp only [foldlM_nil, pure, Except.pure, Except.ok.injEq] at h
    exact h ▸ hb
  | cons item rest ih =>
    rw [foldlM_cons] at h
    obtain ⟨b₁, hfirst, h⟩ := bind_eq_ok.mp h
    exact ih (fun b item hitem => hstep b item (mem_cons_of_mem _ hitem))
      (hstep b item mem_cons_self b₁ hb hfirst) h

/-- How a transaction ends: it commits its tables, it is rolled back on purpose, or something in
it throws. -/
inductive Outcome (δ α : Type*) where
  | committed (database : δ) (value : α)
  | rolledBack (value : α)
  | aborted (error : String)

/-- The tables everyone else sees afterwards. -/
def Outcome.database {δ α : Type*} (outcome : Outcome δ α) (before : δ) : δ :=
  match outcome with
  | .committed after _ => after
  | _ => before

def Outcome.commits {δ α : Type*} : Outcome δ α → Bool
  | .committed _ _ => true
  | _ => false

theorem Outcome.exists_of_commits {δ : Type*} {outcome : Outcome δ α}
    (h : outcome.commits = true) : ∃ database value, outcome = .committed database value := by
  cases outcome with
  | committed database value => exact ⟨database, value, rfl⟩
  | rolledBack => cases h
  | aborted => cases h

theorem Outcome.database_eq {δ : Type*} {outcome : Outcome δ α} (h : outcome.commits = false)
    (before : δ) : outcome.database before = before := by
  cases outcome with
  | committed => cases h
  | rolledBack => rfl
  | aborted => rfl

/-! ## Items with keys of their own -/

theorem filter_key_eq {κ : Type*} [DecidableEq κ] (key : α → κ) (hnodup : (items.map key).Nodup)
    {item : α} (hitem : item ∈ items) :
    items.filter (fun other => key other = key item) = [item] := by
  induction items with
  | nil => cases hitem
  | cons head items ih =>
    rw [map_cons, nodup_cons] at hnodup
    rcases mem_cons.mp hitem with rfl | hrest
    · have hnone : items.filter (fun other => key other = key item) = [] := by
        rw [filter_eq_nil_iff]
        intro other hother hkey
        exact hnodup.1 (mem_map.mpr ⟨other, hother, by simpa using hkey⟩)
      simp [hnone]
    · have hne : ¬ key head = key item := fun hkey =>
        hnodup.1 (hkey ▸ mem_map_of_mem hrest)
      simp [hne, ih hnodup.2 hrest]

theorem eq_of_keys_of_isPrefix {κ : Type*} {key : α → κ} {start : List α}
    (hnodup : (items.map key).Nodup) (hfirst : start <+: items)
    (hall : ∀ item ∈ items, key item ∈ start.map key) : start = items := by
  apply hfirst.eq_of_length_le
  have hsub : items.map key ⊆ start.map key := by
    intro k hk
    obtain ⟨item, hitem, rfl⟩ := mem_map.mp hk
    exact hall item hitem
  simpa using (subperm_of_subset hnodup hsub).length_le

end Tables
