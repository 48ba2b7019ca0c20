import LotusRfq.Lib.Tables

/-!
# Rows that carry evidence

A table of rows, each with a list of what was done for it, and a table of records about these
rows. A later pair of tables *remembers* an earlier one when no row that something was done for is
gone, nor shorter, nor any record about such a row.

* **`Remembers.of_grown`** — tables that only grow remember;
* **`Remembers.trans`** — and so do tables that remember step by step;
* **`remembers_replace_iff`** — replacing rows, and dropping the records about them, is remembered
  exactly when nothing had been done for the rows that went.
-/

namespace Evidence

open List

variable {ρ τ κ η : Type*} (key : ρ → κ) (done : ρ → List η) (about : τ → κ)

def Later (row row' : ρ) : Prop := key row' = key row ∧ done row <+: done row'

/-- What was done for the rows is still there, with the records about these rows. -/
structure Remembers (rows : List ρ) (records : List τ) (rows' : List ρ) (records' : List τ) :
    Prop where
  kept : ∀ row ∈ rows, done row ≠ [] → ∃ row' ∈ rows', Later key done row row'
  reported : ∀ row ∈ rows, done row ≠ [] → ∀ record ∈ records, about record = key row →
    record ∈ records'

variable {key done about} {rows rows' rows'' : List ρ} {records records' records'' : List τ}

theorem Remembers.trans (h : Remembers key done about rows records rows' records')
    (h' : Remembers key done about rows' records' rows'' records'') :
    Remembers key done about rows records rows'' records'' where
  kept row hrow hdone := by
    obtain ⟨row', hrow', hkey, hgrown⟩ := h.kept row hrow hdone
    have hdone' : done row' ≠ [] := fun hnil => hdone (prefix_nil.mp (hnil ▸ hgrown))
    obtain ⟨row'', hrow'', hkey', hgrown'⟩ := h'.kept row' hrow' hdone'
    exact ⟨row'', hrow'', hkey'.trans hkey, hgrown.trans hgrown'⟩
  reported row hrow hdone record hrecord habout := by
    obtain ⟨row', hrow', hkey, hgrown⟩ := h.kept row hrow hdone
    have hdone' : done row' ≠ [] := fun hnil => hdone (prefix_nil.mp (hnil ▸ hgrown))
    exact h'.reported row' hrow' hdone' record (h.reported row hrow hdone record hrecord habout)
      (habout.trans hkey.symm)

theorem Remembers.of_grown (hrows : List.Forall₂ (Later key done) rows rows')
    (hrecords : records ⊆ records') : Remembers key done about rows records rows' records' where
  kept _ hrow _ := Tables.exists_right hrows hrow
  reported _ _ _ _ hrecord _ := hrecords hrecord

theorem Remembers.refl (rows : List ρ) (records : List τ) :
    Remembers key done about rows records rows records :=
  .of_grown (List.forall₂_same.mpr fun _ _ => ⟨rfl, prefix_rfl⟩) (List.Subset.refl _)

/-- **Replacing rows.** The rows that `gone` names are replaced by ones for which nothing was done,
and the records about them are dropped. -/
theorem remembers_replace_iff [DecidableEq κ] {gone : ρ → Bool} {new : List ρ}
    (hkeys : (rows.map key).Nodup) (hnew : ∀ row ∈ new, done row = []) :
    Remembers key done about rows records (rows.filter (fun row => !gone row) ++ new)
        (records.filter fun record => about record ∉ (rows.filter gone).map key) ↔
      ∀ row ∈ rows, gone row → done row = [] := by
  constructor
  · intro h row hrow hgone
    by_contra hdone
    obtain ⟨row', hrow', hkey, hgrown⟩ := h.kept row hrow hdone
    rcases mem_append.mp hrow' with hkept | hfresh
    · obtain ⟨hmem, hstays⟩ := mem_filter.mp hkept
      rw [Tables.eq_of_key hkeys hmem hrow hkey, hgone] at hstays
      cases hstays
    · rw [hnew row' hfresh] at hgrown
      exact hdone (prefix_nil.mp hgrown)
  · intro hgone
    have hstays : ∀ row ∈ rows, done row ≠ [] → gone row = false := fun row hrow hdone =>
      Bool.eq_false_iff.mpr fun h => hdone (hgone row hrow h)
    refine ⟨fun row hrow hdone => ⟨row, ?_, rfl, prefix_rfl⟩, ?_⟩
    · exact mem_append_left _ (mem_filter.mpr ⟨hrow, by rw [hstays row hrow hdone]; rfl⟩)
    · intro row hrow hdone record hrecord habout
      refine mem_filter.mpr ⟨hrecord, decide_eq_true fun hdropped => ?_⟩
      obtain ⟨row', hrow', hkey⟩ := mem_map.mp hdropped
      obtain ⟨hmem, hgone'⟩ := mem_filter.mp hrow'
      rw [Tables.eq_of_key hkeys hmem hrow (hkey.trans habout), hstays row hrow hdone] at hgone'
      cases hgone'

end Evidence
