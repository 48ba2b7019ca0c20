import Mathlib.Data.Finset.Card

/-!
# Growing connected sets

A finite set is connected under a relation when any two of its members are joined by a path that
stays in it. Such a set is grown from any part of it by adding neighbours one at a time, and what
is grown that way is connected.

* **`ConnectedOn.grow`** — what holds of a connected set, and is passed back over a neighbour, holds
  of every part of it;
* **`ConnectedOn.insert`** — a neighbour keeps a set connected.
-/

namespace Growth

variable {α : Type*} [DecidableEq α] {adj : α → α → Prop}

def Within (adj : α → α → Prop) (s : Finset α) (a b : α) : Prop := a ∈ s ∧ b ∈ s ∧ adj a b

/-- Any two members of the set are joined by a path within it. -/
structure ConnectedOn (adj : α → α → Prop) (s : Finset α) : Prop where
  nonempty : s.Nonempty
  path : ∀ a ∈ s, ∀ b ∈ s, Relation.ReflTransGen (Within adj s) a b

omit [DecidableEq α] in
theorem Within.mono {s t : Finset α} (hst : s ⊆ t) {a b : α} (h : Within adj s a b) :
    Within adj t a b :=
  ⟨hst h.1, hst h.2.1, h.2.2⟩

omit [DecidableEq α] in
theorem ConnectedOn.singleton (a : α) : ConnectedOn adj {a} := by
  refine ⟨Finset.singleton_nonempty a, fun b hb c hc => ?_⟩
  rw [Finset.mem_singleton] at hb hc
  subst hb hc
  exact .refl

theorem ConnectedOn.insert (hsymm : ∀ a b, adj a b → adj b a) {s : Finset α}
    (h : ConnectedOn adj s) {a b : α} (ha : a ∈ s) (hadj : adj a b) :
    ConnectedOn adj (insert b s) := by
  have hsub : s ⊆ Insert.insert b s := Finset.subset_insert b s
  have hold : ∀ x ∈ s, ∀ y ∈ s, Relation.ReflTransGen (Within adj (Insert.insert b s)) x y :=
    fun x hx y hy => Relation.ReflTransGen.mono (fun _ _ => Within.mono hsub) x y (h.path x hx y hy)
  have hb : b ∈ Insert.insert b s := Finset.mem_insert_self b s
  refine ⟨Finset.insert_nonempty b s, fun x hx y hy => ?_⟩
  rw [Finset.mem_insert] at hx hy
  rcases hx with rfl | hx
  · rcases hy with rfl | hy
    · exact .refl
    · exact .head ⟨hb, hsub ha, hsymm _ _ hadj⟩ (hold a ha y hy)
  · rcases hy with rfl | hy
    · exact .tail (hold x hx a ha) ⟨hsub ha, hb, hadj⟩
    · exact hold x hx y hy

theorem ConnectedOn.exists_boundary {s t : Finset α} (h : ConnectedOn adj s) (hts : t ⊆ s)
    (ht : t.Nonempty) (hne : t ≠ s) : ∃ a ∈ t, ∃ b ∈ s, b ∉ t ∧ adj a b := by
  obtain ⟨a, ha⟩ := ht
  obtain ⟨c, hc, hcNot⟩ := Finset.exists_of_ssubset (hts.ssubset_of_ne hne)
  by_contra hnone
  push Not at hnone
  -- no step leads out of the part
  have hstays : ∀ b, Relation.ReflTransGen (Within adj s) a b → b ∈ t := by
    intro b hpath
    induction hpath with
    | refl => exact ha
    | tail _ hstep ih =>
      by_contra hout
      exact hnone _ ih _ hstep.2.1 hout hstep.2.2
  exact hcNot (hstays c (h.path a (hts ha) c hc))

/-- What holds of a connected set, and is passed back over a neighbour, holds of each part. -/
theorem ConnectedOn.grow {s : Finset α} (h : ConnectedOn adj s) {motive : Finset α → Prop}
    (whole : motive s)
    (step : ∀ t ⊆ s, ∀ a ∈ t, ∀ b ∈ s, b ∉ t → adj a b → motive (Insert.insert b t) → motive t)
    (t : Finset α) (hts : t ⊆ s) (ht : t.Nonempty) : motive t := by
  induction hmissing : s.card - t.card using Nat.strong_induction_on generalizing t with
  | _ missing ih =>
    by_cases heq : t = s
    · exact heq ▸ whole
    · obtain ⟨a, ha, b, hb, hbNot, hadj⟩ := h.exists_boundary hts ht heq
      have hgrown : Insert.insert b t ⊆ s := Finset.insert_subset hb hts
      have hcard : (Insert.insert b t).card = t.card + 1 := Finset.card_insert_of_notMem hbNot
      have hle : (Insert.insert b t).card ≤ s.card := Finset.card_le_card hgrown
      refine step t hts a ha b hb hbNot hadj ?_
      exact ih _ (by omega) _ hgrown (Finset.insert_nonempty b t) rfl

end Growth
