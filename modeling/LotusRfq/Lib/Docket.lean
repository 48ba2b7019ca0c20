import Mathlib.Data.Set.Insert

/-!
# Cancelling what nobody has marked

Some parties mark an entry and settle it later; others choose entries that are unmarked, and cancel
them later. An entry may be marked after it was chosen. The cancellation is then undone by the
settlement that is still to come, unless that settlement came in between.

* **`Step.safe`** — as long as nothing is settled while it is chosen, an entry that is cancelled or
  chosen, and marked, has its settlement ahead;
* **`Safe.not_cancelled`** — with no settlement ahead, no marked entry is cancelled.
-/

namespace Docket

variable {κ : Type*}

/-- The entries that are marked, that are cancelled, that someone has chosen to cancel, and that
someone who marked them has still to settle. -/
structure State (κ : Type*) where
  marked : Set κ
  cancelled : Set κ
  chosen : Set κ
  unsettled : Set κ

/-- What the parties may do. Nothing but a mark adds to the marked entries, and so on. -/
inductive Step (d e : State κ) : Prop where
  /-- An entry is marked, its settlement comes later. -/
  | mark (k : κ) (hmarked : e.marked ⊆ insert k d.marked) (hcancelled : e.cancelled ⊆ d.cancelled)
      (hchosen : e.chosen ⊆ d.chosen) (hunsettled : insert k d.unsettled ⊆ e.unsettled)
  /-- An entry that nobody has chosen is settled. -/
  | settle (k : κ) (hfree : k ∉ d.chosen) (hmarked : e.marked ⊆ d.marked)
      (hcancelled : e.cancelled ⊆ d.cancelled \ {k}) (hchosen : e.chosen ⊆ d.chosen)
      (hunsettled : d.unsettled \ {k} ⊆ e.unsettled)
  /-- Unmarked entries are chosen. -/
  | choose (hmarked : e.marked ⊆ d.marked) (hcancelled : e.cancelled ⊆ d.cancelled)
      (hchosen : ∀ k ∈ e.chosen, k ∈ d.chosen ∨ k ∉ d.marked)
      (hunsettled : d.unsettled ⊆ e.unsettled)
  /-- Chosen entries are cancelled or let go. -/
  | cancel (hmarked : e.marked ⊆ d.marked) (hcancelled : e.cancelled ⊆ d.cancelled ∪ d.chosen)
      (hchosen : e.chosen ⊆ d.chosen) (hunsettled : d.unsettled ⊆ e.unsettled)

/-- A marked entry that is cancelled or about to be is going to be settled. -/
def Safe (d : State κ) : Prop :=
  ∀ k ∈ d.marked, k ∈ d.cancelled ∨ k ∈ d.chosen → k ∈ d.unsettled

theorem Step.safe {d e : State κ} (h : Step d e) (hd : Safe d) : Safe e := by
  intro k hk hat
  cases h with
  | mark j hmarked hcancelled hchosen hunsettled =>
    rcases hmarked hk with rfl | hold
    · exact hunsettled (Set.mem_insert k d.unsettled)
    · exact hunsettled (Set.mem_insert_of_mem j (hd k hold (hat.imp (hcancelled ·) (hchosen ·))))
  | settle j hfree hmarked hcancelled hchosen hunsettled =>
    -- what is settled is neither cancelled nor chosen afterwards
    have hne : k ≠ j := by
      rintro rfl
      rcases hat with hcan | hcho
      · exact (hcancelled hcan).2 rfl
      · exact hfree (hchosen hcho)
    have hwas : k ∈ d.cancelled ∨ k ∈ d.chosen := hat.imp (fun h => (hcancelled h).1) (hchosen ·)
    exact hunsettled ⟨hd k (hmarked hk) hwas, hne⟩
  | choose hmarked hcancelled hchosen hunsettled =>
    rcases hat with hcan | hcho
    · exact hunsettled (hd k (hmarked hk) (.inl (hcancelled hcan)))
    · rcases hchosen k hcho with hold | hnew
      · exact hunsettled (hd k (hmarked hk) (.inr hold))
      · exact absurd (hmarked hk) hnew
  | cancel hmarked hcancelled hchosen hunsettled =>
    have hwas : k ∈ d.cancelled ∨ k ∈ d.chosen :=
      hat.elim (fun h => hcancelled h) fun h => .inr (hchosen h)
    exact hunsettled (hd k (hmarked hk) hwas)

theorem Safe.not_cancelled {d : State κ} (h : Safe d) (hsettled : d.unsettled = ∅) {k : κ}
    (hk : k ∈ d.marked) : k ∉ d.cancelled := by
  intro hcan
  have hahead := h k hk (.inl hcan)
  rw [hsettled] at hahead
  exact hahead

end Docket
