import LotusRfq.Combo.Enumeration
import LotusRfq.Combo.NettedSizes

/-!
# LotusRfq — which vectors the overlap graph joins

Whatever the scores of an edge are computed with, it joins the two vectors it was built of, and
there is one where some outcome was bought by one and sold by the other. The order the vectors
stand in does not matter.

* **`adjacent_iff_opposed`** — the ids a graph of such edges joins.
-/

namespace LotusRfq.Combo

open Tables List

/-- Of some outcome one has bought what the other has sold. -/
def Opposed (left right : SizeVector) : Prop := ∃ key, entryOf left key * entryOf right key < 0

theorem Opposed.symm {left right : SizeVector} (h : Opposed left right) : Opposed right left := by
  obtain ⟨key, hkey⟩ := h
  exact ⟨key, by rwa [mul_comm]⟩

theorem not_opposed_self (vector : SizeVector) : ¬ Opposed vector vector :=
  fun ⟨key, hkey⟩ => absurd hkey (not_lt.mpr (mul_self_nonneg (entryOf vector key)))

/-- What a builder of edges makes of two nodes: an edge joins them, and there is one where they
oppose each other. -/
structure JoinsOpposed
    (build : OverlapGraphNode → OverlapGraphNode → Except String (Option OverlapGraphEdge)) :
    Prop where
  isSome_iff : ∀ {left right result}, build left right = .ok result →
    (result.isSome = true ↔ Opposed left.vector right.vector)
  ends : ∀ {left right edge}, build left right = .ok (some edge) →
    edge.fromId = left.entityId ∧ edge.toId = right.entityId ∨
      edge.fromId = right.entityId ∧ edge.toId = left.entityId

theorem sublist_pair {α : Type*} {items : List α} {a b : α} (ha : a ∈ items) (hb : b ∈ items)
    (hne : a ≠ b) : [a, b].Sublist items ∨ [b, a].Sublist items := by
  induction items with
  | nil => cases ha
  | cons first rest ih =>
    rcases mem_cons.mp ha with rfl | ha'
    · have hb' : b ∈ rest := (mem_cons.mp hb).resolve_left (Ne.symm hne)
      exact .inl ((singleton_sublist.mpr hb').cons_cons a)
    · rcases mem_cons.mp hb with rfl | hb'
      · exact .inr ((singleton_sublist.mpr ha').cons_cons b)
      · exact (ih ha' hb').imp (·.cons first) (·.cons first)

section Joined

variable {build : OverlapGraphNode → OverlapGraphNode → Except String (Option OverlapGraphEdge)}
  {graph : OverlapGraph} {results : List (Option OverlapGraphEdge)}

/-- **Who is joined.** An edge joins two ids when nodes of these ids oppose each other. -/
theorem adjacent_iff_opposed (hbuild : JoinsOpposed build)
    (hresults : pairsM build graph.nodes = .ok results)
    (hedges : graph.edges.Perm results.reduceOption) {leftId rightId : String} :
    Adjacent graph leftId rightId ↔ ∃ left ∈ graph.nodes, ∃ right ∈ graph.nodes,
      left.entityId = leftId ∧ right.entityId = rightId ∧ Opposed left.vector right.vector := by
  constructor
  · rintro ⟨edge, hedge, hends⟩
    obtain ⟨left, right, hsub, hread⟩ :=
      mem_of_pairsM hresults (reduceOption_mem_iff.mp (hedges.mem_iff.mp hedge))
    have hleft : left ∈ graph.nodes := hsub.subset mem_cons_self
    have hright : right ∈ graph.nodes := hsub.subset (mem_cons_of_mem _ mem_cons_self)
    have hopposed : Opposed left.vector right.vector := (hbuild.isSome_iff hread).mp rfl
    -- the edge and the two ids may each be written in either direction
    rcases hbuild.ends hread with ⟨hfrom, hto⟩ | ⟨hfrom, hto⟩
    · rcases hends with ⟨rfl, rfl⟩ | ⟨rfl, rfl⟩
      · exact ⟨left, hleft, right, hright, hfrom.symm, hto.symm, hopposed⟩
      · exact ⟨right, hright, left, hleft, hto.symm, hfrom.symm, hopposed.symm⟩
    · rcases hends with ⟨rfl, rfl⟩ | ⟨rfl, rfl⟩
      · exact ⟨right, hright, left, hleft, hfrom.symm, hto.symm, hopposed.symm⟩
      · exact ⟨left, hleft, right, hright, hto.symm, hfrom.symm, hopposed⟩
  · rintro ⟨left, hleft, right, hright, rfl, rfl, hopposed⟩
    have hjoin : ∀ a b, [a, b].Sublist graph.nodes → Opposed a.vector b.vector →
        Adjacent graph a.entityId b.entityId := by
      intro a b hsub hab
      obtain ⟨result, hresult, hread⟩ := exists_of_pairsM hresults hsub
      obtain ⟨edge, rfl⟩ := Option.isSome_iff_exists.mp ((hbuild.isSome_iff hread).mpr hab)
      have hedge : edge ∈ graph.edges := hedges.mem_iff.mpr (reduceOption_mem_iff.mpr hresult)
      exact ⟨edge, hedge, hbuild.ends hread⟩
    have hne : left ≠ right := by
      intro heq
      rw [heq] at hopposed
      exact not_opposed_self _ hopposed
    rcases sublist_pair hleft hright hne with hsub | hsub
    · exact hjoin left right hsub hopposed
    · exact (hjoin right left hsub hopposed.symm).symm

end Joined

end LotusRfq.Combo
