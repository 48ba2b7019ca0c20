import LotusRfq.Combo.CandidateSets
import LotusRfq.Combo.OverlapEdges

/-!
# LotusRfq — the scores of an overlap graph

The graph, the enumeration and the scorer net the vectors of some combos the same way. The edges
join combos that oppose each other, and no gross size that is divided by is zero. Scores are within
their bounds where the sizes fit the digits a decimal has.

* **`overlapScores`** — the edges, their scores and those of the groups;
* **`scores_out_of_bounds`** — what rounding does to sizes that do not fit.
-/

namespace LotusRfq.Combo

open Tables Decimals List
open ResidualVector (grossAbsSize entityId)

variable {localeCompare : String → String → Ordering} {precision : ℕ} {places : ℤ}

/-! ## The vectors of combos -/

def openTotal (combo : LoadedCombo) : ℚ := (combo.legs.map LegRow.remaining_size).sum

def openLegs (combo : LoadedCombo) : List LegRow :=
  combo.legs.filter fun leg => 0 < leg.remaining_size

structure BuiltAt (precision : ℕ) (combo : LoadedCombo) (vector : ResidualVector) : Prop where
  nonneg : ∀ leg ∈ combo.legs, 0 ≤ leg.remaining_size
  some_open : openLegs combo ≠ []
  entityId : vector.entityId = combo.row.id
  entries : vector.vector = vectorAt precision (openLegs combo)
  gross : vector.grossAbsSize =
    addAll precision 0 ((openLegs combo).map LegRow.remaining_size)

theorem builtAt_of_ok {combo : LoadedCombo} {vector : ResidualVector}
    (h : buildResidualVectorAt precision combo = .ok vector) : BuiltAt precision combo vector := by
  unfold buildResidualVectorAt at h
  cases hbuild : buildResidualVector combo with
  | error error =>
    rw [hbuild] at h
    cases h
  | ok exact' =>
    rw [hbuild] at h
    cases h
    have hvector := buildResidualVector_vector hbuild
    refine ⟨hvector.nonneg, fun hnil => ?_, hvector.entityId, rfl, rfl⟩
    unfold buildResidualVector at hbuild
    simp only [show combo.legs.filter (fun leg => 0 < leg.remaining_size) = [] from hnil,
      if_true] at hbuild
    split at hbuild
    next => cases hbuild
    next => cases hbuild

section Built

variable {combo : LoadedCombo} {vector : ResidualVector}

theorem BuiltAt.gross_pos (h : BuiltAt precision combo vector) (hprecision : 0 < precision) :
    0 < vector.grossAbsSize := by
  obtain ⟨leg, rest, hcons⟩ := exists_cons_of_ne_nil h.some_open
  have hpos : ∀ other ∈ openLegs combo, 0 < other.remaining_size := fun other hother =>
    of_decide_eq_true (mem_filter.mp hother).2
  rw [hcons] at hpos
  rw [h.gross, hcons, map_cons]
  show 0 < addAll precision (toSignificant precision (0 + leg.remaining_size))
    (rest.map LegRow.remaining_size)
  refine addAll_pos hprecision (fun size hsize => ?_) ?_
  · obtain ⟨other, hother, rfl⟩ := mem_map.mp hsize
    exact (hpos other (mem_cons_of_mem _ hother)).le
  · rw [zero_add]
    exact toSignificant_pos hprecision (hpos leg mem_cons_self)

theorem BuiltAt.keys (h : BuiltAt precision combo vector) : (keysOf vector.vector).Nodup := by
  rw [h.entries, keysOf, vectorAt, keys_foldl_addToAt]
  exact OrderedMap.nodup_foldl_addNew _ nodup_nil

/-- The sizes of some combos are whole at `places`, and all they have open fits. -/
structure CombosFit (precision : ℕ) (places : ℤ) (combos : List LoadedCombo) : Prop where
  onGrid : ∀ combo ∈ combos, ∀ leg ∈ combo.legs, OnGrid places leg.remaining_size
  fits : FitsIn precision places (combos.map openTotal).sum

theorem openTotal_nonneg (hnonneg : ∀ leg ∈ combo.legs, 0 ≤ leg.remaining_size) :
    0 ≤ openTotal combo := by
  refine sum_nonneg fun size hsize => ?_
  obtain ⟨leg, hleg, rfl⟩ := mem_map.mp hsize
  exact hnonneg leg hleg

theorem sum_openLegs (hnonneg : ∀ leg ∈ combo.legs, 0 ≤ leg.remaining_size) :
    ((openLegs combo).map LegRow.remaining_size).sum = openTotal combo := by
  have hsum := sum_remaining_filter_pos (fun _ => true) combo.legs hnonneg
  simpa [openLegs, openTotal] using hsum

theorem abs_signedSize {leg : LegRow} (h : 0 ≤ leg.remaining_size) :
    |signedSize leg| = leg.remaining_size := by
  unfold signedSize
  cases leg.side with
  | buy => exact abs_of_nonneg h
  | sell =>
    show |-leg.remaining_size| = _
    rw [abs_neg, abs_of_nonneg h]

/-- The vector of a combo that fits: its gross size is what is open, and its entries are the net
sizes, which come to no more. -/
structure ExactVector (places : ℤ) (combo : LoadedCombo) (vector : ResidualVector) : Prop where
  gross : vector.grossAbsSize = openTotal combo
  onGrid : ∀ entry ∈ vector.vector, OnGrid places entry.2
  le : absSize vector.vector ≤ vector.grossAbsSize

theorem BuiltAt.exact (h : BuiltAt precision combo vector)
    (hgrid : ∀ leg ∈ combo.legs, OnGrid places leg.remaining_size)
    (hfits : FitsIn precision places (openTotal combo)) : ExactVector places combo vector := by
  have hgross : vector.grossAbsSize = openTotal combo := by
    rw [h.gross, ← sum_openLegs h.nonneg]
    refine addAll_eq_of_le (fun size hsize => ?_) (fun size hsize => ?_) hfits
      (sum_openLegs h.nonneg).le
    · obtain ⟨leg, hleg, rfl⟩ := mem_map.mp hsize
      exact hgrid leg (mem_of_mem_filter hleg)
    · obtain ⟨leg, hleg, rfl⟩ := mem_map.mp hsize
      exact h.nonneg leg (mem_of_mem_filter hleg)
  have hentry : ∀ key, entryOf vector.vector key = netSize combo key := by
    intro key
    rw [h.entries]
    refine @entryOf_vectorAt precision places combo key h.nonneg
      ⟨fun leg hleg _ => hgrid leg hleg, fun side => hfits.of_le (.sum fun size hsize => ?_) ?_⟩
    · obtain ⟨leg, hleg, rfl⟩ := mem_map.mp hsize
      exact hgrid leg (mem_of_mem_filter hleg)
    · have hside : 0 ≤ openSize combo key side := by
        refine sum_nonneg fun size hsize => ?_
        obtain ⟨leg, hleg, rfl⟩ := mem_map.mp hsize
        exact h.nonneg leg (mem_of_mem_filter hleg)
      rw [abs_of_nonneg hside, abs_of_nonneg (openTotal_nonneg h.nonneg)]
      refine List.Sublist.sum_le_sum (filter_sublist.map _) fun size hsize => ?_
      obtain ⟨leg, hleg, rfl⟩ := mem_map.mp hsize
      exact h.nonneg leg hleg
  refine ⟨hgross, fun entry hentryMem => ?_, ?_⟩
  · have hnet := hentry entry.1
    rw [entryOf_of_mem h.keys (show (entry.1, entry.2) ∈ _ from hentryMem)] at hnet
    rw [hnet]
    refine .sum fun size hsize => ?_
    obtain ⟨leg, hleg, rfl⟩ := mem_map.mp hsize
    exact onGrid_signedSize (hgrid leg (mem_of_mem_filter hleg))
  · rw [absSize_eq h.keys, hgross]
    simp only [hentry]
    refine le_trans (sum_abs_by_key_le h.keys) (le_of_eq ?_)
    exact congrArg List.sum (map_congr_left fun leg hleg => abs_signedSize (h.nonneg leg hleg))

theorem netFits_of_combos {combos : List LoadedCombo} {vectors : List ResidualVector}
    (h : combos.mapM (buildResidualVectorAt precision) = .ok vectors)
    (hfit : CombosFit precision places combos) :
    NetFits precision places (vectors.map ResidualVector.vector) (vectors.map grossAbsSize).sum ∧
      ∀ vector ∈ vectors, OnGrid places vector.grossAbsSize := by
  have hbuilt : ∀ combo ∈ combos, ∀ vector, buildResidualVectorAt precision combo = .ok vector →
      BuiltAt precision combo vector ∧ ExactVector places combo vector := by
    intro combo hcombo vector hvector
    have hbuilt := builtAt_of_ok hvector
    refine ⟨hbuilt, hbuilt.exact (hfit.onGrid combo hcombo) (hfit.fits.of_le ?_ ?_)⟩
    · refine .sum fun size hsize => ?_
      obtain ⟨leg, hleg, rfl⟩ := mem_map.mp hsize
      exact hfit.onGrid combo hcombo leg hleg
    · have hall : ∀ total ∈ combos.map openTotal, 0 ≤ total := by
        intro total htotal
        obtain ⟨other, hother, rfl⟩ := mem_map.mp htotal
        obtain ⟨result, -, hresult⟩ := exists_of_mapM h hother
        exact openTotal_nonneg (builtAt_of_ok hresult).nonneg
      rw [abs_of_nonneg (openTotal_nonneg hbuilt.nonneg), abs_of_nonneg (sum_nonneg hall)]
      exact single_le_sum hall _ (mem_map_of_mem hcombo)
  have hgross : vectors.map grossAbsSize = combos.map openTotal :=
    map_of_mapM h fun combo hcombo vector hvector => (hbuilt combo hcombo vector hvector).2.gross
  have hvector : ∀ vector ∈ vectors, (keysOf vector.vector).Nodup ∧
      (∀ entry ∈ vector.vector, OnGrid places entry.2) ∧
      absSize vector.vector ≤ vector.grossAbsSize := by
    intro vector hmem
    obtain ⟨combo, hcombo, hread⟩ := mem_of_mapM h hmem
    obtain ⟨hbuiltAt, hexact⟩ := hbuilt combo hcombo vector hread
    exact ⟨hbuiltAt.keys, hexact.onGrid, hexact.le⟩
  refine ⟨⟨fun sizes hsizes => ?_, fun sizes hsizes => ?_, ?_, hgross ▸ hfit.fits⟩, ?_⟩
  · obtain ⟨vector, hmem, rfl⟩ := mem_map.mp hsizes
    exact (hvector vector hmem).1
  · obtain ⟨vector, hmem, rfl⟩ := mem_map.mp hsizes
    exact (hvector vector hmem).2.1
  · rw [map_map]
    exact sum_le_sum fun vector hmem => (hvector vector hmem).2.2
  · intro vector hmem
    obtain ⟨combo, hcombo, hread⟩ := mem_of_mapM h hmem
    rw [(hbuilt combo hcombo vector hread).2.gross]
    refine .sum fun size hsize => ?_
    obtain ⟨leg, hleg, rfl⟩ := mem_map.mp hsize
    exact hfit.onGrid combo hcombo leg hleg

end Built

/-! ## Edges -/

section Edges

variable {combos : List LoadedCombo} {vectors : List ResidualVector} {graph : OverlapGraph}

theorem joinsOpposed_buildEdgeAt : JoinsOpposed (buildEdgeAt precision localeCompare) := by
  refine ⟨fun {left right result} h => ?_, fun {left right edge} h => buildEdgeAt_ends h⟩
  have hopposed := @overlapLegs_eq_nil_iff localeCompare left right
  unfold buildEdgeAt at h
  simp only at h
  split at h
  next hlegs =>
    cases h
    exact iff_of_false (by decide) (hopposed.mp hlegs)
  next hlegs =>
    split at h
    next => cases h
    next =>
      cases h
      exact iff_of_true rfl (not_not.mp (mt hopposed.mpr hlegs))

/-- **Who is joined.** An edge joins two vectors that oppose each other, and only these. -/
theorem adjacent_iff (hgraph : buildGraphAt precision localeCompare vectors = .ok graph)
    {left right : ResidualVector} (hleft : left ∈ vectors) (hright : right ∈ vectors) :
    Adjacent graph left.entityId right.entityId ↔
      ∃ key, entryOf left.vector key * entryOf right.vector key < 0 := by
  obtain ⟨-, hnodes, hids, -, edges, hedges, hperm⟩ := buildGraphAt_ok hgraph
  rw [buildEdgesAt_eq] at hedges
  obtain ⟨results, hresults, rfl⟩ := map_eq_ok.mp hedges
  have hsame : ∀ a ∈ vectors, ∀ b ∈ vectors, a.entityId = b.entityId → a = b :=
    fun a ha b hb heq => inj_on_of_nodup_map hids ha hb heq
  rw [adjacent_iff_opposed joinsOpposed_buildEdgeAt hresults hperm, hnodes]
  constructor
  · rintro ⟨nodeL, hnodeL, nodeR, hnodeR, hidL, hidR, hopposed⟩
    obtain ⟨vectorL, hvectorL, rfl⟩ := mem_map.mp hnodeL
    obtain ⟨vectorR, hvectorR, rfl⟩ := mem_map.mp hnodeR
    rw [← hsame _ hvectorL _ hleft hidL, ← hsame _ hvectorR _ hright hidR]
    exact hopposed
  · intro hopposed
    exact ⟨toNode left, mem_map_of_mem hleft, toNode right, mem_map_of_mem hright, rfl,
      rfl, hopposed⟩

structure EdgeScored (combos : List LoadedCombo) (edge : OverlapGraphEdge) : Prop where
  positive : 0 < edge.exactOppositionScore
  ordered : edge.exactOppositionScore ≤ edge.partialOverlapScore
  atMostOne : (∀ combo ∈ combos, combo.row.id = edge.fromId ∨ combo.row.id = edge.toId →
      ∃ places, CombosFit DECIMAL_PRECISION places [combo]) → edge.partialOverlapScore ≤ 1

theorem fitsAlone_of_combo {combo : LoadedCombo} {vector : ResidualVector}
    (h : buildResidualVectorAt precision combo = .ok vector)
    (hfit : CombosFit precision places [combo]) : FitsAlone precision (toNode vector) := by
  have hmap : [combo].mapM (buildResidualVectorAt precision) = .ok [vector] := by
    rw [mapM_cons, h]
    rfl
  have hnet := (netFits_of_combos hmap hfit).1
  rw [map_singleton, map_singleton, sum_singleton] at hnet
  exact ⟨places, hnet⟩

theorem edgeScored (hvectors : combos.mapM (buildResidualVectorAt DECIMAL_PRECISION) = .ok vectors)
    (hgraph : buildGraphAt DECIMAL_PRECISION localeCompare vectors = .ok graph)
    {edge : OverlapGraphEdge} (hedge : edge ∈ graph.edges) : EdgeScored combos edge := by
  obtain ⟨-, hnodes, -, -, edges, hedges, hperm⟩ := buildGraphAt_ok hgraph
  obtain ⟨nodeL, nodeR, hsub, hbuild⟩ := (mem_buildEdgesAt hedges).mp (hperm.mem_iff.mp hedge)
  obtain ⟨hpositive, hordered, hone⟩ := buildEdgeAt_scores (by decide) hbuild
  refine ⟨hpositive, hordered, fun hfit => ?_⟩
  have halone : ∀ node ∈ graph.nodes, (node.entityId = edge.fromId ∨ node.entityId = edge.toId) →
        FitsAlone DECIMAL_PRECISION node := by
    intro node hnode hend
    rw [hnodes] at hnode
    obtain ⟨vector, hvector, rfl⟩ := mem_map.mp hnode
    obtain ⟨combo, hcombo, hread⟩ := mem_of_mapM hvectors hvector
    have hid : combo.row.id = vector.entityId := (builtAt_of_ok hread).entityId.symm
    obtain ⟨places, hplaces⟩ := hfit combo hcombo (by rw [hid]; exact hend)
    exact fitsAlone_of_combo hread hplaces
  have hmemL : nodeL ∈ graph.nodes := hsub.subset mem_cons_self
  have hmemR : nodeR ∈ graph.nodes := hsub.subset (mem_cons_of_mem _ mem_cons_self)
  rcases buildEdgeAt_ends hbuild with ⟨hfrom, hto⟩ | ⟨hfrom, hto⟩
  · exact hone (halone nodeL hmemL (.inl hfrom.symm)) (halone nodeR hmemR (.inr hto.symm))
  · exact hone (halone nodeL hmemL (.inr hto.symm)) (halone nodeR hmemR (.inl hfrom.symm))

end Edges

/-! ## Groups -/

section GroupScores

variable {combos : List LoadedCombo} {vectors : List ResidualVector} {graph : OverlapGraph}
  {config : CandidateGroupEnumeratorConfig} {groups : List CandidateGroup} {group : CandidateGroup}

def vectorsAmong (vectors : List ResidualVector) (ids : List String) : List ResidualVector :=
  vectors.filter fun vector => vector.entityId ∈ ids

/-- What the enumeration and the scorer read of the members of a group. -/
structure GroupRead (vectors : List ResidualVector)
    (localeCompare : String → String → Ordering) (precision : ℕ) (group : CandidateGroup)
    (members : List ResidualVector) : Prop where
  two : 2 ≤ group.participantIds.length
  nodup : group.participantIds.Nodup
  found : group.participantIds.mapM (findVector (vectorsAmong vectors group.participantIds)) =
    .ok members
  perm : members.Perm (vectorsAmong vectors group.participantIds)
  residual : group.residualAfterNetting =
    residualAfterNettingAt precision localeCompare (members.map toNode)
  compression : group.estimatedCompressionScore =
    if addAll precision 0 (members.map grossAbsSize) = 0 then 0
    else toSignificant precision (1 - toSignificant precision
      (addAll precision 0 (group.residualAfterNetting.map fun entry => |entry.2|) /
        addAll precision 0 (members.map grossAbsSize)))

theorem exists_members (hids : (vectors.map entityId).Nodup) {pool : List String}
    {ids : List String} (hsub : ids ⊆ pool) (hin : ids ⊆ vectors.map entityId)
    {nodes : List OverlapGraphNode} (hperm : nodes.Perm (vectors.map toNode)) :
    ∃ members, ids.mapM (findVector (vectorsAmong vectors pool)) = .ok members ∧
      members.map toNode = groupNodes nodes ids ∧ ∀ member ∈ members, member ∈ vectors := by
  have hfiltered : ((vectorsAmong vectors pool).map entityId).Nodup :=
    hids.sublist (filter_sublist.map _)
  induction ids with
  | nil => exact ⟨[], rfl, rfl, fun member hmember => absurd hmember not_mem_nil⟩
  | cons id rest ih =>
    obtain ⟨members, hread, hnodes, hmem⟩ := ih (fun other hother => hsub
      (mem_cons_of_mem _ hother)) fun other hother => hin (mem_cons_of_mem _ hother)
    obtain ⟨vector, hvector, hid⟩ := mem_map.mp (hin mem_cons_self)
    have hpool : vector ∈ vectorsAmong vectors pool :=
      mem_filter.mpr ⟨hvector, decide_eq_true (hid ▸ hsub mem_cons_self)⟩
    have hfind : (vectorsAmong vectors pool).find? (fun other => other.entityId = id) =
        some vector := (select_eq_some hfiltered).mpr ⟨hpool, hid⟩
    have hnode : (nodes.find? fun node => node.entityId = id) = some (toNode vector) := by
      rw [← hid]
      exact find_node hids hperm hvector
    refine ⟨vector :: members, ?_, ?_, fun member hmember => ?_⟩
    · rw [mapM_cons, findVector, hfind, hread]
      rfl
    · rw [map_cons, hnodes, groupNodes, groupNodes, filterMap_cons, hnode]
    · rcases mem_cons.mp hmember with rfl | hrest
      · exact hvector
      · exact hmem member hrest

theorem groupRead_of_enumerated (hgraph : buildGraphAt precision localeCompare vectors = .ok graph)
    (hgroups : enumerateAt precision localeCompare graph config = .ok groups)
    (hgroup : group ∈ groups) : ∃ members, GroupRead vectors localeCompare precision group
      members := by
  obtain ⟨-, hnodes, hids, -⟩ := buildGraphAt_ok hgraph
  obtain ⟨rootId, ids, hgrown, hbuild⟩ := enumerateAt_sound hgroups hgroup
  obtain ⟨hparticipants, nodes, hread, -, hresidual, hcompression⟩ := tryBuildGroupAt_some hbuild
  have htwo := two_of_built hbuild
  subst hparticipants
  have hnodup : group.participantIds.Nodup := hgrown.nodup (nodup_singleton _)
  have hperm : (sortedNodesOf localeCompare graph).Perm (vectors.map toNode) :=
    hnodes ▸ Js.sortWith_perm _ _
  have hin : group.participantIds ⊆
      (sortedNodesOf localeCompare graph).map OverlapGraphNode.entityId :=
    subset_of_found hread
  have hinVectors : group.participantIds ⊆ vectors.map entityId := by
    intro id hid
    have hmem := (hperm.map OverlapGraphNode.entityId).mem_iff.mp (hin hid)
    rwa [map_map] at hmem
  rw [mapM_findNode hin] at hread
  cases hread
  obtain ⟨members, hfound, hmembers, hmem⟩ :=
    exists_members hids (List.Subset.refl _) hinVectors hperm
  have hmemberIds : members.map entityId = group.participantIds := by
    have hmap := map_groupNodes hin
    rw [← hmembers, map_map] at hmap
    exact hmap
  refine ⟨members, htwo, hnodup, hfound, ?_, by rw [hmembers]; exact hresidual, ?_⟩
  · have hmembersNodup : members.Nodup := List.Nodup.of_map entityId (hmemberIds ▸ hnodup)
    refine (perm_ext_iff_of_nodup hmembersNodup ((hids.of_map).filter _)).mpr fun vector => ?_
    rw [mem_filter, decide_eq_true_eq]
    constructor
    · intro hvector
      exact ⟨hmem vector hvector, hmemberIds ▸ mem_map_of_mem hvector⟩
    · rintro ⟨hvector, hid⟩
      obtain ⟨member, hmember, hsame⟩ := mem_map.mp (hmemberIds ▸ hid)
      rwa [← inj_on_of_nodup_map hids (hmem member hmember) hvector hsame]
  · rw [← hmembers, map_map] at hcompression
    exact hcompression

theorem compression_bounds (hprecision : 0 < precision) {left gross : ℚ} (hleft : 0 ≤ left)
    (hgross : 0 ≤ gross) : (if gross = 0 then 0 else toSignificant precision
        (1 - toSignificant precision (left / gross))) ≤ 1 ∧
      (left ≤ gross → 0 ≤ if gross = 0 then 0 else toSignificant precision
        (1 - toSignificant precision (left / gross))) := by
  by_cases hzero : gross = 0
  · rw [if_pos hzero]
    exact ⟨zero_le_one, fun _ => le_rfl⟩
  · rw [if_neg hzero]
    have hshare := toSignificant_nonneg hprecision (div_nonneg hleft hgross)
    refine ⟨toSignificant_le_one hprecision (by linarith), fun hle => ?_⟩
    have hone := toSignificant_le_one hprecision (div_le_one_of_le₀ hle hgross)
    exact toSignificant_nonneg hprecision (by linarith)

/-- What the scores of a group are. The scorer adds up the residuals of the group in an order of
its own. -/
structure GroupScored (combos : List LoadedCombo) (group : CandidateGroup)
    (score : ClearingCompressionScore) : Prop where
  atMostOne : group.estimatedCompressionScore ≤ 1
  residuals : ∃ leftOver : SizeVector, leftOver.Perm group.residualAfterNetting ∧
    score.postNetAbsResidual =
      addAll DECIMAL_PRECISION 0 (leftOver.map fun entry => |entry.2|)
  exact : (∃ places, CombosFit DECIMAL_PRECISION places
      (combos.filter fun combo => combo.row.id ∈ group.participantIds)) →
    0 ≤ group.estimatedCompressionScore ∧
      score.postNetAbsResidual = absSize group.residualAfterNetting ∧ 0 ≤ score.compressionScore

theorem groupScored (hvectors : combos.mapM (buildResidualVectorAt DECIMAL_PRECISION) = .ok vectors)
    (hgraph : buildGraphAt DECIMAL_PRECISION localeCompare vectors = .ok graph)
    (hgroups : enumerateAt DECIMAL_PRECISION localeCompare graph config = .ok groups)
    (hgroup : group ∈ groups) :
    ∃ score, scoreGroupAt DECIMAL_PRECISION group (vectorsAmong vectors group.participantIds) =
      .ok score ∧ GroupScored combos group score := by
  have hprecision : 0 < DECIMAL_PRECISION := by decide
  obtain ⟨-, -, hids, -⟩ := buildGraphAt_ok hgraph
  obtain ⟨members, hread⟩ := groupRead_of_enumerated hgraph hgroups hgroup
  have hlength : (vectorsAmong vectors group.participantIds).length =
      group.participantIds.length := by
    have hmap : members.map (fun _ => ()) = group.participantIds.map fun _ => () :=
      map_of_mapM hread.found fun _ _ _ _ => rfl
    have hcount := congrArg List.length hmap
    rw [length_map, length_map] at hcount
    rw [← hread.perm.length_eq, hcount]
  have hne : members ≠ [] := by
    intro hnil
    have htwo := hread.two
    rw [← hlength, ← hread.perm.length_eq, hnil] at htwo
    exact absurd htwo (by decide)
  obtain ⟨member, others, hcons⟩ := exists_cons_of_ne_nil hne
  have hresidualNodes : (members.map toNode).map OverlapGraphNode.vector =
      members.map ResidualVector.vector := by
    rw [map_map]
    rfl
  have hperm := @residualAfterNettingAt_perm DECIMAL_PRECISION localeCompare (members.map toNode)
  rw [← hread.residual, hresidualNodes] at hperm
  -- what the scorer returns
  obtain ⟨score, hscore, hpost, hcompression⟩ : ∃ score,
      scoreGroupAt DECIMAL_PRECISION group (vectorsAmong vectors group.participantIds) = .ok score ∧
      score.postNetAbsResidual = addAll DECIMAL_PRECISION 0
        (((sumVectorsAt DECIMAL_PRECISION (members.map ResidualVector.vector)).filter
          fun entry => entry.2 ≠ 0).map fun entry => |entry.2|) ∧
      score.compressionScore = toSignificant DECIMAL_PRECISION (addAll DECIMAL_PRECISION 0
          ((members.map ResidualVector.vector).flatten.map fun entry => |entry.2|) -
            score.postNetAbsResidual) := by
    have hvectorIds : ((vectorsAmong vectors group.participantIds).map
        entityId).Nodup := hids.sublist (filter_sublist.map _)
    unfold scoreGroupAt
    rw [if_neg (not_not.mpr hread.nodup), if_neg (not_not.mpr hvectorIds),
      if_neg (not_not.mpr hlength), hread.found, hcons]
    exact ⟨_, rfl, rfl, by rw [flatMap_def]⟩
  have hleft : 0 ≤ addAll DECIMAL_PRECISION 0
      (group.residualAfterNetting.map fun entry => |entry.2|) := by
    refine addAll_nonneg hprecision (fun size hsize => ?_) le_rfl
    obtain ⟨entry, -, rfl⟩ := mem_map.mp hsize
    exact abs_nonneg _
  have hgross : 0 ≤ addAll DECIMAL_PRECISION 0 (members.map grossAbsSize) := by
    refine addAll_nonneg hprecision (fun size hsize => ?_) le_rfl
    obtain ⟨vector, hvector, rfl⟩ := mem_map.mp hsize
    obtain ⟨combo, -, hbuild⟩ := mem_of_mapM hvectors
      (mem_of_mem_filter (hread.perm.mem_iff.mp hvector))
    exact ((builtAt_of_ok hbuild).gross_pos hprecision).le
  have hbounds := compression_bounds hprecision hleft hgross
  rw [← hread.compression] at hbounds
  refine ⟨score, hscore, hbounds.1, ⟨_, hperm.symm, hpost⟩, ?_⟩
  rintro ⟨places, hfit⟩
  -- the members' vectors are those of the members' combos
  have hmemberVectors : (combos.filter fun combo => combo.row.id ∈ group.participantIds).mapM
      (buildResidualVectorAt DECIMAL_PRECISION) =
        .ok (vectorsAmong vectors group.participantIds) := by
    refine mapM_filter hvectors fun combo _ vector hbuild => ?_
    rw [(builtAt_of_ok hbuild).entityId]
  obtain ⟨hnet, hgrid⟩ := netFits_of_combos hmemberVectors hfit
  have hmembers := hnet.of_perm (hread.perm.map ResidualVector.vector).symm
  have htotal : (members.map grossAbsSize).sum =
      ((vectorsAmong vectors group.participantIds).map grossAbsSize).sum :=
    (hread.perm.map _).sum_eq
  have hsub : group.residualAfterNetting ⊆
      sumVectorsAt DECIMAL_PRECISION (members.map ResidualVector.vector) := fun entry hentry =>
    mem_of_mem_filter (hperm.mem_iff.mp hentry)
  have hkeys : (keysOf group.residualAfterNetting).Nodup := by
    rw [hread.residual]
    exact nodup_keys_residualAfterNettingAt _
  obtain ⟨hresidual, hresidualLe⟩ := hmembers.leftOver hsub hkeys
  obtain ⟨hleftOver, -⟩ := hmembers.leftOver filter_sublist.subset
    ((nodup_keys_sumVectorsAt (members.map ResidualVector.vector)).sublist
      (filter_sublist.map Prod.fst))
  have hgrossExact : addAll DECIMAL_PRECISION 0 (members.map grossAbsSize) =
      (members.map grossAbsSize).sum := by
    refine addAll_eq_of_le (fun size hsize => ?_) (fun size hsize => ?_) hnet.fits htotal.le
    · obtain ⟨vector, hvector, rfl⟩ := mem_map.mp hsize
      exact hgrid vector (hread.perm.mem_iff.mp hvector)
    · obtain ⟨vector, hvector, rfl⟩ := mem_map.mp hsize
      obtain ⟨combo, -, hbuild⟩ := mem_of_mapM hvectors
        (mem_of_mem_filter (hread.perm.mem_iff.mp hvector))
      exact ((builtAt_of_ok hbuild).gross_pos hprecision).le
  have hpostExact : score.postNetAbsResidual = absSize group.residualAfterNetting := by
    have habs := (hperm.map fun entry => |entry.2|).sum_eq
    rw [hpost, hleftOver]
    exact habs.symm
  refine ⟨hbounds.2 ?_, hpostExact, ?_⟩
  · rw [hresidual, hgrossExact, htotal]
    exact hresidualLe.trans hmembers.le
  · rw [hcompression, hpostExact, hmembers.held]
    exact toSignificant_nonneg hprecision (sub_nonneg.mpr hresidualLe)

end GroupScores

/-- **The scores.** Of the vectors of some combos: who is joined by an edge, that no gross size is
zero, what the scores of the edges are within, and those of every group that is enumerated. -/
theorem overlapScores {combos : List LoadedCombo} {vectors : List ResidualVector}
    {graph : OverlapGraph}
    (hvectors : combos.mapM (buildResidualVectorAt DECIMAL_PRECISION) = .ok vectors)
    (hgraph : buildGraphAt DECIMAL_PRECISION localeCompare vectors = .ok graph) :
    (∀ left ∈ vectors, ∀ right ∈ vectors, left.entityId ≠ right.entityId →
      (Adjacent graph left.entityId right.entityId ↔
        ∃ key, entryOf left.vector key * entryOf right.vector key < 0)) ∧
    (∀ vector ∈ vectors, 0 < vector.grossAbsSize) ∧ (∀ edge ∈ graph.edges, EdgeScored combos edge) ∧
    ∀ config groups, enumerateAt DECIMAL_PRECISION localeCompare graph config = .ok groups →
      ∀ group ∈ groups, ∃ score, scoreGroupAt DECIMAL_PRECISION group
        (vectorsAmong vectors group.participantIds) = .ok score ∧
          GroupScored combos group score := by
  have hgross : ∀ vector ∈ vectors, 0 < vector.grossAbsSize := by
    intro vector hvector
    obtain ⟨combo, -, hbuild⟩ := mem_of_mapM hvectors hvector
    exact (builtAt_of_ok hbuild).gross_pos (by decide)
  exact ⟨fun left hleft right hright _ => adjacent_iff hgraph hleft hright, hgross,
    fun edge hedge => edgeScored hvectors hgraph hedge,
    fun config groups hgroups group hgroup => groupScored hvectors hgraph hgroups hgroup⟩

/-! ## Sizes that do not fit -/

def openLeg (outcome : String) (side : Side) (size : ℚ) : LegRow where
  id := outcome
  combo_rfq_id := "combo"
  canonical_market_id := "m"
  canonical_outcome_id := outcome
  side
  size
  remaining_size := size
  price_hint := none
  metadata := some ⟨none, "universe", "expiry", "settlement", "rule"⟩

def comboWith (id : String) (legs : List LegRow) : LoadedCombo := ⟨⟨id, id, .OPEN, 0⟩, legs⟩

def vectorsOf (combos : List LoadedCombo) : List ResidualVector :=
  (combos.mapM (buildResidualVectorAt DECIMAL_PRECISION)).toOption.getD []

def opposedPair : List LoadedCombo :=
  [comboWith "a" [openLeg "x" .buy 3], comboWith "b" [openLeg "x" .sell 2]]

/-- The scores of two combos of a single opposed outcome. -/
theorem overlapScores_pair : (∀ left ∈ vectorsOf opposedPair, ∀ right ∈ vectorsOf opposedPair,
      left.entityId ≠ right.entityId →
        (Adjacent (graphOf compare (vectorsOf opposedPair)) left.entityId right.entityId ↔
          ∃ key, entryOf left.vector key * entryOf right.vector key < 0)) ∧
    (∀ vector ∈ vectorsOf opposedPair, 0 < vector.grossAbsSize) ∧
    (∀ edge ∈ (graphOf compare (vectorsOf opposedPair)).edges, EdgeScored opposedPair edge) ∧
    ∀ config groups, enumerateAt DECIMAL_PRECISION compare
        (graphOf compare (vectorsOf opposedPair)) config = .ok groups →
      ∀ group ∈ groups, ∃ score, scoreGroupAt DECIMAL_PRECISION group
        (vectorsAmong (vectorsOf opposedPair) group.participantIds) = .ok score ∧
          GroupScored opposedPair group score :=
  overlapScores (show _ = Except.ok (vectorsOf opposedPair) by decide +kernel)
    (show _ = Except.ok (graphOf compare (vectorsOf opposedPair)) by decide +kernel)

/-- **Out of bounds.** The small legs of the first two combos are lost in their gross sizes and
not in their potential, which is more than the whole; those of the other two are lost in what
there was before netting and not in what is left. -/
theorem scores_out_of_bounds : (∃ edge ∈ (graphOf compare (vectorsOf
        [comboWith "a" [openLeg "z" .buy (10 ^ 20), openLeg "x" .buy 4, openLeg "y" .buy 4],
          comboWith "b" [openLeg "z" .sell (10 ^ 20), openLeg "x" .sell 4,
            openLeg "y" .sell 4]])).edges, 1 < edge.partialOverlapScore) ∧
    ∃ group ∈ groupsOf compare DEFAULT_ENUMERATOR_CONFIG (vectorsOf
        [comboWith "a" [openLeg "x" .buy 4, openLeg "y" .buy (10 ^ 20), openLeg "z" .buy 1],
          comboWith "b" [openLeg "x" .buy 3, openLeg "z" .sell 1]]),
      group.estimatedCompressionScore < 0 ∧
        ∃ score ∈ (scoreGroupAt DECIMAL_PRECISION group (vectorsOf
          [comboWith "a" [openLeg "x" .buy 4, openLeg "y" .buy (10 ^ 20), openLeg "z" .buy 1],
            comboWith "b" [openLeg "x" .buy 3, openLeg "z" .sell 1]])).toOption,
          score.compressionScore < 0 := by
  decide +kernel

end LotusRfq.Combo
