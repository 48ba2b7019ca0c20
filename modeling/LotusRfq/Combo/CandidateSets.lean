import LotusRfq.Combo.EnumeratedOnce
import LotusRfq.Combo.GroupResiduals

/-!
# LotusRfq — the candidate groups as sets of members

Read as sets, the candidate groups are the connected sets of two members or more that are within
the limits and hold no two combos of one user on opposite sides of an outcome. Each is enumerated
once. A mode without self-trade prevention admits the last kind too.

* **`enumerateAt_ok`** — the enumeration answers;
* **`enumerateAt_exactly`** — with each such set, once, and nothing else.
-/

namespace LotusRfq.Combo

open Tables Growth Decimals List
open OverlapGraphNode (entityId)

variable {locale : String → String → Ordering} {precision : ℕ}

/-- A graph over some combos: the nodes are of one bucket and have distinct ids, their vectors
are records, no gross size is negative, and the edges join nodes. -/
structure OverCombos (graph : OverlapGraph) : Prop where
  nonempty : graph.nodes ≠ []
  bucket : ∃ bucket, bucket ≠ "" ∧ ∀ node ∈ graph.nodes, node.compatibilityBucket = bucket
  nodup : (graph.nodes.map entityId).Nodup
  keys : ∀ node ∈ graph.nodes, (keysOf node.vector).Nodup
  gross : ∀ node ∈ graph.nodes, 0 ≤ node.grossAbsSize
  ends : ∀ edge ∈ graph.edges, edge.fromId ∈ graph.nodes.map entityId ∧
    edge.toId ∈ graph.nodes.map entityId

theorem overCombos_of_buildGraphAt {vectors : List ResidualVector} {graph : OverlapGraph}
    (h : buildGraphAt precision locale vectors = .ok graph)
    (hkeys : ∀ vector ∈ vectors, (keysOf vector.vector).Nodup)
    (hgross : ∀ vector ∈ vectors, 0 ≤ vector.grossAbsSize) : OverCombos graph := by
  obtain ⟨hne, hnodes, hnodup, ⟨bucket, hbucket, hall⟩, edges, hedges, hperm⟩ := buildGraphAt_ok h
  have hvector : ∀ node ∈ graph.nodes, ∃ vector ∈ vectors, toNode vector = node := by
    intro node hnode
    rw [hnodes] at hnode
    exact mem_map.mp hnode
  refine ⟨?_, ⟨bucket, hbucket, ?_⟩, ?_, ?_, ?_, ?_⟩
  · rw [hnodes]
    simpa using hne
  · intro node hnode
    obtain ⟨vector, hmem, rfl⟩ := hvector node hnode
    exact hall vector hmem
  · rw [hnodes, map_map]
    exact hnodup
  · intro node hnode
    obtain ⟨vector, hmem, rfl⟩ := hvector node hnode
    exact hkeys vector hmem
  · intro node hnode
    obtain ⟨vector, hmem, rfl⟩ := hvector node hnode
    exact hgross vector hmem
  · intro edge hedge
    obtain ⟨left, right, hsub, hbuild⟩ := (mem_buildEdgesAt hedges).mp (hperm.mem_iff.mp hedge)
    have hleft := mem_map_of_mem (f := entityId) (hsub.subset mem_cons_self)
    have hright := mem_map_of_mem (f := entityId) (hsub.subset (mem_cons_of_mem _ mem_cons_self))
    rcases buildEdgeAt_ends hbuild with ⟨hfrom, hto⟩ | ⟨hfrom, hto⟩
    · exact ⟨hfrom ▸ hleft, hto ▸ hright⟩
    · exact ⟨hfrom ▸ hright, hto ▸ hleft⟩

structure PlainIds (localeCompare : String → String → Ordering) (graph : OverlapGraph) :
    Prop where
  apart : ToldApart localeCompare (graph.nodes.map entityId)
  noSeparator : ∀ id ∈ graph.nodes.map entityId, '|' ∉ id.toList

/-! ## The enumeration answers -/

section Answers

variable {graph : OverlapGraph} {config : CandidateGroupEnumeratorConfig}

theorem OverCombos.adjacent (hgraph : OverCombos graph) {left right : String}
    (h : Adjacent graph left right) : left ∈ graph.nodes.map entityId ∧
      right ∈ graph.nodes.map entityId := by
  obtain ⟨edge, hedge, ⟨rfl, rfl⟩ | ⟨rfl, rfl⟩⟩ := h
  · exact hgraph.ends edge hedge
  · exact (hgraph.ends edge hedge).symm

theorem validateGraph_ok (hgraph : OverCombos graph) : validateGraph graph = .ok () := by
  obtain ⟨bucket, hbucket, hall⟩ := hgraph.bucket
  obtain ⟨node, rest, hcons⟩ := exists_cons_of_ne_nil hgraph.nonempty
  have hhead : (graph.nodes.head?.map OverlapGraphNode.compatibilityBucket).getD "" = bucket := by
    rw [hcons]
    exact hall node (hcons ▸ mem_cons_self)
  have hsame : ¬ ∃ node ∈ graph.nodes, node.compatibilityBucket ≠ bucket := by
    rintro ⟨other, hother, hne⟩
    exact hne (hall other hother)
  unfold validateGraph
  simp only [hhead]
  rw [if_neg hgraph.nonempty, if_neg hbucket, if_neg hsame, if_neg (not_not.mpr hgraph.nodup)]

theorem sortedNodesOf_perm : (sortedNodesOf locale graph).Perm graph.nodes := Js.sortWith_perm _ _

theorem mem_ids_sortedNodesOf {id : String} :
    id ∈ (sortedNodesOf locale graph).map entityId ↔ id ∈ graph.nodes.map entityId :=
  (sortedNodesOf_perm.map entityId).mem_iff

theorem nodup_sortedNodesOf (hgraph : OverCombos graph) :
    ((sortedNodesOf locale graph).map entityId).Nodup :=
  (sortedNodesOf_perm.map entityId).nodup_iff.mpr hgraph.nodup

theorem Grown.nodes (hgraph : OverCombos graph) {rootId : String} {room : ℕ}
    {current ids : List String} (h : Grown locale graph rootId room current ids)
    (hcurrent : current ⊆ graph.nodes.map entityId) : ids ⊆ graph.nodes.map entityId := by
  induction h
  next room current => exact fun id hid => hcurrent (Js.mem_sortWith.mp hid)
  next neighborId hneighbor _ ih =>
    apply ih
    intro id hid
    rcases mem_append.mp hid with hold | hlast
    · exact hcurrent (Js.mem_sortWith.mp hold)
    · obtain ⟨⟨other, -, hadjacent⟩, -⟩ := mem_frontierOf.mp hneighbor
      rw [mem_singleton.mp hlast]
      exact (hgraph.adjacent hadjacent).2

/-- The ids `tryBuildGroup` is called with are ids of nodes. -/
def ProperIds (graph : OverlapGraph) (ids : List String) : Prop :=
  ids ≠ [] ∧ ids ⊆ graph.nodes.map entityId

theorem tryBuildGroupAt_nodes (hgraph : OverCombos graph) {ids : List String}
    (hin : ids ⊆ graph.nodes.map entityId) :
    (Permitted locale (sortedNodesOf locale graph) config ids ∧ ∃ group,
        tryBuildGroupAt precision locale (sortedNodesOf locale graph) config ids =
          .ok (some group)) ∨
      ¬ Permitted locale (sortedNodesOf locale graph) config ids ∧
        tryBuildGroupAt precision locale (sortedNodesOf locale graph) config ids = .ok none := by
  refine tryBuildGroupAt_cases (fun id hid => mem_ids_sortedNodesOf.mpr (hin hid)) ?_
  intro node hnode
  have hmem := ((mem_groupNodes (nodup_sortedNodesOf hgraph)).mp hnode).1
  exact hgraph.gross node (sortedNodesOf_perm.mem_iff.mp hmem)

theorem builds_tryBuildGroupAt (hgraph : OverCombos graph) (hids : PlainIds locale graph) :
    Builds (tryBuildGroupAt precision locale (sortedNodesOf locale graph) config)
      (ProperIds graph) := by
  refine ⟨fun ids hproper => ?_, fun ids group hbuild => (tryBuildGroupAt_some hbuild).1,
    fun ids others hproper hproper' hsignature => ?_⟩
  · rcases tryBuildGroupAt_nodes hgraph hproper.2 with ⟨-, group, hsome⟩ | ⟨-, hnone⟩
    · exact ⟨some group, hsome⟩
    · exact ⟨none, hnone⟩
  · exact signatureOf_injective hproper.1 hproper'.1
      (fun id hid => hids.noSeparator id (hproper.2 hid))
      (fun id hid => hids.noSeparator id (hproper'.2 hid)) hsignature

theorem Grown.ne_nil {rootId : String} {room : ℕ} {current ids : List String}
    (h : Grown locale graph rootId room current ids) (hcurrent : current ≠ []) : ids ≠ [] := by
  have hsorted : ∀ others : List String, others ≠ [] → Js.sortWith locale others ≠ [] := by
    intro others hne hnil
    have hlength := (Js.sortWith_perm locale others).length_eq
    rw [hnil] at hlength
    exact hne (length_eq_zero_iff.mp hlength.symm)
  induction h
  next room current => exact hsorted current hcurrent
  next neighborId _ _ ih => exact ih (by simp)

/-- **The enumeration answers** with what is grown from the nodes and built, each once. -/
theorem enumerateAt_ok (hgraph : OverCombos graph) (hids : PlainIds locale graph)
    (hparticipants : 0 < config.maxParticipants) (hlegs : 0 < config.maxUniqueLegs) :
    ∃ groups, enumerateAt precision locale graph config = .ok groups ∧
      (groups.map CandidateGroup.participantIds).Nodup ∧
      ∀ group, group ∈ groups ↔ ∃ node ∈ graph.nodes, ∃ ids,
        Grown locale graph node.entityId (config.maxParticipants - 1) [node.entityId] ids ∧
          tryBuildGroupAt precision locale (sortedNodesOf locale graph) config ids =
            .ok (some group) := by
  have hbuilds := @builds_tryBuildGroupAt locale precision graph config hgraph hids
  have hproper : ∀ node ∈ sortedNodesOf locale graph, ∀ ids,
      Grown locale graph node.entityId (config.maxParticipants - 1) [node.entityId] ids →
        ProperIds graph ids := by
    intro node hnode ids hgrown
    refine ⟨hgrown.ne_nil (cons_ne_nil _ _), hgrown.nodes hgraph fun id hid => ?_⟩
    rw [mem_singleton.mp hid]
    exact mem_map_of_mem (sortedNodesOf_perm.mem_iff.mp hnode)
  obtain ⟨found, hfound, hemitted, hmem⟩ :=
    Adds.foldlM (fun node hnode => Adds.expand hbuilds (hproper node hnode)) []
      ⟨fun group hgroup => absurd hgroup not_mem_nil,
        fun group hgroup => absurd hgroup not_mem_nil, nodup_nil⟩
  have hperm := Js.sortWith_perm (compareGroups locale) found
  refine ⟨Js.sortWith (compareGroups locale) found, ?_, ?_, fun group => ?_⟩
  · unfold enumerateAt
    rw [validateGraph_ok hgraph, if_neg (by omega), if_neg (by omega)]
    simp only [bind, Except.bind, pure, Except.pure] at hfound ⊢
    rw [hfound]
  · exact (hperm.map CandidateGroup.participantIds).nodup_iff.mpr hemitted.nodup
  · rw [Js.mem_sortWith, hmem group]
    simp only [not_mem_nil, false_or]
    refine exists_congr fun node => and_congr_left fun _ => ?_
    exact sortedNodesOf_perm.mem_iff

end Answers

/-! ## Sets of members -/

def nodesAmong (graph : OverlapGraph) (members : Finset String) : List OverlapGraphNode :=
  graph.nodes.filter fun node => node.entityId ∈ members

def memberKeys (graph : OverlapGraph) (members : Finset String) : Finset String :=
  ((nodesAmong graph members).flatMap fun node => keysOf node.vector).toFinset

/-- Two members are combos of one user that hold an outcome with opposite signs. -/
def SelfTrading (graph : OverlapGraph) (members : Finset String) : Prop :=
  ∃ left ∈ nodesAmong graph members, ∃ right ∈ nodesAmong graph members,
    left.userId = right.userId ∧ left.entityId ≠ right.entityId ∧
      ∃ key, 0 < entryOf left.vector key ∧ entryOf right.vector key < 0

/-- A set of members that may be cleared together. -/
structure Clearable (graph : OverlapGraph) (config : CandidateGroupEnumeratorConfig)
    (members : Finset String) : Prop where
  two : 2 ≤ members.card
  most : members.card ≤ config.maxParticipants
  connected : ConnectedOn (Adjacent graph) members
  legs : (memberKeys graph members).card ≤ config.maxUniqueLegs
  stp : config.stpMode ≠ .NONE → ¬ SelfTrading graph members

def memberSizes (graph : OverlapGraph) (members : Finset String) (key : String) : List ℚ :=
  (nodesAmong graph members).map fun node => entryOf node.vector key

/-- A residual holds outcomes once, none with nothing left, and of each outcome whose sizes fit
the sum over the members. -/
structure NetsTo (precision : ℕ) (graph : OverlapGraph) (members : Finset String)
    (residual : SizeVector) : Prop where
  keys : (keysOf residual).Nodup
  nonzero : ∀ entry ∈ residual, entry.2 ≠ 0
  sum : ∀ key places, EntriesFit precision places (memberSizes graph members key) →
    entryOf residual key = (memberSizes graph members key).sum

section Sets

variable {graph : OverlapGraph} {config : CandidateGroupEnumeratorConfig}

theorem Clearable.nodes (hgraph : OverCombos graph) {members : Finset String}
    (h : Clearable graph config members) {id : String} (hid : id ∈ members) :
    id ∈ graph.nodes.map entityId := by
  obtain ⟨other, hother, hne⟩ := Finset.exists_mem_ne h.two id
  rcases Relation.ReflTransGen.cases_head (h.connected.path id hid other hother) with
    heq | ⟨next, hstep, -⟩
  · exact absurd heq.symm hne
  · exact (hgraph.adjacent hstep.2.2).1

theorem groupNodes_perm_nodesAmong (hgraph : OverCombos graph) {ids : List String}
    (hnodup : ids.Nodup) (hin : ids ⊆ graph.nodes.map entityId) :
    (groupNodes (sortedNodesOf locale graph) ids).Perm (nodesAmong graph ids.toFinset) := by
  have hperm := groupNodes_perm (@nodup_sortedNodesOf locale _ hgraph) hnodup
    fun id hid => mem_ids_sortedNodesOf.mpr (hin hid)
  refine hperm.trans ((sortedNodesOf_perm.filter _).trans (List.Perm.of_eq ?_))
  exact filter_congr fun node _ => by simp

theorem length_uniqueLegsOf {nodes others : List OverlapGraphNode} (hperm : nodes.Perm others) :
    (uniqueLegsOf locale nodes).length =
      (others.flatMap fun node => keysOf node.vector).toFinset.card := by
  have hnodup : (uniqueLegsOf locale nodes).Nodup :=
    (Js.sortWith_perm _ _).nodup_iff.mpr (OrderedMap.nodup_foldl_addNew _ nodup_nil)
  rw [← toFinset_card_of_nodup hnodup]
  congr 1
  ext key
  rw [mem_toFinset, mem_toFinset, mem_uniqueLegsOf, mem_flatMap]
  exact exists_congr fun node => and_congr_left fun _ => hperm.mem_iff

theorem hasForbiddenSelfTrade_iff (hgraph : OverCombos graph) {nodes : List OverlapGraphNode}
    {members : Finset String} (hperm : nodes.Perm (nodesAmong graph members)) :
    hasForbiddenSelfTrade nodes = true ↔ SelfTrading graph members := by
  have hkeys : ∀ node ∈ nodes, (keysOf node.vector).Nodup := fun node hnode =>
    hgraph.keys node (mem_of_mem_filter (hperm.mem_iff.mp hnode))
  -- in a record the entry of an outcome is the one that is there
  have hpair : ∀ left ∈ nodes, ∀ right ∈ nodes, (∃ bought ∈ left.vector, ∃ sold ∈ right.vector,
        bought.1 = sold.1 ∧ 0 < bought.2 ∧ sold.2 < 0) ↔
        ∃ key, 0 < entryOf left.vector key ∧ entryOf right.vector key < 0 := by
    intro left hleft right hright
    constructor
    · rintro ⟨⟨key, bought⟩, hbought, ⟨key', sold⟩, hsold, hkey, hpos, hneg⟩
      refine ⟨key, ?_, ?_⟩
      · rw [entryOf_of_mem (hkeys left hleft) hbought]
        exact hpos
      · rw [show key = key' from hkey, entryOf_of_mem (hkeys right hright) hsold]
        exact hneg
    · rintro ⟨key, hpos, hneg⟩
      have hleftKey : key ∈ keysOf left.vector :=
        by_contra fun hnot => absurd (entryOf_eq_zero hnot) hpos.ne'
      have hrightKey : key ∈ keysOf right.vector :=
        by_contra fun hnot => absurd (entryOf_eq_zero hnot) hneg.ne
      obtain ⟨⟨k, bought⟩, hbought, rfl⟩ := mem_map.mp hleftKey
      obtain ⟨⟨k', sold⟩, hsold, hkey⟩ := mem_map.mp hrightKey
      subst hkey
      rw [entryOf_of_mem (hkeys left hleft) hbought] at hpos
      rw [entryOf_of_mem (hkeys right hright) hsold] at hneg
      exact ⟨_, hbought, _, hsold, rfl, hpos, hneg⟩
  rw [hasForbiddenSelfTrade, decide_eq_true_eq]
  constructor
  · rintro ⟨left, hleft, right, hright, huser, hne, htrade⟩
    exact ⟨left, hperm.mem_iff.mp hleft, right, hperm.mem_iff.mp hright, huser, hne,
      (hpair left hleft right hright).mp htrade⟩
  · rintro ⟨left, hleft, right, hright, huser, hne, htrade⟩
    have hleft' := hperm.mem_iff.mpr hleft
    have hright' := hperm.mem_iff.mpr hright
    exact ⟨left, hleft', right, hright', huser, hne, (hpair left hleft' right hright').mpr htrade⟩

section

variable {ids : List String} (hgraph : OverCombos graph)

include hgraph

theorem permitted_iff (hnodup : ids.Nodup) (hin : ids ⊆ graph.nodes.map entityId) :
    Permitted locale (sortedNodesOf locale graph) config ids ↔
      2 ≤ ids.toFinset.card ∧ (memberKeys graph ids.toFinset).card ≤ config.maxUniqueLegs ∧
        (config.stpMode ≠ .NONE → ¬ SelfTrading graph ids.toFinset) := by
  have hperm := @groupNodes_perm_nodesAmong locale _ hgraph _ hnodup hin
  have hlegs := @length_uniqueLegsOf locale _ _ hperm
  have htrade := hasForbiddenSelfTrade_iff hgraph hperm
  rw [toFinset_card_of_nodup hnodup]
  constructor
  · intro hpermitted
    refine ⟨hpermitted.two, ?_, fun hmode htrading => ?_⟩
    · show (memberKeys graph ids.toFinset).card ≤ _
      rw [memberKeys, ← hlegs]
      exact hpermitted.legs
    · have hfalse := hpermitted.stp hmode
      rw [htrade.mpr htrading] at hfalse
      cases hfalse
  · rintro ⟨htwo, hfew, hstp⟩
    refine ⟨htwo, ?_, fun hmode => ?_⟩
    · rw [hlegs]
      exact hfew
    · rw [Bool.eq_false_iff, Ne, htrade]
      exact hstp hmode

theorem permitted_of_built (hin : ids ⊆ graph.nodes.map entityId) {group : CandidateGroup}
    (hbuild : tryBuildGroupAt precision locale (sortedNodesOf locale graph) config
      ids = .ok (some group)) : Permitted locale (sortedNodesOf locale graph) config ids := by
  rcases @tryBuildGroupAt_nodes locale precision graph config hgraph ids hin with
    ⟨hpermitted, -⟩ | ⟨-, hnone⟩
  · exact hpermitted
  · rw [hnone] at hbuild
    cases hbuild

theorem built_of_permitted (hin : ids ⊆ graph.nodes.map entityId)
    (hpermitted : Permitted locale (sortedNodesOf locale graph) config ids) :
    ∃ group, tryBuildGroupAt precision locale (sortedNodesOf locale graph) config
      ids = .ok (some group) := by
  rcases @tryBuildGroupAt_nodes locale precision graph config hgraph ids hin with
    ⟨-, hbuild⟩ | ⟨hnot, -⟩
  · exact hbuild
  · exact absurd hpermitted hnot

theorem netsTo_of_built (hnodup : ids.Nodup)
    (hin : ids ⊆ graph.nodes.map entityId) {group : CandidateGroup}
    (hbuild : tryBuildGroupAt precision locale (sortedNodesOf locale graph) config
      ids = .ok (some group)) : NetsTo precision graph ids.toFinset group.residualAfterNetting := by
  obtain ⟨-, members, hmembers, -, hresidual, -⟩ := tryBuildGroupAt_some hbuild
  rw [mapM_findNode fun id hid => mem_ids_sortedNodesOf.mpr (hin hid)] at hmembers
  cases hmembers
  rw [hresidual]
  have hperm := @groupNodes_perm_nodesAmong locale _ hgraph _ hnodup hin
  refine ⟨nodup_keys_residualAfterNettingAt _,
    fun entry hentry => ((mem_residualAfterNettingAt _).mp hentry).2, fun key places hfit => ?_⟩
  have hsizes : (memberSizes graph ids.toFinset key).Perm
      (((groupNodes (sortedNodesOf locale graph) ids).map OverlapGraphNode.vector).map
        fun vector => entryOf vector key) := by
    rw [map_map]
    exact (hperm.map fun node => entryOf node.vector key).symm
  have hkeys : ∀ vector ∈ (groupNodes (sortedNodesOf locale graph) ids).map
      OverlapGraphNode.vector, (keysOf vector).Nodup := by
    intro vector hvector
    obtain ⟨node, hnode, rfl⟩ := mem_map.mp hvector
    exact hgraph.keys node (mem_of_mem_filter (hperm.mem_iff.mp hnode))
  rw [entryOf_residualAfterNettingAt, entryOf_sumVectorsAt_eq hkeys (hfit.of_perm hsizes),
    hsizes.sum_eq]

end

/-- **The enumeration is exact.** Where the ids are plain, every set of members that may be
cleared is enumerated, once, and nothing else is. -/
theorem enumerateAt_exactly [Std.TransCmp localeCompare] (hgraph : OverCombos graph)
    (hids : PlainIds localeCompare graph) (hparticipants : 0 < config.maxParticipants)
    (hlegs : 0 < config.maxUniqueLegs) :
    ∃ groups, enumerateAt DECIMAL_PRECISION localeCompare graph config = .ok groups ∧
      (groups.map fun group => group.participantIds.toFinset).Nodup ∧
      (∀ members, (∃ group ∈ groups, group.participantIds.toFinset = members) ↔
        Clearable graph config members) ∧
      ∀ group ∈ groups, group.participantIds.Nodup ∧
        NetsTo DECIMAL_PRECISION graph group.participantIds.toFinset
          group.residualAfterNetting := by
  obtain ⟨groups, hgroups, hnodup, hmem⟩ :=
    @enumerateAt_ok localeCompare DECIMAL_PRECISION graph config hgraph hids hparticipants hlegs
  -- what is known of the ids of a group
  have hgrown : ∀ group ∈ groups, (∃ rootId, GrownFrom localeCompare graph rootId [rootId]
      group.participantIds) ∧ group.participantIds.length ≤ config.maxParticipants ∧
      group.participantIds ⊆ graph.nodes.map entityId ∧
      tryBuildGroupAt DECIMAL_PRECISION localeCompare (sortedNodesOf localeCompare graph) config
        group.participantIds = .ok (some group) := by
    intro group hgroup
    obtain ⟨node, hnode, ids, hgrown, hbuild⟩ := (hmem group).mp hgroup
    have hroot : [node.entityId] ⊆ graph.nodes.map entityId := by
      intro id hid
      rw [mem_singleton.mp hid]
      exact mem_map_of_mem hnode
    have hnodes := hgrown.nodes hgraph hroot
    have hself : localeCompare node.entityId node.entityId = .eq := Std.ReflCmp.compare_self
    obtain ⟨hfrom, hlength⟩ := hgrown.from (nodup_singleton _) (.singleton _) fun id hid => by
      rw [mem_singleton.mp hid, hself]
      decide
    rw [(tryBuildGroupAt_some hbuild).1]
    rw [length_singleton] at hlength
    exact ⟨⟨node.entityId, hfrom⟩, by omega, hnodes, hbuild⟩
  refine ⟨groups, hgroups, ?_, fun members => ⟨?_, ?_⟩, fun group hgroup => ?_⟩
  · refine List.Nodup.map_on ?_ hnodup.of_map
    intro left hleft right hright hset
    obtain ⟨⟨_, hfromL⟩, -, hnodesL, hbuildL⟩ := hgrown left hleft
    obtain ⟨⟨_, hfromR⟩, -, -, hbuildR⟩ := hgrown right hright
    -- sorted ids of one set are one list
    have hperm : left.participantIds.Perm right.participantIds :=
      (perm_ext_iff_of_nodup hfromL.nodup hfromR.nodup).mpr fun id => by
        rw [← mem_toFinset, hset, mem_toFinset]
    have hsame : left.participantIds = right.participantIds := by
      rw [hfromL.eq_sorted (hids.apart.mono hnodesL), hfromR.eq_sorted (hids.apart.mono
        fun id hid => hnodesL (hperm.mem_iff.mpr hid))]
      exact sortWith_eq_of_perm_ids (hids.apart.mono hnodesL) hperm
    rw [hsame, hbuildR, Except.ok.injEq, Option.some.injEq] at hbuildL
    exact hbuildL.symm
  · rintro ⟨group, hgroup, rfl⟩
    obtain ⟨⟨_, hfrom⟩, hlength, hnodes, hbuild⟩ := hgrown group hgroup
    have hpermitted := permitted_of_built hgraph hnodes hbuild
    obtain ⟨htwo, hfew, hstp⟩ := (permitted_iff hgraph hfrom.nodup hnodes).mp hpermitted
    refine ⟨htwo, ?_, hfrom.connected, hfew, hstp⟩
    rwa [toFinset_card_of_nodup hfrom.nodup]
  · intro hclearable
    have hset : members.toList.toFinset = members := Finset.toList_toFinset members
    have hin : members.toList ⊆ graph.nodes.map entityId := fun id hid =>
      hclearable.nodes hgraph (Finset.mem_toList.mp hid)
    have hlength : members.toList.length ≤ config.maxParticipants := by
      rw [Finset.length_toList]
      exact hclearable.most
    obtain ⟨rootId, hroot, hgrows⟩ := @exists_root localeCompare _ graph
      (config.maxParticipants - 1) _ (hids.apart.mono hin) members.nodup_toList
      (by rw [hset]; exact hclearable.connected) (by omega)
    have hperm := Js.sortWith_perm localeCompare members.toList
    have hsortedSet : (Js.sortWith localeCompare members.toList).toFinset = members := by
      rw [toFinset_eq_of_perm _ _ hperm, hset]
    have hsortedIn : Js.sortWith localeCompare members.toList ⊆
        graph.nodes.map entityId := fun id hid => hin (Js.mem_sortWith.mp hid)
    have hpermitted : Permitted localeCompare (sortedNodesOf localeCompare graph) config
        (Js.sortWith localeCompare members.toList) := by
      refine (permitted_iff hgraph (hperm.nodup_iff.mpr members.nodup_toList) hsortedIn).mpr ?_
      rw [hsortedSet]
      exact ⟨hclearable.two, hclearable.legs, hclearable.stp⟩
    obtain ⟨group, hbuild⟩ := built_of_permitted hgraph hsortedIn hpermitted
    obtain ⟨node, hnode, hid⟩ := mem_map.mp (hin hroot)
    refine ⟨group, (hmem group).mpr ⟨node, hnode, _, ?_, hbuild⟩, ?_⟩
    · rw [hid]
      exact hgrows
    · rw [(tryBuildGroupAt_some hbuild).1, hsortedSet]
  · obtain ⟨⟨_, hfrom⟩, -, hnodes, hbuild⟩ := hgrown group hgroup
    exact ⟨hfrom.nodup, netsTo_of_built hgraph hfrom.nodup hnodes hbuild⟩

end Sets

/-! ## What the limits of the statement are -/

def vectorOn (entityId userId : String) (size : ℚ) : ResidualVector :=
  { entityId := entityId
    userId := userId
    compatibilityBucket := "a|b|c|d"
    vector := [("m:x", size)]
    legCount := 1
    grossAbsSize := |size|
    resolutionProfileId := none
    createdAt := 0 }

def graphOf (localeCompare : String → String → Ordering) (vectors : List ResidualVector) :
    OverlapGraph :=
  (buildGraphAt DECIMAL_PRECISION localeCompare vectors).toOption.getD ⟨[], []⟩

def groupsOf (localeCompare : String → String → Ordering)
    (config : CandidateGroupEnumeratorConfig) (vectors : List ResidualVector) :
    List CandidateGroup :=
  (enumerateAt DECIMAL_PRECISION localeCompare (graphOf localeCompare vectors)
    config).toOption.getD []

/-- An order that does not tell a letter with an accent from the letter and the accent. -/
def composing (left right : String) : Ordering :=
  let composed := fun id : String => if id = "e\u0301" then "é" else id
  compare (composed left) (composed right)

/-- Two combos against each other. -/
theorem exactly_two_opposed : ∃ groups, enumerateAt DECIMAL_PRECISION compare
        (graphOf compare [vectorOn "a" "u" 1, vectorOn "b" "v" (-1)]) DEFAULT_ENUMERATOR_CONFIG =
          .ok groups ∧
      (groups.map fun group => group.participantIds.toFinset).Nodup ∧
      (∀ members, (∃ group ∈ groups, group.participantIds.toFinset = members) ↔
        Clearable (graphOf compare [vectorOn "a" "u" 1, vectorOn "b" "v" (-1)])
          DEFAULT_ENUMERATOR_CONFIG members) ∧
      ∀ group ∈ groups, group.participantIds.Nodup ∧
        NetsTo DECIMAL_PRECISION (graphOf compare [vectorOn "a" "u" 1, vectorOn "b" "v" (-1)])
          group.participantIds.toFinset group.residualAfterNetting := by
  have hbuild : buildGraphAt DECIMAL_PRECISION compare [vectorOn "a" "u" 1, vectorOn "b" "v" (-1)] =
        .ok (graphOf compare [vectorOn "a" "u" 1, vectorOn "b" "v" (-1)]) := by decide +kernel
  have hgraph := overCombos_of_buildGraphAt hbuild
    (show ∀ vector ∈ [vectorOn "a" "u" 1, vectorOn "b" "v" (-1)], (keysOf vector.vector).Nodup by
      decide +kernel)
    (show ∀ vector ∈ [vectorOn "a" "u" 1, vectorOn "b" "v" (-1)], 0 ≤ vector.grossAbsSize by
      decide +kernel)
  exact enumerateAt_exactly hgraph
    ⟨fun left _ right _ heq => Std.LawfulEqCmp.compare_eq_iff_eq.mp heq, by decide +kernel⟩ (by decide) (by decide)

/-- **The limits.** Without self-trade prevention a group holds opposed combos of one user; sums
are kept to twenty digits; and ids the order does not tell apart are enumerated twice. -/
theorem enumerated_beyond :
    (∃ group ∈ groupsOf compare ⟨4, 6, .NONE⟩ [vectorOn "a" "u" 1, vectorOn "b" "u" (-1)],
      SelfTrading (graphOf compare [vectorOn "a" "u" 1, vectorOn "b" "u" (-1)])
        group.participantIds.toFinset) ∧
    (∃ group ∈ groupsOf compare DEFAULT_ENUMERATOR_CONFIG
        [vectorOn "a" "u" (10 ^ 20), vectorOn "b" "v" 1, vectorOn "c" "w" (-4)],
      entryOf group.residualAfterNetting "m:x" ≠ (memberSizes (graphOf compare
          [vectorOn "a" "u" (10 ^ 20), vectorOn "b" "v" 1, vectorOn "c" "w" (-4)])
            group.participantIds.toFinset "m:x").sum) ∧
    ¬ ((groupsOf composing DEFAULT_ENUMERATOR_CONFIG
        [vectorOn "é" "u" 1, vectorOn "e\u0301" "v" (-1)]).map
          fun group => group.participantIds.toFinset).Nodup := by
  refine ⟨?_, by decide +kernel, by decide +kernel⟩
  have hids : (groupsOf compare ⟨4, 6, .NONE⟩ [vectorOn "a" "u" 1, vectorOn "b" "u" (-1)]).map
      CandidateGroup.participantIds = [["a", "b"]] := by decide +kernel
  obtain ⟨group, hgroup, hparticipants⟩ := mem_map.mp (hids ▸ mem_singleton.mpr rfl)
  refine ⟨group, hgroup, ?_⟩
  rw [hparticipants]
  exact ⟨toNode (vectorOn "a" "u" 1), by decide +kernel, toNode (vectorOn "b" "u" (-1)),
    by decide +kernel, rfl, by decide, "m:x", by decide +kernel, by decide +kernel⟩

end LotusRfq.Combo
