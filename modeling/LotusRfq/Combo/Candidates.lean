import LotusRfq.Combo.Groups

/-!
# LotusRfq — which groups are enumerated

The sets a group can grow to are a relation on ids, the recursion of `expandGroup` with nothing
built. What the enumeration returns is what can be built of them, each once.

* **`mem_enumerate`** — the candidates are the groups that can be grown and built;
* **`scoredGroups_mem`** — what is known of a candidate that was scored;
* **`scoredGroups_unopposed`** — vectors that do not oppose each other have no candidates.
-/

namespace LotusRfq.Combo

open Tables List

variable {locale : String → String → Ordering}

/-! ## Growing -/

/-- From `current` a group can grow to `ids`, by at most `room` members. -/
inductive Grown (localeCompare : String → String → Ordering) (graph : OverlapGraph)
    (rootId : String) : ℕ → List String → List String → Prop where
  | here (room : ℕ) (current : List String) :
      Grown localeCompare graph rootId room current (Js.sortWith localeCompare current)
  | over {room : ℕ} {current ids : List String} (neighborId : String)
      (hneighbor : neighborId ∈
        frontierOf localeCompare graph (Js.sortWith localeCompare current) rootId)
      (hrest : Grown localeCompare graph rootId room
        (Js.sortWith localeCompare current ++ [neighborId]) ids) :
      Grown localeCompare graph rootId (room + 1) current ids

/-- The groups found so far are what is built of their members. -/
def AllBuilt (localeCompare : String → String → Ordering) (nodes : List OverlapGraphNode)
    (config : CandidateGroupEnumeratorConfig) (groups : List CandidateGroup) : Prop :=
  ∀ group ∈ groups,
    tryBuildGroup localeCompare nodes config group.participantIds = .ok (some group)

variable {ids : List String} {groups groups' : List CandidateGroup} {group : CandidateGroup}
  {vectors : List ResidualVector} {nodes : List OverlapGraphNode}
  {config : CandidateGroupEnumeratorConfig}
  {scored : List (CandidateGroup × ClearingCompressionScore)}

section

variable {graph : OverlapGraph} {nodes : List OverlapGraphNode}
  {config : CandidateGroupEnumeratorConfig} {rootId : String}

theorem tryBuildGroup_participantIds
    (h : tryBuildGroup locale nodes config ids = .ok (some group)) :
    group.participantIds = ids ∧ 2 ≤ ids.length := by
  unfold tryBuildGroup at h
  split at h
  next => cases h
  next hlength =>
    obtain ⟨members, -, h⟩ := bind_eq_ok.mp h
    simp only at h
    split at h
    next => cases h
    next =>
      split at h
      next => cases h
      next =>
        split at h
        next => cases h
        next =>
          cases h
          exact ⟨rfl, not_lt.mp hlength⟩

theorem mem_emitGroup (hbuilt : AllBuilt locale nodes config groups)
    (h : emitGroup locale nodes config ids groups = .ok groups') (group : CandidateGroup) :
    group ∈ groups' ↔
      group ∈ groups ∨ tryBuildGroup locale nodes config ids = .ok (some group) := by
  unfold emitGroup at h
  split at h
  next hexists =>
    cases h
    refine ⟨.inl, fun hgroup => hgroup.elim id fun hbuild => ?_⟩
    -- the group that is there was built of the same ids
    obtain ⟨other, hother, hids⟩ := hexists
    have hsame := hbuilt other hother
    rw [hids, hbuild, Except.ok.injEq, Option.some.injEq] at hsame
    exact hsame ▸ hother
  next =>
    cases hbuild : tryBuildGroup locale nodes config ids with
    | error error => simp [hbuild, Except.map] at h
    | ok maybeGroup =>
      rw [hbuild] at h
      cases h
      cases maybeGroup with
      | none => simp
      | some built =>
        simp only [mem_append, mem_singleton, Except.ok.injEq, Option.some.injEq]
        exact or_congr_right eq_comm

theorem AllBuilt.emitGroup (hbuilt : AllBuilt locale nodes config groups)
    (h : Combo.emitGroup locale nodes config ids groups = .ok groups') :
    AllBuilt locale nodes config groups' := by
  intro group hgroup
  rcases (mem_emitGroup hbuilt h group).mp hgroup with hold | hbuild
  · exact hbuilt group hold
  · rwa [(tryBuildGroup_participantIds hbuild).1]

theorem mem_foldlM_groups {α : Type*}
    {f : List CandidateGroup → α → Except String (List CandidateGroup)}
    {adds : α → CandidateGroup → Prop}
    (hstep : ∀ groups item groups', AllBuilt locale nodes config groups → f groups item =
      .ok groups' → AllBuilt locale nodes config groups' ∧ ∀ group, group ∈ groups' ↔ group
      ∈ groups ∨ adds item group) {items : List α} (hbuilt : AllBuilt locale nodes config groups)
    (h : items.foldlM f groups = .ok groups') :
    AllBuilt locale nodes config groups' ∧
      ∀ group, group ∈ groups' ↔ group ∈ groups ∨ ∃ item ∈ items, adds item group := by
  induction items generalizing groups with
  | nil =>
    cases h
    exact ⟨hbuilt, fun group => by simp⟩
  | cons item rest ih =>
    rw [foldlM_cons] at h
    obtain ⟨next, hnext, h⟩ := bind_eq_ok.mp h
    obtain ⟨hbuilt', hmem⟩ := hstep groups item next hbuilt hnext
    obtain ⟨hbuilt'', hmem'⟩ := ih hbuilt' h
    refine ⟨hbuilt'', fun group => ?_⟩
    rw [hmem' group, hmem group, or_assoc]
    simp

theorem mem_expandGroup {room : ℕ} {current : List String}
    (hbuilt : AllBuilt locale nodes config groups)
    (h : expandGroup locale graph nodes config rootId room current groups = .ok groups') :
    AllBuilt locale nodes config groups' ∧ ∀ group, group ∈ groups' ↔ group ∈ groups ∨ ∃ ids,
        Grown locale graph rootId room current ids ∧
          tryBuildGroup locale nodes config ids = .ok (some group) := by
  induction room generalizing current groups groups' with
  | zero =>
    rw [expandGroup] at h
    refine ⟨hbuilt.emitGroup h, fun group => ?_⟩
    rw [mem_emitGroup hbuilt h group]
    refine or_congr_right ⟨fun hbuild => ⟨_, .here 0 current, hbuild⟩, ?_⟩
    rintro ⟨ids, hgrown, hbuild⟩
    cases hgrown
    exact hbuild
  | succ room ih =>
    rw [expandGroup] at h
    obtain ⟨emitted, hemitted, h⟩ := bind_eq_ok.mp h
    obtain ⟨hbuilt', hmem⟩ := mem_foldlM_groups
      (fun groups neighborId groups' hgroups hexpand => ih hgroups hexpand)
      (hbuilt.emitGroup hemitted) h
    refine ⟨hbuilt', fun group => ?_⟩
    rw [hmem group, mem_emitGroup hbuilt hemitted group, or_assoc]
    refine or_congr_right ⟨?_, ?_⟩
    · rintro (hbuild | ⟨neighborId, hneighbor, ids, hgrown, hbuild⟩)
      · exact ⟨_, .here (room + 1) current, hbuild⟩
      · exact ⟨ids, .over neighborId hneighbor hgrown, hbuild⟩
    · rintro ⟨ids, hgrown, hbuild⟩
      cases hgrown
      next => exact .inl hbuild
      next neighborId hneighbor hrest => exact .inr ⟨neighborId, hneighbor, ids, hrest, hbuild⟩

/-- **The candidates.** A group is enumerated when it can be grown from a node and built. -/
theorem mem_enumerate (h : enumerate locale graph config = .ok groups) (group : CandidateGroup) :
    group ∈ groups ↔ ∃ node ∈ graph.nodes, ∃ ids,
      Grown locale graph node.entityId (config.maxParticipants - 1) [node.entityId] ids ∧
        tryBuildGroup locale (Js.sortWith (fun left right : OverlapGraphNode =>
          locale left.entityId right.entityId) graph.nodes) config ids = .ok (some group) := by
  unfold enumerate at h
  split at h
  next => cases h
  next =>
    split at h
    next => cases h
    next =>
      split at h
      next => cases h
      next =>
        obtain ⟨found, hfound, h⟩ := bind_eq_ok.mp h
        cases h
        obtain ⟨-, hmem⟩ := mem_foldlM_groups
          (fun groups node groups' hgroups hexpand => mem_expandGroup hgroups hexpand)
          (fun group hgroup => absurd hgroup not_mem_nil) hfound
        rw [Js.mem_sortWith, hmem group]
        simp

end

/-! ## The graph of some vectors -/

/-- Nodes that pass are those of the vectors, which have distinct ids and one bucket. -/
theorem nodesFrom_ok {bucket : String} {seen : List String}
    (h : nodesFrom bucket seen vectors = .ok nodes) :
    nodes = vectors.map toNode ∧ (vectors.map ResidualVector.entityId).Nodup ∧
      (∀ vector ∈ vectors, vector.entityId ∉ seen) ∧
      ∀ vector ∈ vectors, vector.compatibilityBucket = bucket := by
  induction vectors generalizing seen nodes with
  | nil =>
    cases h
    simp
  | cons vector rest ih =>
    rw [nodesFrom] at h
    split at h
    next => cases h
    next hbucket =>
      split at h
      next => cases h
      next hseen =>
        split at h
        next => cases h
        next =>
          cases hrest : nodesFrom bucket (seen ++ [vector.entityId]) rest with
          | error error => simp [hrest, Except.map] at h
          | ok others =>
            rw [hrest] at h
            cases h
            obtain ⟨rfl, hnodup, hfresh, hbuckets⟩ := ih hrest
            refine ⟨rfl, ?_, ?_, ?_⟩
            · rw [map_cons, nodup_cons]
              refine ⟨fun hmem => ?_, hnodup⟩
              obtain ⟨other, hother, hid⟩ := mem_map.mp hmem
              exact hfresh other hother (by simp [hid])
            · intro other hother hmem
              rcases mem_cons.mp hother with rfl | hin
              · exact hseen hmem
              · exact hfresh other hin (mem_append_left _ hmem)
            · intro other hother
              rcases mem_cons.mp hother with rfl | hin
              · exact not_not.mp hbucket
              · exact hbuckets other hin

theorem buildGraph_ok {graph : OverlapGraph} (h : buildGraph locale vectors = .ok graph) :
    graph.nodes = vectors.map toNode ∧ (vectors.map ResidualVector.entityId).Nodup ∧
      ∃ edges, buildEdges locale graph.nodes = .ok edges ∧ graph.edges.Perm edges := by
  unfold buildGraph at h
  split at h
  next => cases h
  next =>
    obtain ⟨nodes, hnodes, h⟩ := bind_eq_ok.mp h
    obtain ⟨edges, hedges, h⟩ := bind_eq_ok.mp h
    cases h
    unfold normalizeNodes at hnodes
    simp only at hnodes
    split at hnodes
    next => cases hnodes
    next =>
      obtain ⟨hmap, hnodup, -, -⟩ := nodesFrom_ok hnodes
      exact ⟨hmap, hnodup, edges, hedges, Js.sortWith_perm _ _⟩

/-! ## Candidates with a score -/

theorem find_node (hids : (vectors.map ResidualVector.entityId).Nodup)
    (hnodes : nodes.Perm (vectors.map toNode)) {vector : ResidualVector}
    (hvector : vector ∈ vectors) :
    (nodes.find? fun node => node.entityId = vector.entityId) = some (toNode vector) := by
  have hnodup : (nodes.map OverlapGraphNode.entityId).Nodup := by
    rw [(hnodes.map OverlapGraphNode.entityId).nodup_iff, map_map]
    exact hids
  have hmem : toNode vector ∈ nodes := hnodes.mem_iff.mpr (mem_map_of_mem hvector)
  have hselect := (select_eq_some hnodup).mpr ⟨hmem, rfl⟩
  exact hselect

structure ScoredCandidate (vectors : List ResidualVector) (group : CandidateGroup) : Prop where
  nodup : group.participantIds.Nodup
  two : 2 ≤ group.participantIds.length
  uniqueLegs : ∀ vector ∈ vectors, vector.entityId ∈ group.participantIds →
    ∀ key ∈ keysOf vector.vector, key ∈ group.uniqueLegs
  key_of_leg : ∀ key ∈ group.uniqueLegs, ∃ vector ∈ vectors,
    vector.entityId ∈ group.participantIds ∧ key ∈ keysOf vector.vector

theorem tryBuildGroup_uniqueLegs (h : tryBuildGroup locale nodes config ids = .ok (some group)) :
    ∃ members, ids.mapM (fun participantId =>
        match nodes.find? fun node => node.entityId = participantId with
        | none => throw "ambiguous_group_nodes"
        | some node => return node) = (.ok members : Except String (List OverlapGraphNode)) ∧
      group.uniqueLegs = uniqueLegsOf locale members := by
  unfold tryBuildGroup at h
  split at h
  next => cases h
  next =>
    obtain ⟨members, hmembers, h⟩ := bind_eq_ok.mp h
    refine ⟨members, hmembers, ?_⟩
    simp only at h
    split at h
    next => cases h
    next =>
      split at h
      next => cases h
      next =>
        split at h
        next => cases h
        next => cases h; rfl

theorem mem_uniqueLegsOf {key : String} :
    key ∈ uniqueLegsOf locale nodes ↔ ∃ node ∈ nodes, key ∈ keysOf node.vector := by
  unfold uniqueLegsOf
  rw [Js.mem_sortWith, OrderedMap.mem_foldl_addNew]
  simp

theorem scoredGroups_ok (h : scoredGroups locale config vectors = .ok scored) :
    ∃ graph groups, buildGraph locale vectors = .ok graph ∧
      enumerate locale graph config = .ok groups ∧
      (∀ group ∈ groups, ∃ score, (group, score) ∈ scored) ∧ ∀ entry ∈ scored, entry.1 ∈ groups ∧
        scoreGroup entry.1 (vectors.filter fun vector =>
          vector.entityId ∈ entry.1.participantIds) = .ok entry.2 := by
  obtain ⟨graph, hgraph, h⟩ := bind_eq_ok.mp h
  obtain ⟨groups, hgroups, h⟩ := bind_eq_ok.mp h
  refine ⟨graph, groups, hgraph, hgroups, fun group hgroup => ?_, fun entry hentry => ?_⟩
  · obtain ⟨entry, hentry, hread⟩ := exists_of_mapM h hgroup
    obtain ⟨score, -, hread⟩ := bind_eq_ok.mp hread
    cases hread
    exact ⟨score, hentry⟩
  · obtain ⟨group, hgroup, hread⟩ := mem_of_mapM h hentry
    obtain ⟨score, hscore, hread⟩ := bind_eq_ok.mp hread
    cases hread
    exact ⟨hgroup, hscore⟩

theorem scoreGroup_nodup {participantVectors : List ResidualVector}
    {score : ClearingCompressionScore} (h : scoreGroup group participantVectors = .ok score) :
    group.participantIds.Nodup := by
  unfold scoreGroup at h
  split at h
  next => cases h
  next hnodup => exact not_not.mp hnodup

/-- **A candidate that was scored** has two members or more, all different, and the outcomes of
all of them. -/
theorem scoredGroups_mem (h : scoredGroups locale config vectors = .ok scored)
    {entry : CandidateGroup × ClearingCompressionScore} (hentry : entry ∈ scored) :
    ScoredCandidate vectors entry.1 := by
  obtain ⟨graph, groups, hgraph, hgroups, -, hscored⟩ := scoredGroups_ok h
  obtain ⟨hnodes, hids, -⟩ := buildGraph_ok hgraph
  obtain ⟨hgroup, hscore⟩ := hscored entry hentry
  obtain ⟨node, -, ids, -, hbuild⟩ := (mem_enumerate hgroups entry.1).mp hgroup
  obtain ⟨hparticipants, htwo⟩ := tryBuildGroup_participantIds hbuild
  obtain ⟨members, hmembers, hlegs⟩ := tryBuildGroup_uniqueLegs hbuild
  have hperm := Js.sortWith_perm (fun left right : OverlapGraphNode =>
    locale left.entityId right.entityId) graph.nodes
  rw [hnodes] at hperm hmembers
  refine ⟨scoreGroup_nodup hscore, hparticipants ▸ htwo, ?_, ?_⟩
  · intro vector hvector hid key hkey
    rw [hparticipants] at hid
    obtain ⟨member, hmember, hfind⟩ := exists_of_mapM hmembers hid
    rw [find_node hids hperm hvector] at hfind
    cases hfind
    rw [hlegs, mem_uniqueLegsOf]
    exact ⟨toNode vector, hmember, hkey⟩
  · intro key hkey
    rw [hlegs, mem_uniqueLegsOf] at hkey
    obtain ⟨member, hmember, hkey⟩ := hkey
    obtain ⟨participantId, hparticipant, hfind⟩ := mem_of_mapM hmembers hmember
    split at hfind
    next => cases hfind
    next found hfound =>
      cases hfind
      have hid : member.entityId = participantId := by simpa using find?_some hfound
      obtain ⟨vector, hvector, rfl⟩ := mem_map.mp (hperm.mem_iff.mp (mem_of_find?_eq_some hfound))
      refine ⟨vector, hvector, ?_, hkey⟩
      rw [hparticipants, show vector.entityId = participantId by exact hid]
      exact hparticipant

/-! ## Vectors that do not oppose each other -/

/-- Of no outcome do some have bought and others sold. -/
def Unopposed {α : Type*} (members : α → Prop) (size : α → String → ℚ) : Prop :=
  ∀ key, (∀ member, members member → 0 ≤ size member key) ∨
    ∀ member, members member → size member key ≤ 0

theorem Unopposed.of_sizes {α β : Type*} {members : α → Prop} {size : α → String → ℚ}
    {others : β → Prop} {size' : β → String → ℚ} (h : Unopposed members size)
    (hsizes : ∀ other, others other → ∃ member, members member ∧
      ∀ key, size' other key = size member key) : Unopposed others size' := by
  intro key
  refine (h key).imp (fun hall other hother => ?_) fun hall other hother => ?_
  · obtain ⟨member, hmember, heq⟩ := hsizes other hother
    rw [heq]
    exact hall member hmember
  · obtain ⟨member, hmember, heq⟩ := hsizes other hother
    rw [heq]
    exact hall member hmember

theorem overlapLegs_unopposed {left right : OverlapGraphNode}
    (h : ∀ key, 0 ≤ entryOf left.vector key ∧ 0 ≤ entryOf right.vector key ∨
      entryOf left.vector key ≤ 0 ∧ entryOf right.vector key ≤ 0) :
    overlapLegs locale left right = [] := by
  unfold overlapLegs
  rw [filterMap_eq_nil_iff]
  intro key _
  simp only
  split
  next => rfl
  next hzero =>
    rw [not_or] at hzero
    rw [if_pos]
    rcases h key with ⟨hleft, hright⟩ | ⟨hleft, hright⟩
    · simp [lt_of_le_of_ne hleft (Ne.symm hzero.1), lt_of_le_of_ne hright (Ne.symm hzero.2)]
    · simp [not_lt.mpr hleft, not_lt.mpr hright]

theorem buildEdges_unopposed {edges : List OverlapGraphEdge}
    (h : Unopposed (· ∈ nodes) fun node => entryOf node.vector)
    (hedges : buildEdges locale nodes = .ok edges) : edges = [] := by
  induction nodes generalizing edges with
  | nil =>
    cases hedges
    rfl
  | cons left rest ih =>
    rw [buildEdges] at hedges
    obtain ⟨own, hown, hedges⟩ := bind_eq_ok.mp hedges
    obtain ⟨others, hothers, hedges⟩ := bind_eq_ok.mp hedges
    cases hedges
    have hrest : Unopposed (· ∈ rest) fun node => entryOf node.vector :=
      h.of_sizes fun node hnode => ⟨node, mem_cons_of_mem _ hnode, fun _ => rfl⟩
    have hnone : own.reduceOption = [] := by
      refine filterMap_eq_nil_iff.mpr fun edge hedge => ?_
      obtain ⟨right, hright, hbuild⟩ := mem_of_mapM hown hedge
      have hlegs : overlapLegs locale left right = [] :=
        overlapLegs_unopposed fun key => (h key).imp
          (fun hall => ⟨hall left mem_cons_self, hall right (mem_cons_of_mem _ hright)⟩)
          fun hall => ⟨hall left mem_cons_self, hall right (mem_cons_of_mem _ hright)⟩
      unfold buildEdge at hbuild
      simp only [hlegs, if_true] at hbuild
      cases hbuild
      rfl
    rw [hnone, ih hrest hothers]
    rfl

theorem Grown.of_no_edges {graph : OverlapGraph} (hedges : graph.edges = []) {rootId : String}
    {room : ℕ} {current : List String} (h : Grown locale graph rootId room current ids) :
    ids = Js.sortWith locale current := by
  cases h
  next => rfl
  next neighborId hneighbor hrest =>
    unfold frontierOf at hneighbor
    rw [Js.mem_sortWith, OrderedMap.mem_foldl_addNew] at hneighbor
    simp [neighborsOf, hedges] at hneighbor

/-- **No candidates.** Vectors that do not oppose each other have none. -/
theorem scoredGroups_unopposed
    (hunopposed : Unopposed (· ∈ vectors) fun vector => entryOf vector.vector)
    (h : scoredGroups locale config vectors = .ok scored) : scored = [] := by
  obtain ⟨graph, groups, hgraph, hgroups, -, hscored⟩ := scoredGroups_ok h
  obtain ⟨hnodes, -, edges, hedges, hperm⟩ := buildGraph_ok hgraph
  have hnodes' : Unopposed (· ∈ graph.nodes) fun node => entryOf node.vector := by
    refine hunopposed.of_sizes fun node hnode => ?_
    rw [hnodes] at hnode
    obtain ⟨vector, hvector, rfl⟩ := mem_map.mp hnode
    exact ⟨vector, hvector, fun _ => rfl⟩
  rw [buildEdges_unopposed hnodes' hedges, perm_nil] at hperm
  refine eq_nil_iff_forall_not_mem.mpr fun entry hentry => ?_
  obtain ⟨node, -, ids, hgrown, hbuild⟩ :=
    (mem_enumerate hgroups entry.1).mp (hscored entry hentry).1
  have htwo := (tryBuildGroup_participantIds hbuild).2
  rw [hgrown.of_no_edges hperm, (Js.sortWith_perm _ _).length_eq, length_singleton] at htwo
  omega

end LotusRfq.Combo
