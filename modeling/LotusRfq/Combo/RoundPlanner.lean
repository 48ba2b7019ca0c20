import LotusRfq.Combo.Candidates
import LotusRfq.Combo.Clearing

/-!
# LotusRfq — `ClearingRoundPlanner.plan`

The planner reads the snapshots of a bucket, drops the groups whose members' resolution profiles
may not be netted across venues, scores the others and takes the best one.

* **`scoreOf_ok`** — the scorer accepts every group that is enumerated;
* **`plan_ok`** — the scored groups of a plan, and that it is the first of the eligible ones.
-/

namespace LotusRfq.Combo

open Tables List

/-- `Phase2BCandidateSnapshot`, as the registry returns it. -/
structure Phase2BCandidateSnapshot where
  entityId : String
  userId : String
  compatibilityBucket : String
  vector : SizeVector
  legCount : ℕ
  grossAbsSize : ℚ
  resolutionProfileId : Option String
  registeredAt : ℤ

/-- A snapshot as it is scored, created when it was registered. -/
def Phase2BCandidateSnapshot.scorable (snapshot : Phase2BCandidateSnapshot) : ResidualVector :=
  { entityId := snapshot.entityId
    userId := snapshot.userId
    compatibilityBucket := snapshot.compatibilityBucket
    vector := snapshot.vector
    legCount := snapshot.legCount
    grossAbsSize := snapshot.grossAbsSize
    resolutionProfileId := snapshot.resolutionProfileId
    createdAt := snapshot.registeredAt }

/-! ## Resolution eligibility -/

/-- The body of the loops over the pairs of a group; `isSafe` is the answer of
`isSafeForCrossVenueNetting`. -/
def pairEligible (isSafe : String → String → Bool) (left right : ResidualVector) : Bool :=
  if left.resolutionProfileId = right.resolutionProfileId ∧ left.resolutionProfileId ≠ none then
    true
  else
    match left.resolutionProfileId, right.resolutionProfileId with
    | some leftProfileId, some rightProfileId =>
      if leftProfileId = "" ∨ rightProfileId = "" then false
      else isSafe leftProfileId rightProfileId
    | _, _ => false

open Phase2BCandidateSnapshot (scorable)

def pairsEligible (isSafe : String → String → Bool) : List ResidualVector → Bool
  | [] => true
  | left :: rest => rest.all (pairEligible isSafe left) && pairsEligible isSafe rest

/-- `isGroupResolutionEligible`; without a service every group is. -/
def isGroupResolutionEligible (service : Option (String → String → Bool))
    (vectors : List ResidualVector) (group : CandidateGroup) : Except String Bool :=
  match service with
  | none => .ok true
  | some isSafe => do
    let participantVectors ← group.participantIds.mapM fun participantId =>
      match vectors.find? fun vector => vector.entityId = participantId with
      | none => throw "ambiguous_group_nodes"
      | some vector => return vector
    return pairsEligible isSafe participantVectors

def isEligible (service : Option (String → String → Bool)) (vectors : List ResidualVector)
    (group : CandidateGroup) : Bool :=
  match isGroupResolutionEligible service vectors group with
  | .ok eligible => eligible
  | .error _ => false

def eligibleGroups (service : Option (String → String → Bool)) (vectors : List ResidualVector) :
    List CandidateGroup → Except String (List CandidateGroup)
  | [] => .ok []
  | group :: rest => do
    let eligible ← isGroupResolutionEligible service vectors group
    let others ← eligibleGroups service vectors rest
    return if eligible then group :: others else others

/-! ## The plan -/

def scoreOf (vectors : List ResidualVector) (group : CandidateGroup) :
    Except String (CandidateGroup × ClearingCompressionScore) := do
  let score ← scoreGroup group (vectors.filter fun vector => vector.entityId ∈ group.participantIds)
  return (group, score)

def planOf (localeCompare : String → String → Ordering) (compatibilityBucket : String)
    (selected : CandidateGroup × ClearingCompressionScore) : ClearingRoundPlan :=
  { compatibilityBucket := compatibilityBucket
    selectedGroup := selected.1
    score := selected.2
    residuals := selected.1.residualAfterNetting
    participantLockOrder := Js.sortWith localeCompare selected.1.participantIds }

/-- `plan`, over the snapshots of the bucket's page. -/
def plan (localeCompare : String → String → Ordering)
    (service : Option (String → String → Bool)) (config : CandidateGroupEnumeratorConfig)
    (bucketId : String) (snapshots : List Phase2BCandidateSnapshot) :
    Except String (Option ClearingRoundPlan) :=
  if ¬ Js.hasText bucketId then .error "bucketId is required."
  else
    match snapshots with
    | [] => .ok none
    | first :: _ =>
      if first.compatibilityBucket = "" then .error "missing_compatibility_bucket"
      else if ∃ snapshot ∈ snapshots, snapshot.compatibilityBucket ≠ first.compatibilityBucket then
        .error "compatibility_bucket_mismatch"
      else do
        let vectors := snapshots.map scorable
        let graph ← buildGraph localeCompare vectors
        let candidateGroups ← enumerate localeCompare graph config
        let eligible ← eligibleGroups service vectors candidateGroups
        let scored ← eligible.mapM (scoreOf vectors)
        return (Js.sortWith (compareScores localeCompare) scored).head?.map
          (planOf localeCompare first.compatibilityBucket)

variable {localeCompare : String → String → Ordering}

instance transCmp_compareScores [Std.TransCmp localeCompare] :
    Std.TransCmp (compareScores localeCompare) := by
  have hscore := Js.transCmp_lessAndEq_descending
    fun entry : CandidateGroup × ClearingCompressionScore => entry.2.finalScore
  have hresidual := Js.transCmp_lessAndEq
    fun entry : CandidateGroup × ClearingCompressionScore => entry.2.postNetAbsResidual
  have holdest := Js.transCmp_lessAndEq
    fun entry : CandidateGroup × ClearingCompressionScore => entry.2.oldestParticipantAt
  have hcount := Js.transCmp_lessAndEq
    fun entry : CandidateGroup × ClearingCompressionScore => entry.2.participantCount
  have hids := Js.transCmp_ascending localeCompare
    fun entry : CandidateGroup × ClearingCompressionScore =>
      String.intercalate "|" entry.1.participantIds
  exact inferInstanceAs (Std.TransCmp (compareLex
    (fun left right : CandidateGroup × ClearingCompressionScore =>
      compareOfLessAndEq right.2.finalScore left.2.finalScore)
    (compareLex
      (fun left right : CandidateGroup × ClearingCompressionScore =>
        compareOfLessAndEq left.2.postNetAbsResidual right.2.postNetAbsResidual)
      (compareLex
        (fun left right : CandidateGroup × ClearingCompressionScore =>
          compareOfLessAndEq left.2.oldestParticipantAt right.2.oldestParticipantAt)
        (compareLex
          (fun left right : CandidateGroup × ClearingCompressionScore =>
            compareOfLessAndEq left.2.participantCount right.2.participantCount)
          fun left right => localeCompare (String.intercalate "|" left.1.participantIds)
            (String.intercalate "|" right.1.participantIds))))))

/-! ## Every enumerated group can be scored -/

variable {graph : OverlapGraph} {config : CandidateGroupEnumeratorConfig}
  {groups : List CandidateGroup}

theorem Grown.nodup {rootId : String} {room : ℕ} {current ids : List String}
    (h : Grown localeCompare graph rootId room current ids) (hcurrent : current.Nodup) :
    ids.Nodup := by
  induction h
  next room current => exact (Js.sortWith_perm localeCompare current).nodup_iff.mpr hcurrent
  next neighborId hneighbor _ ih =>
    apply ih
    have hsorted := (Js.sortWith_perm localeCompare _).nodup_iff.mpr hcurrent
    rw [frontierOf, Js.mem_sortWith, OrderedMap.mem_foldl_addNew, mem_filter] at hneighbor
    have hnew := of_decide_eq_true (hneighbor.resolve_left not_mem_nil).2
    refine nodup_append.mpr ⟨hsorted, nodup_singleton _, fun a ha b hb heq => ?_⟩
    rw [mem_singleton.mp hb] at heq
    exact hnew.1 (heq ▸ ha)

theorem eq_of_participantIds (h : enumerate localeCompare graph config = .ok groups)
    {left right : CandidateGroup} (hleft : left ∈ groups) (hright : right ∈ groups)
    (hids : left.participantIds = right.participantIds) : left = right := by
  obtain ⟨_, -, idsL, -, hbuildL⟩ := (mem_enumerate h left).mp hleft
  obtain ⟨_, -, idsR, -, hbuildR⟩ := (mem_enumerate h right).mp hright
  have hsame : idsL = idsR := by
    rw [← (tryBuildGroup_participantIds hbuildL).1, hids, (tryBuildGroup_participantIds hbuildR).1]
  rw [hsame, hbuildR, Except.ok.injEq, Option.some.injEq] at hbuildL
  exact hbuildL.symm

theorem tryBuildGroup_members {nodes : List OverlapGraphNode} {ids : List String}
    {group : CandidateGroup} (h : tryBuildGroup localeCompare nodes config ids = .ok (some group)) :
    ∀ id ∈ ids, ∃ node ∈ nodes, node.entityId = id := by
  obtain ⟨members, hmembers, -⟩ := tryBuildGroup_uniqueLegs h
  intro id hid
  obtain ⟨node, -, hfind⟩ := exists_of_mapM hmembers hid
  split at hfind
  next => cases hfind
  next found hfound =>
    exact ⟨found, mem_of_find?_eq_some hfound, by simpa using find?_some hfound⟩

/-- **The scorer accepts every enumerated group.** -/
theorem scoreOf_ok {vectors : List ResidualVector}
    (hgraph : buildGraph localeCompare vectors = .ok graph)
    (hgroups : enumerate localeCompare graph config = .ok groups) {group : CandidateGroup}
    (hgroup : group ∈ groups) : ∃ score, scoreOf vectors group = .ok (group, score) := by
  obtain ⟨hnodes, hids, -⟩ := buildGraph_ok hgraph
  obtain ⟨node, -, ids, hgrown, hbuild⟩ := (mem_enumerate hgroups group).mp hgroup
  obtain ⟨hparticipants, htwo⟩ := tryBuildGroup_participantIds hbuild
  have hnodup : group.participantIds.Nodup := hparticipants ▸ hgrown.nodup (nodup_singleton _)
  have hmembers : ∀ id ∈ group.participantIds, ∃ vector ∈ vectors, vector.entityId = id := by
    intro id hid
    obtain ⟨member, hmember, hentity⟩ := tryBuildGroup_members hbuild id (hparticipants ▸ hid)
    rw [Js.mem_sortWith, hnodes] at hmember
    obtain ⟨vector, hvector, rfl⟩ := mem_map.mp hmember
    exact ⟨vector, hvector, hentity⟩
  have hin : ∀ vector, vector ∈ vectors.filter (fun vector =>
      vector.entityId ∈ group.participantIds) ↔
        vector ∈ vectors ∧ vector.entityId ∈ group.participantIds := by
    intro vector
    rw [mem_filter, decide_eq_true_eq]
  have hfiltered : ((vectors.filter fun vector =>
      vector.entityId ∈ group.participantIds).map ResidualVector.entityId).Nodup :=
    hids.sublist ((filter_sublist).map _)
  have hlength : (vectors.filter fun vector => vector.entityId ∈ group.participantIds).length =
      group.participantIds.length := by
    have hperm : ((vectors.filter fun vector =>
        vector.entityId ∈ group.participantIds).map ResidualVector.entityId).Perm
          group.participantIds := by
      refine (perm_ext_iff_of_nodup hfiltered hnodup).mpr fun id => ⟨fun hid => ?_, fun hid => ?_⟩
      · obtain ⟨vector, hvector, rfl⟩ := mem_map.mp hid
        exact ((hin vector).mp hvector).2
      · obtain ⟨vector, hvector, rfl⟩ := hmembers id hid
        exact mem_map_of_mem ((hin vector).mpr ⟨hvector, hid⟩)
    have hcount := hperm.length_eq
    rwa [length_map] at hcount
  obtain ⟨members, hread⟩ : ∃ members, group.participantIds.mapM (fun participantId =>
      match (vectors.filter fun vector => vector.entityId ∈ group.participantIds).find?
        fun vector => vector.entityId = participantId with
      | none => throw "participant_vector_mismatch"
      | some vector => return vector) = (.ok members : Except String (List ResidualVector)) := by
    refine mapM_ok fun id hid => ?_
    obtain ⟨vector, hvector, hentity⟩ := hmembers id hid
    have hmem := (hin vector).mpr ⟨hvector, hentity ▸ hid⟩
    have hfind : ((vectors.filter fun vector => vector.entityId ∈ group.participantIds).find?
        fun vector => vector.entityId = id).isSome = true :=
      find?_isSome.mpr ⟨vector, hmem, decide_eq_true hentity⟩
    obtain ⟨found, hfound⟩ := Option.isSome_iff_exists.mp hfind
    exact ⟨found, by rw [hfound]; rfl⟩
  have hsome : members ≠ [] := by
    intro hnil
    obtain ⟨id, hid⟩ := exists_mem_of_length_pos (show 0 < group.participantIds.length by
      rw [hparticipants]; omega)
    obtain ⟨member, hmember, -⟩ := exists_of_mapM hread hid
    rw [hnil] at hmember
    cases hmember
  obtain ⟨member, others, hcons⟩ := exists_cons_of_ne_nil hsome
  rw [hcons] at hread
  unfold scoreOf scoreGroup
  rw [if_neg (not_not.mpr hnodup), if_neg (not_not.mpr hfiltered), if_neg (not_not.mpr hlength)]
  generalize hattempt : (group.participantIds.mapM _ : Except String (List ResidualVector)) =
    attempt
  rw [show attempt = .ok (member :: others) from hattempt.symm.trans hread]
  exact ⟨_, rfl⟩

theorem eligibleGroups_ok {service : Option (String → String → Bool)}
    {vectors : List ResidualVector} {eligible : List CandidateGroup}
    (h : eligibleGroups service vectors groups = .ok eligible) :
    eligible = groups.filter (isEligible service vectors) := by
  induction groups generalizing eligible with
  | nil =>
    cases h
    rfl
  | cons group rest ih =>
    rw [eligibleGroups] at h
    obtain ⟨answer, hanswer, h⟩ := bind_eq_ok.mp h
    obtain ⟨others, hothers, h⟩ := bind_eq_ok.mp h
    cases h
    rw [filter_cons, ← ih hothers, isEligible, hanswer]

/-- **The groups behind a plan.** When a plan is selected, all groups of the bucket have scores;
the plan is made of the first of the eligible ones, and the snapshots share its bucket. -/
theorem plan_ok {service : Option (String → String → Bool)} {bucketId : String}
    {snapshots : List Phase2BCandidateSnapshot} {roundPlan : ClearingRoundPlan}
    (h : plan localeCompare service config bucketId snapshots = .ok (some roundPlan)) :
    Js.hasText bucketId = true ∧ snapshots ≠ [] ∧
    (∀ snapshot ∈ snapshots, snapshot.compatibilityBucket = roundPlan.compatibilityBucket) ∧
    ∃ scored selected, scoredGroups localeCompare config (snapshots.map scorable) = .ok scored ∧
      (Js.sortWith (compareScores localeCompare) (scored.filter fun entry => isEligible service
        (snapshots.map scorable) entry.1)).head? = some selected ∧
      roundPlan = planOf localeCompare roundPlan.compatibilityBucket selected := by
  unfold plan at h
  split at h
  next => cases h
  next htext =>
    split at h
    next => cases h
    next first others =>
      split at h
      next => cases h
      next =>
        split at h
        next => cases h
        next hbuckets =>
          obtain ⟨graph, hgraph, h⟩ := bind_eq_ok.mp h
          obtain ⟨groups, hgroups, h⟩ := bind_eq_ok.mp h
          obtain ⟨eligible, heligible, h⟩ := bind_eq_ok.mp h
          obtain ⟨scoredEligible, hscoredEligible, h⟩ := bind_eq_ok.mp h
          obtain ⟨scored, hscored⟩ := mapM_ok fun group hgroup =>
            let ⟨score, hscore⟩ := scoreOf_ok hgraph hgroups hgroup
            ⟨(group, score), hscore⟩
          have hfilter := mapM_filter hscored
            (p := isEligible service ((first :: others).map scorable))
            (q := fun entry => isEligible service ((first :: others).map scorable) entry.1)
            fun group _ entry hentry => by
              obtain ⟨score, -, hentry⟩ := bind_eq_ok.mp hentry
              cases hentry
              rfl
          rw [← eligibleGroups_ok heligible, hscoredEligible, Except.ok.injEq] at hfilter
          simp only [pure, Except.pure, Except.ok.injEq] at h
          rw [hfilter] at h
          obtain ⟨selected, hselected, rfl⟩ := Option.map_eq_some_iff.mp h
          push Not at hbuckets
          refine ⟨not_not.mp htext, cons_ne_nil _ _, hbuckets, scored, selected, ?_, hselected, rfl⟩
          exact bind_eq_ok.mpr ⟨graph, hgraph, bind_eq_ok.mpr ⟨groups, hgroups, hscored⟩⟩

end LotusRfq.Combo
