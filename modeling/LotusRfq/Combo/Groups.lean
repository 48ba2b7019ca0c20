import LotusRfq.Combo.Residual

/-!
# LotusRfq — overlap graph, candidate groups and their scores

Two residual vectors overlap where their sizes of an outcome have opposite signs. A group grows
along the overlaps from each entity in turn, over entities that do not sort before it; a group
that has at least two members, not too many outcomes and no self-trade is a candidate. Candidates
are scored by what clearing them leaves over.

* **`scoredGroups`** — the candidates of a bucket, each with its score.
-/

namespace LotusRfq.Combo

open Tables

/-! ## The overlap graph -/

structure OverlapGraphNode where
  entityId : String
  userId : String
  compatibilityBucket : String
  vector : SizeVector
  legCount : ℕ
  grossAbsSize : ℚ
  resolutionProfileId : Option String
  deriving DecidableEq

structure OverlapGraphOverlapLeg where
  key : String
  signedSizeA : ℚ
  signedSizeB : ℚ
  offsetSize : ℚ
  deriving DecidableEq

/-- An edge; its ends are `from` and `to` in the source. -/
structure OverlapGraphEdge where
  fromId : String
  toId : String
  overlapLegs : List OverlapGraphOverlapLeg
  compressionPotential : ℚ
  exactOppositionScore : ℚ
  partialOverlapScore : ℚ
  deriving DecidableEq

structure OverlapGraph where
  nodes : List OverlapGraphNode
  edges : List OverlapGraphEdge
  deriving DecidableEq

def toNode (vector : ResidualVector) : OverlapGraphNode :=
  { entityId := vector.entityId
    userId := vector.userId
    compatibilityBucket := vector.compatibilityBucket
    vector := vector.vector
    legCount := vector.legCount
    grossAbsSize := vector.grossAbsSize
    resolutionProfileId := vector.resolutionProfileId }

/-- The nodes of the vectors from here on; `bucket` is that of the first of all and `seen` the ids
before. -/
def nodesFrom (bucket : String) : List String → List ResidualVector →
    Except String (List OverlapGraphNode)
  | _, [] => .ok []
  | seen, vector :: rest =>
    if vector.compatibilityBucket ≠ bucket then .error "compatibility_bucket_mismatch"
    else if vector.entityId ∈ seen then .error "duplicate_entity_id"
    else if ∃ entry ∈ vector.vector, ¬ Js.hasText entry.1 then .error "invalid_vector_entry"
    else (nodesFrom bucket (seen ++ [vector.entityId]) rest).map fun nodes =>
      toNode vector :: nodes

def normalizeNodes (vectors : List ResidualVector) : Except String (List OverlapGraphNode) :=
  let bucket := (vectors.head?.map ResidualVector.compatibilityBucket).getD ""
  if ¬ Js.hasText bucket then .error "invalid_compatibility_bucket"
  else nodesFrom bucket [] vectors

def keysOf (vector : SizeVector) : List String := vector.map Prod.fst

section

variable (localeCompare : String → String → Ordering)

/-- The outcomes of which one side has bought what the other has sold. -/
def overlapLegs (left right : OverlapGraphNode) : List OverlapGraphOverlapLeg :=
  let sharedKeys := Js.sortWith localeCompare <|
    ((keysOf left.vector ++ keysOf right.vector).foldl OrderedMap.addNew []).filter fun key =>
      key ∈ keysOf left.vector ∧ key ∈ keysOf right.vector
  sharedKeys.filterMap fun key =>
    let signedLeft := entryOf left.vector key
    let signedRight := entryOf right.vector key
    if signedLeft = 0 ∨ signedRight = 0 then none
    else if decide (0 < signedLeft) = decide (0 < signedRight) then none
    else some
      { key := key
        signedSizeA := signedLeft
        signedSizeB := signedRight
        offsetSize := min |signedLeft| |signedRight| }

def buildEdge (left right : OverlapGraphNode) : Except String (Option OverlapGraphEdge) :=
  let legs := overlapLegs localeCompare left right
  if legs = [] then .ok none
  else if left.grossAbsSize ≤ 0 ∨ right.grossAbsSize ≤ 0 then .error "invalid_gross_abs_size"
  else
    let compressionPotential := (legs.map OverlapGraphOverlapLeg.offsetSize).sum
    let inOrder : Bool := localeCompare left.entityId right.entityId ≠ .gt
    .ok (some
      { fromId := if inOrder then left.entityId else right.entityId
        toId := if inOrder then right.entityId else left.entityId
        overlapLegs := legs
        compressionPotential := compressionPotential
        exactOppositionScore :=
          compressionPotential / max left.grossAbsSize right.grossAbsSize
        partialOverlapScore :=
          compressionPotential / min left.grossAbsSize right.grossAbsSize })

def buildEdges : List OverlapGraphNode → Except String (List OverlapGraphEdge)
  | [] => .ok []
  | left :: rest => do
    let edges ← rest.mapM (buildEdge localeCompare left)
    let others ← buildEdges rest
    return edges.reduceOption ++ others

/-- `OverlapGraphBuilder.build`. -/
def buildGraph (vectors : List ResidualVector) : Except String OverlapGraph :=
  if vectors = [] then .error "empty_overlap_graph_input"
  else do
    let nodes ← normalizeNodes vectors
    let edges ← buildEdges localeCompare nodes
    return { nodes := nodes
             edges := Js.sortWith (fun left right =>
               if left.fromId ≠ right.fromId then localeCompare left.fromId right.fromId
               else localeCompare left.toId right.toId) edges }

end

/-! ## Candidate groups -/

inductive STPMode where
  | CANCEL_NEWEST
  | CANCEL_OLDEST
  | CANCEL_BOTH
  | NONE
  deriving DecidableEq

structure CandidateGroupEnumeratorConfig where
  maxParticipants : ℕ
  maxUniqueLegs : ℕ
  stpMode : STPMode

def DEFAULT_ENUMERATOR_CONFIG : CandidateGroupEnumeratorConfig := ⟨4, 6, .CANCEL_NEWEST⟩

structure CandidateGroup where
  participantIds : List String
  uniqueLegs : List String
  estimatedCompressionScore : ℚ
  residualAfterNetting : SizeVector
  exactnessScore : ℚ
  deriving DecidableEq

/-- `buildAdjacency`, read at one node. -/
def neighborsOf (graph : OverlapGraph) (entityId : String) : List String :=
  graph.edges.foldl (fun neighbors edge =>
    let neighbors := if edge.fromId = entityId then OrderedMap.addNew neighbors edge.toId
      else neighbors
    if edge.toId = entityId then OrderedMap.addNew neighbors edge.fromId else neighbors) []

/-- Two entities of one user hold sizes of opposite signs of one outcome. -/
def hasForbiddenSelfTrade (nodes : List OverlapGraphNode) : Bool :=
  ∃ left ∈ nodes, ∃ right ∈ nodes, left.userId = right.userId ∧ left.entityId ≠ right.entityId ∧
    ∃ bought ∈ left.vector, ∃ sold ∈ right.vector, bought.1 = sold.1 ∧ 0 < bought.2 ∧ sold.2 < 0

def sumVectors (vectors : List SizeVector) : SizeVector :=
  vectors.flatten.foldl (fun totals entry => addTo totals entry.1 entry.2) []

section

variable (localeCompare : String → String → Ordering)

def residualAfterNetting (nodes : List OverlapGraphNode) : SizeVector :=
  Js.sortWith (fun left right : String × ℚ => localeCompare left.1 right.1) <|
    (sumVectors (nodes.map OverlapGraphNode.vector)).filter fun entry => entry.2 ≠ 0

def uniqueLegsOf (nodes : List OverlapGraphNode) : List String :=
  Js.sortWith localeCompare <|
    (nodes.flatMap fun node => keysOf node.vector).foldl OrderedMap.addNew []

def tryBuildGroup (nodes : List OverlapGraphNode) (config : CandidateGroupEnumeratorConfig)
    (participantIds : List String) : Except String (Option CandidateGroup) :=
  if participantIds.length < 2 then .ok none
  else do
    let members ← participantIds.mapM fun participantId =>
      match nodes.find? fun node => node.entityId = participantId with
      | none => throw "ambiguous_group_nodes"
      | some node => return node
    let uniqueLegs := uniqueLegsOf localeCompare members
    if config.maxUniqueLegs < uniqueLegs.length then return none
    else if config.stpMode ≠ .NONE ∧ hasForbiddenSelfTrade members then return none
    else if ∃ node ∈ members, node.grossAbsSize < 0 then throw "invalid_gross_abs_size"
    else
      let grossTotal := (members.map OverlapGraphNode.grossAbsSize).sum
      let residuals := residualAfterNetting localeCompare members
      let residualAbsTotal := (residuals.map fun entry => |entry.2|).sum
      return some
        { participantIds := participantIds
          uniqueLegs := uniqueLegs
          estimatedCompressionScore :=
            if grossTotal = 0 then 0 else 1 - residualAbsTotal / grossTotal
          residualAfterNetting := residuals
          exactnessScore :=
            if residuals = [] then 1 else 1 - (residuals.length : ℚ) / uniqueLegs.length }

/-- Where a group may grow: over its neighbours that do not sort before its root. -/
def frontierOf (graph : OverlapGraph) (canonicalIds : List String) (rootId : String) :
    List String :=
  Js.sortWith localeCompare <|
    ((canonicalIds.flatMap (neighborsOf graph)).filter fun neighborId =>
      neighborId ∉ canonicalIds ∧ localeCompare neighborId rootId ≠ .lt).foldl OrderedMap.addNew []

def emitGroup (nodes : List OverlapGraphNode) (config : CandidateGroupEnumeratorConfig)
    (canonicalIds : List String) (groups : List CandidateGroup) :
    Except String (List CandidateGroup) :=
  if ∃ group ∈ groups, group.participantIds = canonicalIds then .ok groups
  else (tryBuildGroup localeCompare nodes config canonicalIds).map fun maybeGroup =>
    match maybeGroup with
    | none => groups
    | some group => groups ++ [group]

/-- `room` is how many more members the group may take. -/
def expandGroup (graph : OverlapGraph) (nodes : List OverlapGraphNode)
    (config : CandidateGroupEnumeratorConfig) (rootId : String) :
    ℕ → List String → List CandidateGroup → Except String (List CandidateGroup)
  | 0, currentIds, groups =>
    emitGroup localeCompare nodes config (Js.sortWith localeCompare currentIds) groups
  | room + 1, currentIds, groups => do
    let canonicalIds := Js.sortWith localeCompare currentIds
    let groups ← emitGroup localeCompare nodes config canonicalIds groups
    (frontierOf localeCompare graph canonicalIds rootId).foldlM
      (fun groups neighborId =>
        expandGroup graph nodes config rootId room (canonicalIds ++ [neighborId]) groups) groups

def compareGroups (left right : CandidateGroup) : Ordering :=
  (compareOfLessAndEq right.estimatedCompressionScore left.estimatedCompressionScore).then <|
  (compareOfLessAndEq right.exactnessScore left.exactnessScore).then <|
  (compareOfLessAndEq left.participantIds.length right.participantIds.length).then <|
  localeCompare (String.intercalate "|" left.participantIds)
    (String.intercalate "|" right.participantIds)

/-- `CandidateGroupEnumerator.enumerate`; a graph that was built has what its validation asks
for. -/
def enumerate (graph : OverlapGraph) (config : CandidateGroupEnumeratorConfig) :
    Except String (List CandidateGroup) :=
  if graph.nodes = [] then .error "empty_overlap_graph"
  else if config.maxParticipants = 0 then .error "invalid_max_participants"
  else if config.maxUniqueLegs = 0 then .error "invalid_max_unique_legs"
  else do
    let sortedNodes := Js.sortWith
      (fun left right : OverlapGraphNode => localeCompare left.entityId right.entityId) graph.nodes
    let groups ← sortedNodes.foldlM
      (fun groups node => expandGroup localeCompare graph sortedNodes config node.entityId
        (config.maxParticipants - 1) [node.entityId] groups) []
    return Js.sortWith (compareGroups localeCompare) groups

end

/-! ## Scores -/

structure ClearingCompressionScore where
  compressionScore : ℚ
  preNetAbsExposure : ℚ
  postNetAbsResidual : ℚ
  rankingPenalty : ℚ
  finalScore : ℚ
  oldestParticipantAt : ℤ
  participantCount : ℕ
  deriving DecidableEq

/-- `ClearingCompressionScorer.score`. -/
def scoreGroup (group : CandidateGroup) (participantVectors : List ResidualVector) :
    Except String ClearingCompressionScore :=
  if ¬ group.participantIds.Nodup then .error "duplicate_group_participants"
  else if ¬ (participantVectors.map ResidualVector.entityId).Nodup then
    .error "duplicate_participant_vector"
  else if participantVectors.length ≠ group.participantIds.length then
    .error "participant_vector_mismatch"
  else do
    let members ← group.participantIds.mapM fun participantId =>
      match participantVectors.find? fun vector => vector.entityId = participantId with
      | none => throw "participant_vector_mismatch"
      | some vector => return vector
    let aggregatedResidual := sumVectors (members.map ResidualVector.vector)
    let preNetAbsExposure :=
      ((members.flatMap ResidualVector.vector).map fun entry => |entry.2|).sum
    let postNetAbsResidual := (aggregatedResidual.map fun entry => |entry.2|).sum
    let compressionScore := preNetAbsExposure - postNetAbsResidual
    let rankingPenalty : ℚ := ((group.participantIds.length - 2 : ℕ) : ℚ) +
      ((group.uniqueLegs.length - 2 : ℕ) : ℚ) +
      ((aggregatedResidual.filter fun entry => entry.2 ≠ 0).length : ℚ)
    match members.map ResidualVector.createdAt with
    | [] => throw "participant_vector_mismatch"
    | createdAt :: others =>
      return { compressionScore := compressionScore
               preNetAbsExposure := preNetAbsExposure
               postNetAbsResidual := postNetAbsResidual
               rankingPenalty := rankingPenalty
               finalScore := compressionScore - rankingPenalty
               oldestParticipantAt := others.foldl min createdAt
               participantCount := group.participantIds.length }

def compareScores (localeCompare : String → String → Ordering)
    (left right : CandidateGroup × ClearingCompressionScore) : Ordering :=
  (compareOfLessAndEq right.2.finalScore left.2.finalScore).then <|
  (compareOfLessAndEq left.2.postNetAbsResidual right.2.postNetAbsResidual).then <|
  (compareOfLessAndEq left.2.oldestParticipantAt right.2.oldestParticipantAt).then <|
  (compareOfLessAndEq left.2.participantCount right.2.participantCount).then <|
  localeCompare (String.intercalate "|" left.1.participantIds)
    (String.intercalate "|" right.1.participantIds)

def scoredGroups (localeCompare : String → String → Ordering)
    (config : CandidateGroupEnumeratorConfig) (vectors : List ResidualVector) :
    Except String (List (CandidateGroup × ClearingCompressionScore)) := do
  let graph ← buildGraph localeCompare vectors
  let groups ← enumerate localeCompare graph config
  groups.mapM fun group => do
    let score ← scoreGroup group (vectors.filter fun vector =>
      vector.entityId ∈ group.participantIds)
    return (group, score)

end LotusRfq.Combo
