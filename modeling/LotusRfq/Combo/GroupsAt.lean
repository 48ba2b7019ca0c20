import LotusRfq.Combo.VectorsAt

/-!
# LotusRfq — overlap graph, candidate groups and scores at a precision

The graph, the enumeration and the scores of `Combo.Groups` with the precision of their decimals:
every sum, difference and quotient is kept to a number of significant digits. What a group has
been emitted under is its signature, the ids of its members joined by a separator.

* **`buildGraphAt`**, **`enumerateAt`**, **`scoreGroupAt`**.
-/

namespace LotusRfq.Combo

open Tables Decimals

section At

variable (precision : ℕ) (localeCompare : String → String → Ordering)

/-! ## The overlap graph -/

def buildEdgeAt (left right : OverlapGraphNode) : Except String (Option OverlapGraphEdge) :=
  let legs := overlapLegs localeCompare left right
  if legs = [] then .ok none
  else if left.grossAbsSize ≤ 0 ∨ right.grossAbsSize ≤ 0 then .error "invalid_gross_abs_size"
  else
    let compressionPotential := addAll precision 0 (legs.map OverlapGraphOverlapLeg.offsetSize)
    let inOrder : Bool := localeCompare left.entityId right.entityId ≠ .gt
    .ok (some
      { fromId := if inOrder then left.entityId else right.entityId
        toId := if inOrder then right.entityId else left.entityId
        overlapLegs := legs
        compressionPotential := compressionPotential
        exactOppositionScore := toSignificant precision
          (compressionPotential / max left.grossAbsSize right.grossAbsSize)
        partialOverlapScore := toSignificant precision
          (compressionPotential / min left.grossAbsSize right.grossAbsSize) })

def buildEdgesAt : List OverlapGraphNode → Except String (List OverlapGraphEdge)
  | [] => .ok []
  | left :: rest => do
    let edges ← rest.mapM (buildEdgeAt precision localeCompare left)
    let others ← buildEdgesAt rest
    return edges.reduceOption ++ others

/-- `OverlapGraphBuilder.build`. -/
def buildGraphAt (vectors : List ResidualVector) : Except String OverlapGraph :=
  if vectors = [] then .error "empty_overlap_graph_input"
  else do
    let nodes ← normalizeNodes vectors
    let edges ← buildEdgesAt precision localeCompare nodes
    return { nodes := nodes
             edges := Js.sortWith (fun left right =>
               if left.fromId ≠ right.fromId then localeCompare left.fromId right.fromId
               else localeCompare left.toId right.toId) edges }

/-! ## Candidate groups -/

def sumVectorsAt (vectors : List SizeVector) : SizeVector :=
  vectors.flatten.foldl (fun totals entry => addToAt precision totals entry.1 entry.2) []

def residualAfterNettingAt (nodes : List OverlapGraphNode) : SizeVector :=
  Js.sortWith (fun left right : String × ℚ => localeCompare left.1 right.1) <|
    (sumVectorsAt precision (nodes.map OverlapGraphNode.vector)).filter fun entry => entry.2 ≠ 0

def findNode (nodes : List OverlapGraphNode) (participantId : String) :
    Except String OverlapGraphNode :=
  match nodes.find? fun node => node.entityId = participantId with
  | none => throw "ambiguous_group_nodes"
  | some node => return node

def tryBuildGroupAt (nodes : List OverlapGraphNode) (config : CandidateGroupEnumeratorConfig)
    (participantIds : List String) : Except String (Option CandidateGroup) :=
  if participantIds.length < 2 then .ok none
  else do
    let members ← participantIds.mapM (findNode nodes)
    let uniqueLegs := uniqueLegsOf localeCompare members
    if config.maxUniqueLegs < uniqueLegs.length then return none
    else if config.stpMode ≠ .NONE ∧ hasForbiddenSelfTrade members then return none
    else if ∃ node ∈ members, node.grossAbsSize < 0 then throw "invalid_gross_abs_size"
    else
      let grossTotal := addAll precision 0 (members.map OverlapGraphNode.grossAbsSize)
      let residuals := residualAfterNettingAt precision localeCompare members
      let residualAbsTotal := addAll precision 0 (residuals.map fun entry => |entry.2|)
      return some
        { participantIds := participantIds
          uniqueLegs := uniqueLegs
          estimatedCompressionScore :=
            if grossTotal = 0 then 0
            else toSignificant precision
              (1 - toSignificant precision (residualAbsTotal / grossTotal))
          residualAfterNetting := residuals
          exactnessScore :=
            if residuals = [] then 1
            else toSignificant precision
              (1 - toSignificant precision ((residuals.length : ℚ) / uniqueLegs.length)) }

/-- `canonicalIds.join("|")`. -/
def signatureOf (canonicalIds : List String) : String := "|".intercalate canonicalIds

/-- A group is emitted once under its signature. -/
def emitWith (build : List String → Except String (Option CandidateGroup))
    (canonicalIds : List String) (groups : List CandidateGroup) :
    Except String (List CandidateGroup) :=
  if ∃ group ∈ groups, signatureOf group.participantIds = signatureOf canonicalIds then .ok groups
  else (build canonicalIds).map fun maybeGroup =>
    match maybeGroup with
    | none => groups
    | some group => groups ++ [group]

/-- `expandGroup`, where `build` is `tryBuildGroup`; `room` is how many more members the group may
take. -/
def expandWith (graph : OverlapGraph)
    (build : List String → Except String (Option CandidateGroup)) (rootId : String) :
    ℕ → List String → List CandidateGroup → Except String (List CandidateGroup)
  | 0, currentIds, groups => emitWith build (Js.sortWith localeCompare currentIds) groups
  | room + 1, currentIds, groups => do
    let canonicalIds := Js.sortWith localeCompare currentIds
    let groups ← emitWith build canonicalIds groups
    (frontierOf localeCompare graph canonicalIds rootId).foldlM
      (fun groups neighborId =>
        expandWith graph build rootId room (canonicalIds ++ [neighborId]) groups) groups

def validateGraph (graph : OverlapGraph) : Except String Unit :=
  let bucket := (graph.nodes.head?.map OverlapGraphNode.compatibilityBucket).getD ""
  if graph.nodes = [] then .error "empty_overlap_graph"
  else if bucket = "" then .error "invalid_overlap_graph_bucket"
  else if ∃ node ∈ graph.nodes, node.compatibilityBucket ≠ bucket then
    .error "overlap_graph_bucket_mismatch"
  else if ¬ (graph.nodes.map OverlapGraphNode.entityId).Nodup then
    .error "duplicate_overlap_graph_node"
  else .ok ()

def sortedNodesOf (graph : OverlapGraph) : List OverlapGraphNode :=
  Js.sortWith (fun left right : OverlapGraphNode => localeCompare left.entityId right.entityId)
    graph.nodes

/-- `CandidateGroupEnumerator.enumerate`. -/
def enumerateAt (graph : OverlapGraph) (config : CandidateGroupEnumeratorConfig) :
    Except String (List CandidateGroup) := do
  validateGraph graph
  if config.maxParticipants = 0 then throw "invalid_max_participants"
  if config.maxUniqueLegs = 0 then throw "invalid_max_unique_legs"
  let sortedNodes := sortedNodesOf localeCompare graph
  let build := tryBuildGroupAt precision localeCompare sortedNodes config
  let groups ← sortedNodes.foldlM
    (fun groups node => expandWith localeCompare graph build node.entityId
      (config.maxParticipants - 1) [node.entityId] groups) []
  return Js.sortWith (compareGroups localeCompare) groups

/-! ## Scores -/

def findVector (participantVectors : List ResidualVector) (participantId : String) :
    Except String ResidualVector :=
  match participantVectors.find? fun vector => vector.entityId = participantId with
  | none => throw "participant_vector_mismatch"
  | some vector => return vector

/-- `ClearingCompressionScorer.score`. -/
def scoreGroupAt (group : CandidateGroup) (participantVectors : List ResidualVector) :
    Except String ClearingCompressionScore :=
  if ¬ group.participantIds.Nodup then .error "duplicate_group_participants"
  else if ¬ (participantVectors.map ResidualVector.entityId).Nodup then
    .error "duplicate_participant_vector"
  else if participantVectors.length ≠ group.participantIds.length then
    .error "participant_vector_mismatch"
  else do
    let members ← group.participantIds.mapM (findVector participantVectors)
    let aggregatedResidual := sumVectorsAt precision (members.map ResidualVector.vector)
    let preNetAbsExposure :=
      addAll precision 0 ((members.flatMap ResidualVector.vector).map fun entry => |entry.2|)
    let leftOver := aggregatedResidual.filter fun entry => entry.2 ≠ 0
    let postNetAbsResidual := addAll precision 0 (leftOver.map fun entry => |entry.2|)
    let compressionScore := toSignificant precision (preNetAbsExposure - postNetAbsResidual)
    let rankingPenalty : ℚ := ((group.participantIds.length - 2 : ℕ) : ℚ) +
      ((group.uniqueLegs.length - 2 : ℕ) : ℚ) + (leftOver.length : ℚ)
    match members.map ResidualVector.createdAt with
    | [] => throw "participant_vector_mismatch"
    | createdAt :: others =>
      return { compressionScore := compressionScore
               preNetAbsExposure := preNetAbsExposure
               postNetAbsResidual := postNetAbsResidual
               rankingPenalty := rankingPenalty
               finalScore := toSignificant precision (compressionScore - rankingPenalty)
               oldestParticipantAt := others.foldl min createdAt
               participantCount := group.participantIds.length }

end At

end LotusRfq.Combo
