import Mathlib.Data.List.Pairwise
import Mathlib.Tactic.FinCases
import LotusRfq.Sor.SplitterLimits

/-!
# LotusRfq — fail-closed pooling isolation

Two candidates share a leg only on positive evidence. The splitter checks each candidate against
all the ones used before it, the router files a decision for every pair, and a decision that
does not keep a pair apart rests on equal resolution profiles or on a persisted assessment. A
profile, an assessment or an answer of the database that is missing is never evidence.

* **`pooled_on_evidence`** — the statement for every leg the router allocates.
-/

namespace LotusRfq.Sor

open LotusRfq.Js List

variable {localeCompare : String → String → Ordering}
variable {Uuid : Type} [DecidableEq Uuid] {column : UuidColumn Uuid}
variable {deps : ResolutionRiskDeps Uuid}

/-- What may justify sizes for two candidates of one leg: both name a resolution profile, and
the profiles are equal or a row of the assessment table about the two, in the service's version
and for the market, has a poolable class. -/
def PooledOnEvidence (column : UuidColumn Uuid) (deps : ResolutionRiskDeps Uuid)
    (canonicalMarketId : String) (left right : RouteCandidate) : Prop :=
  ∃ leftProfileId rightProfileId,
    getResolutionProfileId left = some leftProfileId ∧
    getResolutionProfileId right = some rightProfileId ∧
    (leftProfileId = rightProfileId ∨
      ∃ service rows, deps.resolutionRiskReadService = some service ∧
        service.rows = some rows ∧
        ∃ row ∈ rows, row.version = service.version ∧
          row.isAbout column leftProfileId rightProfileId ∧
          row.canonical_market_id = canonicalMarketId ∧
          row.equivalence_class.poolable)

omit [DecidableEq Uuid] in
theorem PooledOnEvidence.symm {canonicalMarketId : String} {left right : RouteCandidate}
    (h : PooledOnEvidence column deps canonicalMarketId left right) :
    PooledOnEvidence column deps canonicalMarketId right left := by
  obtain ⟨leftProfileId, rightProfileId, hleft, hright, hevidence⟩ := h
  refine ⟨rightProfileId, leftProfileId, hright, hleft, ?_⟩
  rcases hevidence with h | ⟨service, rows, hservice, hrows, row, hrow, hversion, habout, hrest⟩
  · exact Or.inl h.symm
  · exact Or.inr ⟨service, rows, hservice, hrows, row, hrow, hversion, habout.symm, hrest⟩

variable {scoredCandidates : List CandidateScore} {targetSize : ℚ}

/-- The candidates a returned allocation names are pairwise compatible, in their order. -/
theorem allocations_compatible {options : SplitOptions} {allocations : List SplitAllocation}
    (hreturns : SplitReturns localeCompare options scoredCandidates targetSize allocations) :
    (allocations.map (·.candidateId)).Pairwise
      (Compatible localeCompare options.resolutionRisk) := by
  have horder : ((candidateOrder localeCompare options scoredCandidates).map
      (·.candidate.candidateId)).Pairwise (Compatible localeCompare options.resolutionRisk) :=
    (selectionOrder_compatible _ _).1
  rw [allocations_eq hreturns]
  exact horder.sublist (candidateId_initial _ _).sublist

theorem pairwise_either {α : Type} {R : α → α → Prop} {items : List α}
    (h : items.Pairwise R) {a b : α} (ha : a ∈ items) (hb : b ∈ items) (hne : a ≠ b) :
    R a b ∨ R b a := by
  have hsymm : Std.Symm fun x y => R x y ∨ R y x := ⟨fun _ _ h => h.symm⟩
  have hpairwise : items.Pairwise fun x y => R x y ∨ R y x := h.imp fun h => Or.inl h
  exact hpairwise.forall ha hb hne

theorem candidateId_mem_scored {options : SplitOptions} {allocations : List SplitAllocation}
    (hreturns : SplitReturns localeCompare options scoredCandidates targetSize allocations)
    {allocation : SplitAllocation} (h : allocation ∈ allocations) :
    ∃ score ∈ scoredCandidates, score.candidateId = allocation.candidateId := by
  have hmem : allocation.candidateId ∈ (candidateOrder localeCompare options
      scoredCandidates).map (·.candidate.candidateId) := by
    rw [allocations_eq hreturns] at h
    exact (candidateId_initial _ _).sublist.subset (mem_map_of_mem h)
  obtain ⟨entry, hentry, hid⟩ := mem_map.mp hmem
  have hinit := (selectionOrder_ids [] _).2 entry hentry
  have hscored : ∀ (ids seen : List String) (id : String),
      id ∈ ids.foldl OrderedMap.addNew seen → id ∈ seen ∨ id ∈ ids := by
    intro ids
    induction ids with
    | nil => exact fun seen id h => Or.inl h
    | cons x ids ih =>
      intro seen id h
      rcases ih _ id h with h | h
      · rcases OrderedMap.mem_addNew.mp h with h | rfl
        · exact Or.inl h
        · exact Or.inr mem_cons_self
      · exact Or.inr (mem_cons_of_mem _ h)
  rcases hscored _ _ _ hinit with h | h
  · simp at h
  · obtain ⟨score, hscore, hsame⟩ := mem_map.mp h
    exact ⟨score, hscore, hsame.trans hid⟩

/-- Candidates that share an identifier-distinct list can be told apart and compared. -/
structure WellIdentified (localeCompare : String → String → Ordering)
    (candidates : List RouteCandidate) : Prop where
  distinct : (candidates.map (·.id)).Nodup
  noSeparator : ∀ candidate ∈ candidates, NoSeparator candidate.id
  ordered : ∀ a ∈ candidates, ∀ b ∈ candidates, Orders localeCompare a.id b.id

/-- **One leg.** Two candidates with sizes in a leg have a filed decision that does not keep
them apart, and evidence for it. -/
theorem leg_pooled_on_evidence {policy : SORAcceptancePolicy} {canonicalMarketId : String}
    {legCandidates : List RouteCandidate} {result : LegResult}
    (henabled : deps.poolingPolicyEnabled) (hmarket : canonicalMarketId ≠ "")
    (hids : WellIdentified localeCompare legCandidates)
    (hleg : LegAllocates localeCompare column deps scoredCandidates targetSize policy
      canonicalMarketId legCandidates result) {a b : SplitAllocation}
    (ha : a ∈ result.allocations) (hb : b ∈ result.allocations)
    (hne : a.candidateId ≠ b.candidateId) :
    ∃ left ∈ legCandidates, ∃ right ∈ legCandidates,
      left.id = a.candidateId ∧ right.id = b.candidateId ∧
      (∃ decision, result.resolutionRiskPairPolicies.lookup
          (resolutionRiskCandidatePairKey localeCompare a.candidateId b.candidateId) =
            some decision ∧ decision.forbids = false) ∧
      PooledOnEvidence column deps canonicalMarketId left right := by
  obtain ⟨-, resolutionRisk, hcontext, hreturns, -, hpolicies, -⟩ := hleg
  obtain ⟨scoreA, hscoreA, hidA⟩ := candidateId_mem_scored hreturns ha
  obtain ⟨scoreB, hscoreB, hidB⟩ := candidateId_mem_scored hreturns hb
  obtain ⟨left, hleft, hleftId⟩ := mem_legScores hscoreA
  obtain ⟨right, hright, hrightId⟩ := mem_legScores hscoreB
  rw [hidA] at hleftId
  rw [hidB] at hrightId
  have hne' : left.id ≠ right.id := by rw [hleftId, hrightId]; exact hne
  have hcomm := resolutionRiskCandidatePairKey_comm (hids.ordered left hleft right hright)
  -- the pair is filed under its key, whichever way round the loops met it
  obtain ⟨pair, hpair, hkey, hevidence⟩ : ∃ pair ∈ candidatePairs legCandidates,
      keyOf localeCompare pair = resolutionRiskCandidatePairKey localeCompare left.id right.id ∧
      (PooledOnEvidence column deps canonicalMarketId pair.1 pair.2 →
        PooledOnEvidence column deps canonicalMarketId left right) := by
    rcases mem_candidatePairs hids.distinct hleft hright hne' with h | h
    · exact ⟨_, h, rfl, id⟩
    · exact ⟨_, h, hcomm.symm, PooledOnEvidence.symm⟩
  obtain ⟨assessments, pairPolicies, hfetch, rfl, hlookup⟩ :=
    lookup_pairPolicies hids.distinct hids.noSeparator hcontext hpair
  rw [hkey] at hlookup
  -- the later of the two was checked against the earlier one under the same key
  have hforbids : (pairDecision localeCompare deps canonicalMarketId assessments
      pair).forbids = false := by
    have hboth := pairwise_either (allocations_compatible hreturns) (mem_map_of_mem ha)
      (mem_map_of_mem hb) hne
    rw [← hleftId, ← hrightId] at hboth
    rcases hboth with h | h
    · exact h pairPolicies _ rfl (hcomm ▸ hlookup)
    · exact h pairPolicies _ rfl hlookup
  refine ⟨left, hleft, right, hright, hleftId, hrightId, ⟨_, ?_, hforbids⟩, hevidence ?_⟩
  · rw [hpolicies, ← hleftId, ← hrightId]
    exact hlookup
  · obtain ⟨p, q, hp, hq, hrest⟩ := pairDecision_pooled henabled hmarket hforbids
    refine ⟨p, q, hp, hq, hrest.imp_right ?_⟩
    rintro ⟨assessment, hassessment, hsame, hclass⟩
    obtain ⟨service, rows, hservice, hrows, row, hrow, hversion, habout, rfl⟩ :=
      fetchAssessments_persisted hfetch hassessment
    exact ⟨service, rows, hservice, hrows, row, hrow, hversion, habout, hsame, hclass⟩

theorem WellIdentified.leg {routeCandidates legCandidates : List RouteCandidate}
    (h : WellIdentified localeCompare routeCandidates)
    (hleg : legCandidates.Sublist routeCandidates) :
    WellIdentified localeCompare legCandidates where
  distinct := h.distinct.sublist (hleg.map _)
  noSeparator := fun candidate hc => h.noSeparator candidate (hleg.subset hc)
  ordered := fun a ha b hb => h.ordered a (hleg.subset ha) b (hleg.subset hb)

/-- **Fail-closed pooling.** While pooling policy is enabled, in every leg the router allocates
two different candidates get sizes only if the decision filed for the pair does not keep them
apart, and only on evidence: equal profiles, or a persisted assessment for the market in a
poolable class. -/
theorem pooled_on_evidence {scoredCandidates : List CandidateScore} {targetSize : ℚ}
    {policy : SORAcceptancePolicy} {canonicalMarketId : String}
    {routeCandidates : List RouteCandidate} {results : List LegResult}
    (henabled : deps.poolingPolicyEnabled) (hmarket : canonicalMarketId ≠ "")
    (hids : WellIdentified localeCompare routeCandidates)
    (hallocates : AllocatesByLeg localeCompare column deps scoredCandidates targetSize policy
      canonicalMarketId routeCandidates results) :
    ∀ result ∈ results, ∃ leg ∈ candidatesByLeg routeCandidates,
      ∀ a ∈ result.allocations, ∀ b ∈ result.allocations, a.candidateId ≠ b.candidateId →
        ∃ left ∈ leg.2, ∃ right ∈ leg.2, left.id = a.candidateId ∧ right.id = b.candidateId ∧
          (∃ decision, result.resolutionRiskPairPolicies.lookup
              (resolutionRiskCandidatePairKey localeCompare a.candidateId b.candidateId) =
                some decision ∧ decision.mode ≠ .blocked ∧ decision.mode ≠ .isolated_only) ∧
          PooledOnEvidence column deps canonicalMarketId left right := by
  intro result hresult
  obtain ⟨candidates, hcandidates, hleg⟩ := hallocates.result_of_leg result hresult
  obtain ⟨leg, hmem, rfl⟩ := mem_map.mp hcandidates
  refine ⟨leg, hmem, fun a ha b hb hne => ?_⟩
  obtain ⟨left, hleft, right, hright, hleftId, hrightId, ⟨decision, hlookup, hforbids⟩,
    hevidence⟩ := leg_pooled_on_evidence henabled hmarket
      (hids.leg (candidatesByLeg_sublist routeCandidates leg hmem)) hleg ha hb hne
  have hmodes : decision.mode ≠ .blocked ∧ decision.mode ≠ .isolated_only := by
    simpa [ResolutionRiskRoutingDecision.forbids] using hforbids
  exact ⟨left, hleft, right, hright, hleftId, hrightId, ⟨decision, hlookup, hmodes⟩, hevidence⟩

/-! ## A pair pooled with caution -/

section Caution

def plainColumn : UuidColumn { value : String // NoSeparator value } where
  parse := fun value =>
    if h : '|' ∉ value.toList then some ⟨value, h⟩ else none
  text := Subtype.val
  text_noSeparator := Subtype.property

def profileA : { value : String // NoSeparator value } :=
  ⟨"5d1b4f0a-0000-4000-8000-000000000001", by unfold NoSeparator; decide⟩

def profileB : { value : String // NoSeparator value } :=
  ⟨"5d1b4f0a-0000-4000-8000-000000000002", by unfold NoSeparator; decide⟩

def cautionDeps : ResolutionRiskDeps { value : String // NoSeparator value } where
  resolutionRiskPenalty := none
  resolutionRiskReadService := some
    { rows := some [⟨"market", profileA, profileB, .CAUTION, "v1", none⟩], version := "v1" }
  resolutionRiskPolicyService := some .enabled

def firstCandidate : RouteCandidate :=
  ⟨"a", "leg", "venue-1", 5, some [("resolution_profile_id", .text profileA.val)]⟩

def secondCandidate : RouteCandidate :=
  ⟨"b", "leg", "venue-2", 3, some [("resolution_profile_id", .text profileB.val)]⟩

def cautionScores : List CandidateScore := [⟨"a", "venue-1", 1⟩, ⟨"b", "venue-2", 2⟩]

def cautionDecision : ResolutionRiskRoutingDecision :=
  ⟨.penalty, 5 / 100, some "resolution_risk_caution", some .CAUTION⟩

theorem caution_context : buildResolutionRiskContext compare plainColumn cautionDeps
      [firstCandidate, secondCandidate] "market" = .ok (some [("a|b", cautionDecision)]) := by
  rfl

def cautionAllocations : List SplitAllocation :=
  [⟨"a", "venue-1", 5, 5, 1⟩, ⟨"b", "venue-2", 3, 3, 2 + 5 / 100⟩]

def cautionOptions : SplitOptions :=
  legOptions [firstCandidate, secondCandidate] (some [("a|b", cautionDecision)])

def cautionResult : LegResult where
  allocations := cautionAllocations
  resolutionRiskPairPolicies := [("a|b", cautionDecision)]
  splitEligibilityDecisions := [splitEligibility ("a|b", cautionDecision)]

/-- The splitter gives 5 to the first candidate and 3 to the second, at a higher price. -/
theorem caution_returns : SplitReturns compare cautionOptions cautionScores 8
    cautionAllocations := by
  have hchunk : cautionOptions.minChunkSize = 1 / 1000000 := rfl
  have htick : cautionOptions.tickSize = 1 / 1000000 := rfl
  have hcapacityA : providerCapacity cautionOptions ⟨"a", "venue-1", 1⟩ = 5 := rfl
  have hcapacityB : providerCapacity cautionOptions ⟨"b", "venue-2", 2⟩ = 3 := rfl
  have hunused : ∀ id, evaluatePairingDecision compare id [] cautionOptions.resolutionRisk =
      ⟨false, 0⟩ := fun _ => rfl
  have hpenalty : evaluatePairingDecision compare "b" ["a"] cautionOptions.resolutionRisk =
      ⟨false, 5 / 100⟩ := by
    simp [evaluatePairingDecision, cautionOptions, legOptions, pairingLoop,
      resolutionRiskCandidatePairKey, cautionDecision, show compare "b" "a" = .gt by decide]
  have hcheap : compareSortable compare ⟨⟨"a", "venue-1", 1⟩, ⟨false, 0⟩, 1⟩
      ⟨⟨"b", "venue-2", 2⟩, ⟨false, 0⟩, 2⟩ = .lt := by norm_num [compareSortable]
  have hfirst : splitStep compare cautionOptions cautionScores (splitInit cautionScores 8) =
      some ⟨3, [⟨"a", "venue-1", 5, 5, 1⟩], ["b"]⟩ := by
    simp [splitStep, splitInit, cautionScores, OrderedMap.addNew, sortableCandidates, hunused,
      sortWith, hcapacityA, hchunk, htick, roundDownToTick, OrderedMap.delete, hcheap]
    norm_num
  have hsecond : splitStep compare cautionOptions cautionScores
      ⟨3, [⟨"a", "venue-1", 5, 5, 1⟩], ["b"]⟩ = some ⟨0, cautionAllocations, []⟩ := by
    simp [splitStep, cautionScores, sortableCandidates, hpenalty, sortWith, hcapacityB, hchunk,
      htick, roundDownToTick, cautionAllocations, OrderedMap.delete]
    norm_num
  refine ⟨?_, ⟨0, cautionAllocations, []⟩,
    .next hfirst (.next hsecond (.stop (splitStep_filled (le_refl 0)))), rfl⟩
  rw [valid_iff, hchunk, htick]
  refine ⟨by norm_num, by norm_num, fun entry hentry => ?_⟩
  have hentries : cautionOptions.perProviderCapacity = [("venue-1", 5), ("venue-2", 3)] := rfl
  rw [hentries] at hentry
  fin_cases hentry <;> norm_num

/-- Both candidates of the leg are allocated, on the word of the `CAUTION` row. -/
theorem caution_pooled_on_evidence :
    PooledOnEvidence plainColumn cautionDeps "market" firstCandidate secondCandidate := by
  have hids : WellIdentified compare [firstCandidate, secondCandidate] := by
    refine ⟨by decide, ?_, ?_⟩
    · intro candidate hcandidate
      fin_cases hcandidate <;> (unfold NoSeparator; decide)
    · intro a ha b hb
      fin_cases ha <;> fin_cases hb <;> (unfold Orders; decide)
  have hlegs : candidatesByLeg [firstCandidate, secondCandidate] =
      [("leg", [firstCandidate, secondCandidate])] := rfl
  have hscores : legScores cautionScores [firstCandidate, secondCandidate] = cautionScores := rfl
  have hleg : LegAllocates compare plainColumn cautionDeps cautionScores 8 .PARTIAL_ALLOWED
      "market" [firstCandidate, secondCandidate] cautionResult := by
    unfold LegAllocates
    rw [hscores]
    refine ⟨by simp [cautionScores], _, caution_context, caution_returns, ?_, rfl, rfl⟩
    rintro ⟨hpolicy, -⟩
    cases hpolicy
  have hallocates : AllocatesByLeg compare plainColumn cautionDeps cautionScores 8
      .PARTIAL_ALLOWED "market" [firstCandidate, secondCandidate] [cautionResult] := by
    unfold AllocatesByLeg
    rw [hlegs]
    exact .cons hleg .nil
  obtain ⟨leg, hmem, hpooled⟩ := pooled_on_evidence (Or.inr rfl) (by decide) hids hallocates
    cautionResult mem_cons_self
  rw [hlegs] at hmem
  obtain rfl := mem_singleton.mp hmem
  obtain ⟨left, hleft, right, hright, hleftId, hrightId, -, hevidence⟩ :=
    hpooled ⟨"a", "venue-1", 5, 5, 1⟩ mem_cons_self
      ⟨"b", "venue-2", 3, 3, 2 + 5 / 100⟩ (mem_cons_of_mem _ mem_cons_self) (by decide)
  have hleft' : left = firstCandidate := by
    fin_cases hleft
    · rfl
    · exact absurd hleftId (by decide)
  have hright' : right = secondCandidate := by
    fin_cases hright
    · exact absurd hrightId (by decide)
    · rfl
  rwa [hleft', hright'] at hevidence

end Caution

end LotusRfq.Sor
