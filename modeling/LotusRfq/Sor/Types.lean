import LotusRfq.Common.Js

/-!
# LotusRfq — routing data

The records the order router passes to its splitter, and the pair decisions of the resolution
risk policy. A candidate's pair key is the same text for both orders of the pair, provided
`localeCompare` orders the two identifiers and neither contains the separator:
**`resolutionRiskCandidatePairKey_comm`** and **`resolutionRiskCandidatePairKey_inj`**.
-/

namespace LotusRfq.Sor

open LotusRfq.Js

/-- A value of the free-form `metadata` record: a string, or something else. -/
inductive MetadataValue where
  | text (value : String)
  | other
  deriving DecidableEq

structure RouteCandidate where
  id : String
  leg_id : String
  provider_id : String
  available_size : ℚ
  metadata : Option (List (String × MetadataValue))
  deriving DecidableEq

structure CandidateScore where
  candidateId : String
  providerId : String
  effectiveUnitCost : ℚ

structure SplitAllocation where
  candidateId : String
  providerId : String
  targetSize : ℚ
  roundedSize : ℚ
  targetPrice : ℚ
  deriving DecidableEq

inductive ResolutionEquivalenceClass where
  | SAFE_EQUIVALENT
  | EQUIVALENT_WITH_LAG
  | CAUTION
  | HIGH_RISK
  | DO_NOT_POOL
  deriving DecidableEq

inductive ResolutionRiskRoutingMode where
  | normal
  | penalty
  | isolated_only
  | blocked
  deriving DecidableEq

structure ResolutionRiskRoutingDecision where
  mode : ResolutionRiskRoutingMode
  penalty : ℚ
  reason : Option String
  equivalenceClass : Option ResolutionEquivalenceClass

/-- The candidate's resolution profile, when the metadata names one that is not blank. -/
def getResolutionProfileId (candidate : RouteCandidate) : Option String :=
  match candidate.metadata.bind (·.lookup "resolution_profile_id") with
  | some (.text value) => if hasText value then some value else none
  | _ => none

/-- The text two candidates' decision is filed under. -/
def resolutionRiskCandidatePairKey (localeCompare : String → String → Ordering)
    (candidateAId candidateBId : String) : String :=
  if localeCompare candidateAId candidateBId ≠ .gt then candidateAId ++ "|" ++ candidateBId
  else candidateBId ++ "|" ++ candidateAId

def decisionFromEquivalenceClass (equivalenceClass : ResolutionEquivalenceClass)
    (cautionPenalty : ℚ) (liquidityCost : Option ℚ) : ResolutionRiskRoutingDecision :=
  match equivalenceClass with
  | .SAFE_EQUIVALENT =>
    { mode := .normal, penalty := 0, reason := none, equivalenceClass := some equivalenceClass }
  | .EQUIVALENT_WITH_LAG =>
    { mode := .penalty, penalty := liquidityCost.getD 0
      reason := some "settlement_lag_liquidity_premium"
      equivalenceClass := some equivalenceClass }
  | .CAUTION =>
    { mode := .penalty, penalty := cautionPenalty, reason := some "resolution_risk_caution"
      equivalenceClass := some equivalenceClass }
  | .HIGH_RISK =>
    { mode := .isolated_only, penalty := 0, reason := some "resolution_risk_high_risk"
      equivalenceClass := some equivalenceClass }
  | .DO_NOT_POOL =>
    { mode := .blocked, penalty := 0, reason := some "resolution_risk_do_not_pool"
      equivalenceClass := some equivalenceClass }

/-- A decision under which two candidates may not share a leg. -/
def ResolutionRiskRoutingDecision.forbids (decision : ResolutionRiskRoutingDecision) : Bool :=
  decision.mode = .blocked ∨ decision.mode = .isolated_only

theorem forbids_decisionFromEquivalenceClass (equivalenceClass : ResolutionEquivalenceClass)
    (cautionPenalty : ℚ) (liquidityCost : Option ℚ) :
    (decisionFromEquivalenceClass equivalenceClass cautionPenalty liquidityCost).forbids = true ↔
      equivalenceClass = .HIGH_RISK ∨ equivalenceClass = .DO_NOT_POOL := by
  cases equivalenceClass <;>
    simp [decisionFromEquivalenceClass, ResolutionRiskRoutingDecision.forbids]

/-! ## Pair keys -/

/-- A comparison of the two strings that is consistent and tells them apart. -/
def Orders (localeCompare : String → String → Ordering) (a b : String) : Prop :=
  localeCompare a b = (localeCompare b a).swap ∧ (localeCompare a b = .eq → a = b)

theorem resolutionRiskCandidatePairKey_comm {localeCompare : String → String → Ordering}
    {a b : String} (h : Orders localeCompare a b) :
    resolutionRiskCandidatePairKey localeCompare a b =
      resolutionRiskCandidatePairKey localeCompare b a := by
  obtain ⟨hswap, heq⟩ := h
  unfold resolutionRiskCandidatePairKey
  cases hba : localeCompare b a with
  | lt => simp [hswap, hba]
  | gt => simp [hswap, hba]
  | eq => simp [heq (by rw [hswap, hba]; rfl)]

/-- Two texts joined by a separator neither contains come apart at it and nowhere else. -/
theorem append_separator_inj {a b c d : List Char} {sep : Char} (ha : sep ∉ a) (hb : sep ∉ b)
    (h : a ++ sep :: b = c ++ sep :: d) : a = c ∧ b = d := by
  rcases List.append_eq_append_iff.mp h with ⟨t, hc, hb'⟩ | ⟨t, ha', hd⟩
  · cases t with
    | nil => exact ⟨by simpa using hc.symm, by simpa using hb'⟩
    | cons x t =>
      -- the cut would be further right, inside `b`
      obtain ⟨-, rfl⟩ := List.cons.inj hb'
      exact absurd (by simp) hb
  · cases t with
    | nil => exact ⟨by simpa using ha', by simpa using hd.symm⟩
    | cons x t =>
      -- the cut would be further left, inside `a`
      obtain ⟨rfl, -⟩ := List.cons.inj hd
      exact absurd (by simp [ha']) ha

/-- An identifier without the separator of pair keys. -/
def NoSeparator (id : String) : Prop := '|' ∉ id.toList

theorem append_bar_inj {a b c d : String} (ha : NoSeparator a) (hb : NoSeparator b)
    (h : a ++ "|" ++ b = c ++ "|" ++ d) : a = c ∧ b = d := by
  have hlist := congrArg String.toList h
  simp only [String.toList_append, List.append_assoc] at hlist
  obtain ⟨hac, hbd⟩ := append_separator_inj ha hb hlist
  exact ⟨String.toList_inj.mp hac, String.toList_inj.mp hbd⟩

theorem resolutionRiskCandidatePairKey_inj {localeCompare : String → String → Ordering}
    {a b c d : String} (ha : NoSeparator a) (hb : NoSeparator b)
    (h : resolutionRiskCandidatePairKey localeCompare a b =
      resolutionRiskCandidatePairKey localeCompare c d) : (a = c ∧ b = d) ∨ (a = d ∧ b = c) := by
  unfold resolutionRiskCandidatePairKey at h
  split at h <;> split at h
  · exact Or.inl (append_bar_inj ha hb h)
  · exact Or.inr (append_bar_inj ha hb h)
  · exact Or.inr (append_bar_inj hb ha h).symm
  · exact Or.inl (append_bar_inj hb ha h).symm

end LotusRfq.Sor
