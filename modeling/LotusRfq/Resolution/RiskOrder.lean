import LotusRfq.Resolution.ScoringEngine

/-!
# LotusRfq — the order of resolution risk

A factor that scores more, or in which there is less confidence, is never a reason to pool.
Rounding keeps the order of what is added up, and every threshold and override of the
classification is met by the riskier of two comparisons as soon as it is met by the other.

* **`mapEquivalenceClass_mono`** — the classes of two comparisons;
* **`score_mono`** — the classes of their assessments.
-/

namespace LotusRfq.Resolution

open LotusRfq.Js Decimals
open Sor (ResolutionEquivalenceClass)
open ResolutionRiskScoringConfig (engine)

/-! ## More risk, less confidence -/

/-- How restrictive a class is. -/
def severity : ResolutionEquivalenceClass → ℕ
  | .SAFE_EQUIVALENT => 0
  | .EQUIVALENT_WITH_LAG => 1
  | .CAUTION => 2
  | .HIGH_RISK => 3
  | .DO_NOT_POOL => 4

/-- Each factor scores at least as much in the second comparison, with at most as much
confidence. -/
structure Riskier (first second : ResolutionFactorComparisonResult) : Prop where
  score : ∀ factorName, (first factorName).score ≤ (second factorName).score
  confidence : ∀ factorName, (second factorName).confidence ≤ (first factorName).confidence

section Arithmetic

variable {a b c d : ℚ}

theorem toSignificant_nonneg (h : 0 ≤ a) : 0 ≤ toSignificant precision a := by
  have hmono : toSignificant precision 0 ≤ toSignificant precision a :=
    toSignificant_mono (by decide) le_rfl h
  rwa [toSignificant_zero] at hmono

theorem plus_nonneg (ha : 0 ≤ a) (hb : 0 ≤ b) : 0 ≤ plus a b :=
  toSignificant_nonneg (add_nonneg ha hb)

theorem times_nonneg (ha : 0 ≤ a) (hb : 0 ≤ b) : 0 ≤ times a b :=
  toSignificant_nonneg (mul_nonneg ha hb)

theorem plus_mono (ha : 0 ≤ a) (hb : 0 ≤ b) (hac : a ≤ c) (hbd : b ≤ d) : plus a b ≤ plus c d :=
  toSignificant_mono (by decide) (add_nonneg ha hb) (add_le_add hac hbd)

theorem times_mono (ha : 0 ≤ a) (hb : 0 ≤ b) (hac : a ≤ c) (hbd : b ≤ d) : times a b ≤ times c d :=
  toSignificant_mono (by decide) (mul_nonneg ha hb) (mul_le_mul hac hbd hb (ha.trans hac))

theorem clampDecimal_mono (h : a ≤ b) : clampDecimal a ≤ clampDecimal b := by
  unfold clampDecimal
  split_ifs <;> linarith

end Arithmetic

namespace ResolutionRiskScoringEngine

variable {engine : ResolutionRiskScoringEngine}

/-- The sum grows with every term, whatever the weights, as long as none is negative. -/
theorem computeWeightedValue_mono (hweights : ∀ factor, 0 ≤ engine.weights factor)
    {first second : FactorName → ℚ} (hnonneg : ∀ factor, 0 ≤ first factor)
    (hle : ∀ factor, first factor ≤ second factor) : 0 ≤ engine.computeWeightedValue first ∧
      engine.computeWeightedValue first ≤ engine.computeWeightedValue second := by
  unfold computeWeightedValue
  -- over the terms still to be added, for any two sums reached so far
  suffices h : ∀ (factors : List FactorName) (acc acc' : ℚ), 0 ≤ acc → acc ≤ acc' →
      0 ≤ factors.foldl (fun acc factor => plus acc (times (engine.weights factor) (first factor)))
        acc ∧
      factors.foldl (fun acc factor => plus acc (times (engine.weights factor) (first factor)))
        acc ≤
      factors.foldl (fun acc factor => plus acc (times (engine.weights factor) (second factor)))
        acc' from h FACTOR_ORDER 0 0 le_rfl le_rfl
  intro factors
  induction factors with
  | nil => exact fun acc acc' hacc hle => ⟨hacc, hle⟩
  | cons factor factors ih =>
    intro acc acc' hacc haccle
    have hterm := times_nonneg (hweights factor) (hnonneg factor)
    exact ih _ _ (plus_nonneg hacc hterm) (plus_mono hacc hterm haccle
      (times_mono (hweights factor) (hnonneg factor) le_rfl (hle factor)))

theorem metadataCompletenessScore_mono {first second : FactorName → ℚ}
    (hle : ∀ factor, first factor ≤ second factor) : 0 ≤ metadataCompletenessScore first ∧
      metadataCompletenessScore first ≤ metadataCompletenessScore second := by
  unfold metadataCompletenessScore
  generalize FACTOR_ORDER.filter (· ≠ .historicalDivergence) = factors
  have hany : (factors.map second).any (· ≤ 2 / 5) = true →
      (factors.map first).any (· ≤ 2 / 5) = true := by
    simp only [List.any_map, List.any_eq_true, Function.comp_apply, decide_eq_true_eq]
    exact fun ⟨factor, hmem, h⟩ => ⟨factor, hmem, (hle factor).trans h⟩
  have hall : ∀ bound : ℚ, (factors.map first).all (bound ≤ ·) = true →
      (factors.map second).all (bound ≤ ·) = true := by
    intro bound
    simp only [List.all_map, List.all_eq_true, Function.comp_apply, decide_eq_true_eq]
    exact fun h factor hmem => (h factor hmem).trans (hle factor)
  have hone := hall 1
  have hthree := hall (3 / 4)
  simp only
  constructor
  · split_ifs <;> norm_num
  · split_ifs <;> simp_all
    all_goals norm_num

theorem computeConfidenceScore_mono (hweights : ∀ factor, 0 ≤ engine.weights factor)
    {first second : ResolutionFactorComparisonResult}
    (hnonneg : ∀ factor, 0 ≤ (first factor).confidence)
    (hle : ∀ factor, (first factor).confidence ≤ (second factor).confidence) :
    engine.computeConfidenceScore first ≤ engine.computeConfidenceScore second := by
  obtain ⟨hbase0, hbase⟩ := computeWeightedValue_mono hweights hnonneg hle
  obtain ⟨hmeta0, hmeta⟩ := metadataCompletenessScore_mono hle
  have hpart := times_nonneg hbase0 (by norm_num : (0 : ℚ) ≤ 7 / 10)
  have hpart' := times_nonneg hmeta0 (by norm_num : (0 : ℚ) ≤ 2 / 10)
  have hpart'' := times_nonneg (hnonneg .historicalDivergence) (by norm_num : (0 : ℚ) ≤ 1 / 10)
  apply clampDecimal_mono
  apply plus_mono (plus_nonneg hpart hpart') hpart''
  · apply plus_mono hpart hpart'
    · exact times_mono hbase0 (by norm_num) hbase le_rfl
    · exact times_mono hmeta0 (by norm_num) hmeta le_rfl
  · exact times_mono (hnonneg _) (by norm_num) (hle _) le_rfl

section Classes

variable {first second : ResolutionFactorComparisonResult}

theorem isOutcomeSymmetric_of_riskier (hriskier : Riskier first second)
    (hnonneg : ∀ factor, 0 ≤ (first factor).score)
    (h : isOutcomeSymmetric second = true) : isOutcomeSymmetric first = true := by
  have hzero : ∀ factor, (second factor).score = 0 → (first factor).score = 0 :=
    fun factor h => le_antisymm (h ▸ hriskier.score factor) (hnonneg factor)
  simp only [isOutcomeSymmetric, decide_eq_true_eq] at h ⊢
  exact ⟨hzero _ h.1, hzero _ h.2.1, hzero _ h.2.2.1, hzero _ h.2.2.2⟩

theorem classification_mono (hriskier : Riskier first second)
    (hnonneg : ∀ factor, 0 ≤ (first factor).score)
    (hle : ∀ factor, (second factor).score ≤ 1) {risk risk' : ℚ} (hrisk : risk ≤ risk') :
    severity (engine.classification risk first) ≤ severity (engine.classification risk' second) := by
  have hone : ∀ factor, (first factor).score = 1 → (second factor).score = 1 :=
    fun factor h => le_antisymm (hle factor) (h ▸ hriskier.score factor)
  have hsymmetric := isOutcomeSymmetric_of_riskier hriskier hnonneg
  have hthreshold : ∀ threshold : ℚ, risk ≥ threshold → risk' ≥ threshold :=
    fun threshold h => le_trans h hrisk
  unfold classification
  by_cases hblocked : (first .oracleMismatch).score = 1 ∨ (first .ruleMismatch).score = 1 ∨
      (first .structuralMismatch).score = 1 ∨ risk ≥ engine.thresholds.doNotPoolMinRisk
  · rw [if_pos hblocked,
      if_pos (hblocked.imp (hone _) (Or.imp (hone _) (Or.imp (hone _) (hthreshold _))))]
  · rw [if_neg hblocked]
    by_cases hcaution : risk ≥ engine.thresholds.cautionMaxRisk
    · rw [if_pos hcaution, if_pos (hthreshold _ hcaution)]
      split_ifs <;> first | decide | (exact absurd (hsymmetric ‹_›) ‹_›)
    · rw [if_neg hcaution]
      by_cases hsafe : risk ≥ engine.thresholds.safeEquivalentMaxRisk
      · rw [if_pos hsafe, if_pos (hthreshold _ hsafe)]
        split_ifs <;> first | decide | (exact absurd (hsymmetric ‹_›) ‹_›)
      · rw [if_neg hsafe]
        exact Nat.zero_le _

/-- What low confidence makes of a class is no more permissive for a more severe one. -/
theorem downgrade_mono {left right : ResolutionEquivalenceClass}
    (h : severity left ≤ severity right) :
    severity (downgrade left) ≤ severity (downgrade right) := by
  revert h
  cases left <;> cases right <;> decide

theorem severity_le_downgrade (equivalenceClass : ResolutionEquivalenceClass) :
    severity equivalenceClass ≤ severity (downgrade equivalenceClass) := by
  cases equivalenceClass <;> decide

/-- Whatever stands in for the safest class on middling confidence, low confidence is worse. -/
theorem caution_le_downgrade (equivalenceClass : ResolutionEquivalenceClass) :
    severity .CAUTION ≤ severity (downgrade equivalenceClass) := by
  cases equivalenceClass <;> decide

theorem severity_pos {equivalenceClass : ResolutionEquivalenceClass}
    (h : equivalenceClass ≠ .SAFE_EQUIVALENT) : severity .EQUIVALENT_WITH_LAG ≤
      severity equivalenceClass := by
  revert h
  cases equivalenceClass <;> decide

theorem classification_of_not_symmetric {risk : ℚ} (h : isOutcomeSymmetric first = false)
    (hsafe : engine.classification risk first ≠ .SAFE_EQUIVALENT) :
    severity .CAUTION ≤ severity (engine.classification risk first) := by
  revert hsafe
  unfold classification
  rw [h]
  split_ifs <;> simp_all [severity]

/-- **More risk and less confidence never give a more permissive class.** -/
theorem mapEquivalenceClass_mono (hriskier : Riskier first second)
    (hnonneg : ∀ factor, 0 ≤ (first factor).score)
    (hle : ∀ factor, (second factor).score ≤ 1) {risk risk' confidence confidence' : ℚ}
    (hrisk : risk ≤ risk') (hconfidence : confidence' ≤ confidence) :
    severity (engine.mapEquivalenceClass risk confidence first) ≤
      severity (engine.mapEquivalenceClass risk' confidence' second) := by
  have hclass : severity (engine.classification risk first) ≤
      severity (engine.classification risk' second) :=
    classification_mono hriskier hnonneg hle hrisk
  have hsymmetric := isOutcomeSymmetric_of_riskier hriskier hnonneg
  have hthreshold : ∀ threshold, confidence < threshold → confidence' < threshold :=
    fun threshold h => lt_of_le_of_lt hconfidence h
  unfold mapEquivalenceClass
  simp only
  by_cases hlow : engine.conservativeDowngradeOnLowConfidence = true ∧
      confidence < engine.thresholds.lowConfidenceThreshold
  · -- low confidence in both
    rw [if_pos hlow, if_pos ⟨hlow.1, hthreshold _ hlow.2⟩]
    exact downgrade_mono hclass
  · rw [if_neg hlow]
    by_cases hlow' : engine.conservativeDowngradeOnLowConfidence = true ∧
        confidence' < engine.thresholds.lowConfidenceThreshold
    · -- low confidence in the second only
      rw [if_pos hlow']
      split_ifs
      · exact le_trans (by decide) (caution_le_downgrade _)
      · exact caution_le_downgrade _
      · exact hclass.trans (severity_le_downgrade _)
    · rw [if_neg hlow']
      by_cases hmiddling : engine.classification risk first = .SAFE_EQUIVALENT ∧
          confidence < engine.thresholds.safeEquivalentMinConfidence
      · -- the first is safe but for its confidence, so the second is not safe either
        rw [if_pos hmiddling]
        by_cases hmiddling' : engine.classification risk' second = .SAFE_EQUIVALENT ∧
            confidence' < engine.thresholds.safeEquivalentMinConfidence
        · rw [if_pos hmiddling']
          split_ifs <;> first | decide | (exact absurd (hsymmetric ‹_›) ‹_›)
        · rw [if_neg hmiddling']
          have hsafe : engine.classification risk' second ≠ .SAFE_EQUIVALENT :=
            fun h => hmiddling' ⟨h, hthreshold _ hmiddling.2⟩
          by_cases hfirst : isOutcomeSymmetric first = true
          · rw [if_pos hfirst]
            exact severity_pos hsafe
          · rw [if_neg hfirst]
            have hsecond : isOutcomeSymmetric second = false := by
              cases h : isOutcomeSymmetric second with
              | false => rfl
              | true => exact absurd (hsymmetric h) hfirst
            exact classification_of_not_symmetric hsecond hsafe
      · rw [if_neg hmiddling]
        refine hclass.trans ?_
        split_ifs with hsecond
        · rw [hsecond.1]
          exact Nat.zero_le _
        · rw [hsecond.1]
          exact Nat.zero_le _
        · exact le_rfl

end Classes

section

variable {runtime : Runtime} {input : ResolutionRiskScoringInput}
  {assessment : ResolutionRiskAssessment} (h : score runtime engine input = .ok assessment)

include h

theorem valid_of_score (factor : FactorName) : validFactor (input.factorComparison factor) := by
  unfold score validateInput at h
  simp only [bind_assoc, require_bind] at h
  refine h.2.2.1 factor ?_
  cases factor <;> decide

theorem equivalenceClass_of_score : assessment.equivalenceClass =
      if input.profileA.market runtime ≠ input.profileB.market runtime then .DO_NOT_POOL
      else engine.mapEquivalenceClass
        (engine.computeWeightedValue fun factor => (input.factorComparison factor).score)
        (engine.computeConfidenceScore input.factorComparison) input.factorComparison := by
  unfold score validateInput at h
  simp only [bind_assoc, require_bind] at h
  obtain ⟨-, -, -, h⟩ := h
  split at h
  · rename_i hmarkets
    rw [if_pos hmarkets]
    cases h
    rfl
  · rename_i hmarkets
    rw [if_neg hmarkets]
    cases h
    rfl

end

/-- **Monotone.** Of two comparisons of a pair, the one with no less risk in any factor and no
more confidence is not classed more permissively. -/
theorem score_mono (hweights : ∀ factorName, 0 ≤ engine.weights factorName)
    {runtime : Runtime} {input : ResolutionRiskScoringInput}
    {second : ResolutionFactorComparisonResult} (hriskier : Riskier input.factorComparison second)
    {assessment assessment' : ResolutionRiskAssessment}
    (hscore : score runtime engine input = .ok assessment)
    (hscore' : score runtime engine { input with factorComparison := second } = .ok assessment') :
    severity assessment.equivalenceClass ≤ severity assessment'.equivalenceClass := by
  have hvalid := valid_of_score hscore
  have hvalid' : ∀ factorName, validFactor (second factorName) := valid_of_score hscore'
  rw [equivalenceClass_of_score hscore, equivalenceClass_of_score hscore']
  split_ifs
  · exact le_rfl
  · apply mapEquivalenceClass_mono hriskier (fun factorName => (hvalid factorName).1)
      fun factorName => (hvalid' factorName).2.1
    · exact (computeWeightedValue_mono hweights (fun factorName => (hvalid factorName).1)
        hriskier.score).2
    · exact computeConfidenceScore_mono hweights (fun factorName => (hvalid' factorName).2.2.1)
        hriskier.confidence

end ResolutionRiskScoringEngine

open ResolutionRiskScoringEngine

/-! ## One event, two venues -/

def asciiRuntime : Runtime :=
  { toLowerCase := String.toLower
    toUpperCase := String.toUpper
    isLetterOrNumber := Char.isAlphanum
    localeCompare := compare
    newDecimal := fun text => (decimalLiteral text.toList).map fun value => ⟨false, value⟩ }

def winnerProfile (id venue lag : String) : NormalizedResolutionProfile :=
  { id := id
    venue := some venue
    canonicalEventId := "event"
    canonicalMarketId := some ("winner:" ++ venue)
    oracleType := some "feed"
    oracleName := none
    resolutionAuthorityType := some "league"
    primaryResolutionText := some "the winner"
    supplementalRulesText := none
    disputeWindowHours := some "2"
    settlementLagHours := some lag
    marketType := some "binary"
    outcomeSchema := some (.object [])
    historicalDivergenceRate := none }

/-- The factors of two profiles that name different oracles to some degree. -/
def oracleFactors (oracleScore : ℚ) : ResolutionFactorComparisonResult
  | .oracleMismatch => ⟨oracleScore, 1, none⟩
  | _ => ⟨0, 1, none⟩

def winnerInput (oracleScore : ℚ) : ResolutionRiskScoringInput :=
  { canonicalEventId := "event"
    profileA := winnerProfile "a" "OPINION" "1"
    profileB := winnerProfile "b" "MYRIAD" "25"
    factorComparison := oracleFactors oracleScore
    version := "v1" }

theorem oracleFactors_riskier {score score' : ℚ} (h : score ≤ score') :
    Riskier (oracleFactors score) (oracleFactors score') where
  score factor := by
    cases factor <;> first | exact h | exact le_rfl
  confidence factor := by
    cases factor <;> exact le_rfl

/-- Another oracle name on the second venue: no more permissive than one oracle. -/
theorem score_mono_winner : ∃ assessment assessment',
      score asciiRuntime (engine ⟨none, none, none⟩) (winnerInput 0) = .ok assessment ∧
      score asciiRuntime (engine ⟨none, none, none⟩) (winnerInput (1 / 2)) = .ok assessment' ∧
      severity assessment.equivalenceClass ≤ severity assessment'.equivalenceClass := by
  have hvalid : validateInput (winnerInput 0) = .ok () := by decide +kernel
  have hvalid' : validateInput (winnerInput (1 / 2)) = .ok () := by decide +kernel
  obtain ⟨assessment, hscore⟩ := score_of_valid asciiRuntime (engine ⟨none, none, none⟩) hvalid
  obtain ⟨assessment', hscore'⟩ := score_of_valid asciiRuntime (engine ⟨none, none, none⟩) hvalid'
  refine ⟨assessment, assessment', hscore, hscore', score_mono ?_ ?_ hscore hscore'⟩
  · intro factorName
    cases factorName <;> decide +kernel
  · exact oracleFactors_riskier (by norm_num)

end LotusRfq.Resolution
