import LotusRfq.Common.StableJson
import LotusRfq.Lib.Decimals
import LotusRfq.Lib.OrderedMap

/-!
# LotusRfq — `ResolutionPairComparator`

Two resolution profiles of one event are compared factor by factor: who resolves the market, by
which rules and wording, when it settles, how it is built and how often it resolved differently
before. Every factor gets a score, the confidence in it and a reason.

The tables of Unicode, the collation and the numbers `decimal.js` reads from a text are the
runtime's.

* **`compareProfiles_comm`** — the comparison is the same either way round, its errors included.
-/

namespace LotusRfq.Resolution

open LotusRfq.Js

/-! ## Profiles and factors -/

structure NormalizedResolutionProfile where
  id : String
  venue : Option String
  canonicalEventId : String
  canonicalMarketId : Option String
  oracleType : Option String
  oracleName : Option String
  resolutionAuthorityType : Option String
  primaryResolutionText : Option String
  supplementalRulesText : Option String
  disputeWindowHours : Option String
  settlementLagHours : Option String
  marketType : Option String
  outcomeSchema : Option JsValue
  historicalDivergenceRate : Option String

structure ResolutionFactorComparison where
  score : ℚ
  confidence : ℚ
  reason : Option String

inductive FactorName where
  | oracleMismatch
  | ruleMismatch
  | wordingAmbiguity
  | disputeWindowMismatch
  | settlementLagMismatch
  | structuralMismatch
  | historicalDivergence
  deriving DecidableEq

abbrev ResolutionFactorComparisonResult : Type := FactorName → ResolutionFactorComparison

inductive ComparisonCode where
  | canonical_event_mismatch
  | invalid_resolution_profile
  | invalid_outcome_schema
  | invalid_numeric_resolution_profile

/-- A finite `Decimal`; zero has a sign too. -/
structure DecimalValue where
  negative : Bool
  value : ℚ

structure Runtime where
  toLowerCase : String → String
  toUpperCase : String → String
  /-- `\p{L}` or `\p{N}`. -/
  isLetterOrNumber : Char → Bool
  localeCompare : String → String → Ordering
  /-- `new Decimal(text)`, when that is finite. -/
  newDecimal : String → Option DecimalValue

variable (runtime : Runtime)

/-! ## Texts -/

/-- Every longest run of the characters becomes one replacement. -/
def replaceRuns (inRun : Char → Bool) (replacement : Char) : List Char → List Char
  | [] => []
  | c :: rest =>
    if ¬ inRun c then c :: replaceRuns inRun replacement rest
    else if rest.head?.any inRun then replaceRuns inRun replacement rest
    else replacement :: replaceRuns inRun replacement rest

def normalizeText (text : String) : String :=
  let spaced := (runtime.toLowerCase text).toList.map fun c =>
    if runtime.isLetterOrNumber c ∨ isTrimmed c then c else ' '
  trim (String.ofList (replaceRuns isTrimmed ' ' spaced))

/-- `[...new Set(items)]`. -/
def distinct {α : Type} [DecidableEq α] (items : List α) : List α :=
  items.foldl OrderedMap.addNew []

def tokenizeText (text : String) : List String :=
  let normalized := normalizeText runtime text
  if normalized = "" then []
  else
    let tokens := (normalized.toList.splitOn ' ').map String.ofList
    sortWith runtime.localeCompare (distinct (tokens.filter (· ≠ "")))

def computeTokenOverlap (left right : List String) : ℚ :=
  if left = [] ∨ right = [] then 0
  else
    let intersectionSize := (left.filter (· ∈ right)).length
    let unionSize := (distinct (left ++ right)).length
    if unionSize = 0 then 0 else intersectionSize / unionSize

/-! ## Outcome schemas -/

/-- The number of an array index, the keys an object lists first. -/
def arrayIndex (key : Text) : Option ℕ :=
  (digits 10 key).filter fun n => n < 2 ^ 32 - 1 ∧ (key = ['0'] ∨ key.head? ≠ some '0')

/-- The entries of `Object.fromEntries(entries)`, in the order of its keys. -/
def fromEntries (entries : List (Text × JsValue)) : List (Text × JsValue) :=
  sortWith (fun left right => compare (arrayIndex left.1) (arrayIndex right.1))
    (entries.filter fun entry => (arrayIndex entry.1).isSome) ++
  entries.filter fun entry => (arrayIndex entry.1).isNone

/-- `localeCompare` on the keys of entries. -/
def compareKeys : Text → Text → Ordering :=
  fun left right => runtime.localeCompare (String.ofList left) (String.ofList right)

mutual

def sortJsonValue : JsValue → JsValue
  | .array items => .array (sortJsonValues items)
  | .object entries => .object (fromEntries (sortWith (byKey (compareKeys runtime))
      (sortJsonEntries entries)))
  | value => value

def sortJsonValues : List JsValue → List JsValue
  | [] => []
  | item :: rest => sortJsonValue item :: sortJsonValues rest

def sortJsonEntries : List (Text × JsValue) → List (Text × JsValue)
  | [] => []
  | (key, entry) :: rest => (key, sortJsonValue entry) :: sortJsonEntries rest

end

mutual

/-- `JSON.stringify(value)`. -/
def stringify : JsValue → Option Text
  | .undefined => none
  | .null | .nonFinite => some "null".toList
  | .bool b => some (if b then "true" else "false").toList
  | .number n => some n.text
  | .string text => some (quote text)
  | .array items => some ('[' :: (joined (stringifyElements items) ++ [']']))
  | .object entries => some ('{' :: (joined (stringifyMembers entries) ++ ['}']))

def stringifyElements : List JsValue → List Text
  | [] => []
  | item :: rest => (stringify item).getD "null".toList :: stringifyElements rest

def stringifyMembers : List (Text × JsValue) → List Text
  | [] => []
  | (key, entry) :: rest =>
    match stringify entry with
    | none => stringifyMembers rest
    | some text => (quote key ++ ':' :: text) :: stringifyMembers rest

end

def canonicalizeOutcomeSchema (schema : Option JsValue) : Except ComparisonCode (Option Text) :=
  match schema with
  | some (.object entries) => .ok (stringify (sortJsonValue runtime (.object entries)))
  | _ => .error .invalid_outcome_schema

/-! ## Checks -/

def requireString (value : Option String) : Except ComparisonCode Unit :=
  require (value.any hasText) .invalid_resolution_profile

def parseOptionalDecimal (value : Option String) : Except ComparisonCode (Option DecimalValue) :=
  match value with
  | none => .ok none
  | some value =>
    match runtime.newDecimal value with
    | none => .error .invalid_numeric_resolution_profile
    | some decimal =>
      if decimal.negative then .error .invalid_numeric_resolution_profile else .ok (some decimal)

def onBoth {α : Type} (check : NormalizedResolutionProfile → Except ComparisonCode α)
    (profileA profileB : NormalizedResolutionProfile) : Except ComparisonCode Unit := do
  let _ ← check profileA
  let _ ← check profileB

def validateProfiles (profileA profileB : NormalizedResolutionProfile) :
    Except ComparisonCode Unit := do
  require (profileA.canonicalEventId = profileB.canonicalEventId) .canonical_event_mismatch
  onBoth (fun profile => requireString profile.oracleType) profileA profileB
  onBoth (fun profile => requireString profile.resolutionAuthorityType) profileA profileB
  onBoth (fun profile => requireString profile.primaryResolutionText) profileA profileB
  onBoth (fun profile => requireString profile.marketType) profileA profileB
  onBoth (fun profile => canonicalizeOutcomeSchema runtime profile.outcomeSchema)
    profileA profileB
  onBoth (fun profile => parseOptionalDecimal runtime profile.disputeWindowHours)
    profileA profileB
  onBoth (fun profile => parseOptionalDecimal runtime profile.settlementLagHours)
    profileA profileB
  onBoth (fun profile => parseOptionalDecimal runtime profile.historicalDivergenceRate)
    profileA profileB

/-! ## Factors -/

def makeComparison (score confidence : ℚ) (reason : String) : ResolutionFactorComparison :=
  { score := score, confidence := confidence
    reason := if reason = "" then none else some reason }

def compareOracle (profileA profileB : NormalizedResolutionProfile) : ResolutionFactorComparison :=
  let typeA := normalizeText runtime (profileA.oracleType.getD "")
  let typeB := normalizeText runtime (profileB.oracleType.getD "")
  let nameA := (profileA.oracleName.filter (· ≠ "")).map (normalizeText runtime)
  let nameB := (profileB.oracleName.filter (· ≠ "")).map (normalizeText runtime)
  if typeA ≠ typeB then makeComparison 1 1 "oracle type differs"
  else if nameA = nameB ∧ nameA ≠ none then makeComparison 0 1 "oracle type and name match"
  else if nameA = none ∧ nameB = none then
    makeComparison (1 / 2) (1 / 2) "oracle names are missing; compared oracle type only"
  else if nameA = none ∨ nameB = none then
    makeComparison (1 / 2) (3 / 4) "one oracle name is missing"
  else makeComparison (1 / 2) 1 "oracle type matches but oracle name differs"

def compareRuleText (left right : Option String) : ResolutionFactorComparison :=
  match left, right with
  | none, none => makeComparison 0 (4 / 5) "supplemental rules are absent on both profiles"
  | some _, none | none, some _ =>
    makeComparison (1 / 2) (1 / 2) "supplemental rules are missing on one profile"
  | some left, some right =>
    if normalizeText runtime left = normalizeText runtime right then
      makeComparison 0 1 "resolution authority and supplemental rules match"
    else
      let overlap := computeTokenOverlap (tokenizeText runtime left) (tokenizeText runtime right)
      if overlap ≥ 4 / 5 then
        makeComparison 0 1 "supplemental rules are effectively identical"
      else if overlap ≥ 2 / 5 then
        makeComparison (1 / 2) 1 "supplemental rules partially overlap"
      else makeComparison (1 / 2) 1 "supplemental rules materially differ"

def compareRules (profileA profileB : NormalizedResolutionProfile) : ResolutionFactorComparison :=
  let authorityA := normalizeText runtime (profileA.resolutionAuthorityType.getD "")
  let authorityB := normalizeText runtime (profileB.resolutionAuthorityType.getD "")
  if authorityA ≠ authorityB then makeComparison 1 1 "resolution authority differs"
  else compareRuleText runtime profileA.supplementalRulesText profileB.supplementalRulesText

def compareWording (profileA profileB : NormalizedResolutionProfile) : ResolutionFactorComparison :=
  let textA := profileA.primaryResolutionText.getD ""
  let textB := profileB.primaryResolutionText.getD ""
  if normalizeText runtime textA = normalizeText runtime textB then
    makeComparison 0 1 "primary resolution wording matches"
  else
    let overlap := computeTokenOverlap (tokenizeText runtime textA) (tokenizeText runtime textB)
    if overlap ≥ 4 / 5 then
      makeComparison 0 1 "primary resolution wording is effectively identical"
    else if overlap ≥ 2 / 5 then
      makeComparison (1 / 2) 1 "primary resolution wording partially overlaps"
    else makeComparison 1 1 "primary resolution wording materially diverges"

/-- The significant digits `Decimal` keeps. -/
def precision : ℕ := 20

def compareOptionalHours (left right : Option String) (label : String) :
    Except ComparisonCode ResolutionFactorComparison := do
  let leftValue ← parseOptionalDecimal runtime left
  let rightValue ← parseOptionalDecimal runtime right
  match leftValue, rightValue with
  | some leftValue, some rightValue =>
    let difference := |Decimals.toSignificant precision (leftValue.value - rightValue.value)|
    if difference = 0 then return makeComparison 0 1 (label ++ " matches")
    else if difference ≤ 24 then
      return makeComparison (1 / 2) 1 (label ++ " differs within 24 hours")
    else return makeComparison 1 1 (label ++ " differs by more than 24 hours")
  | _, _ =>
    return makeComparison 0 (2 / 5) (label ++ " metadata missing on one or both profiles")

def compareStructure (profileA profileB : NormalizedResolutionProfile) :
    Except ComparisonCode ResolutionFactorComparison := do
  let marketTypeA := normalizeText runtime (profileA.marketType.getD "")
  let marketTypeB := normalizeText runtime (profileB.marketType.getD "")
  if marketTypeA ≠ marketTypeB then return makeComparison 1 1 "market type differs"
  else
    let schemaA ← canonicalizeOutcomeSchema runtime profileA.outcomeSchema
    let schemaB ← canonicalizeOutcomeSchema runtime profileB.outcomeSchema
    if schemaA = schemaB then
      return makeComparison 0 1 "market type and outcome schema match"
    else return makeComparison (1 / 2) 1 "market type matches but outcome schema differs"

def divergenceFactor (maxValue confidence : ℚ) : ResolutionFactorComparison :=
  if maxValue < 1 / 100 then makeComparison 0 confidence "historical divergence is below 1%"
  else if maxValue < 5 / 100 then
    makeComparison (1 / 2) confidence "historical divergence is between 1% and 5%"
  else makeComparison 1 confidence "historical divergence is 5% or higher"

def compareHistoricalDivergence (profileA profileB : NormalizedResolutionProfile) :
    Except ComparisonCode ResolutionFactorComparison := do
  let leftValue ← parseOptionalDecimal runtime profileA.historicalDivergenceRate
  let rightValue ← parseOptionalDecimal runtime profileB.historicalDivergenceRate
  match leftValue, rightValue with
  | none, none =>
    return makeComparison 0 (3 / 10) "historical divergence is unavailable on both profiles"
  | some value, none | none, some value => return divergenceFactor value.value (7 / 10)
  | some leftValue, some rightValue =>
    return divergenceFactor (max leftValue.value rightValue.value) 1

/-- `compare`. -/
def compareProfiles (profileA profileB : NormalizedResolutionProfile) :
    Except ComparisonCode ResolutionFactorComparisonResult := do
  validateProfiles runtime profileA profileB
  let disputeWindow ← compareOptionalHours runtime profileA.disputeWindowHours
    profileB.disputeWindowHours "dispute window"
  let settlementLag ← compareOptionalHours runtime profileA.settlementLagHours
    profileB.settlementLagHours "settlement lag"
  let structural ← compareStructure runtime profileA profileB
  let historical ← compareHistoricalDivergence runtime profileA profileB
  return fun
    | .oracleMismatch => compareOracle runtime profileA profileB
    | .ruleMismatch => compareRules runtime profileA profileB
    | .wordingAmbiguity => compareWording runtime profileA profileB
    | .disputeWindowMismatch => disputeWindow
    | .settlementLagMismatch => settlementLag
    | .structuralMismatch => structural
    | .historicalDivergence => historical

/-! ## Either way round -/

section Symmetry

def FailsWith {ε α : Type} (error : ε) (computation : Except ε α) : Prop :=
  ∀ other, computation = .error other → other = error

theorem bind_comm {ε α β γ : Type} {error : ε} {first : Except ε α} {second : Except ε β}
    (hfirst : FailsWith error first) (hsecond : FailsWith error second)
    (rest : α → β → Except ε γ) : (do let a ← first; let b ← second; rest a b) =
      (do let b ← second; let a ← first; rest a b) := by
  cases first with
  | ok a => cases second <;> rfl
  | error e =>
    cases second with
    | ok b => rfl
    | error e' =>
      have he := hfirst e rfl
      have he' := hsecond e' rfl
      subst he he'
      rfl

theorem requireString_failsWith (value : Option String) :
    FailsWith .invalid_resolution_profile (requireString value) := by
  intro other h
  unfold requireString require at h
  split at h
  · cases h
  · cases h
    rfl

variable {runtime : Runtime}

theorem canonicalizeOutcomeSchema_failsWith (schema : Option JsValue) :
    FailsWith .invalid_outcome_schema (canonicalizeOutcomeSchema runtime schema) := by
  intro other h
  unfold canonicalizeOutcomeSchema at h
  split at h
  · cases h
  · cases h
    rfl

theorem parseOptionalDecimal_failsWith (value : Option String) :
    FailsWith .invalid_numeric_resolution_profile (parseOptionalDecimal runtime value) := by
  intro other h
  unfold parseOptionalDecimal at h
  split at h
  · cases h
  · split at h
    · cases h
      rfl
    · split at h
      · cases h
        rfl
      · cases h

theorem onBoth_comm {α : Type} {check : NormalizedResolutionProfile → Except ComparisonCode α}
    {error : ComparisonCode} (hcheck : ∀ profile, FailsWith error (check profile))
    (profileA profileB : NormalizedResolutionProfile) :
    onBoth check profileA profileB = onBoth check profileB profileA :=
  bind_comm (hcheck profileA) (hcheck profileB) fun _ _ => .ok ()

variable (profileA profileB : NormalizedResolutionProfile)

theorem validateProfiles_comm :
    validateProfiles runtime profileA profileB = validateProfiles runtime profileB profileA := by
  have hevent : require (profileA.canonicalEventId = profileB.canonicalEventId)
        ComparisonCode.canonical_event_mismatch =
      require (profileB.canonicalEventId = profileA.canonicalEventId)
        .canonical_event_mismatch := by
    unfold require
    simp only [eq_comm]
  unfold validateProfiles
  rw [hevent]
  iterate 4 rw [onBoth_comm (fun _ => requireString_failsWith _) profileA profileB]
  rw [onBoth_comm (fun _ => canonicalizeOutcomeSchema_failsWith _) profileA profileB]
  iterate 3 rw [onBoth_comm (fun _ => parseOptionalDecimal_failsWith _) profileA profileB]

/-! ### Texts -/

theorem mem_distinct {α : Type} [DecidableEq α] {items : List α} {x : α} :
    x ∈ distinct items ↔ x ∈ items := by
  unfold distinct
  rw [OrderedMap.mem_foldl_addNew]
  simp

theorem nodup_distinct {α : Type} [DecidableEq α] (items : List α) : (distinct items).Nodup :=
  OrderedMap.nodup_foldl_addNew items List.nodup_nil

theorem nodup_tokenizeText (text : String) : (tokenizeText runtime text).Nodup := by
  unfold tokenizeText
  simp only
  split
  · exact List.nodup_nil
  · exact (sortWith_perm _ _).nodup_iff.mpr (nodup_distinct _)

theorem computeTokenOverlap_comm {left right : List String} (hleft : left.Nodup)
    (hright : right.Nodup) : computeTokenOverlap left right = computeTokenOverlap right left := by
  have hshared : (left.filter (· ∈ right)).length = (right.filter (· ∈ left)).length := by
    apply List.Perm.length_eq
    rw [List.perm_ext_iff_of_nodup (hleft.filter _) (hright.filter _)]
    intro token
    simp [and_comm]
  have hunion : (distinct (left ++ right)).length = (distinct (right ++ left)).length := by
    apply List.Perm.length_eq
    rw [List.perm_ext_iff_of_nodup (nodup_distinct _) (nodup_distinct _)]
    intro token
    simp [mem_distinct, or_comm]
  unfold computeTokenOverlap
  simp only [hshared, hunion, or_comm]

theorem overlap_comm (left right : String) :
    computeTokenOverlap (tokenizeText runtime left) (tokenizeText runtime right) =
      computeTokenOverlap (tokenizeText runtime right) (tokenizeText runtime left) :=
  computeTokenOverlap_comm (nodup_tokenizeText left) (nodup_tokenizeText right)

/-! ### Factors -/

theorem compareOracle_comm :
    compareOracle runtime profileA profileB = compareOracle runtime profileB profileA := by
  unfold compareOracle
  simp only
  generalize normalizeText runtime (profileA.oracleType.getD "") = typeA
  generalize normalizeText runtime (profileB.oracleType.getD "") = typeB
  generalize (profileA.oracleName.filter (· ≠ "")).map (normalizeText runtime) = nameA
  generalize (profileB.oracleName.filter (· ≠ "")).map (normalizeText runtime) = nameB
  by_cases htype : typeA = typeB
  · subst htype
    cases nameA with
    | none => cases nameB <;> rfl
    | some nameA =>
      cases nameB with
      | none => rfl
      | some nameB => simp [eq_comm]
  · rw [if_pos htype, if_pos (Ne.symm htype)]

theorem compareRuleText_comm (left right : Option String) :
    compareRuleText runtime left right = compareRuleText runtime right left := by
  cases left with
  | none => cases right <;> rfl
  | some left =>
    cases right with
    | none => rfl
    | some right =>
      simp only [compareRuleText]
      rw [overlap_comm left right]
      simp only [eq_comm]

theorem compareRules_comm :
    compareRules runtime profileA profileB = compareRules runtime profileB profileA := by
  unfold compareRules
  simp only
  rw [compareRuleText_comm]
  simp only [ne_eq, eq_comm]

theorem compareWording_comm :
    compareWording runtime profileA profileB = compareWording runtime profileB profileA := by
  unfold compareWording
  simp only
  rw [overlap_comm]
  simp only [eq_comm]

theorem abs_difference_comm (left right : ℚ) :
    |Decimals.toSignificant precision (left - right)| =
      |Decimals.toSignificant precision (right - left)| := by
  rw [← neg_sub right left, Decimals.toSignificant_neg, abs_neg]

theorem compareOptionalHours_comm (left right : Option String) (label : String) :
    compareOptionalHours runtime left right label =
      compareOptionalHours runtime right left label := by
  unfold compareOptionalHours
  rw [bind_comm (parseOptionalDecimal_failsWith left) (parseOptionalDecimal_failsWith right)]
  congr 1
  funext rightValue
  congr 1
  funext leftValue
  cases leftValue with
  | none => cases rightValue <;> rfl
  | some leftValue =>
    cases rightValue with
    | none => rfl
    | some rightValue =>
      simp only
      rw [abs_difference_comm]

theorem compareStructure_comm :
    compareStructure runtime profileA profileB = compareStructure runtime profileB profileA := by
  unfold compareStructure
  simp only
  rw [bind_comm (canonicalizeOutcomeSchema_failsWith profileA.outcomeSchema)
    (canonicalizeOutcomeSchema_failsWith profileB.outcomeSchema)]
  simp only [ne_eq, eq_comm]

theorem compareHistoricalDivergence_comm :
    compareHistoricalDivergence runtime profileA profileB =
      compareHistoricalDivergence runtime profileB profileA := by
  unfold compareHistoricalDivergence
  rw [bind_comm (parseOptionalDecimal_failsWith profileA.historicalDivergenceRate)
    (parseOptionalDecimal_failsWith profileB.historicalDivergenceRate)]
  congr 1
  funext rightValue
  congr 1
  funext leftValue
  cases leftValue with
  | none => cases rightValue <;> rfl
  | some leftValue =>
    cases rightValue with
    | none => rfl
    | some rightValue =>
      simp only
      rw [max_comm]

/-- **Either way round.** Comparing two profiles does not depend on their order. -/
theorem compareProfiles_comm :
    compareProfiles runtime profileA profileB = compareProfiles runtime profileB profileA := by
  unfold compareProfiles
  rw [validateProfiles_comm, compareOptionalHours_comm profileA.disputeWindowHours,
    compareOptionalHours_comm profileA.settlementLagHours, compareStructure_comm,
    compareHistoricalDivergence_comm, compareOracle_comm, compareRules_comm, compareWording_comm]

end Symmetry

end LotusRfq.Resolution
