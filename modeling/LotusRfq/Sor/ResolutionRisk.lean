import LotusRfq.Lib.OrderedMap
import LotusRfq.Sor.Types

/-!
# LotusRfq — pair policies from resolution risk

`buildResolutionRiskContext` files a routing decision for every pair of a leg's candidates:
from their resolution profiles where these are missing or equal, and otherwise from the
persisted assessments of `ResolutionRiskReadService`.

The database is outside the program. A `UuidColumn` is what the read service relies on of a
column of type `uuid`: which texts it accepts, and what it prints, which never contains the
separator of pair keys. A query with a text the column rejects fails, and so does a query the
database does not answer.

* **`lookup_pairPolicies`** — the decision filed for a pair is `pairDecision` of that pair;
* **`pairDecision_pooled`** — it allows pooling only for equal profiles or on the word of a
  persisted assessment.
-/

namespace LotusRfq.Sor

open LotusRfq.Js List

/-! ## The assessment store -/

/-- A `uuid` column: its input syntax and its output text. -/
structure UuidColumn (Uuid : Type) where
  parse : String → Option Uuid
  text : Uuid → String
  text_noSeparator : ∀ id, NoSeparator (text id)

structure ResolutionRiskAssessmentRow (Uuid : Type) where
  canonical_market_id : String
  market_a_profile_id : Uuid
  market_b_profile_id : Uuid
  equivalence_class : ResolutionEquivalenceClass
  version : String
  liquidity_cost : Option ℚ

structure ResolutionRiskAssessment where
  canonicalMarketId : String
  marketAProfileId : String
  marketBProfileId : String
  equivalenceClass : ResolutionEquivalenceClass
  liquidityCost : Option ℚ

/-- The read service with the table behind it; `rows` is `none` while the database does not
answer. -/
structure ResolutionRiskReadService (Uuid : Type) where
  rows : Option (List (ResolutionRiskAssessmentRow Uuid))
  version : String

section ReadService

variable (localeCompare : String → String → Ordering)

def canonicalizePair (profileAId profileBId : String) : String × String :=
  if localeCompare profileAId profileBId ≠ .gt then (profileAId, profileBId)
  else (profileBId, profileAId)

def pairKey (profileAId profileBId : String) : String :=
  let ordered := canonicalizePair localeCompare profileAId profileBId
  ordered.1 ++ "|" ++ ordered.2

/-- The loop of `dedupeOrderedPairs`, over the keys seen so far. -/
def dedupeOrderedPairs : List (String × String) → List String → List (String × String)
  | [], _ => []
  | pair :: pairs, seen =>
    let ordered := canonicalizePair localeCompare pair.1 pair.2
    let key := pairKey localeCompare ordered.1 ordered.2
    if key ∈ seen then dedupeOrderedPairs pairs seen
    else ordered :: dedupeOrderedPairs pairs (OrderedMap.addNew seen key)

variable {Uuid : Type} [DecidableEq Uuid] (column : UuidColumn Uuid)

/-- The query parameters of the pairs, as the database reads them. -/
def parsePairs : List (String × String) → Option (List (Uuid × Uuid))
  | [] => some []
  | pair :: pairs => do
    let a ← column.parse pair.1
    let b ← column.parse pair.2
    let rest ← parsePairs pairs
    return (a, b) :: rest

def mapAssessmentRow (row : ResolutionRiskAssessmentRow Uuid) : ResolutionRiskAssessment :=
  { canonicalMarketId := row.canonical_market_id
    marketAProfileId := column.text row.market_a_profile_id
    marketBProfileId := column.text row.market_b_profile_id
    equivalenceClass := row.equivalence_class
    liquidityCost := row.liquidity_cost }

/-- `getAssessmentsByProfilePairs`: the rows of the pairs and the service's version, filed under
their pair keys; a later row replaces an earlier one. -/
def getAssessmentsByProfilePairs (service : ResolutionRiskReadService Uuid)
    (pairs : List (String × String)) : Except String (List (String × ResolutionRiskAssessment)) :=
  let orderedPairs := dedupeOrderedPairs localeCompare pairs []
  if orderedPairs = [] then .ok []
  else
    match parsePairs column orderedPairs, service.rows with
    | none, _ => .error "invalid input syntax for type uuid"
    | some _, none => .error "query failed"
    | some wanted, some rows =>
      let result := rows.filter fun row =>
        (row.market_a_profile_id, row.market_b_profile_id) ∈ wanted ∧
          row.version = service.version
      .ok (result.foldl (fun assessments row =>
        let assessment := mapAssessmentRow column row
        OrderedMap.set
          (pairKey localeCompare assessment.marketAProfileId assessment.marketBProfileId)
          assessment assessments) [])

end ReadService

/-! ## The context -/

inductive RolloutMode where
  | disabled
  | shadow
  | enabled
  deriving DecidableEq

/-- The dependencies of the router that decide about pooling. -/
structure ResolutionRiskDeps (Uuid : Type) where
  resolutionRiskPenalty : Option ℚ
  resolutionRiskReadService : Option (ResolutionRiskReadService Uuid)
  resolutionRiskPolicyService : Option RolloutMode

/-- `evaluateSORDecision`: what is enforced of an intended decision. -/
def evaluateSORDecision (mode : RolloutMode) (intendedDecision : ResolutionRiskRoutingMode) :
    ResolutionRiskRoutingMode :=
  if mode = .enabled then intendedDecision else .normal

def applyResolutionRiskPolicy (policyService : Option RolloutMode)
    (decision : ResolutionRiskRoutingDecision)
    (equivalenceClass : Option ResolutionEquivalenceClass) : ResolutionRiskRoutingDecision :=
  match policyService with
  | none => decision
  | some mode =>
    match evaluateSORDecision mode decision.mode with
    | .normal => { mode := .normal, penalty := 0, reason := none, equivalenceClass := none }
    | .penalty => decision
    | .blocked =>
      { mode := .blocked, penalty := 0, reason := decision.reason
        equivalenceClass := equivalenceClass }
    | .isolated_only =>
      { mode := .isolated_only, penalty := 0, reason := decision.reason
        equivalenceClass := equivalenceClass }

/-- The pairs of two nested loops, `cursor` starting after `index`. -/
def candidatePairs : List RouteCandidate → List (RouteCandidate × RouteCandidate)
  | [] => []
  | left :: candidates =>
    candidates.map (fun right => (left, right)) ++ candidatePairs candidates

def isolatedOnly (reason : String) : ResolutionRiskRoutingDecision :=
  { mode := .isolated_only, penalty := 0, reason := some reason, equivalenceClass := none }

section Context

variable (localeCompare : String → String → Ordering) {Uuid : Type}

def keyOf (pair : RouteCandidate × RouteCandidate) : String :=
  resolutionRiskCandidatePairKey localeCompare pair.1.id pair.2.id

/-- What the first pass files for a pair: profiles missing, or the same. -/
def profileDecision (deps : ResolutionRiskDeps Uuid) (pair : RouteCandidate × RouteCandidate) :
    Option ResolutionRiskRoutingDecision :=
  match getResolutionProfileId pair.1, getResolutionProfileId pair.2 with
  | some leftProfileId, some rightProfileId =>
    if leftProfileId = rightProfileId then
      some { mode := .normal, penalty := 0, reason := none
             equivalenceClass := some .SAFE_EQUIVALENT }
    else none
  | _, _ =>
    some (applyResolutionRiskPolicy deps.resolutionRiskPolicyService
      (isolatedOnly "missing_resolution_profile_id") none)

/-- The pairs the first pass leaves to the read service. -/
def profilePairsToFetch (pairs : List (RouteCandidate × RouteCandidate)) : List (String × String) :=
  pairs.filterMap fun pair =>
    match getResolutionProfileId pair.1, getResolutionProfileId pair.2 with
    | some leftProfileId, some rightProfileId =>
      if leftProfileId = rightProfileId then none else some (leftProfileId, rightProfileId)
    | _, _ => none

/-- What the second pass files for a pair the first one left open. -/
def assessedDecision (deps : ResolutionRiskDeps Uuid) (canonicalMarketId : String)
    (assessments : List (String × ResolutionRiskAssessment))
    (pair : RouteCandidate × RouteCandidate) : ResolutionRiskRoutingDecision :=
  let apply := applyResolutionRiskPolicy deps.resolutionRiskPolicyService
  match getResolutionProfileId pair.1, getResolutionProfileId pair.2 with
  | some leftProfileId, some rightProfileId =>
    match assessments.lookup (pairKey localeCompare leftProfileId rightProfileId) with
    | none =>
      apply (isolatedOnly (if deps.resolutionRiskReadService.isSome
        then "missing_resolution_risk_assessment" else "resolution_risk_unavailable")) none
    | some assessment =>
      if canonicalMarketId ≠ "" ∧ assessment.canonicalMarketId ≠ canonicalMarketId then
        apply (isolatedOnly ("identity_mismatch: expected " ++ canonicalMarketId ++ ", found " ++
          assessment.canonicalMarketId)) none
      else
        apply (decisionFromEquivalenceClass assessment.equivalenceClass
          (deps.resolutionRiskPenalty.getD (5 / 100)) assessment.liquidityCost)
          (some assessment.equivalenceClass)
  | _, _ => apply (isolatedOnly "missing_resolution_profile_id") none

variable [DecidableEq Uuid] (column : UuidColumn Uuid)

/-- The assessments the second pass looks up. -/
def fetchAssessments (deps : ResolutionRiskDeps Uuid) (pairs : List (String × String)) :
    Except String (List (String × ResolutionRiskAssessment)) :=
  match deps.resolutionRiskReadService with
  | none => .ok []
  | some service => getAssessmentsByProfilePairs localeCompare column service pairs

/-- `buildResolutionRiskContext`: the pair policies, or none when there is nothing to pair. -/
def buildResolutionRiskContext (deps : ResolutionRiskDeps Uuid)
    (candidates : List RouteCandidate) (canonicalMarketId : String) :
    Except String (Option (List (String × ResolutionRiskRoutingDecision))) :=
  if candidates.length < 2 then .ok none
  else
    let pairs := candidatePairs candidates
    let pairPolicies := OrderedMap.fill (keyOf localeCompare) (profileDecision deps) pairs []
    match fetchAssessments localeCompare column deps (profilePairsToFetch pairs) with
    | .error message => .error message
    | .ok assessments =>
      let pairPolicies := OrderedMap.fillMissing (keyOf localeCompare)
        (assessedDecision localeCompare deps canonicalMarketId assessments) pairs pairPolicies
      .ok (if pairPolicies = [] then none else some pairPolicies)

end Context

/-! ## Every pair has its decision -/

section Pairs

variable {localeCompare : String → String → Ordering}

theorem mem_candidatePairs {candidates : List RouteCandidate}
    (hids : (candidates.map (·.id)).Nodup) {a b : RouteCandidate} (ha : a ∈ candidates)
    (hb : b ∈ candidates) (hne : a.id ≠ b.id) :
    (a, b) ∈ candidatePairs candidates ∨ (b, a) ∈ candidatePairs candidates := by
  induction candidates with
  | nil => simp at ha
  | cons c candidates ih =>
    rw [map_cons, nodup_cons] at hids
    simp only [candidatePairs, mem_append, mem_map, Prod.mk.injEq]
    rcases mem_cons.mp ha with rfl | ha' <;> rcases mem_cons.mp hb with rfl | hb'
    · exact absurd rfl hne
    · exact Or.inl (Or.inl ⟨b, hb', rfl, rfl⟩)
    · exact Or.inr (Or.inl ⟨a, ha', rfl, rfl⟩)
    · exact (ih hids.2 ha' hb').imp Or.inr Or.inr

theorem mem_of_mem_candidatePairs {candidates : List RouteCandidate}
    {pair : RouteCandidate × RouteCandidate} (h : pair ∈ candidatePairs candidates) :
    pair.1 ∈ candidates ∧ pair.2 ∈ candidates := by
  induction candidates with
  | nil => simp [candidatePairs] at h
  | cons c candidates ih =>
    rcases mem_append.mp h with h | h
    · obtain ⟨right, hright, rfl⟩ := mem_map.mp h
      exact ⟨mem_cons_self, mem_cons_of_mem _ hright⟩
    · exact ⟨mem_cons_of_mem _ (ih h).1, mem_cons_of_mem _ (ih h).2⟩

theorem keys_nodup (localeCompare : String → String → Ordering)
    {candidates : List RouteCandidate} (hids : (candidates.map (·.id)).Nodup)
    (hsep : ∀ candidate ∈ candidates, NoSeparator candidate.id) :
    ((candidatePairs candidates).map (keyOf localeCompare)).Nodup := by
  induction candidates with
  | nil => exact nodup_nil
  | cons c candidates ih =>
    rw [map_cons, nodup_cons] at hids
    have hrest := fun d hd => hsep d (mem_cons_of_mem _ hd)
    have hc := hsep c mem_cons_self
    have hfresh : ∀ d ∈ candidates, c.id ≠ d.id := fun d hd h =>
      hids.1 (h ▸ mem_map_of_mem hd)
    rw [candidatePairs, map_append, map_map, nodup_append]
    refine ⟨?_, ih hids.2 hrest, ?_⟩
    · -- the keys of `c` with the candidates after it
      have hinj : ∀ x ∈ candidates, ∀ y ∈ candidates,
          keyOf localeCompare (c, x) = keyOf localeCompare (c, y) → x.id = y.id := by
        intro x hx y hy h
        rcases resolutionRiskCandidatePairKey_inj hc (hrest x hx) h with ⟨-, h⟩ | ⟨h, -⟩
        · exact h
        · exact absurd h (hfresh y hy)
      rw [nodup_map_iff_inj_on (List.Nodup.of_map _ hids.2)]
      exact fun x hx y hy h => inj_on_of_nodup_map hids.2 hx hy (hinj x hx y hy h)
    · intro k hk k' hk' heq
      obtain ⟨x, hx, rfl⟩ := mem_map.mp hk
      obtain ⟨pair, hpair, rfl⟩ := mem_map.mp hk'
      obtain ⟨hleft, hright⟩ := mem_of_mem_candidatePairs hpair
      rcases resolutionRiskCandidatePairKey_inj hc (hrest x hx) heq with ⟨h, -⟩ | ⟨h, -⟩
      · exact hfresh _ hleft h
      · exact hfresh _ hright h

def pairDecision (localeCompare : String → String → Ordering) {Uuid : Type}
    (deps : ResolutionRiskDeps Uuid) (canonicalMarketId : String)
    (assessments : List (String × ResolutionRiskAssessment))
    (pair : RouteCandidate × RouteCandidate) : ResolutionRiskRoutingDecision :=
  (profileDecision deps pair).getD
    (assessedDecision localeCompare deps canonicalMarketId assessments pair)

/-- **Every pair is decided.** When the context is built for two or more candidates, the read
service has answered and every pair is filed with its decision. -/
theorem lookup_pairPolicies {Uuid : Type} [DecidableEq Uuid] {column : UuidColumn Uuid}
    {deps : ResolutionRiskDeps Uuid} {candidates : List RouteCandidate} {canonicalMarketId : String}
    {context : Option (List (String × ResolutionRiskRoutingDecision))}
    (hids : (candidates.map (·.id)).Nodup)
    (hsep : ∀ candidate ∈ candidates, NoSeparator candidate.id)
    (hbuild : buildResolutionRiskContext localeCompare column deps candidates
      canonicalMarketId = .ok context)
    {pair : RouteCandidate × RouteCandidate} (hpair : pair ∈ candidatePairs candidates) :
    ∃ assessments pairPolicies, fetchAssessments localeCompare column deps
        (profilePairsToFetch (candidatePairs candidates)) = .ok assessments ∧
      context = some pairPolicies ∧
      pairPolicies.lookup (keyOf localeCompare pair) =
        some (pairDecision localeCompare deps canonicalMarketId assessments pair) := by
  have hkeys := keys_nodup localeCompare hids hsep
  unfold buildResolutionRiskContext at hbuild
  split at hbuild
  · -- one candidate makes no pair
    rename_i hshort
    exfalso
    match candidates, hshort, hpair with
    | [], _, hpair => simp [candidatePairs] at hpair
    | [_], _, hpair => simp [candidatePairs] at hpair
  · cases hfetch : fetchAssessments localeCompare column deps
        (profilePairsToFetch (candidatePairs candidates)) with
    | error message => simp [hfetch] at hbuild
    | ok assessments =>
      simp only [hfetch, Except.ok.injEq] at hbuild
      have hlookup := OrderedMap.lookup_fillMissing
        (assessedDecision localeCompare deps canonicalMarketId assessments) hkeys hpair
        (OrderedMap.fill (keyOf localeCompare) (profileDecision deps)
          (candidatePairs candidates) [])
      rw [OrderedMap.lookup_fill _ hkeys hpair, lookup_nil, Option.or_none] at hlookup
      refine ⟨assessments, _, rfl, ?_, hlookup⟩
      rw [← hbuild, if_neg]
      intro hempty
      rw [hempty] at hlookup
      simp at hlookup

end Pairs

/-! ## What a decision to pool rests on -/

section Pooled

variable {localeCompare : String → String → Ordering} {Uuid : Type}

/-- Pooling policy is enabled: no policy service is wired in, or its rollout mode enforces. -/
def ResolutionRiskDeps.poolingPolicyEnabled (deps : ResolutionRiskDeps Uuid) : Prop :=
  deps.resolutionRiskPolicyService = none ∨ deps.resolutionRiskPolicyService = some .enabled

section

variable {deps : ResolutionRiskDeps Uuid} (henabled : deps.poolingPolicyEnabled)
  (decision : ResolutionRiskRoutingDecision)
  (equivalenceClass : Option ResolutionEquivalenceClass)

include henabled decision equivalenceClass

theorem mode_applyResolutionRiskPolicy :
    (applyResolutionRiskPolicy deps.resolutionRiskPolicyService decision
      equivalenceClass).mode = decision.mode := by
  rcases henabled with h | h
  · rw [h]
    rfl
  · rw [h]
    cases hmode : decision.mode <;> simp [applyResolutionRiskPolicy, evaluateSORDecision, hmode]

theorem forbids_applyResolutionRiskPolicy :
    (applyResolutionRiskPolicy deps.resolutionRiskPolicyService decision
      equivalenceClass).forbids = decision.forbids := by
  rw [ResolutionRiskRoutingDecision.forbids, ResolutionRiskRoutingDecision.forbids,
    mode_applyResolutionRiskPolicy henabled]

end

@[simp] theorem forbids_isolatedOnly (reason : String) : (isolatedOnly reason).forbids = true := by
  simp [isolatedOnly, ResolutionRiskRoutingDecision.forbids]

/-- A class two candidates may be pooled under. -/
def ResolutionEquivalenceClass.poolable (equivalenceClass : ResolutionEquivalenceClass) : Prop :=
  equivalenceClass = .SAFE_EQUIVALENT ∨ equivalenceClass = .EQUIVALENT_WITH_LAG ∨
    equivalenceClass = .CAUTION

/-- **A pooled pair.** A decision that does not keep the pair apart comes from equal profiles,
or from an assessment found under the pair's key, for the market, in a poolable class. -/
theorem pairDecision_pooled {deps : ResolutionRiskDeps Uuid}
    (henabled : deps.poolingPolicyEnabled) {canonicalMarketId : String}
    (hmarket : canonicalMarketId ≠ "") {assessments : List (String × ResolutionRiskAssessment)}
    {pair : RouteCandidate × RouteCandidate}
    (hpooled : (pairDecision localeCompare deps canonicalMarketId assessments pair).forbids =
      false) :
    ∃ leftProfileId rightProfileId, getResolutionProfileId pair.1 = some leftProfileId ∧
      getResolutionProfileId pair.2 = some rightProfileId ∧
      (leftProfileId = rightProfileId ∨ ∃ assessment,
        assessments.lookup (pairKey localeCompare leftProfileId rightProfileId) = some assessment ∧
        assessment.canonicalMarketId = canonicalMarketId ∧
        assessment.equivalenceClass.poolable) := by
  unfold pairDecision profileDecision assessedDecision at hpooled
  cases hleft : getResolutionProfileId pair.1 with
  | none => simp [hleft, forbids_applyResolutionRiskPolicy henabled] at hpooled
  | some leftProfileId =>
    cases hright : getResolutionProfileId pair.2 with
    | none => simp [hleft, hright, forbids_applyResolutionRiskPolicy henabled] at hpooled
    | some rightProfileId =>
      refine ⟨leftProfileId, rightProfileId, rfl, rfl, ?_⟩
      by_cases hsame : leftProfileId = rightProfileId
      · exact Or.inl hsame
      · refine Or.inr ?_
        simp only [hleft, hright, hsame, if_false, Option.getD_none] at hpooled
        cases hlookup : assessments.lookup (pairKey localeCompare leftProfileId rightProfileId) with
        | none => simp [hlookup, forbids_applyResolutionRiskPolicy henabled] at hpooled
        | some assessment =>
          simp only [hlookup] at hpooled
          split at hpooled
          · simp [forbids_applyResolutionRiskPolicy henabled] at hpooled
          · rename_i hguard
            rw [forbids_applyResolutionRiskPolicy henabled] at hpooled
            refine ⟨assessment, rfl, by_contra fun h => hguard ⟨hmarket, h⟩, ?_⟩
            have hclass := (forbids_decisionFromEquivalenceClass assessment.equivalenceClass
              (deps.resolutionRiskPenalty.getD (5 / 100)) assessment.liquidityCost).not.mp
              (by simp [hpooled])
            unfold ResolutionEquivalenceClass.poolable
            revert hclass
            cases assessment.equivalenceClass <;> simp

variable {column : UuidColumn Uuid}

theorem mem_fold_rows {rows : List (ResolutionRiskAssessmentRow Uuid)} {key : String}
    {assessment : ResolutionRiskAssessment} {assessments : List (String × ResolutionRiskAssessment)}
    (h : (rows.foldl (fun assessments row =>
        let assessment := mapAssessmentRow column row
        OrderedMap.set
          (pairKey localeCompare assessment.marketAProfileId assessment.marketBProfileId)
          assessment assessments) assessments).lookup key = some assessment) :
    assessments.lookup key = some assessment ∨ ∃ row ∈ rows,
      assessment = mapAssessmentRow column row ∧
      key = pairKey localeCompare assessment.marketAProfileId assessment.marketBProfileId := by
  induction rows generalizing assessments with
  | nil => exact Or.inl h
  | cons row rows ih =>
    rw [foldl_cons] at h
    rcases ih h with h | ⟨row', hrow', hfiled⟩
    · rw [OrderedMap.lookup_set] at h
      split at h
      · rename_i hkey
        obtain rfl := Option.some.inj h
        exact Or.inr ⟨row, mem_cons_self, rfl, hkey⟩
      · exact Or.inl h
    · exact Or.inr ⟨row', mem_cons_of_mem _ hrow', hfiled⟩

theorem canonicalizePair_cases (localeCompare : String → String → Ordering) (a b : String) :
    canonicalizePair localeCompare a b = (a, b) ∨ canonicalizePair localeCompare a b = (b, a) := by
  unfold canonicalizePair
  split
  · exact Or.inl rfl
  · exact Or.inr rfl

theorem pairKey_inj {a b c d : String} (ha : NoSeparator a) (hb : NoSeparator b)
    (h : pairKey localeCompare a b = pairKey localeCompare c d) :
    (a = c ∧ b = d) ∨ (a = d ∧ b = c) := by
  unfold pairKey at h
  rcases canonicalizePair_cases localeCompare a b with hab | hab <;>
    rcases canonicalizePair_cases localeCompare c d with hcd | hcd <;> rw [hab, hcd] at h
  · exact Or.inl (append_bar_inj ha hb h)
  · exact Or.inr (append_bar_inj ha hb h)
  · exact Or.inr (append_bar_inj hb ha h).symm
  · exact Or.inl (append_bar_inj hb ha h).symm

/-- A row of the table that speaks for two profiles, whichever way round it names them. -/
def ResolutionRiskAssessmentRow.isAbout (column : UuidColumn Uuid)
    (row : ResolutionRiskAssessmentRow Uuid) (profileId otherProfileId : String) : Prop :=
  (column.text row.market_a_profile_id = profileId ∧
      column.text row.market_b_profile_id = otherProfileId) ∨
    (column.text row.market_a_profile_id = otherProfileId ∧
      column.text row.market_b_profile_id = profileId)

/-- **Persisted.** An assessment found under the key of two profiles is a row of the table
about these two, in the version the service reads. -/
theorem fetchAssessments_persisted [DecidableEq Uuid] {deps : ResolutionRiskDeps Uuid}
    {pairs : List (String × String)} {assessments : List (String × ResolutionRiskAssessment)}
    (hfetch : fetchAssessments localeCompare column deps pairs = .ok assessments)
    {profileId otherProfileId : String} {assessment : ResolutionRiskAssessment}
    (hlookup : assessments.lookup (pairKey localeCompare profileId otherProfileId) =
      some assessment) :
    ∃ service rows, deps.resolutionRiskReadService = some service ∧ service.rows = some rows ∧
      ∃ row ∈ rows, row.version = service.version ∧
        row.isAbout column profileId otherProfileId ∧ assessment = mapAssessmentRow column row := by
  unfold fetchAssessments at hfetch
  cases hservice : deps.resolutionRiskReadService with
  | none =>
    rw [hservice] at hfetch
    obtain rfl := Except.ok.inj hfetch
    simp at hlookup
  | some service =>
    rw [hservice] at hfetch
    simp only [getAssessmentsByProfilePairs] at hfetch
    split at hfetch
    · obtain rfl := Except.ok.inj hfetch
      simp at hlookup
    · split at hfetch
      · simp at hfetch
      · simp at hfetch
      · rename_i wanted rows hparse hrows
        obtain rfl := Except.ok.inj hfetch
        rcases mem_fold_rows hlookup with h | ⟨row, hrow, hfiled, hkey⟩
        · simp at h
        · obtain ⟨hmem, hselected⟩ := mem_filter.mp hrow
          refine ⟨service, rows, rfl, hrows, row, hmem, ?_, ?_, hfiled⟩
          · exact (by simpa using hselected : _ ∧ _).2
          · rw [hfiled] at hkey
            exact pairKey_inj (column.text_noSeparator _) (column.text_noSeparator _) hkey.symm

end Pooled

end LotusRfq.Sor
