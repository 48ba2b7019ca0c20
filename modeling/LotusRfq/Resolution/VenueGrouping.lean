import LotusRfq.Resolution.ScoringEngine
import LotusRfq.Sor.ResolutionRisk

/-!
# LotusRfq — `computeResolutionRiskVenueGrouping`

Every pair of an event's profiles is judged by its persisted assessment: it blocks both
profiles, isolates them in caution lanes of their own, or says nothing against pooling them. A
profile no pair speaks against goes to the one safe pool; a blocked profile has no lane.

* **`grouping_partition`** — every profile goes to one place;
* **`pooled_safe`** — two profiles of the safe pool are of one market and assessed as equivalent;
* **`grouping_perm`** — the order of the profiles does not matter.
-/

namespace LotusRfq.Resolution

open LotusRfq.Js List
open Sor (ResolutionEquivalenceClass pairKey)
open OrderedMap (delete mem_addNew nodup_addNew)

structure PairMatrixEntry where
  equivalenceClass : ResolutionEquivalenceClass
  reasons : List String

structure ResolutionRiskVenueGrouping where
  canonicalEventId : String
  safePools : List (List String)
  cautionLanes : List (List String)
  blockedProfiles : List String
  reasonsByProfile : List (String × List String)
  pairMatrix : List (String × PairMatrixEntry)

structure GroupingRun where
  cautionProfiles : List String
  blockedProfiles : List String
  reasonsByProfile : List (String × List String)
  pairMatrixEntries : List (String × PairMatrixEntry)

abbrev AssessmentMap : Type := List (String × ResolutionRiskAssessment)

def ResolutionEquivalenceClass.text : ResolutionEquivalenceClass → String
  | .SAFE_EQUIVALENT => "SAFE_EQUIVALENT"
  | .EQUIVALENT_WITH_LAG => "EQUIVALENT_WITH_LAG"
  | .CAUTION => "CAUTION"
  | .HIGH_RISK => "HIGH_RISK"
  | .DO_NOT_POOL => "DO_NOT_POOL"

/-- `appendReason`, once for each of the reasons. -/
def appendReasons (reasonsByProfile : List (String × List String)) (profileId : String)
    (reasons : List String) : List (String × List String) :=
  reasons.foldl (fun reasonsByProfile reason =>
    OrderedMap.set profileId ((reasonsByProfile.lookup profileId).getD [] ++ [reason])
      reasonsByProfile) reasonsByProfile

abbrev ProfilePair : Type := NormalizedResolutionProfile × NormalizedResolutionProfile

namespace GroupingRun

variable (pair : ProfilePair) (key : String) (reasons : List String)

/-- Both profiles get the reasons. -/
def explain (run : GroupingRun) : GroupingRun :=
  { run with reasonsByProfile :=
      appendReasons (appendReasons run.reasonsByProfile pair.1.id reasons) pair.2.id reasons }

def block (run : GroupingRun) : GroupingRun :=
  { run with blockedProfiles :=
      OrderedMap.addNew (OrderedMap.addNew run.blockedProfiles pair.1.id) pair.2.id }

def caution (run : GroupingRun) : GroupingRun :=
  { run with cautionProfiles :=
      OrderedMap.addNew (OrderedMap.addNew run.cautionProfiles pair.1.id) pair.2.id }

def record (equivalenceClass : ResolutionEquivalenceClass) (run : GroupingRun) : GroupingRun :=
  { run with pairMatrixEntries := run.pairMatrixEntries ++ [(key, ⟨equivalenceClass, reasons⟩)] }

end GroupingRun

/-- The pairs of two nested loops, `cursor` starting after `index`. -/
def profilePairs : List NormalizedResolutionProfile → List ProfilePair
  | [] => []
  | left :: profiles => profiles.map (fun right => (left, right)) ++ profilePairs profiles

section Grouping

variable (localeCompare : String → String → Ordering)

def keyOfPair (pair : ProfilePair) : String := pairKey localeCompare pair.1.id pair.2.id

def judgePair (assessmentMap : AssessmentMap) (run : GroupingRun) (pair : ProfilePair) :
    GroupingRun :=
  let key := keyOfPair localeCompare pair
  if pair.1.canonicalMarketId ≠ pair.2.canonicalMarketId then
    let reason := "pair:" ++ key ++ ": market identity mismatch (" ++
      pair.1.canonicalMarketId.getD "undefined" ++ " vs " ++
      pair.2.canonicalMarketId.getD "undefined" ++ "); sub-markets cannot be pooled"
    ((run.block pair).explain pair [reason]).record key [reason] .DO_NOT_POOL
  else
    match assessmentMap.lookup key with
    | none =>
      let reason := "pair:" ++ key ++
        ": missing persisted resolution risk assessment; fail-closed for pooling"
      ((run.caution pair).explain pair [reason]).record key [reason] .DO_NOT_POOL
    | some assessment =>
      let prefixedReasons :=
        if assessment.reasons.length > 0 then
          assessment.reasons.map fun reason => "pair:" ++ key ++ ": " ++ reason
        else ["pair:" ++ key ++ ": " ++
          ResolutionEquivalenceClass.text assessment.equivalenceClass]
      let run := run.record key prefixedReasons assessment.equivalenceClass
      match assessment.equivalenceClass with
      | .SAFE_EQUIVALENT | .EQUIVALENT_WITH_LAG => run
      | .CAUTION => (run.caution pair).explain pair prefixedReasons
      | .HIGH_RISK | .DO_NOT_POOL => (run.block pair).explain pair prefixedReasons

def judgePairs (orderedProfiles : List NormalizedResolutionProfile)
    (assessmentMap : AssessmentMap) : GroupingRun :=
  (profilePairs orderedProfiles).foldl (judgePair localeCompare assessmentMap) ⟨[], [], [], []⟩

/-- `localeCompare` on the first components. -/
def byFirst {α : Type} (left right : String × α) : Ordering := localeCompare left.1 right.1

def computeResolutionRiskVenueGrouping (canonicalEventId : String)
    (orderedProfiles : List NormalizedResolutionProfile) (assessmentMap : AssessmentMap) :
    ResolutionRiskVenueGrouping :=
  let run := judgePairs localeCompare orderedProfiles assessmentMap
  let cautionProfiles := run.blockedProfiles.foldl delete run.cautionProfiles
  let safeCandidates := (orderedProfiles.map (·.id)).filter fun profileId =>
    profileId ∉ run.blockedProfiles ∧ profileId ∉ cautionProfiles
  { canonicalEventId := canonicalEventId
    safePools := if safeCandidates.length = 0 then [] else [safeCandidates]
    cautionLanes := (sortWith localeCompare cautionProfiles).map fun profileId => [profileId]
    blockedProfiles := sortWith localeCompare run.blockedProfiles
    reasonsByProfile := (sortWith (byFirst localeCompare) run.reasonsByProfile).map
      fun (profileId, reasons) => (profileId, sortWith localeCompare (distinct reasons))
    pairMatrix := (sortWith (byFirst localeCompare) run.pairMatrixEntries).foldl
      (fun matrix entry => OrderedMap.set entry.1 entry.2 matrix) [] }

end Grouping

/-! ## What the pairs say -/

/-- What a pair says about its profiles. -/
inductive Verdict where
  | safe
  | caution
  | blocked
  deriving DecidableEq

section Verdicts

variable {localeCompare : String → String → Ordering} {assessed : AssessmentMap}

/-- Whether two profiles may be pooled. -/
def verdict (localeCompare : String → String → Ordering) (assessmentMap : AssessmentMap)
    (pair : ProfilePair) : Verdict :=
  if pair.1.canonicalMarketId ≠ pair.2.canonicalMarketId then .blocked
  else
    match assessmentMap.lookup (keyOfPair localeCompare pair) with
    | none => .caution
    | some assessment =>
      match assessment.equivalenceClass with
      | .SAFE_EQUIVALENT | .EQUIVALENT_WITH_LAG => .safe
      | .CAUTION => .caution
      | .HIGH_RISK | .DO_NOT_POOL => .blocked

def Names (pair : ProfilePair) (profileId : String) : Prop :=
  profileId = pair.1.id ∨ profileId = pair.2.id

theorem mem_addBoth {ids : List String} {pair : ProfilePair} {profileId : String} :
    profileId ∈ OrderedMap.addNew (OrderedMap.addNew ids pair.1.id) pair.2.id ↔
      profileId ∈ ids ∨ Names pair profileId := by
  rw [mem_addNew, mem_addNew, or_assoc]
  exact Iff.rfl

theorem judgePair_sets (run : GroupingRun) (pair : ProfilePair) :
    (judgePair localeCompare assessed run pair).blockedProfiles =
      (if verdict localeCompare assessed pair = .blocked then
        OrderedMap.addNew (OrderedMap.addNew run.blockedProfiles pair.1.id) pair.2.id
      else run.blockedProfiles) ∧
    (judgePair localeCompare assessed run pair).cautionProfiles =
      (if verdict localeCompare assessed pair = .caution then
        OrderedMap.addNew (OrderedMap.addNew run.cautionProfiles pair.1.id) pair.2.id
      else run.cautionProfiles) := by
  unfold judgePair verdict
  by_cases hmarket : pair.1.canonicalMarketId = pair.2.canonicalMarketId
  · simp only [if_neg (not_not_intro hmarket)]
    cases assessed.lookup (keyOfPair localeCompare pair) with
    | none => exact ⟨rfl, rfl⟩
    | some assessment =>
      obtain ⟨_, _, _, _, _, _, equivalenceClass, _, _, _, _, _⟩ := assessment
      cases equivalenceClass <;> exact ⟨rfl, rfl⟩
  · simp only [if_pos hmarket]
    exact ⟨rfl, rfl⟩

theorem mem_judged (pairs : List ProfilePair) (run : GroupingRun) (profileId : String) :
    (profileId ∈ (pairs.foldl (judgePair localeCompare assessed) run).blockedProfiles ↔
      profileId ∈ run.blockedProfiles ∨ ∃ pair ∈ pairs, Names pair profileId ∧
        verdict localeCompare assessed pair = .blocked) ∧
    (profileId ∈ (pairs.foldl (judgePair localeCompare assessed) run).cautionProfiles ↔
      profileId ∈ run.cautionProfiles ∨ ∃ pair ∈ pairs, Names pair profileId ∧
        verdict localeCompare assessed pair = .caution) := by
  induction pairs generalizing run with
  | nil => simp
  | cons pair pairs ih =>
    obtain ⟨hblocked, hcaution⟩ := @judgePair_sets localeCompare assessed run pair
    obtain ⟨ihblocked, ihcaution⟩ := ih (judgePair localeCompare assessed run pair)
    rw [foldl_cons, ihblocked, ihcaution, hblocked, hcaution]
    simp only [exists_mem_cons_iff]
    constructor
    · split
      · rename_i h
        rw [mem_addBoth, or_assoc]
        simp [h]
      · rename_i h
        simp [h]
    · split
      · rename_i h
        rw [mem_addBoth, or_assoc]
        simp [h]
      · rename_i h
        simp [h]

theorem mem_profilePairs {profiles : List NormalizedResolutionProfile}
    (hids : (profiles.map (·.id)).Nodup) {a b : NormalizedResolutionProfile}
    (ha : a ∈ profiles) (hb : b ∈ profiles) (hne : a.id ≠ b.id) :
    (a, b) ∈ profilePairs profiles ∨ (b, a) ∈ profilePairs profiles := by
  induction profiles with
  | nil => cases ha
  | cons c profiles ih =>
    rw [map_cons, nodup_cons] at hids
    simp only [profilePairs, mem_append, mem_map, Prod.mk.injEq]
    rcases mem_cons.mp ha with rfl | ha' <;> rcases mem_cons.mp hb with rfl | hb'
    · exact absurd rfl hne
    · exact .inl (.inl ⟨b, hb', rfl, rfl⟩)
    · exact .inr (.inl ⟨a, ha', rfl, rfl⟩)
    · exact (ih hids.2 ha' hb').imp .inr .inr

theorem of_mem_profilePairs {profiles : List NormalizedResolutionProfile}
    (hids : (profiles.map (·.id)).Nodup) {pair : ProfilePair} (h : pair ∈ profilePairs profiles) :
    pair.1 ∈ profiles ∧ pair.2 ∈ profiles ∧ pair.1.id ≠ pair.2.id := by
  induction profiles with
  | nil => cases h
  | cons c profiles ih =>
    rw [map_cons, nodup_cons] at hids
    rcases mem_append.mp h with h | h
    · obtain ⟨right, hright, rfl⟩ := mem_map.mp h
      refine ⟨mem_cons_self, mem_cons_of_mem _ hright, fun heq => hids.1 ?_⟩
      show c.id ∈ profiles.map (·.id)
      rw [show c.id = right.id from heq]
      exact mem_map_of_mem hright
    · obtain ⟨hleft, hright, hne⟩ := ih hids.2 h
      exact ⟨mem_cons_of_mem _ hleft, mem_cons_of_mem _ hright, hne⟩

theorem pairKey_comm {a b : String} (horders : Sor.Orders localeCompare a b) :
    pairKey localeCompare a b = pairKey localeCompare b a := by
  have heq : ∀ c d, pairKey localeCompare c d =
      Sor.resolutionRiskCandidatePairKey localeCompare c d := by
    intro c d
    unfold pairKey Sor.canonicalizePair Sor.resolutionRiskCandidatePairKey
    split <;> rfl
  rw [heq, heq]
  exact Sor.resolutionRiskCandidatePairKey_comm horders

theorem verdict_comm {a b : NormalizedResolutionProfile}
    (horders : Sor.Orders localeCompare a.id b.id) :
    verdict localeCompare assessed (a, b) = verdict localeCompare assessed (b, a) := by
  have hkey : keyOfPair localeCompare (a, b) = keyOfPair localeCompare (b, a) :=
    pairKey_comm horders
  unfold verdict
  simp only [hkey, ne_comm]

/-! ## The groups -/

def Says (localeCompare : String → String → Ordering) (assessmentMap : AssessmentMap)
    (profiles : List NormalizedResolutionProfile) (said : Verdict) (profileId : String) : Prop :=
  ∃ pair ∈ profilePairs profiles, Names pair profileId ∧
    verdict localeCompare assessmentMap pair = said

theorem mem_foldl_delete {xs s : List String} {x : String} :
    x ∈ xs.foldl delete s ↔ x ∈ s ∧ x ∉ xs := by
  induction xs generalizing s with
  | nil => simp
  | cons y xs ih =>
    rw [foldl_cons, ih, OrderedMap.mem_delete, mem_cons, not_or, and_assoc]

theorem nodup_foldl_delete (xs : List String) {s : List String} (h : s.Nodup) :
    (xs.foldl delete s).Nodup := by
  induction xs generalizing s with
  | nil => exact h
  | cons y xs ih => exact ih (h.filter _)

theorem nodup_judged (pairs : List ProfilePair) {run : GroupingRun}
    (hblocked : run.blockedProfiles.Nodup) (hcaution : run.cautionProfiles.Nodup) :
    (pairs.foldl (judgePair localeCompare assessed) run).blockedProfiles.Nodup ∧
      (pairs.foldl (judgePair localeCompare assessed) run).cautionProfiles.Nodup := by
  induction pairs generalizing run with
  | nil => exact ⟨hblocked, hcaution⟩
  | cons pair pairs ih =>
    obtain ⟨hsets, hsets'⟩ := @judgePair_sets localeCompare assessed run pair
    apply ih
    · rw [hsets]
      split
      · exact nodup_addNew (nodup_addNew hblocked _) _
      · exact hblocked
    · rw [hsets']
      split
      · exact nodup_addNew (nodup_addNew hcaution _) _
      · exact hcaution

variable {eventId : String} {profiles : List NormalizedResolutionProfile}

theorem mem_blockedProfiles {profileId : String} :
    profileId ∈ (computeResolutionRiskVenueGrouping localeCompare eventId profiles
        assessed).blockedProfiles ↔ Says localeCompare assessed profiles .blocked profileId := by
  show profileId ∈ sortWith localeCompare
    (judgePairs localeCompare profiles assessed).blockedProfiles ↔ _
  rw [mem_sortWith, judgePairs, (mem_judged _ _ _).1]
  simp [Says]

theorem mem_cautionLanes {profileId : String} :
    profileId ∈ (computeResolutionRiskVenueGrouping localeCompare eventId profiles
        assessed).cautionLanes.flatten ↔
      Says localeCompare assessed profiles .caution profileId ∧
        ¬ Says localeCompare assessed profiles .blocked profileId := by
  show profileId ∈ ((sortWith localeCompare
    ((judgePairs localeCompare profiles assessed).blockedProfiles.foldl delete
      (judgePairs localeCompare profiles assessed).cautionProfiles)).map
      fun profileId => [profileId]).flatten ↔ _
  rw [flatten_eq_flatMap, flatMap_map]
  simp only [id_eq, flatMap_singleton', mem_sortWith, mem_foldl_delete, judgePairs, mem_judged]
  simp [Says]

theorem flatten_safePools : (computeResolutionRiskVenueGrouping localeCompare eventId profiles
      assessed).safePools.flatten = (profiles.map (·.id)).filter fun profileId =>
        profileId ∉ (judgePairs localeCompare profiles assessed).blockedProfiles ∧
        profileId ∉ (judgePairs localeCompare profiles assessed).blockedProfiles.foldl
          delete (judgePairs localeCompare profiles assessed).cautionProfiles := by
  unfold computeResolutionRiskVenueGrouping
  simp only
  split
  · rename_i h
    rw [length_eq_zero_iff.mp h]
    rfl
  · exact flatten_singleton

theorem mem_safePools {profileId : String} :
    profileId ∈ (computeResolutionRiskVenueGrouping localeCompare eventId profiles
        assessed).safePools.flatten ↔
      profileId ∈ profiles.map (·.id) ∧ ¬ Says localeCompare assessed profiles .blocked profileId ∧
        ¬ Says localeCompare assessed profiles .caution profileId := by
  rw [flatten_safePools]
  simp only [mem_filter, decide_eq_true_eq]
  rw [mem_foldl_delete, judgePairs, (mem_judged _ _ _).1, (mem_judged _ _ _).2]
  simp only [not_mem_nil, false_or]
  show _ ∧ ¬ Says localeCompare assessed profiles .blocked profileId ∧
    ¬ (Says localeCompare assessed profiles .caution profileId ∧
      ¬ Says localeCompare assessed profiles .blocked profileId) ↔ _
  tauto

theorem Says.mem {said : Verdict} {profileId : String} (hids : (profiles.map (·.id)).Nodup)
    (h : Says localeCompare assessed profiles said profileId) :
    profileId ∈ profiles.map (·.id) := by
  obtain ⟨pair, hpair, hnames, -⟩ := h
  obtain ⟨hleft, hright, -⟩ := of_mem_profilePairs hids hpair
  rcases hnames with rfl | rfl
  · exact mem_map_of_mem hleft
  · exact mem_map_of_mem hright

/-- **Every profile goes to one place.** -/
theorem grouping_partition (hids : (profiles.map (·.id)).Nodup) :
    ((computeResolutionRiskVenueGrouping localeCompare eventId profiles
        assessed).safePools.flatten ++
      ((computeResolutionRiskVenueGrouping localeCompare eventId profiles
          assessed).cautionLanes.flatten ++
        (computeResolutionRiskVenueGrouping localeCompare eventId profiles
          assessed).blockedProfiles)).Perm (profiles.map (·.id)) := by
  obtain ⟨hblocked, hcaution⟩ := @nodup_judged localeCompare assessed
    (profilePairs profiles) ⟨[], [], [], []⟩ nodup_nil nodup_nil
  have hlanes : (computeResolutionRiskVenueGrouping localeCompare eventId profiles
      assessed).cautionLanes.flatten = sortWith localeCompare
        ((judgePairs localeCompare profiles assessed).blockedProfiles.foldl
          delete (judgePairs localeCompare profiles assessed).cautionProfiles) := by
    unfold computeResolutionRiskVenueGrouping
    rw [flatten_eq_flatMap, flatMap_map]
    exact flatMap_singleton' _
  rw [perm_ext_iff_of_nodup ?_ hids]
  · intro profileId
    rw [mem_append, mem_append, mem_safePools, mem_cautionLanes, mem_blockedProfiles]
    constructor
    · rintro (h | h | h)
      · exact h.1
      · exact h.1.mem hids
      · exact h.mem hids
    · intro hmem
      by_cases hb : Says localeCompare assessed profiles .blocked profileId
      · exact .inr (.inr hb)
      · by_cases hc : Says localeCompare assessed profiles .caution profileId
        · exact .inr (.inl ⟨hc, hb⟩)
        · exact .inl ⟨hmem, hb, hc⟩
  · -- no two groups share a profile
    rw [nodup_append', nodup_append']
    refine ⟨flatten_safePools ▸ hids.filter _, ⟨?_, ?_, ?_⟩, ?_⟩
    · rw [hlanes, (sortWith_perm _ _).nodup_iff]
      exact nodup_foldl_delete _ hcaution
    · exact (sortWith_perm _ _).nodup_iff.mpr hblocked
    · intro profileId hlane hblocked
      exact (mem_cautionLanes.mp hlane).2 (mem_blockedProfiles.mp hblocked)
    · intro profileId hsafe hother
      obtain ⟨-, hb, hc⟩ := mem_safePools.mp hsafe
      rcases mem_append.mp hother with h | h
      · exact hc (mem_cautionLanes.mp h).1
      · exact hb (mem_blockedProfiles.mp h)

/-- An assessment of two profiles, filed under the key of either order, that lets them be
pooled. -/
def AssessedEquivalent (localeCompare : String → String → Ordering)
    (assessmentMap : AssessmentMap) (a b : NormalizedResolutionProfile) : Prop :=
  ∃ assessment,
    (assessmentMap.lookup (pairKey localeCompare a.id b.id) = some assessment ∨
      assessmentMap.lookup (pairKey localeCompare b.id a.id) = some assessment) ∧
    (assessment.equivalenceClass = .SAFE_EQUIVALENT ∨
      assessment.equivalenceClass = .EQUIVALENT_WITH_LAG)

/-- A pair that says nothing against pooling is of one market and assessed as equivalent. -/
theorem of_verdict_safe {pair : ProfilePair} (h : verdict localeCompare assessed pair = .safe) :
    pair.1.canonicalMarketId = pair.2.canonicalMarketId ∧
      ∃ assessment, assessed.lookup (keyOfPair localeCompare pair) = some assessment ∧
        (assessment.equivalenceClass = .SAFE_EQUIVALENT ∨
          assessment.equivalenceClass = .EQUIVALENT_WITH_LAG) := by
  unfold verdict at h
  split at h
  · cases h
  · rename_i hmarket
    refine ⟨not_not.mp hmarket, ?_⟩
    cases hlookup : assessed.lookup (keyOfPair localeCompare pair) with
    | none =>
      rw [hlookup] at h
      cases h
    | some assessment =>
      rw [hlookup] at h
      refine ⟨assessment, rfl, ?_⟩
      revert h
      cases hclass : assessment.equivalenceClass <;> simp [hclass]

/-- **Pooled pairs are safe.** -/
theorem pooled_safe (hids : (profiles.map (·.id)).Nodup) {pool : List String}
    (hpool : pool ∈ (computeResolutionRiskVenueGrouping localeCompare eventId profiles
      assessed).safePools) {a b : NormalizedResolutionProfile} (ha : a ∈ profiles)
    (hb : b ∈ profiles) (hapool : a.id ∈ pool) (_ : b.id ∈ pool) (hne : a.id ≠ b.id) :
    a.canonicalMarketId = b.canonicalMarketId ∧ AssessedEquivalent localeCompare assessed a b := by
  have hsafe : ∀ {profile : NormalizedResolutionProfile}, profile.id ∈ pool →
      ∀ pair ∈ profilePairs profiles, Names pair profile.id →
        verdict localeCompare assessed pair = .safe := by
    intro profile hmem pair hpair hnames
    obtain ⟨-, hblocked, hcaution⟩ := mem_safePools.mp (mem_flatten_of_mem hpool hmem)
    cases hsaid : verdict localeCompare assessed pair with
    | safe => rfl
    | caution => exact absurd ⟨pair, hpair, hnames, hsaid⟩ hcaution
    | blocked => exact absurd ⟨pair, hpair, hnames, hsaid⟩ hblocked
  rcases mem_profilePairs hids ha hb hne with hpair | hpair
  · obtain ⟨hmarket, assessment, hlookup, hclass⟩ :=
      of_verdict_safe (hsafe hapool _ hpair (.inl rfl))
    exact ⟨hmarket, assessment, .inl hlookup, hclass⟩
  · obtain ⟨hmarket, assessment, hlookup, hclass⟩ :=
      of_verdict_safe (hsafe hapool _ hpair (.inr rfl))
    exact ⟨hmarket.symm, assessment, .inr hlookup, hclass⟩

/-! ## Another order -/

/-- `localeCompare` orders the identifiers of the profiles and tells them apart. -/
def IdsOrdered (localeCompare : String → String → Ordering)
    (profiles : List NormalizedResolutionProfile) : Prop :=
  ∀ a ∈ profiles, ∀ b ∈ profiles, Sor.Orders localeCompare a.id b.id

theorem says_iff (hids : (profiles.map (·.id)).Nodup)
    (horders : IdsOrdered localeCompare profiles) {said : Verdict} {profileId : String} :
    Says localeCompare assessed profiles said profileId ↔
      ∃ a ∈ profiles, ∃ b ∈ profiles, a.id = profileId ∧ b.id ≠ profileId ∧
        verdict localeCompare assessed (a, b) = said := by
  constructor
  · rintro ⟨⟨a, b⟩, hpair, hnames, hsaid⟩
    obtain ⟨ha, hb, hne⟩ := of_mem_profilePairs hids hpair
    rcases hnames with rfl | rfl
    · exact ⟨a, ha, b, hb, rfl, Ne.symm hne, hsaid⟩
    · exact ⟨b, hb, a, ha, rfl, hne, (verdict_comm (horders b hb a ha)).trans hsaid⟩
  · rintro ⟨a, ha, b, hb, rfl, hne, hsaid⟩
    rcases mem_profilePairs hids ha hb (Ne.symm hne) with hpair | hpair
    · exact ⟨(a, b), hpair, .inl rfl, hsaid⟩
    · exact ⟨(b, a), hpair, .inr rfl, (verdict_comm (horders b hb a ha)).trans hsaid⟩

theorem says_perm {other : List NormalizedResolutionProfile} (hperm : other.Perm profiles)
    (hids : (profiles.map (·.id)).Nodup) (horders : IdsOrdered localeCompare profiles)
    {said : Verdict} {profileId : String} : Says localeCompare assessed other said profileId ↔
      Says localeCompare assessed profiles said profileId := by
  have hids' : (other.map (·.id)).Nodup := (hperm.map _).nodup_iff.mpr hids
  have horders' : IdsOrdered localeCompare other := fun a ha b hb =>
    horders a (hperm.mem_iff.mp ha) b (hperm.mem_iff.mp hb)
  rw [says_iff hids horders, says_iff hids' horders']
  simp only [hperm.mem_iff]

def ResolutionRiskVenueGrouping.asSets (grouping : ResolutionRiskVenueGrouping) :
    Finset (Finset String) × Finset (Finset String) × Finset String :=
  ((grouping.safePools.map List.toFinset).toFinset,
    (grouping.cautionLanes.map List.toFinset).toFinset, grouping.blockedProfiles.toFinset)

theorem safePools_asSet : (computeResolutionRiskVenueGrouping localeCompare eventId profiles
      assessed).asSets.1 =
      let safe := (computeResolutionRiskVenueGrouping localeCompare eventId profiles
        assessed).safePools.flatten.toFinset
      if safe = ∅ then ∅ else {safe} := by
  unfold ResolutionRiskVenueGrouping.asSets computeResolutionRiskVenueGrouping
  simp only
  split
  · simp
  · rename_i h
    rw [flatten_singleton, if_neg]
    · simp
    · rw [toFinset_eq_empty_iff, ← length_eq_zero_iff]
      exact h

theorem cautionLanes_asSet : (computeResolutionRiskVenueGrouping localeCompare eventId profiles
      assessed).asSets.2.1 = (computeResolutionRiskVenueGrouping localeCompare eventId profiles
        assessed).cautionLanes.flatten.toFinset.image fun profileId => {profileId} := by
  ext lane
  simp [ResolutionRiskVenueGrouping.asSets, computeResolutionRiskVenueGrouping]

/-- **The order of the profiles does not matter.** -/
theorem grouping_perm {other : List NormalizedResolutionProfile} (hperm : other.Perm profiles)
    (hids : (profiles.map (·.id)).Nodup) (horders : IdsOrdered localeCompare profiles) :
    (computeResolutionRiskVenueGrouping localeCompare eventId other assessed).asSets =
      (computeResolutionRiskVenueGrouping localeCompare eventId profiles assessed).asSets := by
  have hsays : ∀ said profileId, Says localeCompare assessed other said profileId ↔
      Says localeCompare assessed profiles said profileId :=
    fun said profileId => says_perm hperm hids horders
  have hsafe : (computeResolutionRiskVenueGrouping localeCompare eventId other
        assessed).safePools.flatten.toFinset =
      (computeResolutionRiskVenueGrouping localeCompare eventId profiles
        assessed).safePools.flatten.toFinset := by
    ext profileId
    rw [mem_toFinset, mem_toFinset, mem_safePools, mem_safePools, hsays, hsays,
      (hperm.map _).mem_iff]
  have hcaution : (computeResolutionRiskVenueGrouping localeCompare eventId other
        assessed).cautionLanes.flatten.toFinset =
      (computeResolutionRiskVenueGrouping localeCompare eventId profiles
        assessed).cautionLanes.flatten.toFinset := by
    ext profileId
    rw [mem_toFinset, mem_toFinset, mem_cautionLanes, mem_cautionLanes, hsays, hsays]
  have hblocked : (computeResolutionRiskVenueGrouping localeCompare eventId other
        assessed).asSets.2.2 =
      (computeResolutionRiskVenueGrouping localeCompare eventId profiles assessed).asSets.2.2 := by
    show List.toFinset _ = List.toFinset _
    ext profileId
    rw [mem_toFinset, mem_toFinset, mem_blockedProfiles, mem_blockedProfiles, hsays]
  refine Prod.ext ?_ (Prod.ext ?_ hblocked)
  · rw [safePools_asSet, safePools_asSet]
    simp only [hsafe]
  · rw [cautionLanes_asSet, cautionLanes_asSet, hcaution]

end Verdicts

/-- **The grouping of an event's profiles.** Every profile is placed once, two profiles of one
safe pool are of one market and assessed as equivalent, and another order of the profiles gives
the same groups. -/
theorem venueGrouping_sound {localeCompare : String → String → Ordering}
    {canonicalEventId : String} {profiles : List NormalizedResolutionProfile}
    {assessmentMap : AssessmentMap} (hids : (profiles.map (·.id)).Nodup) :
    let grouping := computeResolutionRiskVenueGrouping localeCompare canonicalEventId profiles
      assessmentMap
    (grouping.safePools.flatten ++ (grouping.cautionLanes.flatten ++
      grouping.blockedProfiles)).Perm (profiles.map (·.id)) ∧
    (∀ pool ∈ grouping.safePools, ∀ a ∈ profiles, ∀ b ∈ profiles, a.id ∈ pool → b.id ∈ pool →
      a.id ≠ b.id → a.canonicalMarketId = b.canonicalMarketId ∧
        AssessedEquivalent localeCompare assessmentMap a b) ∧
    ∀ other : List NormalizedResolutionProfile, other.Perm profiles →
      IdsOrdered localeCompare profiles →
      (computeResolutionRiskVenueGrouping localeCompare canonicalEventId other
        assessmentMap).asSets = grouping.asSets := by
  refine ⟨grouping_partition hids, ?_, fun other hperm => grouping_perm hperm hids⟩
  intro pool hpool a ha b hb hapool hbpool hne
  exact pooled_safe hids hpool ha hb hapool hbpool hne

def bareProfile (id market : String) : NormalizedResolutionProfile :=
  { id := id
    venue := none
    canonicalEventId := "event"
    canonicalMarketId := some market
    oracleType := none
    oracleName := none
    resolutionAuthorityType := none
    primaryResolutionText := none
    supplementalRulesText := none
    disputeWindowHours := none
    settlementLagHours := none
    marketType := none
    outcomeSchema := none
    historicalDivergenceRate := none }

def safeAssessment (profileAId profileBId : String) : ResolutionRiskAssessment :=
  { canonicalEventId := "event"
    canonicalMarketId := "market"
    marketAProfileId := profileAId
    marketBProfileId := profileBId
    riskScore := 0
    confidenceScore := 1
    equivalenceClass := .SAFE_EQUIVALENT
    factorBreakdown := none
    reasons := []
    version := "v1"
    liquidityCost := 0
    maxSettlementDelayHours := none }

/-- Two profiles assessed as safe share the pool, on the strength of their assessment. -/
theorem venueGrouping_sound_pair : (computeResolutionRiskVenueGrouping compare "event"
      [bareProfile "a" "market", bareProfile "b" "market"]
      [("a|b", safeAssessment "a" "b")]).safePools = [["a", "b"]] ∧
    AssessedEquivalent compare [("a|b", safeAssessment "a" "b")] (bareProfile "a" "market")
      (bareProfile "b" "market") := by
  have hpools : (computeResolutionRiskVenueGrouping compare "event"
      [bareProfile "a" "market", bareProfile "b" "market"]
      [("a|b", safeAssessment "a" "b")]).safePools = [["a", "b"]] := by decide +kernel
  have hsound := @venueGrouping_sound compare "event"
    [bareProfile "a" "market", bareProfile "b" "market"] [("a|b", safeAssessment "a" "b")]
    (by decide)
  refine ⟨hpools, (hsound.2.1 ["a", "b"] ?_ _ ?_ _ ?_ ?_ ?_ ?_).2⟩
  · rw [hpools]
    exact mem_singleton_self _
  · exact mem_cons_self
  · exact mem_cons_of_mem _ mem_cons_self
  · exact mem_cons_self
  · exact mem_cons_of_mem _ mem_cons_self
  · decide

end LotusRfq.Resolution
