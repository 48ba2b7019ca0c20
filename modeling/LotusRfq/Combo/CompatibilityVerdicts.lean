import Mathlib.Data.String.Basic
import LotusRfq.Combo.Compatibility

/-!
# LotusRfq — what a verdict of the compatibility engine says

The legs of two combos are matched by outcome and side, which reads the same from either of them.
So the pairs of a verdict are the legs that are eligible for each other, and between combos of the
same outcomes it does not matter which of the two came in.

* **`matchCombos_compatible_iff`** — when two combos are compatible, and with which pairs;
* **`pairsOf_perm_mirror`** — the pairs, seen from the other combo;
* **`evaluate_verdict`** — what a verdict says, and what the swapped one is.
-/

namespace LotusRfq.Combo

open List

/-! ## Legs that are eligible for each other -/

theorem isMatchEligible_comm (left right : CompatibilityLeg) :
    isMatchEligible left right = isMatchEligible right left := by
  unfold isMatchEligible
  simp only [eq_comm, ne_eq]

/-- The prices cross, or neither leg has one. -/
def HintsAgree (left right : CompatibilityLeg) : Prop :=
  (left.priceHint = none ∧ right.priceHint = none) ∨
    ∃ leftPrice rightPrice, left.priceHint = some leftPrice ∧ right.priceHint = some rightPrice ∧
      (left.side = .buy → rightPrice ≤ leftPrice) ∧ (left.side = .sell → leftPrice ≤ rightPrice)

theorem checkPriceCompatibility_iff {left right : CompatibilityLeg} :
    checkPriceCompatibility left right = none ↔ HintsAgree left right := by
  unfold checkPriceCompatibility HintsAgree
  cases left.priceHint with
  | none =>
    cases right.priceHint with
    | none => simp
    | some rightPrice => simp
  | some leftPrice =>
    cases right.priceHint with
    | none => simp
    | some rightPrice =>
      cases left.side with
      | buy => simp
      | sell => simp

theorem HintsAgree.symm {left right : CompatibilityLeg} (hsides : left.side ≠ right.side)
    (h : HintsAgree left right) : HintsAgree right left := by
  rcases h with ⟨hleft, hright⟩ | ⟨leftPrice, rightPrice, hleft, hright, hbuy, hsell⟩
  · exact .inl ⟨hright, hleft⟩
  · refine .inr ⟨rightPrice, leftPrice, hright, hleft, fun hside => ?_, fun hside => ?_⟩
    · apply hsell
      cases hleftSide : left.side with
      | buy => exact absurd (hleftSide.trans hside.symm) hsides
      | sell => rfl
    · apply hbuy
      cases hleftSide : left.side with
      | buy => rfl
      | sell => exact absurd (hleftSide.trans hside.symm) hsides

/-! ## The pairs -/

def pairOf (incomingLeg candidateLeg : CompatibilityLeg) : MatchedLegPair where
  incomingLegId := incomingLeg.id
  candidateLegId := candidateLeg.id
  marketId := incomingLeg.canonicalMarketId
  outcomeId := incomingLeg.canonicalOutcomeId
  matchedSize := min incomingLeg.quantity candidateLeg.quantity

def partner (others : List CompatibilityLeg) (leg : CompatibilityLeg) : Option CompatibilityLeg :=
  (others.filter (isMatchEligible leg)).head?

def pairsOf (legs others : List CompatibilityLeg) : List MatchedLegPair :=
  legs.filterMap fun leg => (partner others leg).map (pairOf leg)

/-- No leg has two legs of the other combo that are eligible for it. -/
def Unambiguous (legs others : List CompatibilityLeg) : Prop :=
  ∀ leg ∈ legs, (others.filter (isMatchEligible leg)).length ≤ 1

def PricesAgree (legs others : List CompatibilityLeg) : Prop :=
  ∀ leg ∈ legs, ∀ other ∈ others, isMatchEligible leg other = true → HintsAgree leg other

section

variable {legs others : List CompatibilityLeg} {leg other : CompatibilityLeg}

theorem partner_eq_some (hleg : leg ∈ legs) (hunique : Unambiguous legs others) :
    partner others leg = some other ↔ other ∈ others ∧ isMatchEligible leg other = true := by
  unfold partner
  rw [← mem_filter]
  have hlength := hunique leg hleg
  generalize others.filter (isMatchEligible leg) = eligible at hlength
  match eligible, hlength with
  | [], _ => simp
  | [only], _ => simp [eq_comm]

theorem mem_pairsOf (hunique : Unambiguous legs others) {pair : MatchedLegPair} :
    pair ∈ pairsOf legs others ↔ ∃ leg ∈ legs, ∃ other ∈ others,
      isMatchEligible leg other = true ∧ pair = pairOf leg other := by
  unfold pairsOf
  rw [mem_filterMap]
  constructor
  · intro h
    obtain ⟨leg, hleg, hpair⟩ := h
    obtain ⟨other, hother, heq⟩ := Option.map_eq_some_iff.mp hpair
    obtain ⟨hmem, heligible⟩ := (partner_eq_some hleg hunique).mp hother
    exact ⟨leg, hleg, other, hmem, heligible, heq.symm⟩
  · intro h
    obtain ⟨leg, hleg, other, hmem, heligible, heq⟩ := h
    refine ⟨leg, hleg, ?_⟩
    rw [(partner_eq_some hleg hunique).mpr ⟨hmem, heligible⟩, heq]
    rfl

theorem pairsOf_sublist (legs others : List CompatibilityLeg) :
    ((pairsOf legs others).map MatchedLegPair.incomingLegId).Sublist
      (legs.map CompatibilityLeg.id) := by
  induction legs with
  | nil => exact .slnil
  | cons leg rest ih =>
    unfold pairsOf at ih ⊢
    rw [filterMap_cons]
    cases partner others leg with
    | none => exact ih.cons _
    | some other => exact ih.cons_cons _

def MatchedLegPair.mirror (pair : MatchedLegPair) : MatchedLegPair :=
  { pair with incomingLegId := pair.candidateLegId, candidateLegId := pair.incomingLegId }

theorem pairOf_mirror (heligible : isMatchEligible leg other = true) :
    (pairOf leg other).mirror = pairOf other leg := by
  unfold isMatchEligible at heligible
  rw [decide_eq_true_eq] at heligible
  simp only [pairOf, MatchedLegPair.mirror, heligible.1, heligible.2.1, min_comm]

/-- **Seen from the other combo** the pairs are the same. -/
theorem pairsOf_perm_mirror (hids : (legs.map CompatibilityLeg.id).Nodup)
    (hotherIds : (others.map CompatibilityLeg.id).Nodup) (hunique : Unambiguous legs others)
    (hotherUnique : Unambiguous others legs) :
    (pairsOf others legs).Perm ((pairsOf legs others).map MatchedLegPair.mirror) := by
  have hnodup : (pairsOf others legs).Nodup :=
    ((pairsOf_sublist others legs).nodup hotherIds).of_map
  have hmirrored : ((pairsOf legs others).map MatchedLegPair.mirror).Nodup := by
    have hincoming := (pairsOf_sublist legs others).nodup hids
    refine List.Nodup.of_map MatchedLegPair.candidateLegId ?_
    rw [map_map]
    exact hincoming
  rw [perm_ext_iff_of_nodup hnodup hmirrored]
  intro pair
  rw [mem_pairsOf hotherUnique, mem_map]
  constructor
  · intro h
    obtain ⟨other, hother, leg, hleg, heligible, rfl⟩ := h
    rw [isMatchEligible_comm] at heligible
    exact ⟨pairOf leg other, (mem_pairsOf hunique).mpr ⟨leg, hleg, other, hother, heligible, rfl⟩,
      pairOf_mirror heligible⟩
  · intro h
    obtain ⟨mirrored, hmem, rfl⟩ := h
    obtain ⟨leg, hleg, other, hother, heligible, rfl⟩ := (mem_pairsOf hunique).mp hmem
    exact ⟨other, hother, leg, hleg, by rwa [isMatchEligible_comm], pairOf_mirror heligible⟩

theorem PricesAgree.symm (h : PricesAgree legs others) : PricesAgree others legs := by
  intro other hother leg hleg heligible
  rw [isMatchEligible_comm] at heligible
  have hsides : leg.side ≠ other.side := by
    unfold isMatchEligible at heligible
    rw [decide_eq_true_eq] at heligible
    exact heligible.2.2
  exact (h leg hleg other hother heligible).symm hsides

/-! ## The loops of the engine -/

theorem matchesById_eq {matchesOf : CompatibilityLeg → List CompatibilityLeg}
    {table : List (String × CompatibilityLeg)} : matchesById legs matchesOf = some table ↔
      (∀ leg ∈ legs, (matchesOf leg).length ≤ 1) ∧
        table = OrderedMap.fill CompatibilityLeg.id (fun leg => (matchesOf leg).head?) legs [] := by
  unfold matchesById
  split
  next hmore =>
    obtain ⟨leg, hleg, hlength⟩ := hmore
    simp only [reduceCtorEq, false_iff, not_and]
    exact fun hall => absurd (hall leg hleg) (not_le.mpr hlength)
  next hnone =>
    push Not at hnone
    simp only [Option.some.injEq]
    exact ⟨fun heq => ⟨hnone, heq.symm⟩, fun h => h.2.symm⟩

theorem pairLegs_eq_ok {candidateMatches incomingMatches : List (String × CompatibilityLeg)}
    (hforward : ∀ leg ∈ legs, candidateMatches.lookup leg.id = partner others leg)
    (hback : ∀ leg ∈ legs, ∀ other, partner others leg = some other →
      incomingMatches.lookup other.id = some leg) {pairs : List MatchedLegPair} :
    pairLegs candidateMatches incomingMatches legs = .ok pairs ↔
      (∀ leg ∈ legs, ∀ other, partner others leg = some other → HintsAgree leg other) ∧
        pairs = pairsOf legs others := by
  induction legs generalizing pairs with
  | nil => simp [pairLegs, pairsOf, eq_comm]
  | cons leg rest ih =>
    have hrest := @ih (fun leg hleg => hforward leg (mem_cons_of_mem _ hleg))
      (fun leg hleg => hback leg (mem_cons_of_mem _ hleg))
    rw [pairLegs, hforward leg mem_cons_self]
    have hfirst := hback leg mem_cons_self
    cases hpartner : partner others leg with
    | none =>
      simp only [hrest, forall_mem_cons, hpartner, reduceCtorEq, false_imp_iff, implies_true,
        true_and, pairsOf, filterMap_cons, Option.map_none]
    | some other =>
      simp only [hfirst other hpartner, ne_eq, not_true_eq_false, if_false]
      have hagree : checkPriceCompatibility leg other = none ↔ HintsAgree leg other :=
        checkPriceCompatibility_iff
      cases hcheck : checkPriceCompatibility leg other with
      | some reason =>
        have hdisagree : ¬ HintsAgree leg other := by
          rw [← hagree, hcheck]
          exact Option.some_ne_none reason
        simp only [reduceCtorEq, false_iff, not_and]
        exact fun hall => absurd (hall leg mem_cons_self other hpartner) hdisagree
      | none =>
        have hpairs : pairsOf (leg :: rest) others = pairOf leg other :: pairsOf rest others := by
          unfold pairsOf
          rw [filterMap_cons, hpartner]
          rfl
        rw [hpairs, forall_mem_cons]
        constructor
        · intro h
          cases hothers : pairLegs candidateMatches incomingMatches rest with
          | error reason => simp [hothers, Except.map] at h
          | ok pairs' =>
            simp only [hothers, Except.map, Except.ok.injEq] at h
            obtain ⟨hall, hpairs'⟩ := hrest.mp hothers
            refine ⟨⟨fun other' hother' => ?_, hall⟩, by rw [← h, hpairs']; rfl⟩
            rw [← Option.some.inj (hpartner.symm.trans hother')]
            exact hagree.mp hcheck
        · intro h
          obtain ⟨⟨-, hall⟩, hpairs'⟩ := h
          rw [hrest.mpr ⟨hall, rfl⟩, hpairs']
          rfl

end

/-! ## The universes of outcomes -/

/-- The legs of two combos are of the same outcomes. -/
def SameUniverse (left right : CompatibilityInput) : Prop :=
  ∀ key, key ∈ outcomeUniverse left ↔ key ∈ outcomeUniverse right

theorem SameUniverse.symm {left right : CompatibilityInput} (h : SameUniverse left right) :
    SameUniverse right left := fun key => (h key).symm

theorem hasExactOutcomeUniverseMatch_iff {left right : CompatibilityInput} :
    hasExactOutcomeUniverseMatch left right = true ↔ SameUniverse left right := by
  have hnodup : ∀ combo : CompatibilityInput, (outcomeUniverse combo).Nodup :=
    fun combo => OrderedMap.nodup_foldl_addNew _ nodup_nil
  unfold hasExactOutcomeUniverseMatch SameUniverse
  rw [decide_eq_true_eq, ← perm_ext_iff_of_nodup (hnodup left) (hnodup right)]
  constructor
  · intro h
    exact (perm_insertionSort (· ≤ ·) _).symm.trans (h ▸ perm_insertionSort (· ≤ ·) _)
  · intro h
    have hsorted := (perm_insertionSort (· ≤ ·) (outcomeUniverse left)).trans
      (h.trans (perm_insertionSort (· ≤ ·) (outcomeUniverse right)).symm)
    exact hsorted.eq_of_pairwise' (pairwise_insertionSort _ _) (pairwise_insertionSort _ _)

/-! ## Verdicts -/

structure LegsNet (incomingCombo candidateCombo : CompatibilityInput) : Prop where
  users : incomingCombo.userId ≠ candidateCombo.userId
  covers : ∀ key ∈ outcomeUniverse candidateCombo, key ∈ outcomeUniverse incomingCombo
  forward : Unambiguous incomingCombo.legs candidateCombo.legs
  back : Unambiguous candidateCombo.legs incomingCombo.legs
  prices : PricesAgree incomingCombo.legs candidateCombo.legs
  some : pairsOf incomingCombo.legs candidateCombo.legs ≠ []
  whole : SameUniverse incomingCombo candidateCombo →
    (pairsOf incomingCombo.legs candidateCombo.legs).length = incomingCombo.legs.length ∧
      (pairsOf incomingCombo.legs candidateCombo.legs).length = candidateCombo.legs.length

def maxNettableOf (pairs : List MatchedLegPair) : ℚ :=
  (pairs.map MatchedLegPair.matchedSize).min?.getD 0

section Verdicts

variable {incoming candidate : CompatibilityInput} {pairs : List MatchedLegPair}
  {maxNettableSize : ℚ}

theorem pairLegs_combos (pairs : List MatchedLegPair)
    (hids : (incoming.legs.map CompatibilityLeg.id).Nodup)
    (hotherIds : (candidate.legs.map CompatibilityLeg.id).Nodup)
    (hforward : Unambiguous incoming.legs candidate.legs)
    (hback : Unambiguous candidate.legs incoming.legs) : pairLegs
        (OrderedMap.fill CompatibilityLeg.id
          (fun leg => (candidate.legs.filter (isMatchEligible leg)).head?) incoming.legs [])
        (OrderedMap.fill CompatibilityLeg.id
          (fun leg => (incoming.legs.filter (isMatchEligible · leg)).head?) candidate.legs [])
        incoming.legs = .ok pairs ↔
      PricesAgree incoming.legs candidate.legs ∧ pairs = pairsOf incoming.legs candidate.legs := by
  rw [pairLegs_eq_ok]
  · refine and_congr_left fun _ => forall₂_congr fun leg hleg => ?_
    simp only [partner_eq_some hleg hforward, and_imp]
  · intro leg hleg
    rw [OrderedMap.lookup_fill _ hids hleg]
    exact Option.or_none
  · intro leg hleg other hpartner
    obtain ⟨hother, heligible⟩ := (partner_eq_some hleg hforward).mp hpartner
    rw [OrderedMap.lookup_fill _ hotherIds hother, lookup_nil, Option.or_none]
    simp only [isMatchEligible_comm]
    exact (partner_eq_some hother hback).mpr ⟨hleg, by rwa [isMatchEligible_comm]⟩

/-- **When two combos are compatible**, and with which pairs. -/
theorem matchCombos_compatible_iff (hids : (incoming.legs.map CompatibilityLeg.id).Nodup)
    (hotherIds : (candidate.legs.map CompatibilityLeg.id).Nodup) :
    matchCombos incoming candidate = .compatible pairs maxNettableSize ↔
      LegsNet incoming candidate ∧
        pairs = pairsOf incoming.legs candidate.legs ∧ maxNettableSize = maxNettableOf pairs := by
  have hsame : hasExactOutcomeUniverseMatch incoming candidate = true ↔
      SameUniverse incoming candidate := hasExactOutcomeUniverseMatch_iff
  unfold matchCombos
  simp only
  split
  next huser =>
    simp only [reduceCtorEq, false_iff, not_and]
    exact fun h => absurd huser h.users
  next huser =>
    split
    next huniverse =>
      simp only [reduceCtorEq, false_iff, not_and]
      exact fun h => absurd h.covers huniverse.2
    next huniverse =>
      have hcovers : ∀ key ∈ outcomeUniverse candidate, key ∈ outcomeUniverse incoming := by
        intro key hkey
        by_contra hnot
        refine huniverse ⟨fun hexact => hnot ((hsame.mp hexact key).mpr hkey), fun hall => ?_⟩
        exact hnot (hall key hkey)
      split
      next candidateMatches incomingMatches hcandidate hincoming =>
        obtain ⟨hforward, rfl⟩ := matchesById_eq.mp hcandidate
        obtain ⟨hback, rfl⟩ := matchesById_eq.mp hincoming
        have hunambiguous : Unambiguous candidate.legs incoming.legs := by
          intro leg hleg
          have hlength := hback leg hleg
          simp only [isMatchEligible_comm _ leg] at hlength
          exact hlength
        have hpairLegs := fun pairs => pairLegs_combos pairs hids hotherIds hforward hunambiguous
        split
        next reason herror =>
          simp only [reduceCtorEq, false_iff, not_and]
          intro h
          rw [(hpairLegs _).mpr ⟨h.prices, rfl⟩] at herror
          cases herror
        next found hfound =>
          obtain ⟨hprices, rfl⟩ := (hpairLegs found).mp hfound
          split
          next hnone =>
            simp only [reduceCtorEq, false_iff, not_and]
            exact fun h => absurd hnone h.some
          next hsome =>
            split
            next hshort =>
              simp only [reduceCtorEq, false_iff, not_and]
              intro h
              obtain ⟨hincoming, hcandidate⟩ := h.whole (hsame.mp hshort.1)
              rcases hshort.2 with hne | hne
              · exact absurd hincoming hne
              · exact absurd hcandidate hne
            next hwhole =>
              have hnets : LegsNet incoming candidate := by
                refine ⟨huser, hcovers, hforward, hunambiguous, hprices, hsome, fun huniverse => ?_⟩
                rw [hsame, not_and_or, not_or, not_not, not_not] at hwhole
                exact hwhole.resolve_left (not_not.mpr huniverse)
              rw [Compatibility.compatible.injEq]
              constructor
              · intro h
                exact ⟨hnets, h.1.symm, by rw [← h.2, ← h.1]; rfl⟩
              · intro h
                exact ⟨h.2.1.symm, by rw [h.2.2, h.2.1]; rfl⟩
      next hneither =>
        simp only [reduceCtorEq, false_iff, not_and]
        intro h
        have hback : ∀ leg ∈ candidate.legs,
            (incoming.legs.filter (isMatchEligible · leg)).length ≤ 1 := by
          intro leg hleg
          simp only [isMatchEligible_comm _ leg]
          exact h.back leg hleg
        exact (hneither _ _ (matchesById_eq.mpr ⟨h.forward, rfl⟩)
          (matchesById_eq.mpr ⟨hback, rfl⟩)).elim

/-! ## Validation -/

theorem validateLegs_field {legs : List CompatibilityLeg} (field field' : String)
    (h : validateLegs field legs = .ok ()) : validateLegs field' legs = .ok () := by
  induction legs with
  | nil => rfl
  | cons leg rest ih =>
    rw [validateLegs] at h ⊢
    split at h
    next => cases h
    next hids =>
      rw [if_neg hids]
      split at h
      next => cases h
      next hquantity =>
        rw [if_neg hquantity]
        split at h
        next => cases h
        next hhint =>
          rw [if_neg hhint]
          exact ih h

theorem validateCombo_field {combo : CompatibilityInput} (field field' : String)
    (h : validateCombo combo field = .ok ()) : validateCombo combo field' = .ok () := by
  unfold validateCombo at h ⊢
  split at h
  next => cases h
  next hid =>
    rw [if_neg hid]
    split at h
    next => cases h
    next huser =>
      rw [if_neg huser]
      split at h
      next => cases h
      next hlegs =>
        rw [if_neg hlegs]
        exact validateLegs_field field field' h

theorem evaluate_eq_ok {verdict : Compatibility} : evaluate incoming candidate = .ok verdict ↔
      validateCombo incoming "incomingCombo" = .ok () ∧
        validateCombo candidate "candidateCombo" = .ok () ∧
        verdict = matchCombos incoming candidate := by
  constructor
  · intro h
    obtain ⟨_, hincoming, h⟩ := Tables.bind_eq_ok.mp h
    obtain ⟨_, hcandidate, h⟩ := Tables.bind_eq_ok.mp h
    exact ⟨hincoming, hcandidate, (Except.ok.inj h).symm⟩
  · intro h
    obtain ⟨hincoming, hcandidate, rfl⟩ := h
    unfold evaluate
    rw [hincoming, hcandidate]
    rfl

theorem evaluate_swap {verdict : Compatibility} (h : evaluate incoming candidate = .ok verdict) :
    evaluate candidate incoming = .ok (matchCombos candidate incoming) := by
  obtain ⟨hincoming, hcandidate, -⟩ := evaluate_eq_ok.mp h
  exact evaluate_eq_ok.mpr
    ⟨validateCombo_field _ _ hcandidate, validateCombo_field _ _ hincoming, rfl⟩

/-! ## What a verdict says -/

/-- A combo as the callers hand it in: its legs have ids of their own and something left. -/
structure Loaded (combo : CompatibilityInput) : Prop where
  ids : (combo.legs.map CompatibilityLeg.id).Nodup
  positive : ∀ leg ∈ combo.legs, 0 < leg.quantity

structure Matching (incomingCombo candidateCombo : CompatibilityInput)
    (pairs : List MatchedLegPair) (maxNettableSize : ℚ) : Prop where
  users : incomingCombo.userId ≠ candidateCombo.userId
  incomingOnce : (pairs.map MatchedLegPair.incomingLegId).Nodup
  candidateOnce : (pairs.map MatchedLegPair.candidateLegId).Nodup
  matched : ∀ pair ∈ pairs, ∃ leg ∈ incomingCombo.legs, ∃ other ∈ candidateCombo.legs,
    pair = pairOf leg other ∧ leg.canonicalMarketId = other.canonicalMarketId ∧
      leg.canonicalOutcomeId = other.canonicalOutcomeId ∧ leg.side ≠ other.side ∧
      HintsAgree leg other ∧ 0 < pair.matchedSize
  attained : maxNettableSize ∈ pairs.map MatchedLegPair.matchedSize
  least : ∀ pair ∈ pairs, maxNettableSize ≤ pair.matchedSize
  perfect : SameUniverse incomingCombo candidateCombo →
    (pairs.map MatchedLegPair.incomingLegId).Perm (incomingCombo.legs.map CompatibilityLeg.id) ∧
      (pairs.map MatchedLegPair.candidateLegId).Perm (candidateCombo.legs.map CompatibilityLeg.id)

/-- Up to their order, the pairs of the one verdict are those of the other seen from the other
combo. -/
def Mirrored (verdict swapped : Except String Compatibility) : Prop :=
  ∀ pairs maxNettableSize,
    (∃ pairs', pairs'.Perm pairs ∧ verdict = .ok (.compatible pairs' maxNettableSize)) ↔
      ∃ pairs', pairs'.Perm (pairs.map MatchedLegPair.mirror) ∧
        swapped = .ok (.compatible pairs' maxNettableSize)

theorem maxNettableOf_least (hsome : pairs ≠ []) :
    maxNettableOf pairs ∈ pairs.map MatchedLegPair.matchedSize ∧
      ∀ pair ∈ pairs, maxNettableOf pairs ≤ pair.matchedSize := by
  unfold maxNettableOf
  cases hmin : (pairs.map MatchedLegPair.matchedSize).min? with
  | none => exact absurd (map_eq_nil_iff.mp (min?_eq_none_iff.mp hmin)) hsome
  | some least =>
    obtain ⟨hmem, hle⟩ := min?_eq_some_iff.mp hmin
    exact ⟨hmem, fun pair hpair => hle _ (mem_map_of_mem hpair)⟩

theorem LegsNet.matching (hincoming : Loaded incoming) (hcandidate : Loaded candidate)
    (h : LegsNet incoming candidate) :
    Matching incoming candidate (pairsOf incoming.legs candidate.legs)
      (maxNettableOf (pairsOf incoming.legs candidate.legs)) := by
  have hperm := pairsOf_perm_mirror hincoming.ids hcandidate.ids h.forward h.back
  have hids : ((pairsOf candidate.legs incoming.legs).map MatchedLegPair.incomingLegId).Perm
        ((pairsOf incoming.legs candidate.legs).map MatchedLegPair.candidateLegId) := by
    have hmap := hperm.map MatchedLegPair.incomingLegId
    rwa [map_map] at hmap
  have hincomingIds := pairsOf_sublist incoming.legs candidate.legs
  have hcandidateIds := pairsOf_sublist candidate.legs incoming.legs
  have hleast := maxNettableOf_least h.some
  refine ⟨h.users, hincomingIds.nodup hincoming.ids, ?_, ?_, hleast.1, hleast.2, ?_⟩
  · exact hids.nodup_iff.mp (hcandidateIds.nodup hcandidate.ids)
  · intro pair hpair
    obtain ⟨leg, hleg, other, hother, heligible, rfl⟩ := (mem_pairsOf h.forward).mp hpair
    have hagree := h.prices leg hleg other hother heligible
    have hparts : leg.canonicalMarketId = other.canonicalMarketId ∧
        leg.canonicalOutcomeId = other.canonicalOutcomeId ∧ leg.side ≠ other.side :=
      of_decide_eq_true heligible
    exact ⟨leg, hleg, other, hother, rfl, hparts.1, hparts.2.1, hparts.2.2, hagree,
      lt_min (hincoming.positive leg hleg) (hcandidate.positive other hother)⟩
  · intro huniverse
    obtain ⟨hincomingLength, hcandidateLength⟩ := h.whole huniverse
    constructor
    · refine .of_eq (hincomingIds.eq_of_length ?_)
      rw [length_map, length_map, hincomingLength]
    · refine hids.symm.trans (.of_eq (hcandidateIds.eq_of_length ?_))
      have hlength := hperm.length_eq
      rw [length_map] at hlength
      rw [length_map, length_map, hlength, hcandidateLength]

theorem LegsNet.swap (hincoming : Loaded incoming) (hcandidate : Loaded candidate)
    (huniverse : SameUniverse incoming candidate)
    (h : LegsNet incoming candidate) : LegsNet candidate incoming := by
  have hperm := pairsOf_perm_mirror hincoming.ids hcandidate.ids h.forward h.back
  have hlength := hperm.length_eq
  rw [length_map] at hlength
  refine ⟨h.users.symm, fun key hkey => (huniverse key).mp hkey, h.back, h.forward, h.prices.symm,
    ?_, fun _ => ?_⟩
  · intro hnone
    rw [hnone] at hlength
    exact h.some (eq_nil_of_length_eq_zero hlength.symm)
  · obtain ⟨hincomingLength, hcandidateLength⟩ := h.whole huniverse
    exact ⟨hlength.trans hcandidateLength, hlength.trans hincomingLength⟩

theorem maxNettableOf_perm {left right : List MatchedLegPair} (hperm : left.Perm right) :
    maxNettableOf left = maxNettableOf right := by
  by_cases hnone : left = []
  · subst hnone
    rw [hperm.nil_eq]
  · have hother : right ≠ [] := by
      intro heq
      subst heq
      exact hnone hperm.eq_nil
    obtain ⟨hleft, hleftLeast⟩ := maxNettableOf_least hnone
    obtain ⟨hright, hrightLeast⟩ := maxNettableOf_least hother
    obtain ⟨leftPair, hleftPair, hleftSize⟩ := mem_map.mp hleft
    obtain ⟨rightPair, hrightPair, hrightSize⟩ := mem_map.mp hright
    apply le_antisymm
    · exact hrightSize ▸ hleftLeast rightPair (hperm.mem_iff.mpr hrightPair)
    · exact hleftSize ▸ hrightLeast leftPair (hperm.mem_iff.mp hleftPair)

theorem maxNettableOf_mirror (pairs : List MatchedLegPair) :
    maxNettableOf (pairs.map MatchedLegPair.mirror) = maxNettableOf pairs := by
  unfold maxNettableOf
  rw [map_map]
  rfl

theorem evaluate_swap_compatible (hincoming : Loaded incoming)
    (hcandidate : Loaded candidate) (huniverse : SameUniverse incoming candidate)
    (h : evaluate incoming candidate = .ok (.compatible pairs maxNettableSize)) :
    ∃ pairs', pairs'.Perm (pairs.map MatchedLegPair.mirror) ∧
      evaluate candidate incoming = .ok (.compatible pairs' maxNettableSize) := by
  obtain ⟨-, -, hverdict⟩ := evaluate_eq_ok.mp h
  obtain ⟨hnets, rfl, rfl⟩ :=
    (matchCombos_compatible_iff hincoming.ids hcandidate.ids).mp hverdict.symm
  have hperm := pairsOf_perm_mirror hincoming.ids hcandidate.ids hnets.forward hnets.back
  refine ⟨_, hperm, ?_⟩
  rw [evaluate_swap h]
  refine congrArg Except.ok ((matchCombos_compatible_iff hcandidate.ids hincoming.ids).mpr
    ⟨hnets.swap hincoming hcandidate huniverse, rfl, ?_⟩)
  rw [maxNettableOf_perm hperm, maxNettableOf_mirror]

theorem MatchedLegPair.mirror_mirror (pair : MatchedLegPair) : pair.mirror.mirror = pair := rfl

theorem map_mirror_mirror (pairs : List MatchedLegPair) :
    (pairs.map MatchedLegPair.mirror).map MatchedLegPair.mirror = pairs := by
  rw [map_map]
  exact map_id'' MatchedLegPair.mirror_mirror pairs

/-- **What a verdict says.** Two combos are found compatible with a matching of legs that net. Of
combos with the same outcomes the swapped verdict is the mirrored one; of others that are found
compatible it says that their outcomes do not match. -/
theorem evaluate_verdict (hincoming : Loaded incomingCombo) (hcandidate : Loaded candidateCombo) :
    (∀ pairs maxNettableSize,
      evaluate incomingCombo candidateCombo = .ok (.compatible pairs maxNettableSize) →
        Matching incomingCombo candidateCombo pairs maxNettableSize) ∧
      (SameUniverse incomingCombo candidateCombo →
        Mirrored (evaluate incomingCombo candidateCombo) (evaluate candidateCombo incomingCombo)) ∧
      (¬ SameUniverse incomingCombo candidateCombo → ∀ pairs maxNettableSize,
        evaluate incomingCombo candidateCombo = .ok (.compatible pairs maxNettableSize) →
          evaluate candidateCombo incomingCombo =
            .ok (.incompatible .outcome_universe_mismatch)) := by
  refine ⟨fun pairs maxNettableSize h => ?_, fun huniverse pairs maxNettableSize => ?_,
    fun huniverse pairs maxNettableSize h => ?_⟩
  · obtain ⟨-, -, hverdict⟩ := evaluate_eq_ok.mp h
    obtain ⟨hnets, rfl, rfl⟩ :=
      (matchCombos_compatible_iff hincoming.ids hcandidate.ids).mp hverdict.symm
    exact hnets.matching hincoming hcandidate
  · constructor
    · intro h
      obtain ⟨pairs', hperm, hverdict⟩ := h
      obtain ⟨swapped, hswapped, hother⟩ :=
        evaluate_swap_compatible hincoming hcandidate huniverse hverdict
      exact ⟨swapped, hswapped.trans (hperm.map _), hother⟩
    · intro h
      obtain ⟨pairs', hperm, hverdict⟩ := h
      obtain ⟨swapped, hswapped, hother⟩ :=
        evaluate_swap_compatible hcandidate hincoming huniverse.symm hverdict
      refine ⟨swapped, hswapped.trans ?_, hother⟩
      have hmirrored := hperm.map MatchedLegPair.mirror
      rwa [map_mirror_mirror] at hmirrored
  · rw [evaluate_swap h]
    obtain ⟨-, -, hverdict⟩ := evaluate_eq_ok.mp h
    obtain ⟨hnets, -, -⟩ :=
      (matchCombos_compatible_iff hincoming.ids hcandidate.ids).mp hverdict.symm
    -- the outcomes of the candidate are some of the incoming combo's, and not all of them
    have hnot : ¬ ∀ key ∈ outcomeUniverse incomingCombo, key ∈ outcomeUniverse candidateCombo :=
      fun hall => huniverse fun key => ⟨hall key, hnets.covers key⟩
    have hexact : ¬ hasExactOutcomeUniverseMatch candidateCombo incomingCombo = true :=
      fun hmatch => huniverse (hasExactOutcomeUniverseMatch_iff.mp hmatch).symm
    unfold matchCombos
    simp only
    rw [if_neg hnets.users.symm, if_pos ⟨hexact, hnot⟩]

end Verdicts

/-! ## Two combos -/

def sampleLeg (id market : String) (side : Side) (quantity : ℚ) (priceHint : Option ℚ) :
    CompatibilityLeg := ⟨id, market, "yes", side, quantity, priceHint⟩

def buyer (legs : List CompatibilityLeg) : CompatibilityInput := ⟨"buyer", "first", legs⟩

def seller (legs : List CompatibilityLeg) : CompatibilityInput := ⟨"seller", "second", legs⟩

theorem evaluate_verdict_pair : evaluate (buyer [sampleLeg "b1" "m" .buy 5 (some (3 / 5))])
        (seller [sampleLeg "s1" "m" .sell 2 (some (1 / 2))]) =
      .ok (.compatible [⟨"b1", "s1", "m", "yes", 2⟩] 2) ∧
    Matching (buyer [sampleLeg "b1" "m" .buy 5 (some (3 / 5))])
      (seller [sampleLeg "s1" "m" .sell 2 (some (1 / 2))]) [⟨"b1", "s1", "m", "yes", 2⟩] 2 := by
  have hverdict : evaluate (buyer [sampleLeg "b1" "m" .buy 5 (some (3 / 5))])
      (seller [sampleLeg "s1" "m" .sell 2 (some (1 / 2))]) =
        .ok (.compatible [⟨"b1", "s1", "m", "yes", 2⟩] 2) := by decide +kernel
  have hbuyer : Loaded (buyer [sampleLeg "b1" "m" .buy 5 (some (3 / 5))]) :=
    ⟨by decide, by decide +kernel⟩
  have hseller : Loaded (seller [sampleLeg "s1" "m" .sell 2 (some (1 / 2))]) :=
    ⟨by decide, by decide +kernel⟩
  exact ⟨hverdict, (evaluate_verdict hbuyer hseller).1 _ _ hverdict⟩

/-- Legs without prices and legs with nothing left are matched too, and a combo that nets with a
part of another is not netted the other way round. -/
theorem evaluate_lenient :
    evaluate (buyer [sampleLeg "b1" "m" .buy 5 none]) (seller [sampleLeg "s1" "m" .sell 2 none]) =
        .ok (.compatible [⟨"b1", "s1", "m", "yes", 2⟩] 2) ∧
      evaluate (buyer [sampleLeg "b1" "m" .buy 5 none]) (seller [sampleLeg "s1" "m" .sell 0 none]) =
        .ok (.compatible [⟨"b1", "s1", "m", "yes", 0⟩] 0) ∧
      evaluate (buyer [sampleLeg "b1" "m" .buy 5 none, sampleLeg "b2" "n" .buy 5 none])
          (seller [sampleLeg "s1" "m" .sell 2 none]) =
        .ok (.compatible [⟨"b1", "s1", "m", "yes", 2⟩] 2) ∧
      evaluate (seller [sampleLeg "s1" "m" .sell 2 none])
          (buyer [sampleLeg "b1" "m" .buy 5 none, sampleLeg "b2" "n" .buy 5 none]) =
        .ok (.incompatible .outcome_universe_mismatch) := by
  decide +kernel

end LotusRfq.Combo
