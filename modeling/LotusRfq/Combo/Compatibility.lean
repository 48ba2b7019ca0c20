import Mathlib.Data.List.MinMax
import LotusRfq.Combo.Rows
import LotusRfq.Lib.OrderedMap

/-!
# LotusRfq — `ComboNettingCompatibilityEngine`

Two combos of different users net when their open legs pair off: each leg has at most one leg of
the other combo on the other side of its outcome, and the price hints of a pair cross.

* **`evaluate_compatible`** — the pairs of two compatible combos are one to one.
-/

namespace LotusRfq.Combo

inductive CompatibilityReason where
  | self_trade_forbidden
  | price_ambiguity
  | price_incompatible
  | outcome_universe_mismatch
  | ambiguous_leg_mapping
  | no_compatible_overlap
  | non_exact_overlap
  deriving DecidableEq

structure CompatibilityLeg where
  id : String
  canonicalMarketId : String
  canonicalOutcomeId : String
  side : Side
  quantity : ℚ
  priceHint : Option ℚ

structure CompatibilityInput where
  id : String
  userId : String
  legs : List CompatibilityLeg

structure MatchedLegPair where
  incomingLegId : String
  candidateLegId : String
  marketId : String
  outcomeId : String
  matchedSize : ℚ
  deriving DecidableEq

inductive Compatibility where
  | incompatible (reason : CompatibilityReason)
  | compatible (matchedLegPairs : List MatchedLegPair) (maxNettableSize : ℚ)
  deriving DecidableEq

/-! ## Validation -/

def validateLegs (field : String) : List CompatibilityLeg → Except String Unit
  | [] => .ok ()
  | leg :: rest =>
    if ¬ (Js.hasText leg.id ∧ Js.hasText leg.canonicalMarketId ∧
        Js.hasText leg.canonicalOutcomeId) then
      .error (field ++ " contains malformed leg identifiers.")
    else if leg.quantity < 0 then
      .error (field ++ ".quantity must be a finite non-negative decimal.")
    else if leg.priceHint.any (· < 0) then
      .error (field ++ ".priceHint must be a finite non-negative decimal.")
    else validateLegs field rest

def validateCombo (combo : CompatibilityInput) (field : String) : Except String Unit :=
  if ¬ Js.hasText combo.id then .error (field ++ ".id is required.")
  else if ¬ Js.hasText combo.userId then .error (field ++ ".userId is required.")
  else if combo.legs = [] then .error (field ++ ".legs must not be empty.")
  else validateLegs field combo.legs

/-! ## Pairing the legs -/

def isMatchEligible (incomingLeg candidateLeg : CompatibilityLeg) : Bool :=
  incomingLeg.canonicalMarketId = candidateLeg.canonicalMarketId ∧
    incomingLeg.canonicalOutcomeId = candidateLeg.canonicalOutcomeId ∧
    incomingLeg.side ≠ candidateLeg.side

/-- The reason why two prices do not go together, if they do not. -/
def checkPriceCompatibility (incomingLeg candidateLeg : CompatibilityLeg) :
    Option CompatibilityReason :=
  match incomingLeg.priceHint, candidateLeg.priceHint with
  | none, none => none
  | some incomingPrice, some candidatePrice =>
    let crosses : Bool := match incomingLeg.side with
      | .buy => candidatePrice ≤ incomingPrice
      | .sell => incomingPrice ≤ candidatePrice
    if crosses then none else some .price_incompatible
  | _, _ => some .price_ambiguity

def outcomeUniverse (combo : CompatibilityInput) : List String :=
  (combo.legs.map fun leg => leg.canonicalMarketId ++ ":" ++ leg.canonicalOutcomeId).foldl
    OrderedMap.addNew []

def hasExactOutcomeUniverseMatch (incomingCombo candidateCombo : CompatibilityInput) : Bool :=
  (outcomeUniverse incomingCombo).insertionSort (· ≤ ·) =
    (outcomeUniverse candidateCombo).insertionSort (· ≤ ·)

/-- The one leg each leg matches, by the leg's id; `none` when a leg matches more than one. -/
def matchesById (legs : List CompatibilityLeg)
    (matchesOf : CompatibilityLeg → List CompatibilityLeg) :
    Option (List (String × CompatibilityLeg)) :=
  if ∃ leg ∈ legs, 1 < (matchesOf leg).length then none
  else some (OrderedMap.fill CompatibilityLeg.id (fun leg => (matchesOf leg).head?) legs [])

/-- The pairs of the incoming legs that have a match, which has to match back. -/
def pairLegs (candidateMatches incomingMatches : List (String × CompatibilityLeg)) :
    List CompatibilityLeg → Except CompatibilityReason (List MatchedLegPair)
  | [] => .ok []
  | incomingLeg :: rest =>
    match candidateMatches.lookup incomingLeg.id with
    | none => pairLegs candidateMatches incomingMatches rest
    | some candidateLeg =>
      match incomingMatches.lookup candidateLeg.id with
      | none => .error .ambiguous_leg_mapping
      | some reverseIncomingLeg =>
        if reverseIncomingLeg.id ≠ incomingLeg.id then .error .ambiguous_leg_mapping
        else
          match checkPriceCompatibility incomingLeg candidateLeg with
          | some reason => .error reason
          | none =>
            (pairLegs candidateMatches incomingMatches rest).map fun pairs =>
              { incomingLegId := incomingLeg.id
                candidateLegId := candidateLeg.id
                marketId := incomingLeg.canonicalMarketId
                outcomeId := incomingLeg.canonicalOutcomeId
                matchedSize := min incomingLeg.quantity candidateLeg.quantity } :: pairs

/-- `evaluate` on combos that are valid. -/
def matchCombos (incomingCombo candidateCombo : CompatibilityInput) : Compatibility :=
  let exactUniverseMatch := hasExactOutcomeUniverseMatch incomingCombo candidateCombo
  if incomingCombo.userId = candidateCombo.userId then .incompatible .self_trade_forbidden
  else if ¬ exactUniverseMatch ∧
      ¬ ∀ key ∈ outcomeUniverse candidateCombo, key ∈ outcomeUniverse incomingCombo then
    .incompatible .outcome_universe_mismatch
  else
    match matchesById incomingCombo.legs
        (fun leg => candidateCombo.legs.filter (isMatchEligible leg)),
      matchesById candidateCombo.legs
        (fun leg => incomingCombo.legs.filter (isMatchEligible · leg)) with
    | some candidateMatches, some incomingMatches =>
      match pairLegs candidateMatches incomingMatches incomingCombo.legs with
      | .error reason => .incompatible reason
      | .ok pairs =>
        if pairs = [] then .incompatible .no_compatible_overlap
        else if exactUniverseMatch ∧ (pairs.length ≠ incomingCombo.legs.length ∨
            pairs.length ≠ candidateCombo.legs.length) then
          .incompatible .non_exact_overlap
        else .compatible pairs ((pairs.map MatchedLegPair.matchedSize).min?.getD 0)
    | _, _ => .incompatible .ambiguous_leg_mapping

def evaluate (incomingCombo candidateCombo : CompatibilityInput) :
    Except String Compatibility := do
  validateCombo incomingCombo "incomingCombo"
  validateCombo candidateCombo "candidateCombo"
  return matchCombos incomingCombo candidateCombo

/-! ## The pairs are one to one -/

section

variable {candidateMatches incomingMatches : List (String × CompatibilityLeg)}

section

variable {legs : List CompatibilityLeg} {pairs : List MatchedLegPair}
  (h : pairLegs candidateMatches incomingMatches legs = .ok pairs)

include h

theorem pairLegs_sublist :
    (pairs.map MatchedLegPair.incomingLegId).Sublist (legs.map CompatibilityLeg.id) := by
  induction legs generalizing pairs with
  | nil =>
    cases h
    exact List.Sublist.slnil
  | cons incomingLeg rest ih =>
    rw [pairLegs] at h
    split at h
    next => exact (ih h).cons _
    next candidateLeg _ =>
      split at h
      next => cases h
      next =>
        split at h
        next => cases h
        next =>
          split at h
          next => cases h
          next =>
            cases hrest : pairLegs candidateMatches incomingMatches rest with
            | error reason => simp [hrest, Except.map] at h
            | ok pairs' =>
              simp only [hrest, Except.map, Except.ok.injEq] at h
              subst h
              exact (ih hrest).cons_cons _

theorem pairLegs_reverse {pair : MatchedLegPair} (hpair : pair ∈ pairs) :
    (incomingMatches.lookup pair.candidateLegId).map CompatibilityLeg.id =
      some pair.incomingLegId := by
  induction legs generalizing pairs with
  | nil =>
    cases h
    cases hpair
  | cons incomingLeg rest ih =>
    rw [pairLegs] at h
    split at h
    next => exact ih h hpair
    next candidateLeg _ =>
      split at h
      next => cases h
      next reverseIncomingLeg hreverse =>
        split at h
        next => cases h
        next hid =>
          split at h
          next => cases h
          next =>
            cases hrest : pairLegs candidateMatches incomingMatches rest with
            | error reason => simp [hrest, Except.map] at h
            | ok pairs' =>
              simp only [hrest, Except.map, Except.ok.injEq] at h
              subst h
              rcases List.mem_cons.mp hpair with rfl | hmem
              · rw [hreverse, Option.map_some, not_not.mp hid]
              · exact ih hrest hmem

end

end

/-- **One to one.** When two combos are compatible, no leg of either is in two pairs. -/
theorem evaluate_compatible {incomingCombo candidateCombo : CompatibilityInput}
    {pairs : List MatchedLegPair} {maxNettableSize : ℚ}
    (hids : (incomingCombo.legs.map CompatibilityLeg.id).Nodup)
    (h : evaluate incomingCombo candidateCombo = .ok (.compatible pairs maxNettableSize)) :
    incomingCombo.userId ≠ candidateCombo.userId ∧ (pairs.map MatchedLegPair.incomingLegId).Nodup ∧
      (pairs.map MatchedLegPair.candidateLegId).Nodup := by
  have hmatched : matchCombos incomingCombo candidateCombo = .compatible pairs maxNettableSize := by
    obtain ⟨_, _, h⟩ := Tables.bind_eq_ok.mp h
    obtain ⟨_, _, h⟩ := Tables.bind_eq_ok.mp h
    simpa [pure, Except.pure] using h
  unfold matchCombos at hmatched
  simp only at hmatched
  split at hmatched
  next => cases hmatched
  next huser =>
    split at hmatched
    next => cases hmatched
    next =>
      split at hmatched
      next candidateMatches incomingMatches _ _ =>
        split at hmatched
        next => cases hmatched
        next hpairs =>
          split at hmatched
          next => cases hmatched
          next =>
            split at hmatched
            next => cases hmatched
            next =>
              cases hmatched
              have hincoming := (pairLegs_sublist hpairs).nodup hids
              refine ⟨huser, hincoming, ?_⟩
              rw [List.nodup_map_iff_inj_on hincoming.of_map]
              intro pair hpair pair' hpair' heq
              -- a candidate leg matches back to one incoming leg only
              have hback := pairLegs_reverse hpairs hpair
              rw [heq, pairLegs_reverse hpairs hpair', Option.some.injEq] at hback
              exact List.inj_on_of_nodup_map hincoming hpair hpair' hback.symm
      next => cases hmatched

end LotusRfq.Combo
