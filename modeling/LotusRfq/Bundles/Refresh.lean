import LotusRfq.Bundles.Types

/-!
# LotusRfq — looking up what was submitted

`refreshStoredExecutionStatus` asks the venue of every leg for its fill, and where that matters for
its settlement.

* **`refreshLeg_FILLED_iff`** — when a leg is filled after it was looked up;
* **`Settled.refreshLeg`** — a leg that waits for its settlement is not filled before.
-/

namespace LotusRfq.Bundles

open Execution (SettlementStatusV0)

/-- What the venue of a leg answers, or the message of what it throws. -/
structure LookupReply where
  fill : Except String VenueFillState
  settlement : Except String SettlementStatusV0

/-- One call of `refreshStoredExecutionStatus`: the time, and what the venues answer. -/
structure Lookup where
  now : ℕ
  settlementIntervalMs : ℕ
  reply : SubmittedLeg → LookupReply

def isLeft (leg : SubmittedLeg) : Bool := !isTruthy leg.venueOrderId ∨ leg.status = .FAILED

/-- A leg that was filled at once, and is taken as filled whole. -/
def isInferred (routeLeg : Option ExecutableRouteLeg) (leg : SubmittedLeg) : Bool :=
  leg.status = .FILLED ∧ leg.fillState.isNone ∧ routeLeg.isSome ∧
    ¬ requiresVerifiedSettlementForPosition leg.venue

/-- The fill that counts when the venue answers `fill`: a leg that is filled is not open again. -/
def effectiveFill (routeLeg : Option ExecutableRouteLeg) (leg : SubmittedLeg)
    (fill : VenueFillState) : VenueFillState :=
  match routeLeg with
  | some routeLeg =>
    if leg.status = .FILLED ∧ fill.status = .OPEN ∧
        ¬ requiresVerifiedSettlementForPosition leg.venue then inferredFilledLegState routeLeg
    else fill
  | none => fill

def settlementCheckDue (lookup : Lookup) (leg : SubmittedLeg) : Bool :=
  match leg.lastSettlementCheckedAt with
  | none => true
  | some last => last = 0 ∨ last + lookup.settlementIntervalMs ≤ lookup.now

def shouldRefreshSettlement (lookup : Lookup) (leg : SubmittedLeg) (effective : VenueFillState) :
    Bool :=
  settlementCheckDue lookup leg ∧
    (effective.status = .FILLED ∨ leg.settlementState = some .SETTLEMENT_PENDING ∨
      (requiresVerifiedSettlementForPosition leg.venue ∧ isTruthy leg.fillId) ∨
      (requiresVerifiedSettlementForPosition leg.venue ∧
        (leg.status = .FILLED ∨ leg.fillState.any fun state => state.status = .FILLED)))

/-- The settlement that counts, or the message of what the venue throws. -/
def settlementFor (lookup : Lookup) (leg : SubmittedLeg) (effective : VenueFillState) :
    Except String (Option SettlementStatusV0) :=
  if shouldRefreshSettlement lookup leg effective then (lookup.reply leg).settlement.map some
  else .ok leg.settlementState

def answeredLeg (lookup : Lookup) (routeLeg : Option ExecutableRouteLeg) (leg : SubmittedLeg)
    (effective : VenueFillState) (settlementState : Option SettlementStatusV0) : SubmittedLeg :=
  let needsVerifiedSettlement := requiresVerifiedSettlementForPosition leg.venue
  let hasVerifiedSettlement := hasVerifiedPositionSettlement settlementState
  let final :=
    match routeLeg with
    | some routeLeg =>
      if needsVerifiedSettlement ∧ hasVerifiedSettlement ∧ effective.status ≠ .FILLED then
        inferredFilledLegState routeLeg
      else effective
    | none => effective
  { leg with
    fillState := some final
    settlementState := settlementState.or leg.settlementState
    status :=
      if needsVerifiedSettlement ∧ final.status = .FILLED ∧ ¬ hasVerifiedSettlement then .SUBMITTED
      else final.status.leg
    lastStatusCheckedAt := some lookup.now
    lastSettlementCheckedAt :=
      if shouldRefreshSettlement lookup leg effective then some lookup.now
      else leg.lastSettlementCheckedAt
    lastWatcherError := none }

def unansweredLeg (lookup : Lookup) (leg : SubmittedLeg) (message : String) : SubmittedLeg :=
  { leg with
    lastStatusCheckedAt := some lookup.now
    lastWatcherError := some message }

def refreshLeg (lookup : Lookup) (route : Option (List ExecutableRouteLeg)) (leg : SubmittedLeg) :
    SubmittedLeg :=
  if isLeft leg then leg
  else
    let routeLeg := route.bind fun legs => legs[leg.legIndex]?
    if isInferred routeLeg leg then
      { leg with
        fillState := routeLeg.map inferredFilledLegState
        lastStatusCheckedAt := some lookup.now
        lastWatcherError := none }
    else
      match (lookup.reply leg).fill with
      | .error message => unansweredLeg lookup leg message
      | .ok fill =>
        let effective := effectiveFill routeLeg leg fill
        match settlementFor lookup leg effective with
        | .error message => unansweredLeg lookup leg message
        | .ok settlementState => answeredLeg lookup routeLeg leg effective settlementState

def refreshStoredExecutionStatus (lookup : Lookup) (stored : SignedTradeExecutionStatus) :
    SignedTradeExecutionStatus :=
  if stored.dryRun then stored
  else
    let submittedLegs := stored.submittedLegs.map (refreshLeg lookup stored.route)
    { stored with
      updatedAt := lookup.now
      status := summarizeStoredExecutionStatus submittedLegs
      submittedLegs }

/-! ## Filled afterwards -/

variable {lookup : Lookup} {route : Option (List ExecutableRouteLeg)}
  {routeLeg : Option ExecutableRouteLeg} {leg : SubmittedLeg} {fill : VenueFillState}
  {settlementState : Option SettlementStatusV0}

/-- The answers of the venue confirm that the leg is filled: where it does not answer, the leg was
filled before; where the settlement is to be verified, it is; elsewhere the venue says so, or has
the order as open that was filled before. -/
def ConfirmsFill (lookup : Lookup) (route : Option (List ExecutableRouteLeg)) (leg : SubmittedLeg) :
    Prop :=
  let routeLeg := route.bind fun legs => legs[leg.legIndex]?
  if isLeft leg ∨ isInferred routeLeg leg then leg.status = .FILLED
  else
    match (lookup.reply leg).fill with
    | .error _ => leg.status = .FILLED
    | .ok fill =>
      match settlementFor lookup leg (effectiveFill routeLeg leg fill) with
      | .error _ => leg.status = .FILLED
      | .ok settlementState =>
        if requiresVerifiedSettlementForPosition leg.venue then
          hasVerifiedPositionSettlement settlementState = true ∧
            (fill.status = .FILLED ∨ routeLeg.isSome = true)
        else fill.status = .FILLED ∨
          (leg.status = .FILLED ∧ fill.status = .OPEN ∧ routeLeg.isSome = true)

instance : Decidable (ConfirmsFill lookup route leg) := by
  unfold ConfirmsFill
  dsimp only
  split
  · infer_instance
  · split
    · infer_instance
    · split <;> infer_instance

theorem effectiveFill_FILLED_iff : (effectiveFill routeLeg leg fill).status = .FILLED ↔
    fill.status = .FILLED ∨ (leg.status = .FILLED ∧ fill.status = .OPEN ∧
      routeLeg.isSome = true ∧ requiresVerifiedSettlementForPosition leg.venue = false) := by
  cases routeLeg with
  | none => simp [effectiveFill]
  | some routeLeg =>
    by_cases hopen : leg.status = .FILLED ∧ fill.status = .OPEN ∧
        ¬ requiresVerifiedSettlementForPosition leg.venue
    · simp [effectiveFill, hopen, inferredFilledLegState]
    · simp only [effectiveFill, if_neg hopen, Option.isSome_some, true_and]
      refine ⟨Or.inl, fun h => h.elim id fun hcases => absurd ?_ hopen⟩
      exact ⟨hcases.1, hcases.2.1, by simp [hcases.2.2]⟩

theorem answeredLeg_FILLED_iff :
    (answeredLeg lookup routeLeg leg (effectiveFill routeLeg leg fill) settlementState).status =
        .FILLED ↔
      if requiresVerifiedSettlementForPosition leg.venue then
        hasVerifiedPositionSettlement settlementState = true ∧
          (fill.status = .FILLED ∨ routeLeg.isSome = true)
      else fill.status = .FILLED ∨
        (leg.status = .FILLED ∧ fill.status = .OPEN ∧ routeLeg.isSome = true) := by
  cases hneeds : requiresVerifiedSettlementForPosition leg.venue with
  | false =>
    -- the fill that counts decides
    have hstatus : (answeredLeg lookup routeLeg leg (effectiveFill routeLeg leg fill)
        settlementState).status = (effectiveFill routeLeg leg fill).status.leg := by
      cases routeLeg <;> simp [answeredLeg, hneeds]
    rw [hstatus, FillStatus.leg_eq_FILLED, effectiveFill_FILLED_iff]
    simp [hneeds]
  | true =>
    have hfill : (effectiveFill routeLeg leg fill).status = .FILLED ↔ fill.status = .FILLED := by
      rw [effectiveFill_FILLED_iff]
      simp [hneeds]
    rw [if_pos rfl, ← hfill]
    cases hverified : hasVerifiedPositionSettlement settlementState with
    | false =>
      -- nothing that is not verified is filled
      have hstatus : (answeredLeg lookup routeLeg leg (effectiveFill routeLeg leg fill)
          settlementState).status ≠ .FILLED := by
        by_cases hfilled : (effectiveFill routeLeg leg fill).status = .FILLED
        · cases routeLeg <;> simp [answeredLeg, hneeds, hverified, hfilled]
        · cases routeLeg <;> simp [answeredLeg, hneeds, hverified, hfilled]
      simp [hstatus]
    | true =>
      cases routeLeg with
      | none => simp [answeredLeg, hneeds, hverified]
      | some routeLeg =>
        by_cases hfilled : (effectiveFill (some routeLeg) leg fill).status = .FILLED
        · simp [answeredLeg, hneeds, hverified, hfilled]
        · simp [answeredLeg, hneeds, hverified, hfilled, inferredFilledLegState]

theorem refreshLeg_FILLED_iff :
    (refreshLeg lookup route leg).status = .FILLED ↔ ConfirmsFill lookup route leg := by
  unfold refreshLeg ConfirmsFill
  by_cases hleft : isLeft leg
  · simp [hleft]
  · by_cases hinferred : isInferred (route.bind fun legs => legs[leg.legIndex]?) leg
    · simp [hleft, hinferred]
    · simp only [hleft, hinferred, if_false, or_self, Bool.false_eq_true]
      cases (lookup.reply leg).fill with
      | error message => exact Iff.rfl
      | ok fill =>
        dsimp only
        cases settlementFor lookup leg
            (effectiveFill (route.bind fun legs => legs[leg.legIndex]?) leg fill) with
        | error message => exact Iff.rfl
        | ok settlementState => exact answeredLeg_FILLED_iff

/-! ## Settled before filled -/

/-- A leg that waits for its settlement is not filled before. -/
def Settled (leg : SubmittedLeg) : Prop :=
  leg.status = .FILLED → requiresVerifiedSettlementForPosition leg.venue = true →
    hasVerifiedPositionSettlement leg.settlementState = true

theorem Settled.of_ne_FILLED (h : leg.status ≠ .FILLED) : Settled leg :=
  fun hfilled => absurd hfilled h

theorem settled_answeredLeg (fill : VenueFillState) : Settled (answeredLeg lookup routeLeg leg
    (effectiveFill routeLeg leg fill) settlementState) := by
  intro hfilled hneeds
  have hneeds' : requiresVerifiedSettlementForPosition leg.venue = true := hneeds
  rw [answeredLeg_FILLED_iff, if_pos hneeds'] at hfilled
  have hverified : settlementState = some .SETTLEMENT_VERIFIED := by
    simpa [hasVerifiedPositionSettlement] using hfilled.1
  -- what is verified is stored as such
  show hasVerifiedPositionSettlement (settlementState.or leg.settlementState) = true
  rw [hverified]
  rfl

theorem Settled.refreshLeg (h : Settled leg) : Settled (refreshLeg lookup route leg) := by
  unfold Bundles.refreshLeg
  split
  next => exact h
  next =>
    dsimp only
    split
    next hinferred =>
      intro _ hneeds
      have hnone : requiresVerifiedSettlementForPosition leg.venue = false := by
        simp only [isInferred, decide_eq_true_eq] at hinferred
        simpa using hinferred.2.2.2
      exact absurd (hnone.symm.trans hneeds) Bool.false_ne_true
    next =>
      split
      next => exact h
      next fill _ =>
        split
        next => exact h
        next => exact settled_answeredLeg fill

theorem submittedLegKey_refreshLeg :
    submittedLegKey (refreshLeg lookup route leg) = submittedLegKey leg := by
  unfold refreshLeg
  dsimp only
  repeat' split
  all_goals rfl

end LotusRfq.Bundles
