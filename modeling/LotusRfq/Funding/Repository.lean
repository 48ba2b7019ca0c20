import LotusRfq.Funding.Types
import LotusRfq.Lib.Tables

/-!
# LotusRfq — `FundingRepository`, row by row

The tables of the funding intents and those of the withdrawal intents, and the statements the
services send them. A reconciliation row goes with the leg it is about, and re-quoting deletes
the legs of an intent.

* **`FundingTables.getIntent_ok`** — what a user is shown of an intent;
* **`FundingTables.replaceRouteLegs_ok`** — what is left of the legs after a re-quote.
-/

namespace LotusRfq.Funding

open Tables

/-! ## Funding -/

structure FundingTables where
  intents : List FundingIntent
  targets : List FundingTarget
  routeLegs : List FundingRouteLeg
  reconciliations : List FundingReconciliationRecord

structure FundingIntentView where
  intent : FundingIntent
  targets : List FundingTarget
  routeLegs : List FundingRouteLeg
  reconciliations : List FundingReconciliationRecord

namespace FundingTables

def findIntentById (fundingIntentId : String) (tables : FundingTables) : Option FundingIntent :=
  select FundingIntent.fundingIntentId fundingIntentId tables.intents

def listTargets (fundingIntentId : String) (tables : FundingTables) : List FundingTarget :=
  tables.targets.filter fun target => target.fundingIntentId = fundingIntentId

def listRouteLegs (fundingIntentId : String) (tables : FundingTables) : List FundingRouteLeg :=
  tables.routeLegs.filter fun leg => leg.fundingIntentId = fundingIntentId

def listReconciliations (fundingIntentId : String) (tables : FundingTables) :
    List FundingReconciliationRecord :=
  tables.reconciliations.filter fun record => record.fundingIntentId = fundingIntentId

def updateTargetStatus (fundingTargetId : String) (status : FundingLegState)
    (tables : FundingTables) : FundingTables :=
  { tables with
    targets := update FundingTarget.fundingTargetId fundingTargetId
      (fun target => { target with status }) tables.targets }

/-- The two `UPDATE`s of one statement: a leg by its id, then the target it is for. -/
def updateLeg (routeLegId : String) (change : FundingRouteLeg → FundingRouteLeg)
    (status : FundingLegState) (tables : FundingTables) : FundingTables :=
  let updated := tables.routeLegs.filter fun leg => leg.routeLegId = routeLegId
  { tables with
    routeLegs := update FundingRouteLeg.routeLegId routeLegId change tables.routeLegs
    targets := tables.targets.map fun target =>
      if target.fundingTargetId ∈ updated.map (·.fundingTargetId) then { target with status }
      else target }

def updateIntentStatus (fundingIntentId : String) (status : FundingAggregateState)
    (tables : FundingTables) : FundingTables :=
  { tables with
    intents := update FundingIntent.fundingIntentId fundingIntentId
      (fun intent => { intent with status }) tables.intents }

/-- `DELETE` the legs of the intent, their reconciliation rows with them, and insert the new ones;
an id that is taken fails the transaction. -/
def replaceRouteLegs (fundingIntentId : String) (routeLegs : List FundingRouteLeg)
    (tables : FundingTables) : Except FundingError FundingTables :=
  let kept := tables.routeLegs.filter fun leg => leg.fundingIntentId ≠ fundingIntentId
  let deleted := tables.routeLegs.filter fun leg => leg.fundingIntentId = fundingIntentId
  if ((kept ++ routeLegs).map (·.routeLegId)).Nodup then
    .ok (routeLegs.foldl (fun tables leg => tables.updateTargetStatus leg.fundingTargetId leg.status)
      { tables with
        routeLegs := kept ++ routeLegs
        reconciliations := tables.reconciliations.filter fun record =>
          record.routeLegId ∉ deleted.map (·.routeLegId) })
  else .error (.database "duplicate key value violates unique constraint")

def submissionChange (txHash : String) (status : FundingLegState) (leg : FundingRouteLeg) :
    FundingRouteLeg :=
  { leg with txHashes := leg.txHashes ++ [txHash], status, bridgeStatus := .PENDING }

def updateRouteLegSubmission (routeLegId txHash : String) (status : FundingLegState) :
    FundingTables → FundingTables :=
  updateLeg routeLegId (submissionChange txHash status) status

/-- What `updateRouteLegProviderStatus` sets on the leg. -/
structure ProviderStatusUpdate where
  status : FundingLegState
  bridgeStatus : BridgeStatus
  destinationStatus : ConfirmationStatus
  venueCreditStatus : ConfirmationStatus
  errorReason : Option String

def ProviderStatusUpdate.change (input : ProviderStatusUpdate) (leg : FundingRouteLeg) :
    FundingRouteLeg :=
  { leg with
    status := input.status
    bridgeStatus := input.bridgeStatus
    destinationStatus := input.destinationStatus
    venueCreditStatus := input.venueCreditStatus
    errorReason := input.errorReason }

def updateRouteLegProviderStatus (routeLegId : String) (input : ProviderStatusUpdate) :
    FundingTables → FundingTables :=
  updateLeg routeLegId input.change input.status

/-- A record about a leg that is not there violates its foreign key. -/
def createReconciliationRecord (record : FundingReconciliationRecord) (tables : FundingTables) :
    Except FundingError FundingTables :=
  if record.routeLegId ∈ tables.routeLegs.map (·.routeLegId) then
    .ok { tables with reconciliations := tables.reconciliations ++ [record] }
  else .error (.database "insert or update violates foreign key constraint")

/-- `FundingService.getIntent`. -/
def getIntent (userId fundingIntentId : String) (tables : FundingTables) :
    Except FundingError FundingIntentView :=
  match tables.findIntentById fundingIntentId with
  | none => .error (.funding .FUNDING_INTENT_NOT_FOUND "Funding intent was not found." 404)
  | some intent =>
    if intent.userId ≠ userId then
      .error (.funding .FUNDING_INTENT_FORBIDDEN
        "Funding intent does not belong to this user." 403)
    else .ok {
      intent
      targets := tables.listTargets fundingIntentId
      routeLegs := tables.listRouteLegs fundingIntentId
      reconciliations := tables.listReconciliations fundingIntentId }

end FundingTables

/-- `view.routeLegs.find((candidate) => candidate.routeLegId === routeLegId)`. -/
def FundingIntentView.findLeg (view : FundingIntentView) (routeLegId : String) :
    Option FundingRouteLeg :=
  view.routeLegs.find? fun candidate => candidate.routeLegId = routeLegId

variable {tables tables' : FundingTables} {userId fundingIntentId routeLegId : String}
  {view : FundingIntentView} {leg : FundingRouteLeg}

theorem FundingTables.getIntent_ok (h : tables.getIntent userId fundingIntentId = .ok view) :
    tables.findIntentById fundingIntentId = some view.intent ∧ view.intent.userId = userId ∧
      view.targets = tables.listTargets fundingIntentId ∧
      view.routeLegs = tables.listRouteLegs fundingIntentId := by
  unfold FundingTables.getIntent at h
  split at h
  next => cases h
  next intent hfind =>
    split at h
    next => cases h
    next huser =>
      cases h
      exact ⟨hfind, not_not.mp huser, rfl, rfl⟩

theorem FundingIntentView.mem_of_findLeg
    (hview : tables.getIntent userId fundingIntentId = .ok view)
    (h : view.findLeg routeLegId = some leg) :
    leg ∈ tables.routeLegs ∧ leg.fundingIntentId = fundingIntentId ∧
      leg.routeLegId = routeLegId := by
  have hlegs := (FundingTables.getIntent_ok hview).2.2.2
  have hmem : leg ∈ view.routeLegs := List.mem_of_find?_eq_some h
  rw [hlegs, FundingTables.listRouteLegs, List.mem_filter] at hmem
  exact ⟨hmem.1, by simpa using hmem.2, by simpa using List.find?_some h⟩

theorem FundingTables.replaceRouteLegs_ok {routeLegs : List FundingRouteLeg}
    (h : tables.replaceRouteLegs fundingIntentId routeLegs = .ok tables') : tables'.routeLegs =
        (tables.routeLegs.filter fun leg => leg.fundingIntentId ≠ fundingIntentId) ++ routeLegs ∧
      (tables'.reconciliations = tables.reconciliations.filter fun record =>
        record.routeLegId ∉ (tables.routeLegs.filter fun leg =>
          leg.fundingIntentId = fundingIntentId).map (·.routeLegId)) ∧
      (tables'.routeLegs.map (·.routeLegId)).Nodup ∧ tables'.intents = tables.intents := by
  -- the targets are all that the loop over the new legs writes
  have hloop (legs : List FundingRouteLeg) (start : FundingTables) :
      (legs.foldl (fun tables leg => tables.updateTargetStatus leg.fundingTargetId leg.status)
        start).routeLegs = start.routeLegs ∧
      (legs.foldl (fun tables leg => tables.updateTargetStatus leg.fundingTargetId leg.status)
        start).reconciliations = start.reconciliations ∧
      (legs.foldl (fun tables leg => tables.updateTargetStatus leg.fundingTargetId leg.status)
        start).intents = start.intents := by
    induction legs generalizing start with
    | nil => exact ⟨rfl, rfl, rfl⟩
    | cons leg legs ih => exact ih (start.updateTargetStatus leg.fundingTargetId leg.status)
  simp only [FundingTables.replaceRouteLegs] at h
  split at h
  next hnodup =>
    cases h
    obtain ⟨hlegs, hrecords, hintents⟩ := hloop routeLegs _
    exact ⟨hlegs, hrecords, by rw [hlegs]; exact hnodup, hintents⟩
  next => cases h

/-! ## Withdrawals -/

structure WithdrawalTables where
  intents : List WithdrawalIntent
  sources : List WithdrawalSource
  routeLegs : List WithdrawalRouteLeg
  reconciliations : List WithdrawalReconciliationRecord

structure WithdrawalIntentView where
  intent : WithdrawalIntent
  sources : List WithdrawalSource
  routeLegs : List WithdrawalRouteLeg
  reconciliations : List WithdrawalReconciliationRecord

namespace WithdrawalTables

def findWithdrawalIntentById (withdrawalIntentId : String) (tables : WithdrawalTables) :
    Option WithdrawalIntent :=
  select WithdrawalIntent.withdrawalIntentId withdrawalIntentId tables.intents

def listWithdrawalSources (withdrawalIntentId : String) (tables : WithdrawalTables) :
    List WithdrawalSource :=
  tables.sources.filter fun source => source.withdrawalIntentId = withdrawalIntentId

def listWithdrawalRouteLegs (withdrawalIntentId : String) (tables : WithdrawalTables) :
    List WithdrawalRouteLeg :=
  tables.routeLegs.filter fun leg => leg.withdrawalIntentId = withdrawalIntentId

def listWithdrawalReconciliations (withdrawalIntentId : String) (tables : WithdrawalTables) :
    List WithdrawalReconciliationRecord :=
  tables.reconciliations.filter fun record => record.withdrawalIntentId = withdrawalIntentId

def updateSourceStatus (withdrawalSourceId : String) (status : WithdrawalLegState)
    (tables : WithdrawalTables) : WithdrawalTables :=
  { tables with
    sources := update WithdrawalSource.withdrawalSourceId withdrawalSourceId
      (fun source => { source with status }) tables.sources }

def updateLeg (withdrawalRouteLegId : String) (change : WithdrawalRouteLeg → WithdrawalRouteLeg)
    (status : WithdrawalLegState) (tables : WithdrawalTables) : WithdrawalTables :=
  let updated := tables.routeLegs.filter fun leg =>
    leg.withdrawalRouteLegId = withdrawalRouteLegId
  { tables with
    routeLegs := update WithdrawalRouteLeg.withdrawalRouteLegId withdrawalRouteLegId change
      tables.routeLegs
    sources := tables.sources.map fun source =>
      if source.withdrawalSourceId ∈ updated.map (·.withdrawalSourceId) then { source with status }
      else source }

def updateWithdrawalIntentStatus (withdrawalIntentId : String) (status : WithdrawalAggregateState)
    (tables : WithdrawalTables) : WithdrawalTables :=
  { tables with
    intents := update WithdrawalIntent.withdrawalIntentId withdrawalIntentId
      (fun intent => { intent with status }) tables.intents }

def replaceWithdrawalRouteLegs (withdrawalIntentId : String) (routeLegs : List WithdrawalRouteLeg)
    (tables : WithdrawalTables) : Except FundingError WithdrawalTables :=
  let kept := tables.routeLegs.filter fun leg => leg.withdrawalIntentId ≠ withdrawalIntentId
  let deleted := tables.routeLegs.filter fun leg => leg.withdrawalIntentId = withdrawalIntentId
  if ((kept ++ routeLegs).map (·.withdrawalRouteLegId)).Nodup then
    .ok (routeLegs.foldl
      (fun tables leg => tables.updateSourceStatus leg.withdrawalSourceId leg.status)
      { tables with
        routeLegs := kept ++ routeLegs
        reconciliations := tables.reconciliations.filter fun record =>
          record.withdrawalRouteLegId ∉ deleted.map (·.withdrawalRouteLegId) })
  else .error (.database "duplicate key value violates unique constraint")

/-- `venue_release_status` falls back to `PENDING`, `destination_status` to what it was. -/
def submissionChange (txHash : String) (status : WithdrawalLegState)
    (venueReleaseStatus destinationStatus : Option ConfirmationStatus) (leg : WithdrawalRouteLeg) :
    WithdrawalRouteLeg :=
  { leg with
    txHashes := leg.txHashes ++ [txHash]
    status
    venueReleaseStatus := venueReleaseStatus.getD .PENDING
    destinationStatus := destinationStatus.getD leg.destinationStatus }

def updateWithdrawalRouteLegSubmission (withdrawalRouteLegId txHash : String)
    (status : WithdrawalLegState) (venueReleaseStatus destinationStatus : Option ConfirmationStatus) :
    WithdrawalTables → WithdrawalTables :=
  updateLeg withdrawalRouteLegId
    (submissionChange txHash status venueReleaseStatus destinationStatus) status

/-- What `updateWithdrawalRouteLegReconciliation` sets on the leg. -/
structure ReconciliationUpdate where
  status : WithdrawalLegState
  venueReleaseStatus : ConfirmationStatus
  destinationStatus : ConfirmationStatus
  providerStatus : WithdrawalProviderStatus
  errorReason : Option String

def ReconciliationUpdate.change (input : ReconciliationUpdate) (leg : WithdrawalRouteLeg) :
    WithdrawalRouteLeg :=
  { leg with
    status := input.status
    venueReleaseStatus := input.venueReleaseStatus
    destinationStatus := input.destinationStatus
    providerStatus := input.providerStatus
    errorReason := input.errorReason }

def updateWithdrawalRouteLegReconciliation (withdrawalRouteLegId : String)
    (input : ReconciliationUpdate) : WithdrawalTables → WithdrawalTables :=
  updateLeg withdrawalRouteLegId input.change input.status

def createWithdrawalReconciliationRecord (record : WithdrawalReconciliationRecord)
    (tables : WithdrawalTables) : Except FundingError WithdrawalTables :=
  if record.withdrawalRouteLegId ∈ tables.routeLegs.map (·.withdrawalRouteLegId) then
    .ok { tables with reconciliations := tables.reconciliations ++ [record] }
  else .error (.database "insert or update violates foreign key constraint")

/-- `FundingService.getWithdrawalIntent`. -/
def getWithdrawalIntent (userId withdrawalIntentId : String) (tables : WithdrawalTables) :
    Except FundingError WithdrawalIntentView :=
  match tables.findWithdrawalIntentById withdrawalIntentId with
  | none =>
    .error (.funding .WITHDRAWAL_INTENT_NOT_FOUND "Withdrawal intent was not found." 404)
  | some intent =>
    if intent.userId ≠ userId then
      .error (.funding .WITHDRAWAL_INTENT_FORBIDDEN
        "Withdrawal intent does not belong to this user." 403)
    else .ok {
      intent
      sources := tables.listWithdrawalSources withdrawalIntentId
      routeLegs := tables.listWithdrawalRouteLegs withdrawalIntentId
      reconciliations := tables.listWithdrawalReconciliations withdrawalIntentId }

end WithdrawalTables

/-- `view.routeLegs.find((candidate) => candidate.withdrawalRouteLegId === withdrawalRouteLegId)`. -/
def WithdrawalIntentView.findLeg (view : WithdrawalIntentView) (withdrawalRouteLegId : String) :
    Option WithdrawalRouteLeg :=
  view.routeLegs.find? fun candidate => candidate.withdrawalRouteLegId = withdrawalRouteLegId

end LotusRfq.Funding
