import LotusRfq.Funding.Submissions
import LotusRfq.Lib.Docket

/-!
# LotusRfq — `cleanupStaleIntents` next to submissions

The cleanup is one transaction of many statements in READ COMMITTED: each statement sees what was
committed when it ran, the rows it changes are locked until the end, and what it changed is seen by
others once it commits. Submissions send their statements in between; one that meets a locked row
waits.

The intents to cancel are selected by one statement and cancelled by a later one, which does not
look at the hashes again.
-/

namespace LotusRfq.Funding

open Tables Transitions Sessions

/-! ## The transaction -/

/-- The statements of `cleanupStaleIntents`, in their order. -/
inductive CleanupStatement where
  | deleteUnusedFunding
  | selectFunding
  | cancelRouteLegs
  | cancelTargets
  | cancelFunding
  | deleteUnusedWithdrawals
  | selectWithdrawals
  | cancelWithdrawals
  | commit
  deriving DecidableEq

/-- A cleanup under way: its next statement, the ids it has selected, and the ids of the rows it has
changed and holds locked. -/
structure Cleanup where
  next : CleanupStatement
  fundingCandidates : List String
  withdrawalCandidates : List String
  deletedFunding : List String
  cancelledRouteLegs : List String
  cancelledTargets : List String
  cancelledFunding : List String
  deletedWithdrawals : List String
  cancelledWithdrawals : List String

def Cleanup.begin : Cleanup :=
  ⟨.deleteUnusedFunding, [], [], [], [], [], [], [], []⟩

/-- The committed tables, the submissions and the cleanups under way. -/
structure CleanupSystem where
  funding : FundingTables
  withdrawals : WithdrawalTables
  submissions : List (List FundingWrite)
  withdrawalSubmissions : List (List WithdrawalWrite)
  cleanups : List Cleanup

namespace FundingTables

/-- The funding intents that may be deleted: created, without legs and without records. -/
def isUnused (tables : FundingTables) (fundingIntentId : String) : Bool :=
  (tables.intents.any fun intent =>
    intent.fundingIntentId = fundingIntentId && intent.status = .INTENT_CREATED) &&
  (tables.listRouteLegs fundingIntentId).isEmpty &&
  (tables.listReconciliations fundingIntentId).isEmpty

/-- The funding intents that may be cancelled: quoted, without hashes and without records. -/
def isUnsubmitted (tables : FundingTables) (fundingIntentId : String) : Bool :=
  (tables.intents.any fun intent => intent.fundingIntentId = fundingIntentId &&
    (intent.status = .ROUTES_QUOTED || intent.status = .USER_SIGNATURE_REQUIRED)) &&
  ((tables.listRouteLegs fundingIntentId).all fun leg => leg.txHashes = []) &&
  (tables.listReconciliations fundingIntentId).isEmpty

/-- What a committed cleanup did to the funding side. -/
def cleanedUp (reason : String) (cleanup : Cleanup) (tables : FundingTables) : FundingTables where
  intents := (tables.intents.filter fun intent =>
    intent.fundingIntentId ∉ cleanup.deletedFunding).map fun intent =>
      if intent.fundingIntentId ∈ cleanup.cancelledFunding then
        { intent with status := .CANCELLED } else intent
  targets := (tables.targets.filter fun target =>
    target.fundingIntentId ∉ cleanup.deletedFunding).map fun target =>
      if target.fundingTargetId ∈ cleanup.cancelledTargets then
        { target with status := .LEG_CANCELLED } else target
  routeLegs := (tables.routeLegs.filter fun leg =>
    leg.fundingIntentId ∉ cleanup.deletedFunding).map fun leg =>
      if leg.routeLegId ∈ cleanup.cancelledRouteLegs then
        { leg with status := .LEG_CANCELLED, errorReason := leg.errorReason.or (some reason) }
      else leg
  reconciliations := tables.reconciliations.filter fun record =>
    record.fundingIntentId ∉ cleanup.deletedFunding

end FundingTables

namespace WithdrawalTables

def isUnused (tables : WithdrawalTables) (withdrawalIntentId : String) : Bool :=
  (tables.intents.any fun intent =>
    intent.withdrawalIntentId = withdrawalIntentId && intent.status = .WITHDRAWAL_CREATED) &&
  (tables.listWithdrawalRouteLegs withdrawalIntentId).isEmpty &&
  (tables.listWithdrawalReconciliations withdrawalIntentId).isEmpty

def isUnsubmitted (tables : WithdrawalTables) (withdrawalIntentId : String) : Bool :=
  (tables.intents.any fun intent => intent.withdrawalIntentId = withdrawalIntentId &&
    (intent.status = .WITHDRAWAL_QUOTED || intent.status = .USER_SIGNATURE_REQUIRED)) &&
  ((tables.listWithdrawalRouteLegs withdrawalIntentId).all fun leg => leg.txHashes = []) &&
  (tables.listWithdrawalReconciliations withdrawalIntentId).isEmpty

/-- What a committed cleanup did to the withdrawal side: the legs and sources are left alone. -/
def cleanedUp (cleanup : Cleanup) (tables : WithdrawalTables) : WithdrawalTables where
  intents := (tables.intents.filter fun intent =>
    intent.withdrawalIntentId ∉ cleanup.deletedWithdrawals).map fun intent =>
      if intent.withdrawalIntentId ∈ cleanup.cancelledWithdrawals then
        { intent with status := .CANCELLED } else intent
  sources := tables.sources.filter fun source =>
    source.withdrawalIntentId ∉ cleanup.deletedWithdrawals
  routeLegs := tables.routeLegs.filter fun leg =>
    leg.withdrawalIntentId ∉ cleanup.deletedWithdrawals
  reconciliations := tables.reconciliations.filter fun record =>
    record.withdrawalIntentId ∉ cleanup.deletedWithdrawals

end WithdrawalTables

/-! ## Locks -/

def Cleanup.lockedFunding (cleanup : Cleanup) : List String :=
  cleanup.deletedFunding ++ cleanup.cancelledFunding

def Cleanup.lockedWithdrawals (cleanup : Cleanup) : List String :=
  cleanup.deletedWithdrawals ++ cleanup.cancelledWithdrawals

def unlocked (locked : Cleanup → List String) (cleanups : List Cleanup) (ids : List String) : Bool :=
  ids.all fun id => cleanups.all fun cleanup => id ∉ locked cleanup

/-- The rows the statement changes are not locked. -/
def FundingWrite.canLand (s : CleanupSystem) : FundingWrite → Bool
  | .updateRouteLegSubmission routeLegId _ _ | .updateRouteLegProviderStatus routeLegId _ =>
    unlocked Cleanup.cancelledRouteLegs s.cleanups [routeLegId] &&
      unlocked Cleanup.cancelledTargets s.cleanups
        ((s.funding.routeLegs.filter fun leg => leg.routeLegId = routeLegId).map
          (·.fundingTargetId))
  | .updateIntentStatus fundingIntentId _ =>
    unlocked Cleanup.lockedFunding s.cleanups [fundingIntentId]

def WithdrawalWrite.canLand (s : CleanupSystem) : WithdrawalWrite → Bool
  | .updateWithdrawalRouteLegSubmission _ _ _ _ _ => true
  | .updateWithdrawalIntentStatus withdrawalIntentId _ =>
    unlocked Cleanup.lockedWithdrawals s.cleanups [withdrawalIntentId]

/-! ## Steps -/

inductive CleanupAction where
  | submission (action : Sessions.Action FundingSubmission)
  | withdrawalSubmission (action : Sessions.Action WithdrawalSubmission)
  | openCleanup
  /-- The next statement of a cleanup; which of the eligible intents are old enough, and first in
  line, is `choice`. -/
  | cleanup (i : ℕ) (choice : List String)
  | rollback (i : ℕ)

/-- The legs that `UPDATE funding_route_legs` changes. -/
def cancellableRouteLegs (tables : FundingTables) (candidates : List String) : List String :=
  (tables.routeLegs.filter fun leg => leg.fundingIntentId ∈ candidates &&
    leg.status ≠ .LEG_READY_TO_TRADE && leg.status ≠ .LEG_FAILED &&
    leg.status ≠ .LEG_CANCELLED && leg.txHashes = []).map (·.routeLegId)

def cancellableTargets (tables : FundingTables) (candidates : List String) : List String :=
  (tables.targets.filter fun target => target.fundingIntentId ∈ candidates &&
    target.status ≠ .LEG_READY_TO_TRADE && target.status ≠ .LEG_FAILED &&
    target.status ≠ .LEG_CANCELLED).map (·.fundingTargetId)

/-- The intents that `UPDATE funding_intents` changes: the hashes are not looked at again. -/
def cancellableFunding (tables : FundingTables) (candidates : List String) : List String :=
  (tables.intents.filter fun intent => intent.fundingIntentId ∈ candidates &&
    intent.status ≠ .CANCELLED).map (·.fundingIntentId)

def cancellableWithdrawals (tables : WithdrawalTables) (candidates : List String) : List String :=
  (tables.intents.filter fun intent => intent.withdrawalIntentId ∈ candidates &&
    intent.status ≠ .CANCELLED).map (·.withdrawalIntentId)

/-- The next statement of a cleanup, next to the other cleanups; `none` while it has to wait. The
last one is `COMMIT`. -/
def Cleanup.advance (s : CleanupSystem) (others : List Cleanup) (choice : List String)
    (cleanup : Cleanup) : Option Cleanup :=
  match cleanup.next with
  | .deleteUnusedFunding =>
    if choice.all s.funding.isUnused && unlocked Cleanup.lockedFunding others choice then
      some { cleanup with next := .selectFunding, deletedFunding := choice }
    else none
  | .selectFunding =>
    if choice.all s.funding.isUnsubmitted then
      some { cleanup with next := .cancelRouteLegs, fundingCandidates := choice }
    else none
  | .cancelRouteLegs =>
    let ids := cancellableRouteLegs s.funding cleanup.fundingCandidates
    if unlocked Cleanup.cancelledRouteLegs others ids then
      some { cleanup with next := .cancelTargets, cancelledRouteLegs := ids }
    else none
  | .cancelTargets =>
    let ids := cancellableTargets s.funding cleanup.fundingCandidates
    if unlocked Cleanup.cancelledTargets others ids then
      some { cleanup with next := .cancelFunding, cancelledTargets := ids }
    else none
  | .cancelFunding =>
    let ids := cancellableFunding s.funding cleanup.fundingCandidates
    if unlocked Cleanup.lockedFunding others ids then
      some { cleanup with
        next := .deleteUnusedWithdrawals, fundingCandidates := [], cancelledFunding := ids }
    else none
  | .deleteUnusedWithdrawals =>
    if choice.all s.withdrawals.isUnused && unlocked Cleanup.lockedWithdrawals others choice then
      some { cleanup with next := .selectWithdrawals, deletedWithdrawals := choice }
    else none
  | .selectWithdrawals =>
    if choice.all s.withdrawals.isUnsubmitted then
      some { cleanup with next := .cancelWithdrawals, withdrawalCandidates := choice }
    else none
  | .cancelWithdrawals =>
    let ids := cancellableWithdrawals s.withdrawals cleanup.withdrawalCandidates
    if unlocked Cleanup.lockedWithdrawals others ids then
      some { cleanup with
        next := .commit, withdrawalCandidates := [], cancelledWithdrawals := ids }
    else none
  | .commit => none

/-- A submission takes a step; its next statement waits for locked rows. -/
def stepSubmission {T W C : Type} (begin : C → T → Except FundingError (List W))
    (apply : W → T → T) (canLand : W → Bool) (tables : T) (inFlight : List (List W))
    (action : Sessions.Action C) : Option (Sessions.System T W) :=
  match action with
  | .start call => Sessions.step begin apply ⟨tables, inFlight⟩ (.start call)
  | .advance i =>
    if (inFlight[i]?.bind List.head?).all canLand then
      Sessions.step begin apply ⟨tables, inFlight⟩ (.advance i)
    else none

def cleanupStep (reason : String) (s : CleanupSystem) : CleanupAction → Option CleanupSystem
  | .submission action =>
    (stepSubmission beginSubmission FundingWrite.apply (FundingWrite.canLand s) s.funding
      s.submissions action).map fun t =>
        { s with funding := t.tables, submissions := t.inFlight }
  | .withdrawalSubmission action =>
    (stepSubmission beginWithdrawalSubmission WithdrawalWrite.apply (WithdrawalWrite.canLand s)
      s.withdrawals s.withdrawalSubmissions action).map fun t =>
        { s with withdrawals := t.tables, withdrawalSubmissions := t.inFlight }
  | .openCleanup => some { s with cleanups := s.cleanups ++ [Cleanup.begin] }
  | .cleanup i choice =>
    match s.cleanups[i]? with
    | none => none
    | some cleanup =>
      if cleanup.next = .commit then
        some { s with
          funding := s.funding.cleanedUp reason cleanup
          withdrawals := s.withdrawals.cleanedUp cleanup
          cleanups := s.cleanups.eraseIdx i }
      else (cleanup.advance s (s.cleanups.eraseIdx i) choice).map fun advanced =>
        { s with cleanups := s.cleanups.set i advanced }
  | .rollback i => some { s with cleanups := s.cleanups.eraseIdx i }

end LotusRfq.Funding
