import LotusRfq.Bundles.Refresh
import LotusRfq.Lib.Processes

/-!
# LotusRfq — `SignedTradeBundleService` on one quote

`submit` sends the orders of a quote's legs to the venues and records what came of it;
`getExecutionStatus` and the status watcher look the legs up and store what they find. The service
reads a status from its memory before it asks the repository, the watcher has only the repository.

What the venues and the other services answer comes with the operation. An operation that throws
asks for nothing more.
-/

namespace LotusRfq.Bundles

open Processes

/-! ## What the operations ask for -/

/-- Requests of the operations on one quote. -/
inductive BundleRequest where
  /-- The duplicate check of a live submit; past it, the call is under way. -/
  | findDuplicate
  | submitOrder (legIndex : ℕ) (accepted : Bool)
  /-- A live submit that was under way returns or throws; `unrecorded` are the legs whose orders
  were accepted and which it has not recorded. -/
  | endLive (unrecorded : List ℕ)
  | findStoredExecutionStatus
  | findRepository
  /-- The two halves of `saveExecutionStatus`. -/
  | remember (status : SignedTradeExecutionStatus)
  | saveRepository (status : SignedTradeExecutionStatus)
  | recordFilledLeg (leg : SubmittedLeg)

abbrev BundleRequest.Answer : BundleRequest → Type
  | .findDuplicate => Option SignedTradeExecutionStatus
  | .submitOrder _ _ => Unit
  | .endLive _ => Unit
  | .findStoredExecutionStatus => Option SignedTradeExecutionStatus
  | .findRepository => Option SignedTradeExecutionStatus
  | .remember _ => Unit
  | .saveRepository _ => Unit
  | .recordFilledLeg _ => Unit

/-- A call of `adapter.submitOrder`. -/
structure OrderCall where
  legIndex : ℕ
  accepted : Bool
  deriving DecidableEq

/-- What is stored of the quote, and what was done for it: the orders submitted, the live submits
under way, the legs recorded as positions. -/
structure BundleState where
  executionStatuses : Option SignedTradeExecutionStatus
  repository : Option SignedTradeExecutionStatus
  calls : List OrderCall
  underway : ℕ
  positions : List SubmittedLeg

def BundleState.stored (s : BundleState) : Option SignedTradeExecutionStatus :=
  s.executionStatuses.or s.repository

/-- A live submit that finds `stored` returns it. -/
def isDuplicate (stored : Option SignedTradeExecutionStatus) : Bool :=
  stored.any fun status => isDuplicateSubmitStatus status.status

def handle : (request : BundleRequest) → BundleState → request.Answer × BundleState
  | .findDuplicate, s =>
    (s.stored, if isDuplicate s.stored then s else { s with underway := s.underway + 1 })
  | .submitOrder legIndex accepted, s =>
    ((), { s with calls := s.calls ++ [⟨legIndex, accepted⟩] })
  | .endLive _, s => ((), { s with underway := s.underway - 1 })
  | .findStoredExecutionStatus, s => (s.stored, s)
  | .findRepository, s => (s.repository, s)
  | .remember status, s => ((), { s with executionStatuses := some status })
  | .saveRepository status, s => ((), { s with repository := some status })
  | .recordFilledLeg leg, s => ((), { s with positions := s.positions ++ [leg] })

abbrev BundleCode : Type → Type := Code BundleRequest BundleRequest.Answer

/-! ## Storing and recording -/

def saveExecutionStatus (status : SignedTradeExecutionStatus) : BundleCode Unit := do
  request (BundleRequest.remember status)
  request (BundleRequest.saveRepository status)

/-- The legs of a status that `recordFilledPositions` records. -/
def filledPositions (status : SignedTradeExecutionStatus) : List SubmittedLeg :=
  match status.route with
  | none => []
  | some legs =>
    if status.dryRun then []
    else status.submittedLegs.filter fun leg =>
      leg.status = .FILLED ∧ isTruthy leg.venueOrderId ∧ leg.fillState.isSome ∧
        ¬ (requiresVerifiedSettlementForPosition leg.venue ∧
          ¬ hasVerifiedPositionSettlement leg.settlementState) ∧ legs[leg.legIndex]?.isSome

def recordFilledLegs : List SubmittedLeg → BundleCode Unit
  | [] => return ()
  | leg :: legs => do
    request (BundleRequest.recordFilledLeg leg)
    recordFilledLegs legs

def recordFilledPositions (status : SignedTradeExecutionStatus) : BundleCode Unit :=
  recordFilledLegs (filledPositions status)

/-! ## Submitting -/

/-- What comes of a leg of the quote before its order is submitted (something is missing or wrong
and throws), and what the venue answers to the order. -/
structure LegAnswers where
  leg : ExecutableRouteLeg
  throws : Bool
  submitted : Except NormalizedVenueError VenueSubmitResult

/-- A call of `submit`: what is answered to it, and where it throws. -/
structure SubmitCall where
  dryRun : Bool
  /-- The legs of the quote, while that is fresh. -/
  quote : Option (List LegAnswers)
  /-- The live readiness is fresh. -/
  ready : Bool
  /-- The lookup in `recordExecutionStatus` throws. -/
  recordThrows : Bool
  now : ℕ

/-- How the loop over the legs ends. -/
inductive LegsOutcome where
  | threw (submittedLegs : List SubmittedLeg)
  | failed (submittedLegs : List SubmittedLeg) (failed : SubmittedLeg)
  | done (submittedLegs : List SubmittedLeg)

def failedLeg (index : ℕ) (venue : String) (normalized : NormalizedVenueError) : SubmittedLeg :=
  { SubmittedLeg.bare index venue .FAILED with
    reasonCode := some normalized.code
    reason := some normalized.message }

def submitLegs (dryRun : Bool) :
    ℕ → List LegAnswers → List SubmittedLeg → BundleCode LegsOutcome
  | _, [], submittedLegs => return .done submittedLegs
  | index, answers :: rest, submittedLegs =>
    if answers.throws then return .threw submittedLegs
    else if dryRun then
      submitLegs dryRun (index + 1) rest
        (submittedLegs ++ [.bare index answers.leg.venue .DRY_RUN_VERIFIED])
    else
      match answers.submitted with
      | .ok submitted => do
        request (BundleRequest.submitOrder index true)
        submitLegs dryRun (index + 1) rest
          (submittedLegs ++ [toSubmittedLeg index answers.leg.venue submitted answers.leg])
      | .error normalized => do
        request (BundleRequest.submitOrder index false)
        return .failed submittedLegs (failedLeg index answers.leg.venue normalized)

/-- What a result of `call` makes of the status that exists. -/
def recordedStatus (localeCompare : String → String → Ordering) (call : SubmitCall)
    (legs : List LegAnswers) (status : BundleStatus) (submittedLegs : List SubmittedLeg)
    (existing : Option SignedTradeExecutionStatus) : SignedTradeExecutionStatus where
  status
  dryRun := call.dryRun
  submittedAt := (existing.map (·.submittedAt)).getD call.now
  updatedAt := call.now
  route := (existing.bind (·.route)).or (some (legs.map (·.leg)))
  submittedLegs := mergeSubmittedLegFailures localeCompare
    ((existing.map (·.submittedLegs)).getD []) submittedLegs

/-- `recordExecutionStatus`; false where it throws. -/
def recordExecutionStatus (localeCompare : String → String → Ordering) (call : SubmitCall)
    (legs : List LegAnswers) (status : BundleStatus) (submittedLegs : List SubmittedLeg) :
    BundleCode Bool := do
  if call.recordThrows then return false
  else
    let existing ← request BundleRequest.findStoredExecutionStatus
    let recorded := recordedStatus localeCompare call legs status submittedLegs existing
    saveExecutionStatus recorded
    recordFilledPositions recorded
    return true

def recordResult (localeCompare : String → String → Ordering) (call : SubmitCall)
    (legs : List LegAnswers) (status : BundleStatus) (submittedLegs accepted : List SubmittedLeg) :
    BundleCode Unit := do
  let recorded ← recordExecutionStatus localeCompare call legs status submittedLegs
  if call.dryRun then return ()
  else
    request (BundleRequest.endLive (if recorded then [] else accepted.map (·.legIndex)))

def submit (localeCompare : String → String → Ordering) (call : SubmitCall) : BundleCode Unit := do
  match call.quote with
  | none => return ()
  | some legs =>
    let existing ← (if call.dryRun then pure none else request BundleRequest.findDuplicate :
      BundleCode (Option SignedTradeExecutionStatus))
    if isDuplicate existing then return ()
    else if !call.dryRun ∧ !call.ready then request (BundleRequest.endLive [])
    else
      match ← submitLegs call.dryRun 0 legs [] with
      | .threw accepted =>
        if call.dryRun then return ()
        else request (BundleRequest.endLive (accepted.map (·.legIndex)))
      | .failed accepted failed =>
        recordResult localeCompare call legs .FAILED (accepted ++ [failed]) accepted
      | .done submittedLegs =>
        recordResult localeCompare call legs
          (if call.dryRun then .DRY_RUN_VERIFIED else .SUBMITTED) submittedLegs submittedLegs

/-! ## Looking up -/

/-- `getExecutionStatus`, which asks for settlements whenever they matter. -/
def getExecutionStatus (lookup : Lookup) : BundleCode Unit := do
  match ← request BundleRequest.findStoredExecutionStatus with
  | none => return ()
  | some stored =>
    if stored.dryRun then return ()
    else
      let next := refreshStoredExecutionStatus { lookup with settlementIntervalMs := 0 } stored
      saveExecutionStatus next
      recordFilledPositions next

/-- What `listActiveExecutionStatuses` lists, and `refreshStatus` does not skip. -/
def isActive (status : SignedTradeExecutionStatus) : Bool :=
  !status.dryRun ∧ status.status ∈ [BundleStatus.SUBMITTED, .PARTIAL, .FILLED]

/-- A turn of the status watcher; it saves to the repository only. -/
def refreshStatus (lookup : Lookup) : BundleCode Unit := do
  match ← request BundleRequest.findRepository with
  | none => return ()
  | some status =>
    if isActive status then
      let next := refreshStoredExecutionStatus lookup status
      request (BundleRequest.saveRepository next)
      recordFilledPositions next
    else return ()

/-! ## Side by side, and one after another -/

inductive BundleOperation where
  | submit (call : SubmitCall)
  | getExecutionStatus (lookup : Lookup)
  | refreshStatus (lookup : Lookup)

def BundleOperation.code (localeCompare : String → String → Ordering) :
    BundleOperation → BundleCode Unit
  | .submit call => Bundles.submit localeCompare call
  | .getExecutionStatus lookup => Bundles.getExecutionStatus lookup
  | .refreshStatus lookup => Bundles.refreshStatus lookup

abbrev BundleSystem : Type := System BundleState BundleRequest BundleRequest.Answer

def bundleStep (localeCompare : String → String → Ordering) :
    BundleSystem → Action BundleOperation → Option BundleSystem :=
  step (BundleOperation.code localeCompare) handle

def operationStep (localeCompare : String → String → Ordering) (s : BundleState)
    (operation : BundleOperation) : Option BundleState :=
  some ((operation.code localeCompare).run handle s).2

end LotusRfq.Bundles
