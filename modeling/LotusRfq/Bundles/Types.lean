import LotusRfq.Execution.Types
import LotusRfq.Lib.OrderedMap

/-!
# LotusRfq — signed trade bundles

What is stored of the execution of a quote: its status, the route, and a leg for every order that
was submitted or failed to be. Sizes and prices are numbers, times milliseconds.

* **`mergeSubmittedLegFailures`** — a new result over what was stored, leg by leg.
-/

namespace LotusRfq.Bundles

open Execution (SettlementStatusV0)

inductive BundleStatus where
  | DRY_RUN_VERIFIED
  | SUBMITTED
  | PARTIAL
  | FILLED
  | FAILED
  deriving DecidableEq

/-- `VenueFillState["status"]`. -/
inductive FillStatus where
  | OPEN
  | PARTIAL_FILL
  | FILLED
  | CANCELLED
  | FAILED
  deriving DecidableEq

/-- `VenueSubmitResult["status"]`. -/
inductive SubmitStatus where
  | SUBMITTED
  | PARTIAL_FILL
  | FILLED
  deriving DecidableEq

inductive LegStatus where
  | DRY_RUN_VERIFIED
  | SUBMITTED
  | OPEN
  | PARTIAL_FILL
  | FILLED
  | CANCELLED
  | FAILED
  deriving DecidableEq

def FillStatus.leg : FillStatus → LegStatus
  | .OPEN => .OPEN
  | .PARTIAL_FILL => .PARTIAL_FILL
  | .FILLED => .FILLED
  | .CANCELLED => .CANCELLED
  | .FAILED => .FAILED

@[simp] theorem FillStatus.leg_eq_FILLED {status : FillStatus} :
    status.leg = .FILLED ↔ status = .FILLED := by
  cases status <;> decide

def SubmitStatus.leg : SubmitStatus → LegStatus
  | .SUBMITTED => .SUBMITTED
  | .PARTIAL_FILL => .PARTIAL_FILL
  | .FILLED => .FILLED

def SubmitStatus.fill : SubmitStatus → FillStatus
  | .SUBMITTED => .OPEN
  | .PARTIAL_FILL => .PARTIAL_FILL
  | .FILLED => .FILLED

structure VenueFillState where
  status : FillStatus
  filledSize : ℚ
  averagePrice : ℚ
  offchainFilled : Bool
  deriving DecidableEq

structure VenueSubmitResult where
  venueOrderId : String
  fillId : Option String
  status : SubmitStatus
  filledSize : ℚ
  averagePrice : ℚ

structure NormalizedVenueError where
  code : String
  message : String

structure ExecutableRouteLeg where
  venue : String
  size : ℚ
  price : ℚ

/-- `SignedTradeExecutionStatus["submittedLegs"][number]`. -/
structure SubmittedLeg where
  legIndex : ℕ
  venue : String
  status : LegStatus
  venueOrderId : Option String
  fillId : Option String
  reasonCode : Option String
  reason : Option String
  fillState : Option VenueFillState
  settlementState : Option SettlementStatusV0
  lastStatusCheckedAt : Option ℕ
  lastSettlementCheckedAt : Option ℕ
  lastWatcherError : Option String
  deriving DecidableEq

structure SignedTradeExecutionStatus where
  status : BundleStatus
  dryRun : Bool
  submittedAt : ℕ
  updatedAt : ℕ
  route : Option (List ExecutableRouteLeg)
  submittedLegs : List SubmittedLeg

def isTruthy (text : Option String) : Bool := text.any (· ≠ "")

def requiresVerifiedSettlementForPosition (venue : String) : Bool := venue.toUpper = "POLYMARKET"

def hasVerifiedPositionSettlement (settlementState : Option SettlementStatusV0) : Bool :=
  settlementState = some .SETTLEMENT_VERIFIED

def isDuplicateSubmitStatus (status : BundleStatus) : Bool :=
  status ∈ [BundleStatus.FAILED, .SUBMITTED, .PARTIAL, .FILLED]

def inferredFilledLegState (routeLeg : ExecutableRouteLeg) : VenueFillState where
  status := .FILLED
  filledSize := routeLeg.size
  averagePrice := routeLeg.price
  offchainFilled := true

def summarizeStoredExecutionStatus (legs : List SubmittedLeg) : BundleStatus :=
  if legs.any fun leg => leg.status = .FAILED then .FAILED
  else if legs ≠ [] ∧ legs.all fun leg => leg.status = .FILLED then .FILLED
  else if legs.any fun leg => leg.status = .PARTIAL_FILL then .PARTIAL
  else .SUBMITTED

theorem isDuplicateSubmitStatus_summarize (legs : List SubmittedLeg) :
    isDuplicateSubmitStatus (summarizeStoredExecutionStatus legs) = true := by
  unfold summarizeStoredExecutionStatus
  repeat' split
  all_goals rfl

/-! ## Legs of a submit -/

def SubmittedLeg.bare (legIndex : ℕ) (venue : String) (status : LegStatus) : SubmittedLeg :=
  ⟨legIndex, venue, status, none, none, none, none, none, none, none, none, none⟩

/-- `toSubmittedLeg`: filled is submitted where settlements are to be verified. -/
def toSubmittedLeg (index : ℕ) (venue : String) (submitted : VenueSubmitResult)
    (routeLeg : ExecutableRouteLeg) : SubmittedLeg :=
  let filledSize := if submitted.status = .FILLED then routeLeg.size else submitted.filledSize
  { SubmittedLeg.bare index venue
      (if requiresVerifiedSettlementForPosition venue ∧ submitted.status = .FILLED then .SUBMITTED
        else submitted.status.leg) with
    venueOrderId := some submitted.venueOrderId
    fillId := if isTruthy submitted.fillId then submitted.fillId else none
    fillState :=
      if submitted.status = .FILLED ∨ submitted.status = .PARTIAL_FILL ∨ 0 < filledSize then
        some {
          status := submitted.status.fill
          filledSize
          averagePrice :=
            if 0 < submitted.averagePrice then submitted.averagePrice else routeLeg.price
          offchainFilled := submitted.status = .FILLED ∨ submitted.status = .PARTIAL_FILL ∨
            0 < filledSize }
      else none }

/-! ## A result over what was stored -/

/-- `${legIndex}:${venue}`. -/
structure SubmittedLegKey where
  legIndex : ℕ
  venue : String
  deriving DecidableEq

def submittedLegKey (leg : SubmittedLeg) : SubmittedLegKey := ⟨leg.legIndex, leg.venue.toUpper⟩

/-- `code.includes("UNKNOWN")`. -/
def includesUnknown (code : String) : Bool :=
  code.toList.tails.any fun rest => "UNKNOWN".toList.isPrefixOf rest

def failureReasonSpecificityScore (leg : SubmittedLeg) : ℕ :=
  let code := leg.reasonCode.getD ""
  if code = "" then 0 else if includesUnknown code then 1 else 2

def selectPreferredSubmittedLeg (existing next : SubmittedLeg) : SubmittedLeg :=
  if existing.status ≠ .FAILED ∧ next.status = .FAILED then existing
  else if existing.status = .FAILED ∧ next.status = .FAILED then
    if failureReasonSpecificityScore next ≤ failureReasonSpecificityScore existing then
      { next with reasonCode := existing.reasonCode, reason := existing.reason }
    else next
  else next

def preferredLeg (existing : Option SubmittedLeg) (next : SubmittedLeg) : SubmittedLeg :=
  match existing with
  | some existing => selectPreferredSubmittedLeg existing next
  | none => next

/-- `merged.set` for a new leg. -/
def mergeLeg (merged : List (SubmittedLegKey × SubmittedLeg)) (leg : SubmittedLeg) :
    List (SubmittedLegKey × SubmittedLeg) :=
  OrderedMap.set (submittedLegKey leg)
    (preferredLeg (merged.lookup (submittedLegKey leg)) leg) merged

/-- `localeCompare` is the order of the venues' names. -/
def mergeSubmittedLegFailures (localeCompare : String → String → Ordering)
    (existingLegs nextLegs : List SubmittedLeg) : List SubmittedLeg :=
  if existingLegs = [] then nextLegs
  else
    let stored := existingLegs.foldl
      (fun merged leg => OrderedMap.set (submittedLegKey leg) leg merged) []
    let merged := nextLegs.foldl mergeLeg stored
    Js.sortWith (fun left right =>
      (compare left.legIndex right.legIndex).then (localeCompare left.venue right.venue))
      (merged.map (·.2))

end LotusRfq.Bundles
