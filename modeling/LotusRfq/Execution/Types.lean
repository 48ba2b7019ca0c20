import LotusRfq.Common.Js
import LotusRfq.Execution.StateMachine

/-!
# LotusRfq — execution requests and their legs

An execution has one leg for every venue of its path, or for every leg of the route in its
metadata. What stands there is untyped: a route leg without a venue, or whose size is no decimal
number, is dropped, so that an execution may be left without legs.

* **`buildLegs_ids`** — no two legs of an execution share an id;
* **`buildLegs_fresh`** — a leg starts with nothing submitted and its settlement pending.
-/

namespace LotusRfq.Execution

/-- A value of a JSON record. A text comes with the number `Number` makes of it. -/
inductive JsValue where
  | missing
  | number (value : ℚ)
  | text (value : String) (number : Option ℚ)
  | array (items : List JsValue)
  | record (fields : List (String × JsValue))

abbrev JsRecord : Type := List (String × JsValue)

/-- `record[key]`. -/
def JsRecord.get (fields : JsRecord) (key : String) : JsValue :=
  (fields.lookup key).getD .missing

inductive ExecutionSide where
  | buy
  | sell
  deriving DecidableEq

inductive SettlementStatusV0 where
  | NOT_APPLICABLE
  | DRY_RUN_ONLY
  | SETTLEMENT_VERIFIED
  | SETTLEMENT_PENDING
  | SETTLEMENT_TIMEOUT
  | SETTLEMENT_UNKNOWN
  | GHOST_FILL_SUSPECTED
  | GHOST_FILL_CONFIRMED
  deriving DecidableEq

inductive GhostFillStatusV0 where
  | NOT_APPLICABLE
  | CLEAR
  | SUSPECTED
  | CONFIRMED

inductive ExecutionLegStatusV0 where
  | CREATED
  | PREPARED
  | SUBMITTED
  | PARTIAL_FILL
  | FILLED_PENDING_SETTLEMENT
  | SETTLEMENT_VERIFIED
  | FAILED
  | FAILED_CLOSED
  | CANCELLED
  deriving DecidableEq

/-- `${executionId}-leg-${number}-${uuid}`. -/
structure ExecutionLegId where
  executionId : String
  number : ℕ
  uuid : String
  deriving DecidableEq

def ExecutionLegId.text (id : ExecutionLegId) : String :=
  id.executionId ++ "-leg-" ++ toString id.number ++ "-" ++ id.uuid

structure ExecutionRequestV0 where
  executionId : String
  rfqId : String
  userId : String
  canonicalTopicKey : String
  canonicalOutcomeId : Option String
  candidateId : Option String
  side : ExecutionSide
  size : ℚ
  selectedLaneId : String
  venuePath : List String
  fastLaneEnabled : Bool
  ghostFillProtectionEnabled : Bool
  expectedPrice : ℚ
  fallbackLaneId : Option String
  metadata : JsRecord

structure ExecutionLegV0 where
  executionLegId : ExecutionLegId
  parentExecutionId : String
  venue : String
  venueMarketId : String
  venueOutcomeId : String
  side : ExecutionSide
  size : ℚ
  price : ℚ
  status : ExecutionLegStatusV0
  settlementStatus : SettlementStatusV0
  venueOrderId : Option String
  fillId : Option String
  errorCode : Option String

/-! ## The legs of a request -/

def digitsValue (digits : List Char) : ℕ :=
  digits.foldl (fun value digit => 10 * value + (digit.toNat - '0'.toNat)) 0

/-- A text that matches `/^\d+(\.\d+)?$/`, as the number it spells. -/
def decimalValue (value : String) : Option ℚ :=
  let whole := value.toList.takeWhile Char.isDigit
  match value.toList.dropWhile Char.isDigit with
  | [] => if whole = [] then none else some (digitsValue whole)
  | '.' :: fraction =>
    if whole = [] ∨ fraction = [] ∨ ¬ fraction.all Char.isDigit then none
    else some (digitsValue whole + digitsValue fraction / 10 ^ fraction.length)
  | _ => none

/-- `typeof value === "string"`, as the string. -/
def JsValue.string? : JsValue → Option String
  | .text value _ => some value
  | _ => none

def JsValue.textOr (value : JsValue) (default : String) : String :=
  match value with
  | .text value _ => if value = "" then default else value
  | _ => default

def ExecutionRequestV0.outcomeId (request : ExecutionRequestV0) : String :=
  (request.candidateId.or request.canonicalOutcomeId).getD "unknown"

def newLeg (request : ExecutionRequestV0) (number : ℕ) (uuid venue : String) : ExecutionLegV0 :=
  { executionLegId := ⟨request.executionId, number, uuid⟩
    parentExecutionId := request.executionId
    venue := venue
    venueMarketId := request.canonicalTopicKey ++ ":" ++ venue
    venueOutcomeId := request.outcomeId
    side := request.side
    size := request.size
    price := request.expectedPrice
    status := .CREATED
    settlementStatus := .SETTLEMENT_PENDING
    venueOrderId := none
    fillId := none
    errorCode := none }

/-- The leg of one entry of the route, if the entry has a venue and a size. -/
def routeLeg (request : ExecutionRequestV0) (number : ℕ) (uuid : String) :
    JsValue → Option ExecutionLegV0
  | .record leg =>
    match (JsRecord.get leg "venue").string?,
      (JsRecord.get leg "size").string?.bind decimalValue with
    | some venue, some size =>
      if venue = "" then none
      else
        let fresh := newLeg request number uuid venue
        some { fresh with
          venueMarketId := (JsRecord.get leg "venueMarketId").textOr fresh.venueMarketId
          venueOutcomeId := (JsRecord.get leg "venueOutcomeId").textOr fresh.venueOutcomeId
          size := size
          price := match JsRecord.get leg "price" with
            | .number price => if 0 ≤ price then price else request.expectedPrice
            | _ => request.expectedPrice }
    | _, _ => none
  | _ => none

/-- `metadata.routeLegs`, when it is an array. -/
def routeLegs (request : ExecutionRequestV0) : List JsValue :=
  match request.metadata.get "routeLegs" with
  | .array items => items
  | _ => []

/-- The legs of an execution; `uuid` is the random part of each one's id. -/
def buildLegs (uuid : ℕ → String) (request : ExecutionRequestV0) : List ExecutionLegV0 :=
  if routeLegs request ≠ [] then
    (routeLegs request).zipIdx.filterMap fun (rawLeg, index) =>
      routeLeg request (index + 1) (uuid index) rawLeg
  else
    request.venuePath.zipIdx.map fun (venue, index) =>
      newLeg request (index + 1) (uuid index) venue

variable {leg : ExecutionLegV0}

theorem routeLeg_id {request : ExecutionRequestV0} {number : ℕ} {uuid : String} {raw : JsValue}
    (h : routeLeg request number uuid raw = some leg) :
    leg.executionLegId = ⟨request.executionId, number, uuid⟩ := by
  unfold routeLeg at h
  split at h
  · split at h
    · split at h
      · cases h
      · cases h; rfl
    · cases h
  · cases h

def Fresh (leg : ExecutionLegV0) : Prop :=
  leg.status = .CREATED ∧ leg.settlementStatus = .SETTLEMENT_PENDING ∧ leg.venueOrderId = none ∧
    leg.fillId = none ∧ leg.errorCode = none

theorem routeLeg_fresh {request : ExecutionRequestV0} {number : ℕ} {uuid : String} {raw : JsValue}
    (h : routeLeg request number uuid raw = some leg) : Fresh leg := by
  unfold routeLeg at h
  split at h
  · split at h
    · split at h
      · cases h
      · cases h; exact ⟨rfl, rfl, rfl, rfl, rfl⟩
    · cases h
  · cases h

variable {uuid : ℕ → String} {request : ExecutionRequestV0}

theorem buildLegs_fresh (h : leg ∈ buildLegs uuid request) : Fresh leg := by
  unfold buildLegs at h
  split at h
  · obtain ⟨entry, -, hleg⟩ := List.mem_filterMap.mp h
    exact routeLeg_fresh hleg
  · obtain ⟨entry, -, rfl⟩ := List.mem_map.mp h
    exact ⟨rfl, rfl, rfl, rfl, rfl⟩

theorem nodup_of_numbered {α β γ : Type*} {items : List α} {number : α × ℕ → Option β}
    {key : β → γ} (slot : γ → ℕ)
    (hslot : ∀ entry item, number entry = some item → slot (key item) = entry.2) :
    ((items.zipIdx.filterMap number).map key).Nodup := by
  have hindex : items.zipIdx.Pairwise fun left right => left.2 < right.2 := by
    have hrange : (List.range' 0 items.length).Pairwise (· < ·) := List.pairwise_lt_range'
    rwa [← List.zipIdx_map_snd, List.pairwise_map] at hrange
  have hsorted : (items.zipIdx.filterMap number).Pairwise fun left right =>
      slot (key left) < slot (key right) := by
    refine List.Pairwise.filterMap number ?_ hindex
    intro left right hlt item hitem item' hitem'
    rw [hslot left item hitem, hslot right item' hitem']
    exact hlt
  rw [List.Nodup, List.pairwise_map]
  exact hsorted.imp fun hlt heq => absurd hlt (by rw [heq]; omega)

theorem buildLegs_ids : ((buildLegs uuid request).map (·.executionLegId)).Nodup := by
  unfold buildLegs
  split
  · apply nodup_of_numbered fun id : ExecutionLegId => id.number - 1
    intro entry leg h
    rw [routeLeg_id h]
    show entry.2 + 1 - 1 = entry.2
    omega
  · rw [← List.filterMap_eq_map (f := fun entry : String × ℕ =>
      newLeg request (entry.2 + 1) (uuid entry.2) entry.1)]
    apply nodup_of_numbered fun id : ExecutionLegId => id.number - 1
    intro entry leg h
    rw [Function.comp_apply, Option.some.injEq] at h
    rw [← h]
    show entry.2 + 1 - 1 = entry.2
    omega

end LotusRfq.Execution
