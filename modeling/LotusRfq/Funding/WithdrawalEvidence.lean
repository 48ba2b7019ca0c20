import LotusRfq.Common.JsonValues
import LotusRfq.Funding.BridgeBack

/-!
# LotusRfq — evidence that a withdrawal has been paid out

A venue's checker reads a record of evidence field by field and refuses what does not fit; the
service then compares what is left with the intent and the leg. Neither looks at the venue of the
leg, and all texts are compared without their case.

* **`completes_iff`** — which evidence completes a leg;
* **`completion_sound_iff`** — when such evidence is what it should be.
-/

namespace LotusRfq.Funding

open Js

/-! ## Reading a record -/

def stringValue : Option Json → Option String
  | some (.string text) => if hasText text then some (trim text) else none
  | some (.number n) => some n.text
  | _ => none

def numberValue : Option Json → Option ℚ
  | some (.number n) => some n.value
  | some (.string text) => if hasText text then numberOfText text else none
  | _ => none

def booleanValue : Option Json → Bool
  | some (.bool b) => b
  | some (.string text) => text = "true"
  | _ => false

/-- `value === text` -/
def isString (value : Option Json) (text : String) : Bool :=
  match value with
  | some (.string other) => other = text
  | _ => false

/-- What `normalize` reads first. -/
structure WithdrawalEvidence where
  sourceVenue : Option Json
  withdrawalTxHash : Option String
  userId : Option String
  withdrawalIntentId : Option String
  withdrawalRouteLegId : Option String
  status : Option String
  destinationChain : Option String
  destinationWalletAddress : Option String
  token : Option String
  amount : Option String
  confirmations : Option ℚ
  reason : Option String
  venueReleased : Bool
  destinationReceived : Bool
  completedFlag : Bool

def readEvidence (raw : Json) : WithdrawalEvidence where
  sourceVenue := raw.get "sourceVenue"
  withdrawalTxHash := stringValue (raw.get "withdrawalTxHash")
  userId := stringValue (raw.get "userId")
  withdrawalIntentId := stringValue (raw.get "withdrawalIntentId")
  withdrawalRouteLegId := stringValue (raw.get "withdrawalRouteLegId")
  status := (stringValue (raw.get "status")).map String.toUpper
  destinationChain := stringValue (raw.get "destinationChain")
  destinationWalletAddress := stringValue (raw.get "destinationWalletAddress")
  token := stringValue (raw.get "token")
  amount := stringValue (raw.get "amount")
  confirmations := numberValue (raw.get "confirmations")
  reason := stringValue (raw.get "reason")
  venueReleased := booleanValue (raw.get "venueReleased")
  destinationReceived := booleanValue (raw.get "destinationReceived")
  completedFlag := booleanValue (raw.get "completed")

/-! ## The checker -/

structure WithdrawalEvidenceConfig where
  enabled : Bool
  configured : Bool
  minimumConfirmations : ℚ

/-- `ConfigurableVenueWithdrawalEvidenceChecker`; `toDecimal` is `new Decimal(text)`, where that
is a number. -/
structure EvidenceChecker where
  venue : FundingVenue
  config : WithdrawalEvidenceConfig
  toDecimal : String → Option ℚ

structure EvidenceExpected where
  userId : String
  withdrawalIntentId : String
  withdrawalRouteLegId : String
  submittedTxHash : String

variable (checker : EvidenceChecker)

def EvidenceChecker.result (status : WithdrawalCompletionStatus)
    (venueReleased destinationReceived completed : Bool) (reason : String) :
    WithdrawalCompletionEvidenceResult :=
  { status, venueReleased, destinationReceived, completed, reason
    withdrawalTxHash := none, destinationChain := none, destinationWalletAddress := none
    token := none, amount := none }

def EvidenceChecker.received (checker : EvidenceChecker) (evidence : WithdrawalEvidence)
    (withdrawalTxHash : Option String) (result : WithdrawalCompletionEvidenceResult) :
    WithdrawalCompletionEvidenceResult :=
  { result with
    withdrawalTxHash := withdrawalTxHash
    destinationChain := evidence.destinationChain
    destinationWalletAddress := evidence.destinationWalletAddress
    token := evidence.token
    amount := evidence.amount.bind checker.toDecimal }

def scopeMismatch (evidence : WithdrawalEvidence) (expected : EvidenceExpected) : Bool :=
  (evidence.userId.any (· ≠ expected.userId)) ||
    (evidence.withdrawalIntentId.any (· ≠ expected.withdrawalIntentId)) ||
    (evidence.withdrawalRouteLegId.any (· ≠ expected.withdrawalRouteLegId))

def EvidenceChecker.normalize (evidence : WithdrawalEvidence) (expected : EvidenceExpected) :
    WithdrawalCompletionEvidenceResult :=
  let text := fun suffix => checker.venue.text ++ suffix
  let reason := evidence.reason.getD (text "_WITHDRAWAL_EVIDENCE_NORMALIZED")
  match evidence.withdrawalTxHash, evidence.status with
  | some withdrawalTxHash, some status =>
    if ¬ isString evidence.sourceVenue checker.venue.text then
      EvidenceChecker.result .UNKNOWN false false false (text "_WITHDRAWAL_EVIDENCE_MALFORMED")
    else if withdrawalTxHash.toLower ≠ expected.submittedTxHash.toLower then
      EvidenceChecker.result .UNKNOWN false false false (text "_WITHDRAWAL_TX_HASH_MISMATCH")
    else if scopeMismatch evidence expected then
      EvidenceChecker.result .UNKNOWN false false false (text "_WITHDRAWAL_EVIDENCE_SCOPE_MISMATCH")
    else if status = "FAILED" then
      EvidenceChecker.result .FAILED evidence.venueReleased evidence.destinationReceived false reason
    else if status ∉ ["PENDING", "VENUE_RELEASED", "DESTINATION_RECEIVED", "COMPLETED",
        "UNKNOWN"] then
      EvidenceChecker.result .UNKNOWN evidence.venueReleased evidence.destinationReceived false
        (text "_WITHDRAWAL_STATUS_UNSUPPORTED")
    else if status = "UNKNOWN" then
      EvidenceChecker.result .UNKNOWN evidence.venueReleased evidence.destinationReceived false
        reason
    else if status = "PENDING" ∨ evidence.venueReleased = false then
      EvidenceChecker.result .VENUE_RELEASED false false false
        (text "_WITHDRAWAL_VENUE_RELEASE_PENDING")
    else if evidence.destinationReceived = false then
      EvidenceChecker.result .VENUE_RELEASED true false false reason
    else if evidence.destinationChain = none ∨ evidence.destinationWalletAddress = none ∨
        evidence.token = none ∨ evidence.amount = none then
      EvidenceChecker.result .UNKNOWN true true false
        (text "_WITHDRAWAL_DESTINATION_EVIDENCE_MALFORMED")
    else if evidence.confirmations.getD 0 < checker.config.minimumConfirmations then
      checker.received evidence none (EvidenceChecker.result .DESTINATION_RECEIVED true true false
        (text "_WITHDRAWAL_CONFIRMATIONS_PENDING"))
    else if status = "COMPLETED" ∧ evidence.completedFlag = false then
      checker.received evidence (some withdrawalTxHash)
        (EvidenceChecker.result .DESTINATION_RECEIVED true true false
          (text "_WITHDRAWAL_COMPLETION_FLAG_MISSING"))
    else
      checker.received evidence (some withdrawalTxHash)
        (EvidenceChecker.result
          (if status = "COMPLETED" then .COMPLETED else .DESTINATION_RECEIVED) true true
          (status = "COMPLETED" && evidence.completedFlag) reason)
  | _, _ =>
    EvidenceChecker.result .UNKNOWN false false false (text "_WITHDRAWAL_EVIDENCE_MALFORMED")

/-- `raw` is missing where the evidence cannot be read. -/
def EvidenceChecker.check (userId : String) (intent : WithdrawalIntent) (leg : WithdrawalRouteLeg)
    (raw : Option Json) : WithdrawalCompletionEvidenceResult :=
  let text := fun suffix => checker.venue.text ++ suffix
  match leg.txHashes.getLast? with
  | none => EvidenceChecker.result .UNKNOWN false false false (text "_WITHDRAWAL_TX_HASH_MISSING")
  | some withdrawalTxHash =>
    if withdrawalTxHash = "" then
      EvidenceChecker.result .UNKNOWN false false false (text "_WITHDRAWAL_TX_HASH_MISSING")
    else if checker.config.enabled = false then
      EvidenceChecker.result .UNKNOWN false false false (text "_WITHDRAWAL_EVIDENCE_DISABLED")
    else if checker.config.configured = false then
      EvidenceChecker.result .UNKNOWN false false false (text "_WITHDRAWAL_EVIDENCE_NOT_CONFIGURED")
    else
      match raw with
      | none =>
        EvidenceChecker.result .UNKNOWN false false false
          (text "_WITHDRAWAL_EVIDENCE_READ_UNAVAILABLE")
      | some raw =>
        checker.normalize (readEvidence raw)
          { userId
            withdrawalIntentId := intent.withdrawalIntentId
            withdrawalRouteLegId := leg.withdrawalRouteLegId
            submittedTxHash := withdrawalTxHash }

/-! ## Which evidence completes a leg -/

structure Checked (evidence : WithdrawalEvidence) (expected : EvidenceExpected) : Prop where
  venue : isString evidence.sourceVenue checker.venue.text
  txHash : equalsIgnoreCase evidence.withdrawalTxHash expected.submittedTxHash
  scope : scopeMismatch evidence expected = false
  status : evidence.status = some "COMPLETED"
  venueReleased : evidence.venueReleased = true
  destinationReceived : evidence.destinationReceived = true
  destination : evidence.destinationChain ≠ none ∧ evidence.destinationWalletAddress ≠ none ∧
    evidence.token ≠ none ∧ evidence.amount ≠ none
  confirmations : checker.config.minimumConfirmations ≤ evidence.confirmations.getD 0
  completedFlag : evidence.completedFlag = true

def EvidenceChecker.completedResult (evidence : WithdrawalEvidence) :
    WithdrawalCompletionEvidenceResult :=
  checker.received evidence evidence.withdrawalTxHash
    (EvidenceChecker.result .COMPLETED true true true
      (evidence.reason.getD (checker.venue.text ++ "_WITHDRAWAL_EVIDENCE_NORMALIZED")))

variable {checker} {evidence : WithdrawalEvidence} {expected : EvidenceExpected}

theorem normalize_of_checked (hchecked : Checked checker evidence expected) :
    checker.normalize evidence expected = checker.completedResult evidence := by
  cases hhash : evidence.withdrawalTxHash with
  | none =>
    have htxHash := hchecked.txHash
    rw [hhash] at htxHash
    exact nomatch htxHash
  | some withdrawalTxHash =>
    have htxHash := hchecked.txHash
    rw [hhash] at htxHash
    have hsame : withdrawalTxHash.toLower = expected.submittedTxHash.toLower :=
      of_decide_eq_true htxHash
    simp [EvidenceChecker.normalize, EvidenceChecker.completedResult, hhash, hchecked.status,
      hchecked.venue, hsame, hchecked.scope, hchecked.venueReleased, hchecked.destinationReceived,
      hchecked.destination, hchecked.completedFlag, not_lt.mpr hchecked.confirmations]

theorem completed_of_ite {condition : Prop} [Decidable condition]
    {refused accepted : WithdrawalCompletionEvidenceResult}
    (hdone : (if condition then refused else accepted).completed = true)
    (hrefused : refused.completed = false) : ¬ condition ∧ accepted.completed = true := by
  by_cases hcondition : condition
  · rw [if_pos hcondition, hrefused] at hdone
    exact Bool.noConfusion hdone
  · rw [if_neg hcondition] at hdone
    exact ⟨hcondition, hdone⟩

theorem checked_of_completed (hdone : (checker.normalize evidence expected).completed = true) :
    Checked checker evidence expected := by
  unfold EvidenceChecker.normalize at hdone
  simp only at hdone
  split at hdone
  · rename_i withdrawalTxHash status hhash hstatus
    obtain ⟨hvenue, hdone⟩ := completed_of_ite hdone rfl
    obtain ⟨htxHash, hdone⟩ := completed_of_ite hdone rfl
    obtain ⟨hscope, hdone⟩ := completed_of_ite hdone rfl
    obtain ⟨-, hdone⟩ := completed_of_ite hdone rfl
    obtain ⟨-, hdone⟩ := completed_of_ite hdone rfl
    obtain ⟨-, hdone⟩ := completed_of_ite hdone rfl
    obtain ⟨hreleased, hdone⟩ := completed_of_ite hdone rfl
    obtain ⟨hreceived, hdone⟩ := completed_of_ite hdone rfl
    obtain ⟨hdestination, hdone⟩ := completed_of_ite hdone rfl
    obtain ⟨hconfirmations, hdone⟩ := completed_of_ite hdone rfl
    obtain ⟨-, hdone⟩ := completed_of_ite hdone rfl
    have hlast : (decide (status = "COMPLETED") && evidence.completedFlag) = true := hdone
    rw [Bool.and_eq_true, decide_eq_true_eq] at hlast
    simp only [not_or, Bool.not_eq_false] at hreleased hreceived hdestination
    exact {
      venue := not_not.mp hvenue
      txHash := by
        rw [hhash]
        exact decide_eq_true (not_not.mp htxHash)
      scope := Bool.eq_false_of_not_eq_true hscope
      status := by rw [hstatus, hlast.1]
      venueReleased := hreleased.2
      destinationReceived := hreceived
      destination := hdestination
      confirmations := not_lt.mp hconfirmations
      completedFlag := hlast.2 }
  · exact Bool.noConfusion hdone

/-! ## The completion of a leg -/

section

variable (checker) (userId : String) (intent : WithdrawalIntent) (leg : WithdrawalRouteLeg)

def completesLeg (raw : Option Json) : Prop :=
  mapWithdrawalCompletionResult intent leg (checker.check userId intent leg raw) =
    .WITHDRAWAL_LEG_COMPLETED

/-- The evidence fits the leg and the intent, as far as the checker and the service compare it. -/
structure Accepted (evidence : WithdrawalEvidence) (submittedTxHash : String) : Prop where
  submitted : leg.txHashes.getLast? = some submittedTxHash ∧ submittedTxHash ≠ ""
  ready : checker.config.enabled = true ∧ checker.config.configured = true
  checked : Checked checker evidence
    ⟨userId, intent.withdrawalIntentId, leg.withdrawalRouteLegId, submittedTxHash⟩
  wallet : equalsIgnoreCase evidence.destinationWalletAddress intent.destinationWalletAddress
  chain : equalsIgnoreCase evidence.destinationChain intent.destinationChain
  token : equalsIgnoreCase evidence.token (expectedWithdrawalResultToken leg)
  amount : ∃ observed, evidence.amount.bind checker.toDecimal = some observed ∧
    (leg.destinationAmountEstimate ≤ observed ∨
      isLifiBridgeBackWithdrawalLeg leg ∧ 0 < observed)

theorem destinationMatches_completedResult (checker : EvidenceChecker) (intent : WithdrawalIntent)
    (leg : WithdrawalRouteLeg) (evidence : WithdrawalEvidence) :
    destinationMatches intent leg (checker.completedResult evidence) = true ↔
      equalsIgnoreCase evidence.destinationWalletAddress intent.destinationWalletAddress ∧
      equalsIgnoreCase evidence.destinationChain intent.destinationChain ∧
      equalsIgnoreCase evidence.token (expectedWithdrawalResultToken leg) ∧
      ∃ observed, evidence.amount.bind checker.toDecimal = some observed ∧
        (leg.destinationAmountEstimate ≤ observed ∨
          isLifiBridgeBackWithdrawalLeg leg ∧ 0 < observed) := by
  simp [destinationMatches, amountMatches, EvidenceChecker.completedResult,
    EvidenceChecker.received, EvidenceChecker.result, Option.any_eq_true, and_assoc]

theorem mapResult_completedResult (checker : EvidenceChecker) (intent : WithdrawalIntent)
    (leg : WithdrawalRouteLeg) (evidence : WithdrawalEvidence) :
    mapWithdrawalCompletionResult intent leg (checker.completedResult evidence) =
        .WITHDRAWAL_LEG_COMPLETED ↔
      destinationMatches intent leg (checker.completedResult evidence) = true := by
  unfold mapWithdrawalCompletionResult
  cases destinationMatches intent leg (checker.completedResult evidence) <;>
    simp [EvidenceChecker.completedResult, EvidenceChecker.received, EvidenceChecker.result]

theorem completes_iff (raw : Option Json) : completesLeg checker userId intent leg raw ↔
      ∃ record submittedTxHash, raw = some record ∧
        Accepted checker userId intent leg (readEvidence record) submittedTxHash := by
  unfold completesLeg
  constructor
  · intro hcompletes
    have hdone := completed_of_mapResult hcompletes
    unfold EvidenceChecker.check at hdone hcompletes
    simp only at hdone hcompletes
    cases hlast : leg.txHashes.getLast? with
    | none =>
      rw [hlast] at hdone
      exact Bool.noConfusion hdone
    | some submittedTxHash =>
      rw [hlast] at hdone hcompletes
      obtain ⟨hempty, hdone⟩ := completed_of_ite hdone rfl
      obtain ⟨henabled, hdone⟩ := completed_of_ite hdone rfl
      obtain ⟨hconfigured, hdone⟩ := completed_of_ite hdone rfl
      simp only at hcompletes
      rw [if_neg hempty, if_neg henabled, if_neg hconfigured] at hcompletes
      cases raw with
      | none => exact Bool.noConfusion hdone
      | some record =>
        have hchecked := checked_of_completed hdone
        simp only at hcompletes
        rw [normalize_of_checked hchecked, mapResult_completedResult,
          destinationMatches_completedResult] at hcompletes
        rw [Bool.not_eq_false] at henabled hconfigured
        exact ⟨record, submittedTxHash, rfl, ⟨hlast, hempty⟩, ⟨henabled, hconfigured⟩, hchecked,
          hcompletes.1, hcompletes.2.1, hcompletes.2.2.1, hcompletes.2.2.2⟩
  · rintro ⟨record, submittedTxHash, rfl, haccepted⟩
    have hcheck : checker.check userId intent leg (some record) =
        checker.completedResult (readEvidence record) := by
      unfold EvidenceChecker.check
      simp only [haccepted.submitted.1, if_neg haccepted.submitted.2, haccepted.ready.1,
        haccepted.ready.2, Bool.true_eq_false, if_false]
      exact normalize_of_checked haccepted.checked
    rw [hcheck, mapResult_completedResult, destinationMatches_completedResult]
    exact ⟨haccepted.wallet, haccepted.chain, haccepted.token, haccepted.amount⟩

/-! ## When the evidence is what it should be -/

/-- The same text, or two texts in hex that differ in the case of their digits. -/
def SameHex (length : ℕ) (left right : String) : Prop :=
  left = right ∨ isHex length left ∧ isHex length right ∧ left.toLower = right.toLower

structure Proves (evidence : WithdrawalEvidence) : Prop where
  venue : isString evidence.sourceVenue leg.sourceVenue.text
  txHash : ∃ submitted ∈ leg.txHashes.getLast?, ∃ txHash ∈ evidence.withdrawalTxHash,
    SameHex 64 txHash submitted
  status : evidence.status = some "COMPLETED"
  flags : evidence.venueReleased = true ∧ evidence.destinationReceived = true ∧
    evidence.completedFlag = true
  confirmations : checker.config.minimumConfirmations ≤ evidence.confirmations.getD 0
  chain : equalsIgnoreCase evidence.destinationChain intent.destinationChain
  wallet : ∃ wallet ∈ evidence.destinationWalletAddress,
    SameHex 40 wallet intent.destinationWalletAddress
  token : equalsIgnoreCase evidence.token (expectedWithdrawalResultToken leg)
  amount : ∃ observed ∈ evidence.amount.bind checker.toDecimal,
    leg.destinationAmountEstimate ≤ observed

/-- What the comparison lets through and should not. -/
structure Exact (evidence : WithdrawalEvidence) (submittedTxHash : String) : Prop where
  venue : checker.venue = leg.sourceVenue
  txHash : ∀ txHash ∈ evidence.withdrawalTxHash, SameHex 64 txHash submittedTxHash
  wallet : ∀ wallet ∈ evidence.destinationWalletAddress,
    SameHex 40 wallet intent.destinationWalletAddress
  amount : isLifiBridgeBackWithdrawalLeg leg → ∀ observed ∈ evidence.amount.bind checker.toDecimal,
    leg.destinationAmountEstimate ≤ observed

theorem venue_eq_of_isString {value : Option Json} {left right : FundingVenue}
    (hleft : isString value left.text) (hright : isString value right.text) : left = right := by
  unfold isString at hleft hright
  split at hleft
  · have htext : left.text = right.text :=
      (of_decide_eq_true hleft).symm.trans (of_decide_eq_true hright)
    cases left <;> cases right <;> first | rfl | exact absurd htext (by decide)
  · exact Bool.noConfusion hleft

theorem exists_of_equalsIgnoreCase {left : Option String} {right : String}
    (hequals : equalsIgnoreCase left right) : ∃ text, left = some text := by
  cases left with
  | none => exact nomatch hequals
  | some text => exact ⟨text, rfl⟩

/-- Only evidence that proves it completes a leg, just when accepted evidence is of the leg's venue,
its hash and its wallet are the same beyond their case, and a bridge-back is not short. -/
theorem completion_sound_iff (raw : Option Json) : (completesLeg checker userId intent leg raw →
      ∃ record, raw = some record ∧ Proves checker intent leg (readEvidence record)) ↔
    ∀ record submittedTxHash, raw = some record →
      Accepted checker userId intent leg (readEvidence record) submittedTxHash →
      Exact checker intent leg (readEvidence record) submittedTxHash := by
  rw [completes_iff]
  constructor
  · rintro hsound record submittedTxHash rfl haccepted
    obtain ⟨_, hrecord, hproves⟩ := hsound ⟨record, submittedTxHash, rfl, haccepted⟩
    obtain rfl := Option.some.inj hrecord
    obtain ⟨submitted, hsubmitted, txHash, htxHash, hsame⟩ := hproves.txHash
    obtain ⟨wallet, hwallet, hsameWallet⟩ := hproves.wallet
    obtain ⟨observed, hobserved, hle⟩ := hproves.amount
    exact {
      venue := venue_eq_of_isString haccepted.checked.venue hproves.venue
      txHash := by
        intro other hother
        rw [Option.mem_unique hother htxHash]
        rw [Option.mem_unique hsubmitted haccepted.submitted.1] at hsame
        exact hsame
      wallet := by
        intro other hother
        rw [Option.mem_unique hother hwallet]
        exact hsameWallet
      amount := by
        intro _ other hother
        rw [Option.mem_unique hother hobserved]
        exact hle }
  · rintro hexact ⟨record, submittedTxHash, rfl, haccepted⟩
    have hexact := hexact record submittedTxHash rfl haccepted
    have hchecked := haccepted.checked
    obtain ⟨txHash, htxHash⟩ := exists_of_equalsIgnoreCase hchecked.txHash
    obtain ⟨wallet, hwallet⟩ := exists_of_equalsIgnoreCase haccepted.wallet
    obtain ⟨observed, hobserved, hamount⟩ := haccepted.amount
    refine ⟨record, rfl, {
      venue := hexact.venue ▸ hchecked.venue
      txHash := ⟨submittedTxHash, haccepted.submitted.1, txHash, htxHash,
        hexact.txHash txHash htxHash⟩
      status := hchecked.status
      flags := ⟨hchecked.venueReleased, hchecked.destinationReceived, hchecked.completedFlag⟩
      confirmations := hchecked.confirmations
      chain := haccepted.chain
      wallet := ⟨wallet, hwallet, hexact.wallet wallet hwallet⟩
      token := haccepted.token
      amount := ⟨observed, hobserved, ?_⟩ }⟩
    rcases hamount with hcovers | ⟨hbridge, -⟩
    · exact hcovers
    · exact hexact.amount hbridge observed hobserved

end

/-! ## A wallet in the wrong case -/

/-- A Solana wallet, whose letters have a case that counts. -/
def solanaIntent : WithdrawalIntent where
  withdrawalIntentId := "withdrawal-1"
  userId := "user-1"
  destinationChain := "SOLANA"
  destinationWalletAddress := "7xKXtg2CW87d97TXJSDpbD5jBkheTqA83TZRuJosgAsU"
  status := .WITHDRAWING

def submittedHash : String :=
  "0xdddddddddddddddddddddddddddddddddddddddddddddddddddddddddddddddd"

def polymarketLeg : WithdrawalRouteLeg where
  withdrawalRouteLegId := "leg-1"
  withdrawalIntentId := "withdrawal-1"
  withdrawalSourceId := "source-1"
  sourceVenue := .POLYMARKET
  sourceToken := "USDC"
  destinationAmountEstimate := 40
  expiresAt := 60
  transactionRequest := false
  txHashes := [submittedHash]
  providerStatus := .empty
  venueReleaseStatus := .PENDING
  destinationStatus := .PENDING
  status := .VENUE_RELEASE_PENDING
  errorReason := none

def polymarketChecker : EvidenceChecker where
  venue := .POLYMARKET
  config := ⟨true, true, 1⟩
  toDecimal := numberOfText

def otherWallet : Json := .object
  [("sourceVenue", .string "POLYMARKET"),
    ("withdrawalTxHash", .string submittedHash),
    ("status", .string "COMPLETED"), ("venueReleased", .bool true),
    ("destinationReceived", .bool true), ("completed", .bool true),
    ("confirmations", .string "1"), ("destinationChain", .string "SOLANA"),
    ("destinationWalletAddress", .string "7xkxtg2cw87d97txjsdpbd5jbkhetqa83tzrujosgasu"),
    ("token", .string "USDC"), ("amount", .string "40")]

theorem readEvidence_otherWallet :
    (readEvidence otherWallet).withdrawalTxHash = some submittedHash ∧
      (readEvidence otherWallet).destinationChain = some solanaIntent.destinationChain ∧
      (readEvidence otherWallet).destinationWalletAddress =
        some "7xkxtg2cw87d97txjsdpbd5jbkhetqa83tzrujosgasu" ∧
      (readEvidence otherWallet).token = some polymarketLeg.sourceToken ∧
      (readEvidence otherWallet).amount = some "40" := by
  refine ⟨?_, ?_, ?_, ?_, ?_⟩ <;> decide +kernel

theorem toList_toLower (text : String) : text.toLower.toList = text.toList.map Char.toLower :=
  String.toList_map

theorem equalsIgnoreCase_some (left right : String) : equalsIgnoreCase (some left) right = true ↔
    left.toList.map Char.toLower = right.toList.map Char.toLower := by
  rw [equalsIgnoreCase, Option.any_some, decide_eq_true_eq, ← String.toList_inj,
    toList_toLower, toList_toLower]

theorem equalsIgnoreCase_self (text : String) : equalsIgnoreCase (some text) text = true :=
  decide_eq_true rfl

/-- The payment to another wallet completes the leg. -/
theorem otherWallet_completes :
    ¬ (completesLeg polymarketChecker "user-1" solanaIntent polymarketLeg (some otherWallet) →
      ∃ record, some otherWallet = some record ∧
        Proves polymarketChecker solanaIntent polymarketLeg (readEvidence record)) := by
  intro hsound
  obtain ⟨htxHash, hchain, hread, htoken, hamount⟩ := readEvidence_otherWallet
  have hcompletes : completesLeg polymarketChecker "user-1" solanaIntent polymarketLeg
      (some otherWallet) := by
    rw [completes_iff]
    refine ⟨otherWallet, submittedHash, rfl, {
      submitted := ⟨rfl, by decide⟩
      ready := ⟨rfl, rfl⟩
      checked := {
        venue := rfl
        txHash := by rw [htxHash]; exact equalsIgnoreCase_self submittedHash
        scope := by decide +kernel
        status := by decide +kernel
        venueReleased := rfl
        destinationReceived := rfl
        destination := by simp [htoken, hchain, hread, hamount]
        confirmations := by decide +kernel
        completedFlag := rfl }
      wallet := by
        rw [hread, equalsIgnoreCase_some]
        decide +kernel
      chain := by rw [hchain]; exact equalsIgnoreCase_self solanaIntent.destinationChain
      token := by rw [htoken]; exact equalsIgnoreCase_self polymarketLeg.sourceToken
      amount := ⟨40, by rw [hamount]; decide +kernel, Or.inl le_rfl⟩ }⟩
  obtain ⟨_, hrecord, hproves⟩ := hsound hcompletes
  obtain rfl := Option.some.inj hrecord
  obtain ⟨wallet, hwallet, hsame⟩ := hproves.wallet
  rw [hread] at hwallet
  rw [← Option.some.inj hwallet] at hsame
  rcases hsame with hequal | ⟨hhex, -⟩
  · exact absurd hequal (by decide +kernel)
  · exact absurd hhex (by decide +kernel)

end LotusRfq.Funding
