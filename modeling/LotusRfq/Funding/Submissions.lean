import LotusRfq.Funding.WithdrawalOperations
import LotusRfq.Lib.Sessions

/-!
# LotusRfq — submissions that overlap

A submission reads its intent, checks the hash against the leg it read, and sends its statements
one by one. Other submissions, for the same leg or for any other, send theirs in between.

* **`submitRouteLeg_eq`**, **`submitWithdrawalRouteLeg_eq`** — a submission that is alone;
* **`hashes_recordedOnce`** — a hash is recorded once, on one leg, as long as no submission starts
  with a hash that is recorded or on its way.
-/

namespace LotusRfq.Funding

open Attempts Tables Transitions Sessions

/-! ## Funding -/

structure FundingSubmission where
  now : ℕ
  userId : String
  fundingIntentId : String
  routeLegId : String
  txHash : String

/-- `submitRouteLeg` up to its first statement. -/
def beginSubmission (call : FundingSubmission) (tables : FundingTables) :
    Except FundingError (List FundingWrite) := do
  let view ← tables.getIntent call.userId call.fundingIntentId
  submitRouteLegWrites call.now view call.fundingIntentId call.routeLegId call.txHash

def submissionStep : System FundingTables FundingWrite → Action FundingSubmission →
    Option (System FundingTables FundingWrite) :=
  step beginSubmission FundingWrite.apply

def FundingWrite.recordedHash : FundingWrite → Option String
  | .updateRouteLegSubmission _ txHash _ => some txHash
  | _ => none

/-- The hashes on all legs of all intents, each as often as it is recorded. -/
def FundingTables.recordedHashes (tables : FundingTables) : List String :=
  tables.routeLegs.flatMap (·.txHashes)

section

variable {call : FundingSubmission} {tables : FundingTables} {writes : List FundingWrite}
  (h : beginSubmission call tables = .ok writes)

include h

theorem beginSubmission_ok :
    ∃ view leg status, tables.getIntent call.userId call.fundingIntentId = .ok view ∧
      view.findLeg call.routeLegId = some leg ∧ status ≠ .CANCELLED ∧
      writes = .updateRouteLegSubmission leg.routeLegId call.txHash (submittedStatus leg) ::
        ((if leg.routeProvider = .DIRECT_TRANSFER then
          [.updateRouteLegProviderStatus leg.routeLegId {
            status := .LEG_VENUE_CREDIT_PENDING, bridgeStatus := .NOT_APPLICABLE
            destinationStatus := .PENDING, venueCreditStatus := .PENDING, errorReason := none }]
        else []) ++ [.updateIntentStatus call.fundingIntentId status]) := by
  obtain ⟨view, hview, hwrites⟩ := bind_eq_ok.mp h
  obtain ⟨leg, status, hleg, -, -, -, hstatus, rfl⟩ := submitRouteLegWrites_ok hwrites
  exact ⟨view, leg, status, hview, hleg, hstatus ▸ aggregateFundingStatus_ne_cancelled _, rfl⟩

theorem recordedHash_of_begin : writes.filterMap FundingWrite.recordedHash = [call.txHash] := by
  obtain ⟨view, leg, status, -, -, -, rfl⟩ := beginSubmission_ok h
  split <;> rfl

end

theorem recordedHashes_apply (statement : FundingWrite) (tables : FundingTables)
    (hids : (tables.routeLegs.map (·.routeLegId)).Nodup) :
    ((statement.apply tables).recordedHashes).Subperm
      (tables.recordedHashes ++ statement.recordedHash.toList) := by
  cases statement with
  | updateRouteLegSubmission routeLegId txHash status =>
    exact flatMap_update_subperm hids routeLegId fun _ => rfl
  | updateRouteLegProviderStatus routeLegId input =>
    refine flatMap_update_subperm hids routeLegId fun leg => ?_
    exact (List.append_nil _).symm
  | updateIntentStatus fundingIntentId status =>
    show tables.recordedHashes.Subperm (tables.recordedHashes ++ [])
    rw [List.append_nil]

theorem legIds_apply (statement : FundingWrite) (tables : FundingTables)
    (hids : (tables.routeLegs.map (·.routeLegId)).Nodup) :
    ((statement.apply tables).routeLegs.map (·.routeLegId)).Nodup := by
  cases statement with
  | updateRouteLegSubmission routeLegId txHash status =>
    exact nodup_keys_update (f := FundingTables.submissionChange txHash status) routeLegId (fun _ => rfl) hids
  | updateRouteLegProviderStatus routeLegId input =>
    exact nodup_keys_update (f := input.change) routeLegId (fun _ => rfl) hids
  | updateIntentStatus fundingIntentId status => exact hids

/-- A submission that the service would accept starts with a hash that no leg has, and that no
submission under way is about to record. -/
abbrev StartsWithNewHash : System FundingTables FundingWrite → Action FundingSubmission → Prop :=
  StartsWithNew beginSubmission FundingSubmission.txHash FundingWrite.recordedHash
    FundingTables.recordedHashes

/-- A leg's id is its own, no hash is recorded twice, and no submission is under way. -/
def FundingIdle (s : System FundingTables FundingWrite) : Prop :=
  (s.tables.routeLegs.map (·.routeLegId)).Nodup ∧ s.tables.recordedHashes.Nodup ∧ s.inFlight = []

theorem funding_recordedOnce {s t : System FundingTables FundingWrite} (hs : FundingIdle s)
    (hrun : Run submissionStep StartsWithNewHash s t) : t.tables.recordedHashes.Nodup := by
  obtain ⟨hids, hhashes, hidle⟩ := hs
  have hstart : (s.tables.recordedHashes ++ pending FundingWrite.recordedHash s.inFlight).Nodup := by
    rw [hidle]
    show (s.tables.recordedHashes ++ []).Nodup
    rwa [List.append_nil]
  have hend := posted_nodup (K := fun tables => (tables.routeLegs.map (·.routeLegId)).Nodup)
    hrun (fun _ _ _ => recordedHash_of_begin) legIds_apply recordedHashes_apply hids hstart
  exact (List.nodup_append.mp hend.2).1

/-! ## Withdrawals -/

structure WithdrawalSubmission where
  now : ℕ
  userId : String
  withdrawalIntentId : String
  withdrawalRouteLegId : String
  txHash : String

/-- `submitWithdrawalRouteLeg` up to its first statement. -/
def beginWithdrawalSubmission (call : WithdrawalSubmission) (tables : WithdrawalTables) :
    Except FundingError (List WithdrawalWrite) := do
  let view ← tables.getWithdrawalIntent call.userId call.withdrawalIntentId
  submitWithdrawalRouteLegWrites call.now view call.withdrawalIntentId call.withdrawalRouteLegId
    call.txHash

def withdrawalSubmissionStep : System WithdrawalTables WithdrawalWrite →
    Action WithdrawalSubmission → Option (System WithdrawalTables WithdrawalWrite) :=
  step beginWithdrawalSubmission WithdrawalWrite.apply

theorem submitWithdrawalRouteLeg_eq (call : WithdrawalSubmission) (s : WithdrawalSystem) :
    (go (submitWithdrawalRouteLeg call.now call.userId call.withdrawalIntentId
      call.withdrawalRouteLegId call.txHash) s).2 =
      match beginWithdrawalSubmission call s.tables with
      | .ok writes => { s with
          tables := writes.foldl (fun tables statement => statement.apply tables) s.tables }
      | .error _ => s := by
  rw [submitWithdrawalRouteLeg, go_bind, go_loadWithdrawalIntent]
  cases hview : s.tables.getWithdrawalIntent call.userId call.withdrawalIntentId with
  | error error =>
    have hbegin : beginWithdrawalSubmission call s.tables = .error error := by
      rw [beginWithdrawalSubmission, hview]
      rfl
    rw [hbegin]
  | ok view =>
    have hbegin : beginWithdrawalSubmission call s.tables = submitWithdrawalRouteLegWrites call.now
        view call.withdrawalIntentId call.withdrawalRouteLegId call.txHash := by
      rw [beginWithdrawalSubmission, hview]
      rfl
    simp only [hbegin, go_bind, go_await]
    cases submitWithdrawalRouteLegWrites call.now view call.withdrawalIntentId
        call.withdrawalRouteLegId call.txHash <;> rfl

def submittedWithdrawalStatus (leg : WithdrawalRouteLeg) : WithdrawalLegState :=
  if isLifiBridgeBackWithdrawalLeg leg then .DESTINATION_PENDING else .VENUE_RELEASE_PENDING

variable {writes : List WithdrawalWrite}

theorem submitWithdrawalRouteLegWrites_ok {now : ℕ} {view : WithdrawalIntentView}
    {withdrawalIntentId withdrawalRouteLegId txHash : String}
    (h : submitWithdrawalRouteLegWrites now view withdrawalIntentId withdrawalRouteLegId txHash =
      .ok writes) :
    ∃ leg, view.findLeg withdrawalRouteLegId = some leg ∧
      writes = [.updateWithdrawalRouteLegSubmission leg.withdrawalRouteLegId txHash
          (submittedWithdrawalStatus leg)
          (if isLifiBridgeBackWithdrawalLeg leg then some .CONFIRMED else none)
          (if isLifiBridgeBackWithdrawalLeg leg then some .PENDING else none),
        .updateWithdrawalIntentStatus withdrawalIntentId (aggregateWithdrawalStatus
          (view.routeLegs.map fun candidate =>
            if candidate.withdrawalRouteLegId = leg.withdrawalRouteLegId then
              submittedWithdrawalStatus leg
            else candidate.status))] := by
  unfold submitWithdrawalRouteLegWrites at h
  split at h
  next => cases h
  next leg hleg =>
    split at h
    next => cases h
    next =>
      split at h
      next => cases h
      next =>
        split at h
        next => cases h
        next =>
          cases h
          exact ⟨leg, hleg, rfl⟩

/-- A withdrawal submission that goes through: the hash first, the state of the intent last. -/
theorem beginWithdrawalSubmission_ok {call : WithdrawalSubmission} {tables : WithdrawalTables}
    (h : beginWithdrawalSubmission call tables = .ok writes) : ∃ view leg status,
      tables.getWithdrawalIntent call.userId call.withdrawalIntentId = .ok view ∧
      view.findLeg call.withdrawalRouteLegId = some leg ∧ status ≠ .CANCELLED ∧
      writes = [.updateWithdrawalRouteLegSubmission leg.withdrawalRouteLegId call.txHash
          (submittedWithdrawalStatus leg)
          (if isLifiBridgeBackWithdrawalLeg leg then some .CONFIRMED else none)
          (if isLifiBridgeBackWithdrawalLeg leg then some .PENDING else none),
        .updateWithdrawalIntentStatus call.withdrawalIntentId status] := by
  obtain ⟨view, hview, hwrites⟩ := bind_eq_ok.mp h
  obtain ⟨leg, hleg, rfl⟩ := submitWithdrawalRouteLegWrites_ok hwrites
  exact ⟨view, leg, _, hview, hleg, aggregateWithdrawalStatus_ne_cancelled _, rfl⟩

def WithdrawalWrite.recordedHash : WithdrawalWrite → Option String
  | .updateWithdrawalRouteLegSubmission _ txHash _ _ _ => some txHash
  | _ => none

def WithdrawalTables.recordedHashes (tables : WithdrawalTables) : List String :=
  tables.routeLegs.flatMap (·.txHashes)

theorem withdrawalHash_of_begin {call : WithdrawalSubmission} {tables : WithdrawalTables}
    (h : beginWithdrawalSubmission call tables = .ok writes) :
    writes.filterMap WithdrawalWrite.recordedHash = [call.txHash] := by
  obtain ⟨view, leg, status, -, -, -, rfl⟩ := beginWithdrawalSubmission_ok h
  rfl

section

variable (statement : WithdrawalWrite) (tables : WithdrawalTables)
  (hids : (tables.routeLegs.map (·.withdrawalRouteLegId)).Nodup)

include statement tables hids

theorem withdrawalHashes_apply : ((statement.apply tables).recordedHashes).Subperm
      (tables.recordedHashes ++ statement.recordedHash.toList) := by
  cases statement with
  | updateWithdrawalRouteLegSubmission withdrawalRouteLegId txHash status venueReleaseStatus
      destinationStatus =>
    exact flatMap_update_subperm hids withdrawalRouteLegId fun _ => rfl
  | updateWithdrawalIntentStatus withdrawalIntentId status =>
    show tables.recordedHashes.Subperm (tables.recordedHashes ++ [])
    rw [List.append_nil]

theorem withdrawalLegIds_apply :
    ((statement.apply tables).routeLegs.map (·.withdrawalRouteLegId)).Nodup := by
  cases statement with
  | updateWithdrawalRouteLegSubmission withdrawalRouteLegId txHash status venueReleaseStatus
      destinationStatus =>
    exact nodup_keys_update (f := WithdrawalTables.submissionChange txHash status
      venueReleaseStatus destinationStatus) withdrawalRouteLegId (fun _ => rfl) hids
  | updateWithdrawalIntentStatus withdrawalIntentId status => exact hids

end

abbrev StartsWithNewWithdrawalHash :
    System WithdrawalTables WithdrawalWrite → Action WithdrawalSubmission → Prop :=
  StartsWithNew beginWithdrawalSubmission WithdrawalSubmission.txHash WithdrawalWrite.recordedHash
    WithdrawalTables.recordedHashes

def WithdrawalsIdle (s : System WithdrawalTables WithdrawalWrite) : Prop :=
  (s.tables.routeLegs.map (·.withdrawalRouteLegId)).Nodup ∧ s.tables.recordedHashes.Nodup ∧
    s.inFlight = []

theorem withdrawal_recordedOnce {s t : System WithdrawalTables WithdrawalWrite}
    (hs : WithdrawalsIdle s) (hrun : Run withdrawalSubmissionStep StartsWithNewWithdrawalHash s t) :
    t.tables.recordedHashes.Nodup := by
  obtain ⟨hids, hhashes, hidle⟩ := hs
  have hstart : (s.tables.recordedHashes ++
      pending WithdrawalWrite.recordedHash s.inFlight).Nodup := by
    rw [hidle]
    show (s.tables.recordedHashes ++ []).Nodup
    rwa [List.append_nil]
  have hend := posted_nodup
    (K := fun tables => (tables.routeLegs.map (·.withdrawalRouteLegId)).Nodup)
    hrun (fun _ _ _ => withdrawalHash_of_begin) withdrawalLegIds_apply withdrawalHashes_apply hids
    hstart
  exact (List.nodup_append.mp hend.2).1

/-! ## One transaction, one leg -/

/-- **A hash is recorded at most once, on at most one leg**, in every state of every run whose
submissions start with new hashes. -/
theorem hashes_recordedOnce (funding : System FundingTables FundingWrite)
    (withdrawals : System WithdrawalTables WithdrawalWrite) :
    (∀ t, FundingIdle funding → Run submissionStep StartsWithNewHash funding t →
      t.tables.recordedHashes.Nodup) ∧
    (∀ t, WithdrawalsIdle withdrawals →
      Run withdrawalSubmissionStep StartsWithNewWithdrawalHash withdrawals t →
      t.tables.recordedHashes.Nodup) :=
  ⟨fun _ => funding_recordedOnce, fun _ => withdrawal_recordedOnce⟩

/-! ### Two legs and one hash -/

/-- The two legs of `twoTargets`, quoted and ready to be submitted. -/
def twoLegs : System FundingTables FundingWrite :=
  ⟨(runFunding limitlessChecked [(.quoteIntent "user-1" "intent-1", holding 100)]
    twoTargets).tables, []⟩

theorem twoLegs_idle : FundingIdle twoLegs := ⟨by decide +kernel, by decide +kernel, rfl⟩

/-- One submission for each leg, the statements of the first before the second starts. -/
def oneAfterTheOther (first second : String) : List (Action FundingSubmission) :=
  [.start ⟨0, "user-1", "intent-1", "leg of target-1", first⟩, .advance 0, .advance 0,
    .start ⟨0, "user-1", "intent-1", "leg of target-2", second⟩, .advance 1, .advance 1]

/-- The hash of the first leg is accepted for the second. -/
theorem oneTransaction_twoLegs : ¬ (
    (∀ s t, FundingIdle s → Reaches submissionStep s t → t.tables.recordedHashes.Nodup) ∧
    (∀ s t, WithdrawalsIdle s → Reaches withdrawalSubmissionStep s t →
      t.tables.recordedHashes.Nodup)) := by
  intro h
  have hplay : (play submissionStep (fun _ _ => True)
      (oneAfterTheOther transferHash transferHash) twoLegs).isSome := by decide +kernel
  have honce := h.1 twoLegs _ twoLegs_idle (Run.of_isSome _ hplay)
  exact absurd honce (by decide +kernel +revert)

theorem hashes_recordedOnce_twoLegs : ∃ t, Run submissionStep StartsWithNewHash twoLegs t ∧
    t.tables.recordedHashes = [transferHash, otherHash] ∧ t.tables.recordedHashes.Nodup := by
  have hplay : (play submissionStep StartsWithNewHash
      (oneAfterTheOther transferHash otherHash) twoLegs).isSome := by decide +kernel
  exact ⟨_, Run.of_isSome _ hplay, by decide +kernel +revert,
    (hashes_recordedOnce twoLegs ⟨⟨[], [], [], []⟩, []⟩).1 _ twoLegs_idle (Run.of_isSome _ hplay)⟩

end LotusRfq.Funding
