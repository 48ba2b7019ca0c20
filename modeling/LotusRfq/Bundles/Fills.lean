import LotusRfq.Bundles.Runs

/-!
# LotusRfq — filled legs stay filled, and are settled where they have to be

A venue that needs verified settlements has no leg that is filled, or recorded, before its
settlement is verified. A leg that is filled stays filled as long as what its venue answers confirms it, and no
result is recorded over it.

* **`Proper.step`** — what holds of everything that is stored;
* **`keepsFilled_step_iff`** — an operation keeps what is filled exactly when `Confirms` holds;
* **`filled_iff`** — along any list of operations.
-/

namespace LotusRfq.Bundles

open Processes Transitions List

def legsOf (stored : Option SignedTradeExecutionStatus) : List SubmittedLeg :=
  (stored.map (·.submittedLegs)).getD []

/-- Nothing is filled before it is settled, neither in memory nor in the repository nor among the
positions. -/
structure SettledOnly (s : BundleState) : Prop where
  memory : ∀ leg ∈ legsOf s.executionStatuses, Settled leg
  repository : ∀ leg ∈ legsOf s.repository, Settled leg
  positions : ∀ leg ∈ s.positions, leg.status = .FILLED ∧
    (requiresVerifiedSettlementForPosition leg.venue = true →
      hasVerifiedPositionSettlement leg.settlementState = true)

/-- What holds of everything that is stored: in addition, legs have distinct keys. -/
structure Proper (s : BundleState) : Prop extends SettledOnly s where
  memoryKeys : ((legsOf s.executionStatuses).map submittedLegKey).Nodup
  repositoryKeys : ((legsOf s.repository).map submittedLegKey).Nodup

structure KeepsFilled (s t : BundleState) : Prop where
  memory : ∀ leg ∈ legsOf s.executionStatuses, leg.status = .FILLED →
    HasFilled (legsOf t.executionStatuses) (submittedLegKey leg)
  repository : ∀ leg ∈ legsOf s.repository, leg.status = .FILLED →
    HasFilled (legsOf t.repository) (submittedLegKey leg)

def LookupConfirms (lookup : Lookup) (stored : SignedTradeExecutionStatus) (leg : SubmittedLeg) :
    Prop :=
  ∃ old ∈ stored.submittedLegs, submittedLegKey old = submittedLegKey leg ∧
    ConfirmsFill lookup stored.route old

/-- The result has the leg as filled, or it is stored as filled and the result has it as failed or
not at all. -/
def ResultConfirms (stored : Option SignedTradeExecutionStatus) (result : SubmitResult)
    (leg : SubmittedLeg) : Prop :=
  HasFilled result.submittedLegs (submittedLegKey leg) ∨
    (HasFilled (legsOf stored) (submittedLegKey leg) ∧ ∀ next ∈ result.submittedLegs,
      submittedLegKey next = submittedLegKey leg → next.status = .FAILED)

/-- Everything that is filled is confirmed, where the operation writes. -/
def Confirms (s : BundleState) : BundleOperation → Prop
  | .submit call => ∀ result ∈ submitResult s call,
    ∀ leg ∈ legsOf s.executionStatuses ++ legsOf s.repository, leg.status = .FILLED →
      ResultConfirms s.stored result leg
  | .getExecutionStatus lookup => ∀ stored ∈ s.stored, stored.dryRun = false →
    ∀ leg ∈ legsOf s.executionStatuses ++ legsOf s.repository, leg.status = .FILLED →
      LookupConfirms { lookup with settlementIntervalMs := 0 } stored leg
  | .refreshStatus lookup => ∀ stored ∈ s.repository, isActive stored = true →
    ∀ leg ∈ legsOf s.repository, leg.status = .FILLED → LookupConfirms lookup stored leg

instance (lookup : Lookup) (stored : SignedTradeExecutionStatus) (leg : SubmittedLeg) :
    Decidable (LookupConfirms lookup stored leg) :=
  inferInstanceAs (Decidable (∃ old ∈ stored.submittedLegs, _))

instance (stored : Option SignedTradeExecutionStatus) (result : SubmitResult)
    (leg : SubmittedLeg) : Decidable (ResultConfirms stored result leg) :=
  inferInstanceAs (Decidable (_ ∨ _))

instance (s : BundleState) (operation : BundleOperation) : Decidable (Confirms s operation) := by
  unfold Confirms
  cases operation <;> infer_instance

variable {localeCompare : String → String → Ordering} {s t u : BundleState}

theorem HasFilled.of_keeps {legs legs' : List SubmittedLeg} {key : SubmittedLegKey}
    (hkeeps : ∀ leg ∈ legs, leg.status = .FILLED → HasFilled legs' (submittedLegKey leg))
    (h : HasFilled legs key) : HasFilled legs' key := by
  obtain ⟨leg, hmem, rfl, hfilled⟩ := h
  exact hkeeps leg hmem hfilled

theorem KeepsFilled.trans (hst : KeepsFilled s t) (htu : KeepsFilled t u) : KeepsFilled s u where
  memory leg hmem hfilled := (hst.memory leg hmem hfilled).of_keeps htu.memory
  repository leg hmem hfilled := (hst.repository leg hmem hfilled).of_keeps htu.repository

theorem KeepsFilled.refl (s : BundleState) : KeepsFilled s s where
  memory leg hmem hfilled := ⟨leg, hmem, rfl, hfilled⟩
  repository leg hmem hfilled := ⟨leg, hmem, rfl, hfilled⟩

theorem SameStores.keepsFilled_iff (h : SameStores t u) : KeepsFilled s u ↔ KeepsFilled s t := by
  constructor <;> intro hkeeps
  · exact ⟨h.executionStatuses ▸ hkeeps.memory, h.repository ▸ hkeeps.repository⟩
  · exact ⟨h.executionStatuses ▸ hkeeps.memory, h.repository ▸ hkeeps.repository⟩

theorem keepsFilled_written_iff (next : SignedTradeExecutionStatus) :
    KeepsFilled s (s.written next) ↔
      ∀ leg ∈ legsOf s.executionStatuses ++ legsOf s.repository, leg.status = .FILLED →
        HasFilled next.submittedLegs (submittedLegKey leg) := by
  constructor
  · intro h leg hmem hfilled
    exact (mem_append.mp hmem).elim (fun hold => h.memory leg hold hfilled)
      fun hold => h.repository leg hold hfilled
  · intro h
    exact ⟨fun leg hmem => h leg (mem_append_left _ hmem),
      fun leg hmem => h leg (mem_append_right _ hmem)⟩

theorem keepsFilled_watched_iff (next : SignedTradeExecutionStatus) :
    KeepsFilled s (s.watched next) ↔ ∀ leg ∈ legsOf s.repository, leg.status = .FILLED →
      HasFilled next.submittedLegs (submittedLegKey leg) :=
  ⟨fun h => h.repository, fun h => ⟨(KeepsFilled.refl s).memory, h⟩⟩

variable {lookup : Lookup}

theorem hasFilled_refresh_iff {stored : SignedTradeExecutionStatus}
    (hlive : stored.dryRun = false) (leg : SubmittedLeg) :
    HasFilled (refreshStoredExecutionStatus lookup stored).submittedLegs (submittedLegKey leg) ↔
      LookupConfirms lookup stored leg := by
  rw [refreshStoredExecutionStatus, hlive, if_neg Bool.false_ne_true]
  constructor
  · rintro ⟨next, hmem, hkey, hfilled⟩
    obtain ⟨old, hold, rfl⟩ := mem_map.mp hmem
    exact ⟨old, hold, submittedLegKey_refreshLeg.symm.trans hkey, refreshLeg_FILLED_iff.mp hfilled⟩
  · rintro ⟨old, hold, hkey, hconfirms⟩
    exact ⟨_, mem_map_of_mem hold, submittedLegKey_refreshLeg.trans hkey,
      refreshLeg_FILLED_iff.mpr hconfirms⟩

/-! ## What is stored is proper -/

theorem mem_filledPositions {status : SignedTradeExecutionStatus} {leg : SubmittedLeg}
    (h : leg ∈ filledPositions status) : leg ∈ status.submittedLegs ∧ leg.status = .FILLED ∧
      isTruthy leg.venueOrderId = true ∧ leg.fillState.isSome = true ∧
        (requiresVerifiedSettlementForPosition leg.venue = true →
          hasVerifiedPositionSettlement leg.settlementState = true) := by
  unfold filledPositions at h
  split at h
  next => cases h
  next =>
    split at h
    next => cases h
    next =>
      obtain ⟨hmem, hfilled⟩ := mem_filter.mp h
      have hcases := of_decide_eq_true hfilled
      refine ⟨hmem, hcases.1, hcases.2.1, hcases.2.2.1, fun hneeds => ?_⟩
      exact not_not.mp fun hverified => hcases.2.2.2.1 ⟨hneeds, hverified⟩

theorem SettledOnly.positions_append (hs : SettledOnly s) (next : SignedTradeExecutionStatus) :
    ∀ leg ∈ s.positions ++ filledPositions next, leg.status = .FILLED ∧
      (requiresVerifiedSettlementForPosition leg.venue = true →
        hasVerifiedPositionSettlement leg.settlementState = true) := by
  intro leg hmem
  rcases mem_append.mp hmem with hold | hnew
  · exact hs.positions leg hold
  · obtain ⟨-, hfilled, -, -, hverified⟩ := mem_filledPositions hnew
    exact ⟨hfilled, hverified⟩

section

variable {next : SignedTradeExecutionStatus} (hs : Proper s)
  (hkeys : (next.submittedLegs.map submittedLegKey).Nodup)
  (hsettled : ∀ leg ∈ next.submittedLegs, Settled leg)

include hs hkeys hsettled

theorem Proper.written : Proper (s.written next) where
  memory := hsettled
  repository := hsettled
  positions := hs.positions_append next
  memoryKeys := hkeys
  repositoryKeys := hkeys

theorem Proper.watched : Proper (s.watched next) where
  memory := hs.memory
  repository := hsettled
  positions := hs.positions_append next
  memoryKeys := hs.memoryKeys
  repositoryKeys := hkeys

end

theorem Proper.of_sameStores (hs : Proper s) (h : SameStores s t) : Proper t where
  memory := h.executionStatuses ▸ hs.memory
  repository := h.repository ▸ hs.repository
  positions := h.positions ▸ hs.positions
  memoryKeys := h.executionStatuses ▸ hs.memoryKeys
  repositoryKeys := h.repository ▸ hs.repositoryKeys

theorem Proper.stored (hs : Proper s) : ((legsOf s.stored).map submittedLegKey).Nodup ∧
    ∀ leg ∈ legsOf s.stored, Settled leg := by
  unfold BundleState.stored
  cases hmemory : s.executionStatuses with
  | none => exact ⟨hs.repositoryKeys, hs.repository⟩
  | some status =>
    have hkeys := hs.memoryKeys
    have hsettled := hs.memory
    rw [hmemory] at hkeys hsettled
    exact ⟨hkeys, hsettled⟩

theorem keys_refresh {stored : SignedTradeExecutionStatus}
    (hkeys : (stored.submittedLegs.map submittedLegKey).Nodup) :
    ((refreshStoredExecutionStatus lookup stored).submittedLegs.map submittedLegKey).Nodup := by
  unfold refreshStoredExecutionStatus
  split
  · exact hkeys
  · rw [map_map, show submittedLegKey ∘ refreshLeg lookup stored.route = submittedLegKey from
      funext fun _ => submittedLegKey_refreshLeg]
    exact hkeys

theorem settled_refresh {stored : SignedTradeExecutionStatus}
    (hsettled : ∀ leg ∈ stored.submittedLegs, Settled leg) :
    ∀ leg ∈ (refreshStoredExecutionStatus lookup stored).submittedLegs, Settled leg := by
  unfold refreshStoredExecutionStatus
  split
  · exact hsettled
  · intro leg hmem
    obtain ⟨old, hold, rfl⟩ := mem_map.mp hmem
    exact (hsettled old hold).refreshLeg

theorem Proper.submitted (hs : Proper s) (localeCompare : String → String → Ordering)
    (call : SubmitCall) : Proper (s.submitted localeCompare call (submitResult s call)) := by
  cases hresult : submitResult s call with
  | none => exact hs
  | some result =>
    obtain ⟨hkeys, hsettled⟩ := hs.stored
    exact hs.written (keys_merge hkeys (keys_submitResult hresult))
      (settled_merge hkeys hsettled (settled_submitResult hresult))

/-- **One operation** leaves what is stored proper. -/
theorem Proper.step (hs : Proper s) {operation : BundleOperation}
    (h : operationStep localeCompare s operation = some t) : Proper t := by
  cases h
  cases operation with
  | submit call => exact (hs.submitted localeCompare call).of_sameStores (run_submit _ call s)
  | getExecutionStatus lookup =>
    obtain ⟨hkeys, hsettled⟩ := hs.stored
    show Proper ((getExecutionStatus lookup).run handle s).2
    rw [run_getExecutionStatus]
    split
    next => exact hs
    next stored hstored =>
      rw [hstored] at hkeys hsettled
      split
      · exact hs
      · exact hs.written (keys_refresh hkeys) (settled_refresh hsettled)
  | refreshStatus lookup =>
    have hkeys := hs.repositoryKeys
    have hsettled := hs.repository
    show Proper ((refreshStatus lookup).run handle s).2
    rw [run_refreshStatus]
    split
    next => exact hs
    next stored hstored =>
      rw [hstored] at hkeys hsettled
      split
      · exact hs.watched (keys_refresh hkeys) (settled_refresh hsettled)
      · exact hs

/-! ## What is filled is kept -/

/-- **One operation** keeps what is filled exactly when all of it is confirmed. -/
theorem keepsFilled_step_iff (hs : Proper s) {operation : BundleOperation}
    (h : operationStep localeCompare s operation = some t) :
    KeepsFilled s t ↔ Confirms s operation := by
  cases h
  cases operation with
  | submit call =>
    show KeepsFilled s ((submit localeCompare call).run handle s).2 ↔ _
    rw [(run_submit localeCompare call s).keepsFilled_iff, Confirms]
    cases hresult : submitResult s call with
    | none => simpa [BundleState.submitted] using KeepsFilled.refl s
    | some result =>
      have hmerge : ∀ leg, HasFilled (result.recorded localeCompare s call).submittedLegs
          (submittedLegKey leg) ↔ ResultConfirms s.stored result leg := fun leg =>
        hasFilled_merge_iff hs.stored.1 (keys_submitResult hresult)
      show KeepsFilled s (s.written _) ↔ _
      rw [keepsFilled_written_iff]
      simp only [hmerge, Option.mem_def, Option.some.injEq, forall_eq']
  | getExecutionStatus lookup =>
    show KeepsFilled s ((getExecutionStatus lookup).run handle s).2 ↔ _
    rw [run_getExecutionStatus, Confirms]
    cases hstored : s.stored with
    | none => simpa using KeepsFilled.refl s
    | some stored =>
      cases hdry : stored.dryRun with
      | true => simpa [hdry] using KeepsFilled.refl s
      | false =>
        simp only [hdry, Bool.false_eq_true, if_false, keepsFilled_written_iff,
          hasFilled_refresh_iff hdry, Option.mem_def, Option.some.injEq, forall_eq', forall_const]
  | refreshStatus lookup =>
    show KeepsFilled s ((refreshStatus lookup).run handle s).2 ↔ _
    rw [run_refreshStatus, Confirms]
    cases hstored : s.repository with
    | none => simpa using KeepsFilled.refl s
    | some stored =>
      cases hactive : isActive stored with
      | false => simpa [hactive] using KeepsFilled.refl s
      | true =>
        have hlive : stored.dryRun = false := by
          have hcases := of_decide_eq_true hactive
          simpa using hcases.1
        simp only [hactive, if_true, keepsFilled_watched_iff, hstored,
          hasFilled_refresh_iff hlive, Option.mem_def, Option.some.injEq, forall_eq', forall_const]

/-- **Along any operations**: nothing is filled before it is settled, and what is filled stays so
exactly when every operation confirms what is filled then. -/
theorem filled_iff (localeCompare : String → String → Ordering) {s : BundleState} (hs : Proper s)
    (operations : List BundleOperation) :
    (∀ t ∈ states (operationStep localeCompare) operations s, SettledOnly t) ∧
      ((states (operationStep localeCompare) operations s).Pairwise KeepsFilled ↔
        EachStep (operationStep localeCompare) (fun s operation _ => Confirms s operation)
          operations s) := by
  refine ⟨fun t ht => ?_, ?_⟩
  · have hproper : Proper t := forall_mem_states (fun s operation t hs h => hs.step h) hs t ht
    exact hproper.toSettledOnly
  · rw [pairwise_states_iff (R := KeepsFilled) fun hst htu => hst.trans htu]
    exact eachStep_iff (fun s operation t hs h _ => hs.step h)
      (fun s operation t hs h => keepsFilled_step_iff hs h) hs

/-! ### Filled, then cancelled -/

def unstored : BundleState := ⟨none, none, [], 0, []⟩

theorem unstored_proper : Proper unstored where
  memory := by rintro leg ⟨⟩
  repository := by rintro leg ⟨⟩
  positions := by rintro leg ⟨⟩
  memoryKeys := nodup_nil
  repositoryKeys := nodup_nil

def filledAtOnce : SubmitCall where
  dryRun := false
  quote := some [⟨⟨"LIMITLESS", 10, 1 / 2⟩, false,
    .ok ⟨"venue-order-1", none, .FILLED, 10, 1 / 2⟩⟩]
  ready := true
  recordThrows := false
  now := 1000

def answering (status : FillStatus) : Lookup where
  now := 2000
  settlementIntervalMs := 0
  reply _ := ⟨.ok ⟨status, 10, 1 / 2, false⟩, .ok .SETTLEMENT_PENDING⟩

def lookedUp (status : FillStatus) : List BundleOperation :=
  [.submit filledAtOnce, .getExecutionStatus (answering status)]

/-- A leg of LIMITLESS that is filled is cancelled when the venue says so. -/
theorem unstored_cancelled : ¬ ∀ localeCompare s operations, Proper s →
    (∀ t ∈ states (operationStep localeCompare) operations s, SettledOnly t) ∧
      (states (operationStep localeCompare) operations s).Pairwise KeepsFilled := by
  intro h
  have hpairs := (h compare unstored (lookedUp .CANCELLED) unstored_proper).2
  simp only [lookedUp, states, operationStep] at hpairs
  have hkeeps := (pairwise_cons.mp (pairwise_cons.mp hpairs).2).1 _ (mem_singleton_self _)
  exact absurd hkeeps.memory (by decide +kernel)

theorem filled_iff_unstored :
    (∀ t ∈ states (operationStep compare) (lookedUp .FILLED) unstored, SettledOnly t) ∧
      (states (operationStep compare) (lookedUp .FILLED) unstored).Pairwise KeepsFilled := by
  have hplay : (play (operationStep compare) Confirms (lookedUp .FILLED) unstored).isSome := by
    decide +kernel
  obtain ⟨hsettled, hkeeps⟩ := filled_iff compare unstored_proper (lookedUp .FILLED)
  exact ⟨hsettled, hkeeps.mpr (eachStep_of_play hplay)⟩

end LotusRfq.Bundles
