import LotusRfq.Bundles.Merge
import LotusRfq.Bundles.Service

/-!
# LotusRfq — the operations of the bundle service, each as a whole

What an operation leaves stored when nothing else runs beside it.

* **`run_submit`**, **`run_getExecutionStatus`**, **`run_refreshStatus`** — what is stored, and what
  is recorded as a position;
* **`keys_submitResult`** — the legs of a result have distinct keys.
-/

namespace LotusRfq.Bundles

open Processes List

variable {s t u : BundleState} {locale : String → String → Ordering}

/-! ## Writing a status -/

/-- The state after a status is stored and its filled legs are recorded. -/
def BundleState.written (next : SignedTradeExecutionStatus) (s : BundleState) : BundleState :=
  { s with
    executionStatuses := some next
    repository := some next
    positions := s.positions ++ filledPositions next }

def BundleState.watched (next : SignedTradeExecutionStatus) (s : BundleState) : BundleState :=
  { s with
    repository := some next
    positions := s.positions ++ filledPositions next }

@[simp] theorem run_recordFilledLegs (legs : List SubmittedLeg) (s : BundleState) :
    (recordFilledLegs legs).run handle s = ((), { s with positions := s.positions ++ legs }) := by
  induction legs generalizing s with
  | nil => simp [recordFilledLegs]
  | cons leg legs ih => simp [recordFilledLegs, ih, handle]

theorem run_getExecutionStatus (lookup : Lookup) (s : BundleState) :
    ((getExecutionStatus lookup).run handle s).2 =
      match s.stored with
      | none => s
      | some stored =>
        if stored.dryRun then s
        else s.written
          (refreshStoredExecutionStatus { lookup with settlementIntervalMs := 0 } stored) := by
  unfold getExecutionStatus
  rw [run_bind]
  simp only [run_request, handle]
  cases s.stored with
  | none => rfl
  | some stored =>
    cases hdry : stored.dryRun with
    | true => simp [hdry]
    | false =>
      simp [hdry, saveExecutionStatus, recordFilledPositions, handle, BundleState.written]

theorem run_refreshStatus (lookup : Lookup) (s : BundleState) :
    ((refreshStatus lookup).run handle s).2 =
      match s.repository with
      | none => s
      | some status =>
        if isActive status then s.watched (refreshStoredExecutionStatus lookup status) else s := by
  unfold refreshStatus
  rw [run_bind]
  simp only [run_request, handle]
  cases s.repository with
  | none => rfl
  | some status =>
    cases hactive : isActive status with
    | true => simp [recordFilledPositions, handle, BundleState.watched, hactive]
    | false => simp [hactive]

/-! ## Submitting -/

structure SameStores (s t : BundleState) : Prop where
  executionStatuses : t.executionStatuses = s.executionStatuses
  repository : t.repository = s.repository
  positions : t.positions = s.positions

theorem SameStores.refl (s : BundleState) : SameStores s s := ⟨rfl, rfl, rfl⟩

theorem SameStores.trans (hst : SameStores s t) (htu : SameStores t u) : SameStores s u where
  executionStatuses := htu.executionStatuses.trans hst.executionStatuses
  repository := htu.repository.trans hst.repository
  positions := htu.positions.trans hst.positions

theorem SameStores.stored (h : SameStores s t) : t.stored = s.stored := by
  rw [BundleState.stored, BundleState.stored, h.executionStatuses, h.repository]

theorem SameStores.written (h : SameStores s t) (next : SignedTradeExecutionStatus) :
    SameStores (s.written next) (t.written next) :=
  ⟨rfl, rfl, congrArg (· ++ filledPositions next) h.positions⟩

/-- How the loop ends, whatever is stored. -/
def legsOutcome (dryRun : Bool) : ℕ → List LegAnswers → List SubmittedLeg → LegsOutcome
  | _, [], submittedLegs => .done submittedLegs
  | index, answers :: rest, submittedLegs =>
    if answers.throws then .threw submittedLegs
    else if dryRun then
      legsOutcome dryRun (index + 1) rest
        (submittedLegs ++ [.bare index answers.leg.venue .DRY_RUN_VERIFIED])
    else
      match answers.submitted with
      | .ok submitted =>
        legsOutcome dryRun (index + 1) rest
          (submittedLegs ++ [toSubmittedLeg index answers.leg.venue submitted answers.leg])
      | .error normalized => .failed submittedLegs (failedLeg index answers.leg.venue normalized)

theorem run_submitLegs (dryRun : Bool) (index : ℕ) (legs : List LegAnswers)
    (submittedLegs : List SubmittedLeg) (s : BundleState) :
    ((submitLegs dryRun index legs submittedLegs).run handle s).1 =
        legsOutcome dryRun index legs submittedLegs ∧
      SameStores s ((submitLegs dryRun index legs submittedLegs).run handle s).2 := by
  induction legs generalizing index submittedLegs s with
  | nil => exact ⟨rfl, .refl s⟩
  | cons answers rest ih =>
    cases hthrows : answers.throws with
    | true => simp [submitLegs, legsOutcome, hthrows, SameStores.refl]
    | false =>
      cases dryRun with
      | true => simpa [submitLegs, legsOutcome, hthrows] using ih _ _ s
      | false =>
        cases hsubmitted : answers.submitted with
        | ok submitted =>
          let next : List SubmittedLeg :=
            submittedLegs ++ [toSubmittedLeg index answers.leg.venue submitted answers.leg]
          let called : BundleState := { s with calls := s.calls ++ [⟨index, true⟩] }
          have hrun : (submitLegs false index (answers :: rest) submittedLegs).run handle s =
              (submitLegs false (index + 1) rest next).run handle called := by
            simp [submitLegs, hthrows, hsubmitted, handle, next, called]
          have houtcome : legsOutcome false index (answers :: rest) submittedLegs =
              legsOutcome false (index + 1) rest next := by
            simp [legsOutcome, hthrows, hsubmitted, next]
          have hcalled : SameStores s called := ⟨rfl, rfl, rfl⟩
          rw [hrun, houtcome]
          exact ⟨(ih _ _ called).1, hcalled.trans (ih _ _ called).2⟩
        | error normalized =>
          have hrun : (submitLegs false index (answers :: rest) submittedLegs).run handle s =
              (.failed submittedLegs (failedLeg index answers.leg.venue normalized),
                { s with calls := s.calls ++ [⟨index, false⟩] }) := by
            simp [submitLegs, hthrows, hsubmitted, handle]
          rw [hrun]
          exact ⟨by simp [legsOutcome, hthrows, hsubmitted], rfl, rfl, rfl⟩

/-- What a submit records: the legs of the quote, a status, and a leg for each order. -/
structure SubmitResult where
  quote : List LegAnswers
  status : BundleStatus
  submittedLegs : List SubmittedLeg

def LegsOutcome.result (dryRun : Bool) (legs : List LegAnswers) : LegsOutcome → Option SubmitResult
  | .threw _ => none
  | .failed accepted last => some ⟨legs, .FAILED, accepted ++ [last]⟩
  | .done submittedLegs =>
    some ⟨legs, if dryRun then .DRY_RUN_VERIFIED else .SUBMITTED, submittedLegs⟩

def isAdmitted (s : BundleState) (call : SubmitCall) : Bool :=
  call.dryRun ∨ (isDuplicate s.stored = false ∧ call.ready)

def submitResult (s : BundleState) (call : SubmitCall) : Option SubmitResult :=
  match call.quote with
  | none => none
  | some legs =>
    if isAdmitted s call ∧ !call.recordThrows then
      (legsOutcome call.dryRun 0 legs []).result call.dryRun legs
    else none

def SubmitResult.recorded (localeCompare : String → String → Ordering) (s : BundleState)
    (call : SubmitCall) (result : SubmitResult) : SignedTradeExecutionStatus :=
  recordedStatus localeCompare call result.quote result.status result.submittedLegs s.stored

theorem SubmitResult.recorded_congr (h : SameStores s t) (call : SubmitCall)
    (result : SubmitResult) : result.recorded locale t call = result.recorded locale s call := by
  rw [SubmitResult.recorded, SubmitResult.recorded, h.stored]

variable (locale : String → String → Ordering)

theorem run_recordResult (h : SameStores s t)
    (call : SubmitCall) (result : SubmitResult) (accepted : List SubmittedLeg) :
    SameStores (if call.recordThrows then s else s.written (result.recorded locale s call))
      ((recordResult locale call result.quote result.status result.submittedLegs
        accepted).run handle t).2 := by
  unfold recordResult
  rw [run_bind]
  have hrecord : (recordExecutionStatus locale call result.quote result.status
      result.submittedLegs).run handle t = (!call.recordThrows,
        if call.recordThrows then t else t.written (result.recorded locale t call)) := by
    cases hthrows : call.recordThrows with
    | true => simp [recordExecutionStatus, hthrows]
    | false =>
      simp [recordExecutionStatus, hthrows, handle, saveExecutionStatus, recordFilledPositions,
        BundleState.written, SubmitResult.recorded]
  have hwritten : SameStores
      (if call.recordThrows then s else s.written (result.recorded locale s call))
      (if call.recordThrows then t else t.written (result.recorded locale t call)) := by
    rw [SubmitResult.recorded_congr h]
    split
    · exact h
    · exact h.written _
  rw [hrecord]
  refine hwritten.trans ?_
  cases hdry : call.dryRun with
  | true => simpa [hdry] using SameStores.refl _
  | false =>
    simp only [Bool.false_eq_true, if_false, run_request, handle]
    exact ⟨rfl, rfl, rfl⟩

/-- What is stored after a submit that records `result`, if it has one. -/
def BundleState.submitted (localeCompare : String → String → Ordering) (call : SubmitCall)
    (result : Option SubmitResult) (s : BundleState) : BundleState :=
  match result with
  | none => s
  | some result => s.written (result.recorded localeCompare s call)

theorem run_outcome (h : SameStores s t)
    (call : SubmitCall) (legs : List LegAnswers) (outcome : LegsOutcome) :
    SameStores (s.submitted locale call
        (if !call.recordThrows then outcome.result call.dryRun legs else none))
      ((match outcome with
        | .threw accepted =>
          if call.dryRun then return ()
          else request (BundleRequest.endLive (accepted.map (·.legIndex)))
        | .failed accepted failed =>
          recordResult locale call legs .FAILED (accepted ++ [failed]) accepted
        | .done submittedLegs =>
          recordResult locale call legs
            (if call.dryRun then .DRY_RUN_VERIFIED else .SUBMITTED) submittedLegs submittedLegs :
        BundleCode Unit).run handle t).2 := by
  have hresult : ∀ result : SubmitResult, s.submitted locale call
      (if !call.recordThrows then some result else none) =
        if call.recordThrows then s else s.written (result.recorded locale s call) := by
    intro result
    cases call.recordThrows <;> rfl
  cases outcome with
  | threw accepted =>
    rw [LegsOutcome.result, ite_self]
    cases hdry : call.dryRun with
    | true => exact h
    | false => exact h.trans ⟨rfl, rfl, rfl⟩
  | failed accepted failed =>
    rw [LegsOutcome.result, hresult]
    exact run_recordResult locale h call ⟨legs, .FAILED, accepted ++ [failed]⟩ accepted
  | done submittedLegs =>
    rw [LegsOutcome.result, hresult]
    exact run_recordResult locale h call ⟨legs, _, submittedLegs⟩ submittedLegs

/-- **A submit** records its result, if it has one, and stores nothing else. -/
theorem run_submit (call : SubmitCall) (s : BundleState) :
    SameStores (s.submitted locale call (submitResult s call))
      ((submit locale call).run handle s).2 := by
  unfold submit submitResult
  cases hquote : call.quote with
  | none => exact .refl s
  | some legs =>
    rw [run_bind]
    cases hdry : call.dryRun with
    | true =>
      have hadmitted : isAdmitted s call = true := by simp [isAdmitted, hdry]
      simp only [if_true, run_pure, isDuplicate, Option.any_none, Bool.false_eq_true, if_false,
        Bool.not_true, false_and, run_bind, hadmitted, true_and]
      obtain ⟨houtcome, hstores⟩ := run_submitLegs true 0 legs [] s
      rw [houtcome]
      have hrun := run_outcome locale hstores call legs (legsOutcome true 0 legs [])
      rw [hdry] at hrun
      exact hrun
    | false =>
      cases hduplicate : isDuplicate s.stored with
      | true =>
        have hadmitted : isAdmitted s call = false := by simp [isAdmitted, hdry, hduplicate]
        simp only [hadmitted, run_request, handle, hduplicate, Bool.false_eq_true, if_false,
          if_true, false_and, run_pure]
        exact .refl s
      | false =>
        let underway : BundleState := { s with underway := s.underway + 1 }
        have hunderway : SameStores s underway := ⟨rfl, rfl, rfl⟩
        cases hready : call.ready with
        | false =>
          have hadmitted : isAdmitted s call = false := by simp [isAdmitted, hdry, hready]
          simp only [hadmitted, run_request, handle, hduplicate, Bool.false_eq_true, if_false,
            if_true, false_and, Bool.not_false, and_self]
          exact ⟨rfl, rfl, rfl⟩
        | true =>
          have hadmitted : isAdmitted s call = true := by
            simp [isAdmitted, hdry, hready, hduplicate]
          simp only [hadmitted, run_request, handle, hduplicate, Bool.false_eq_true, if_false,
            true_and, Bool.not_true, and_false, run_bind]
          obtain ⟨houtcome, hstores⟩ := run_submitLegs false 0 legs [] underway
          rw [houtcome]
          have hrun := run_outcome locale (hunderway.trans hstores) call legs
            (legsOutcome false 0 legs [])
          rw [hdry] at hrun
          exact hrun

/-! ## The legs of a result -/

theorem forall_mem_result {P : SubmittedLeg → Prop} {dryRun : Bool} {quote legs : List LegAnswers}
    {index : ℕ} {submittedLegs : List SubmittedLeg} {result : SubmitResult}
    (hdry : dryRun = true → ∀ index venue, P (.bare index venue .DRY_RUN_VERIFIED))
    (hfailed : ∀ index venue normalized, P (failedLeg index venue normalized))
    (hsubmitted : dryRun = false → ∀ index answers submitted, answers ∈ legs →
      answers.submitted = .ok submitted →
        P (toSubmittedLeg index answers.leg.venue submitted answers.leg))
    (hbefore : ∀ leg ∈ submittedLegs, P leg)
    (h : (legsOutcome dryRun index legs submittedLegs).result dryRun quote = some result) :
    ∀ leg ∈ result.submittedLegs, P leg := by
  induction legs generalizing index submittedLegs with
  | nil =>
    cases h
    exact hbefore
  | cons answers rest ih =>
    have hrest : dryRun = false → ∀ index answers submitted, answers ∈ rest →
        answers.submitted = .ok submitted →
          P (toSubmittedLeg index answers.leg.venue submitted answers.leg) :=
      fun hlive index answers submitted hmem =>
        hsubmitted hlive index answers submitted (mem_cons_of_mem _ hmem)
    have happend : ∀ next, P next → ∀ leg ∈ submittedLegs ++ [next], P leg :=
      fun next hnext leg hmem => (mem_append.mp hmem).elim (hbefore leg)
        fun hlast => mem_singleton.mp hlast ▸ hnext
    rw [legsOutcome] at h
    split at h
    next => cases h
    next =>
      split at h
      next hdryRun => exact ih hrest (happend _ (hdry hdryRun index answers.leg.venue)) h
      next hlive =>
        split at h
        next submitted hok =>
          refine ih hrest (happend _ ?_) h
          exact hsubmitted (Bool.eq_false_iff.mpr hlive) index answers submitted mem_cons_self hok
        next normalized _ =>
          cases h
          exact happend _ (hfailed index answers.leg.venue normalized)

theorem legIndex_result {dryRun : Bool} {quote legs : List LegAnswers} {index : ℕ}
    {submittedLegs : List SubmittedLeg} {result : SubmitResult}
    (hbefore : submittedLegs.map (·.legIndex) = List.range index)
    (h : (legsOutcome dryRun index legs submittedLegs).result dryRun quote = some result) :
    ∃ n, result.submittedLegs.map (·.legIndex) = List.range n := by
  induction legs generalizing index submittedLegs with
  | nil =>
    cases h
    exact ⟨index, hbefore⟩
  | cons answers rest ih =>
    have happend : ∀ next : SubmittedLeg, next.legIndex = index →
        (submittedLegs ++ [next]).map (·.legIndex) = List.range (index + 1) := by
      intro next hnext
      rw [map_append, hbefore, range_succ, map_singleton, hnext]
    rw [legsOutcome] at h
    split at h
    next => cases h
    next =>
      split at h
      next => exact ih (happend (.bare index answers.leg.venue .DRY_RUN_VERIFIED) rfl) h
      next =>
        split at h
        next submitted _ =>
          exact ih (happend (toSubmittedLeg index answers.leg.venue submitted answers.leg) rfl) h
        next normalized _ =>
          cases h
          exact ⟨index + 1, happend _ rfl⟩

section

variable {call : SubmitCall} {result : SubmitResult} (h : submitResult s call = some result)

include h

theorem submitResult_eq : ∃ legs, call.quote = some legs ∧
      (legsOutcome call.dryRun 0 legs []).result call.dryRun legs = some result := by
  unfold submitResult at h
  split at h
  next => cases h
  next legs hquote =>
    split at h
    next => exact ⟨legs, hquote, h⟩
    next => cases h

theorem isAdmitted_of_result : isAdmitted s call = true := by
  unfold submitResult at h
  split at h
  next => cases h
  next =>
    split at h
    next hadmitted => exact hadmitted.1
    next => cases h

theorem keys_submitResult : (result.submittedLegs.map submittedLegKey).Nodup := by
  obtain ⟨legs, -, hresult⟩ := submitResult_eq h
  obtain ⟨n, hindex⟩ := legIndex_result rfl hresult
  have hnodup : ((result.submittedLegs.map submittedLegKey).map (·.legIndex)).Nodup := by
    rw [map_map, show (fun key : SubmittedLegKey => key.legIndex) ∘ submittedLegKey =
      fun leg => leg.legIndex from rfl, hindex]
    exact nodup_range
  exact hnodup.of_map _

end

theorem settled_toSubmittedLeg (index : ℕ) (venue : String) (submitted : VenueSubmitResult)
    (routeLeg : ExecutableRouteLeg) : Settled (toSubmittedLeg index venue submitted routeLeg) := by
  intro hfilled hneeds
  have hneeds' : requiresVerifiedSettlementForPosition venue = true := hneeds
  have hstatus : (toSubmittedLeg index venue submitted routeLeg).status ≠ .FILLED := by
    cases hsubmitted : submitted.status <;> simp [toSubmittedLeg, hneeds', hsubmitted,
      SubmitStatus.leg, SubmittedLeg.bare]
  exact absurd hfilled hstatus

theorem settled_submitResult {call : SubmitCall} {result : SubmitResult}
    (h : submitResult s call = some result) : ∀ leg ∈ result.submittedLegs, Settled leg := by
  obtain ⟨legs, -, hresult⟩ := submitResult_eq h
  refine forall_mem_result (fun _ index venue => ?_) (fun index venue normalized => ?_)
    (fun _ index answers submitted _ _ => ?_) (fun leg hmem => (not_mem_nil hmem).elim) hresult
  · exact Settled.of_ne_FILLED (by rintro ⟨⟩)
  · exact Settled.of_ne_FILLED (by rintro ⟨⟩)
  · exact settled_toSubmittedLeg index answers.leg.venue submitted answers.leg

end LotusRfq.Bundles
