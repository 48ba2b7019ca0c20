import LotusRfq.Execution.PositionDeltas

/-!
# LotusRfq — completing a settled execution

The last transition is checked after everything is written. It is legal when the settled
execution was also filled: when the venue of some leg reported a fill. Settlement does not wait
for that report, so an execution may be settled without, and an execution without legs is.

* **`completesSettled_iff`** — the executions that complete once every leg is verified, and do
  not throw an illegal transition over their writes;
* **`settled_not_filled`** — a leg that is settled while its order is still reported open.
-/

namespace LotusRfq.Execution

open Attempts Tables List

/-- The execution threw a transition that the state machine does not have. -/
def IllegalTransition (ending : Except ExecutionError ExecutionResultV0) : Prop :=
  ∃ state next, ending = .error (.transition state next)

/-- No illegal transition over what is written, and a settled execution returns completed. -/
def CompletesSettled (outcome : Except ExecutionError ExecutionResultV0 × ExecutionRun) : Prop :=
  (IllegalTransition outcome.1 → outcome.2.ledger = [] ∧ outcome.2.positions = []) ∧
    ((∀ leg ∈ outcome.2.legs, leg.settlementStatus = .SETTLEMENT_VERIFIED) →
      Completed outcome.1)

def filled (answers : LegAnswers) : Prop :=
  ∃ fill, answers.fetchFillState = .ok fill ∧ fill.status = .FILLED

variable {deps : OrchestratorDeps} {request : ExecutionRequestV0} {services : ServiceAnswers}
  {entries : List (ExecutionLegV0 × LegAnswers)} {run : ExecutionRun}

/-- A loop over verified legs ends filled when some fill was reported, or it began so. -/
theorem loopPasses_filled {state final : ExecutionStateV0}
    (hall : AllLegsVerified deps request entries)
    (hstate : state = .READY_TO_SUBMIT ∨ state = .SUBMITTED ∨ state = .FILLED_PENDING_SETTLEMENT)
    (hpasses : loopPasses deps request state entries = some final) :
    final = .FILLED_PENDING_SETTLEMENT ↔
      state = .FILLED_PENDING_SETTLEMENT ∨ ∃ entry ∈ entries, filled entry.2 := by
  induction entries generalizing state with
  | nil =>
    cases hpasses
    simp
  | cons head entries ih =>
    obtain ⟨leg, answers⟩ := head
    obtain ⟨⟨hverifies, haudit⟩, htail⟩ := forall_mem_cons.mp hall
    obtain ⟨check, hcheck, hpass⟩ : ∃ check, legCheck deps request leg answers = some check ∧
        legPasses deps request leg answers state = some (stateAfterFill check.fill state) :=
      legPasses_of_verifies hverifies haudit
    obtain ⟨_, _, _, fill, _, _, -, -, -, hfill, -, -, -, -, rfl⟩ := legCheck_eq_some hcheck
    have hhead : filled answers ↔ fill.status = .FILLED := by
      unfold filled
      rw [hfill]
      simp
    rw [loopPasses, hpass] at hpasses
    have hnext : stateAfterFill fill state = .SUBMITTED ∨
        stateAfterFill fill state = .FILLED_PENDING_SETTLEMENT := by
      unfold stateAfterFill stateAfterSubmit
      by_cases hfilled : fill.status = .FILLED <;>
        rcases hstate with rfl | rfl | rfl <;> simp [hfilled]
    have hfilledNext : stateAfterFill fill state = .FILLED_PENDING_SETTLEMENT ↔
        state = .FILLED_PENDING_SETTLEMENT ∨ fill.status = .FILLED := by
      unfold stateAfterFill stateAfterSubmit
      by_cases hfilled : fill.status = .FILLED <;>
        rcases hstate with rfl | rfl | rfl <;> simp [hfilled]
    rw [ih htail (.inr hnext) hpasses, hfilledNext, ← hhead, exists_mem_cons_iff, or_assoc]

structure AllSettle (deps : OrchestratorDeps) (request : ExecutionRequestV0)
    (services : ServiceAnswers) (entries : List (ExecutionLegV0 × LegAnswers)) : Prop where
  started : entries ≠ [] → Started deps request services
  verified : ∀ entry ∈ entries, verifies deps request entry.1 entry.2 = true
  /-- The loop goes on past every leg but the last. -/
  audited : ∀ entry ∈ entries.dropLast, (entry.2.audit .SETTLEMENT_VERIFIED).isOk

/-- What completes an execution whose legs are verified: some fill was reported, and every write
is answered. -/
structure Completes (deps : OrchestratorDeps) (request : ExecutionRequestV0)
    (services : ServiceAnswers) (entries : List (ExecutionLegV0 × LegAnswers)) : Prop where
  started : Started deps request services
  audited : ∀ entry ∈ entries, (entry.2.audit .SETTLEMENT_VERIFIED).isOk
  filled : ∃ entry ∈ entries, filled entry.2
  monetized : Monetized deps request services (entries.map (legAfter deps request))
    (entries.map (evidenceAfter deps request))
  positions : deps.positions = true →
    ∀ w ∈ deltaWrites request services (entries.map (legAfter deps request)), w.2 = .done
  receipt : ReceiptAudited services

/-- The loop leaves every leg verified when its answers do and every leg but the last is passed. -/
theorem statusesAfter_verified {state : ExecutionStateV0} (hpending : Pending entries) :
    (∀ status ∈ statusesAfter deps request state entries, status = .SETTLEMENT_VERIFIED) ↔
      (∀ entry ∈ entries, verifies deps request entry.1 entry.2 = true) ∧
        ∀ entry ∈ entries.dropLast, (entry.2.audit .SETTLEMENT_VERIFIED).isOk := by
  induction entries generalizing state with
  | nil => simp [statusesAfter]
  | cons head entries ih =>
    obtain ⟨leg, answers⟩ := head
    obtain ⟨hleg, hlegs⟩ := forall_mem_cons.mp hpending
    have hhead : statusAfter deps request leg answers = .SETTLEMENT_VERIFIED ↔
        verifies deps request leg answers = true := statusAfter_verified hleg
    rw [statusesAfter, forall_mem_cons, forall_mem_cons, hhead, and_assoc]
    refine and_congr_right fun hverifies => ?_
    cases hpass : legPasses deps request leg answers state with
    | some next =>
      have haudit := audited_of_legPasses hverifies hpass
      rw [ih hlegs]
      cases entries with
      | nil => simp
      | cons next entries => simp [haudit]
    | none =>
      -- the verification of this leg is not audited, so the legs after it stay as they are
      have hno : ¬ (answers.audit .SETTLEMENT_VERIFIED).isOk := by
        intro haudit
        obtain ⟨check, -, hpass'⟩ := legPasses_of_verifies hverifies haudit
        rw [hpass] at hpass'
        cases hpass'
      cases entries with
      | nil => simp
      | cons next entries =>
        simp [hno, (forall_mem_cons.mp hlegs).1]

/-- Where nothing is written and nothing completes, the legs must not all be verified. -/
theorem completesSettled_unwritten {ending : Except ExecutionError ExecutionResultV0}
    (hledger : run.ledger = []) (hpositions : run.positions = []) (hno : ¬ Completed ending) :
    CompletesSettled (ending, run) ↔
      ¬ ∀ status ∈ run.legs.map (·.settlementStatus), status = .SETTLEMENT_VERIFIED := by
  rw [forall_mem_map]
  exact ⟨fun h hall => hno (h.2 hall), fun h => ⟨fun _ => ⟨hledger, hpositions⟩, fun hall =>
    absurd hall h⟩⟩

variable {uuid : ℕ → String} {legAnswers : ℕ → LegAnswers}

/-- **The executions that complete when they are settled.** Once every leg is verified, some fill
must have been reported, and what follows must be answered. -/
theorem completesSettled_iff :
    CompletesSettled (Execution.run deps request services uuid legAnswers) ↔
      (AllSettle deps request services (answeredLegs request uuid legAnswers) →
        Completes deps request services (answeredLegs request uuid legAnswers)) := by
  have hpending : Pending (answeredLegs request uuid legAnswers) := answeredLegs_pending
  have hcases : RunCases deps request services (answeredLegs request uuid legAnswers)
      (Execution.run deps request services uuid legAnswers) := run_cases
  revert hcases hpending
  generalize answeredLegs request uuid legAnswers = entries
  generalize Execution.run deps request services uuid legAnswers = outcome
  intro hpending hcases
  cases hcases with
  | notStarted hstarted hlegs hledger hpositions hcompleted =>
    rw [completesSettled_unwritten hledger hpositions hcompleted, hlegs, map_map]
    constructor
    · intro hno hall
      -- without legs there is nothing to verify
      have hnone : entries = [] := by
        by_contra hne
        exact hstarted (hall.started hne)
      subst hnone
      exact absurd (fun status h => by cases h) hno
    · intro hcompletes hverified
      have hnone : entries = [] := by
        cases entries with
        | nil => rfl
        | cons head entries =>
          have hhead := hverified _ (mem_map_of_mem mem_cons_self)
          rw [Function.comp_apply, hpending head mem_cons_self] at hhead
          cases hhead
      subst hnone
      refine hstarted (hcompletes ⟨fun hne => absurd rfl hne, ?_, ?_⟩).started <;>
        exact fun entry hentry => absurd hentry not_mem_nil
  | failed hstarted hunsettled hstatuses hledger hpositions hcompleted =>
    rw [completesSettled_unwritten hledger hpositions hcompleted, hstatuses,
      statusesAfter_verified hpending]
    constructor
    · intro hno hall
      exact absurd ⟨hall.verified, hall.audited⟩ hno
    · rintro hcompletes ⟨hverified, haudited⟩
      have hall := hcompletes ⟨fun _ => hstarted, hverified, haudited⟩
      have hverifiedAll : AllLegsVerified deps request entries :=
        fun entry hentry => ⟨hverified entry hentry, hall.audited entry hentry⟩
      obtain ⟨final, hpasses⟩ := loopPasses_of_allLegsVerified hverifiedAll
      obtain ⟨⟨leg, answers⟩, hentry, hno⟩ := hunsettled final hpasses
      rw [(legAfter_settled (hpending _ hentry)).mpr (hverified _ hentry)] at hno
      cases hno
  | settled hstarted hpasses hsettled hlegs hstate hevidence hledger hpositions =>
    rename_i final run
    have hall := allLegsVerified_of_settled hpending hpasses hsettled
    have hfilled := loopPasses_filled hall (.inl rfl) hpasses
    have hlegs' := (complete_positions deps request services hevidence).1
    have hopen : run.state ≠ .SETTLEMENT_VERIFIED := by
      rw [hstate]
      rcases between_loopPasses (.inl rfl) hpasses with h | h | h | h <;> rw [h] <;> decide
    have hcompleted : Completed (go (complete deps request services) run).1 ↔ _ :=
      complete_completed hevidence hopen
    have hall' : AllSettle deps request services entries :=
      ⟨fun _ => hstarted, fun entry hentry => (hall entry hentry).1,
        fun entry hentry => (hall entry (dropLast_subset _ hentry)).2⟩
    have hverified : ∀ leg ∈ (go (complete deps request services) run).2.legs,
        leg.settlementStatus = .SETTLEMENT_VERIFIED := by
      rw [hlegs', hlegs]
      intro leg hleg
      obtain ⟨entry, hentry, rfl⟩ := mem_map.mp hleg
      exact of_decide_eq_true (hsettled entry hentry)
    rw [hlegs, hstate, hfilled] at hcompleted
    constructor
    · intro h _
      obtain ⟨hmonetized, hdeltas, hreceipt, hfill⟩ := hcompleted.mp (h.2 hverified)
      exact ⟨hstarted, fun entry hentry => (hall entry hentry).2, hfill.resolve_left (by decide),
        hmonetized, hdeltas, hreceipt⟩
    · intro h
      have hgood := h hall'
      have hdone := hcompleted.mpr
        ⟨hgood.monetized, hgood.positions, hgood.receipt, .inr hgood.filled⟩
      refine ⟨fun hillegal => ?_, fun _ => hdone⟩
      obtain ⟨result, hresult, -⟩ := hdone
      obtain ⟨_, _, herror⟩ := hillegal
      rw [hresult] at herror
      cases herror

/-- One leg, settled while its order is reported open. -/
def singleVenueRequest : ExecutionRequestV0 :=
  { twoVenueRequest with venuePath := ["LIMITLESS"] }

def openOrderRun : Except ExecutionError ExecutionResultV0 × ExecutionRun :=
  Execution.run plainDeps singleVenueRequest answeringServices (fun _ => "uuid")
    fun _ => submittedAnswers .OPEN .SETTLEMENT_VERIFIED

/-- The position is written, and then completing the execution is an illegal transition. -/
theorem settled_not_filled : ¬ CompletesSettled openOrderRun := by
  have hillegal : IllegalTransition openOrderRun.1 := ⟨.SUBMITTED, .COMPLETED, rfl⟩
  have hwritten : openOrderRun.2.positions.length = 1 := by decide +kernel
  intro h
  rw [(h.1 hillegal).2] at hwritten
  cases hwritten

end LotusRfq.Execution
