import LotusRfq.Execution.Ending

/-!
# LotusRfq — position deltas of verified legs

A leg whose settlement is verified has changed hands at its venue, and the position of the user
follows by the leg's delta. The deltas are only applied after the last leg, and only when all the
legs are verified: what ends the execution before leaves the verified legs without.

* **`verifiedApplied_iff`** — the executions in which every verified leg has its delta applied once;
* **`verified_not_applied`** — a verified leg followed by a venue that cannot be reached.
-/

namespace LotusRfq.Execution

open Attempts Tables List

/-- Every verified leg has its delta applied, and no other delta under its id. -/
def AppliedOnce (request : ExecutionRequestV0) (run : ExecutionRun) : Prop :=
  ∀ leg ∈ run.legs, leg.settlementStatus = .SETTLEMENT_VERIFIED →
    run.positions.filter (·.executionLegId = leg.executionLegId) = [positionDelta request leg]

/-- The deltas of these legs are all applied: a repository is wired, the writes before them are
answered, and only the reply to the last of them may be lost. -/
structure DeltasLand (deps : OrchestratorDeps) (request : ExecutionRequestV0)
    (services : ServiceAnswers) (legs : List ExecutionLegV0)
    (evidence : List (ExecutionLegId × JsRecord)) : Prop where
  wired : deps.positions = true
  monetized : Monetized deps request services legs evidence
  answered : ∀ w ∈ (deltaWrites request services legs).dropLast, w.2 = .done
  landed : ∀ w ∈ (deltaWrites request services legs).getLast?, w.2.landed

variable {deps : OrchestratorDeps} {request : ExecutionRequestV0} {services : ServiceAnswers}
  {legs : List ExecutionLegV0} {run : ExecutionRun}

/-! ## The deltas of a run -/

theorem deltaWrites_deltas (hsettled : ∀ leg ∈ legs, leg.settled = true) :
    (deltaWrites request services legs).map (·.1) = legs.map (positionDelta request) := by
  rw [deltaWrites, filter_eq_self.mpr hsettled, map_map]
  have hfst : legs.zipIdx.map Prod.fst = legs := zipIdx_map_fst 0 legs
  conv_rhs => rw [← hfst, map_map]
  rfl

/-- When all the legs are settled, each has its delta once exactly when all of them landed. -/
theorem appliedOnce_settled (hids : (legs.map (·.executionLegId)).Nodup)
    (hsettled : ∀ leg ∈ legs, leg.settled = true) (hlegs : run.legs = legs)
    (hpositions : run.positions = landed (deltaWrites request services legs)) :
    AppliedOnce request run ↔ landed (deltaWrites request services legs) =
        (deltaWrites request services legs).map (·.1) := by
  have hdeltas : (deltaWrites request services legs).map (·.1) =
      legs.map (positionDelta request) := deltaWrites_deltas hsettled
  have hkeys : ((legs.map (positionDelta request)).map (·.executionLegId)).Nodup := by
    rw [map_map]
    exact hids
  unfold AppliedOnce
  rw [hlegs, hpositions]
  constructor
  · intro happlied
    rw [hdeltas]
    refine eq_of_keys_of_isPrefix hkeys (hdeltas ▸ landed_isPrefix) fun delta hdelta => ?_
    obtain ⟨leg, hleg, rfl⟩ := mem_map.mp hdelta
    have hone := happlied leg hleg (of_decide_eq_true (hsettled leg hleg))
    have hmem : positionDelta request leg ∈ (landed (deltaWrites request services legs)).filter
        (·.executionLegId = leg.executionLegId) := by
      rw [hone]
      exact mem_singleton_self _
    exact mem_map_of_mem (mem_filter.mp hmem).1
  · intro hall leg hleg _
    rw [hall, hdeltas]
    exact filter_key_eq (fun delta : PositionDelta => delta.executionLegId) hkeys
      (mem_map_of_mem hleg)

variable {uuid : ℕ → String} {legAnswers : ℕ → LegAnswers}
  {entries : List (ExecutionLegV0 × LegAnswers)}

theorem legAfter_id (entry : ExecutionLegV0 × LegAnswers) :
    (legAfter deps request entry).executionLegId = entry.1.executionLegId := by
  unfold legAfter
  cases hcheck : legCheck deps request entry.1 entry.2 with
  | none => rfl
  | some check =>
    obtain ⟨_, _, _, _, _, _, -, -, -, -, -, -, -, -, rfl⟩ := legCheck_eq_some hcheck
    rfl

theorem allLegsVerified_of_settled {state final : ExecutionStateV0} (hpending : Pending entries)
    (hpasses : loopPasses deps request state entries = some final)
    (hsettled : ∀ entry ∈ entries, (legAfter deps request entry).settled = true) :
    AllLegsVerified deps request entries := by
  induction entries generalizing state with
  | nil => intro entry hentry; cases hentry
  | cons head entries ih =>
    obtain ⟨leg, answers⟩ := head
    obtain ⟨hleg, hlegs⟩ := forall_mem_cons.mp hpending
    obtain ⟨hhead, htail⟩ := forall_mem_cons.mp hsettled
    rw [loopPasses] at hpasses
    split at hpasses
    next next hpass =>
      have hverifies := (legAfter_settled hleg).mp hhead
      exact forall_mem_cons.mpr
        ⟨⟨hverifies, audited_of_legPasses hverifies hpass⟩, ih hlegs hpasses htail⟩
    next => cases hpasses

theorem loopPasses_of_allLegsVerified {state : ExecutionStateV0}
    (hall : AllLegsVerified deps request entries) :
    ∃ final, loopPasses deps request state entries = some final := by
  induction entries generalizing state with
  | nil => exact ⟨state, rfl⟩
  | cons head entries ih =>
    obtain ⟨leg, answers⟩ := head
    obtain ⟨⟨hverifies, haudit⟩, htail⟩ := forall_mem_cons.mp hall
    obtain ⟨check, -, hpass⟩ := legPasses_of_verifies hverifies haudit
    rw [loopPasses, hpass]
    exact ih htail

theorem appliedOnce_without (hpositions : run.positions = []) :
    AppliedOnce request run ↔ .SETTLEMENT_VERIFIED ∉ run.legs.map (·.settlementStatus) := by
  unfold AppliedOnce
  rw [hpositions]
  simp

theorem appliedOnce_complete {evidence : List (ExecutionLegId × JsRecord)} (hne : legs ≠ [])
    (hids : (legs.map (·.executionLegId)).Nodup) (hsettled : ∀ leg ∈ legs, leg.settled = true)
    (hlegs : run.legs = legs) (hevidence : run.settlementEvidenceByLegId = evidence)
    (hpositions : run.positions = []) :
    AppliedOnce request (go (complete deps request services) run).2 ↔
      DeltasLand deps request services legs evidence := by
  obtain ⟨hlegs', hmonetized, hnot⟩ := complete_positions deps request services hevidence
  rw [hlegs] at hlegs' hmonetized hnot
  rw [hpositions, nil_append] at hmonetized
  by_cases hlands : deps.positions = true ∧ Monetized deps request services legs evidence
  · have hpositions' := hmonetized hlands.2
    rw [if_pos hlands.1] at hpositions'
    rw [appliedOnce_settled hids hsettled hlegs' hpositions', landed_eq_iff]
    exact ⟨fun h => ⟨hlands.1, hlands.2, h.1, h.2⟩, fun h => ⟨h.answered, h.landed⟩⟩
  · have hnone : (go (complete deps request services) run).2.positions = [] := by
      by_cases h : Monetized deps request services legs evidence
      · rw [hmonetized h, if_neg fun hwired => hlands ⟨hwired, h⟩]
      · rw [hnot h, hpositions]
    rw [appliedOnce_without hnone, hlegs']
    constructor
    · intro hno
      obtain ⟨leg, hleg⟩ := exists_mem_of_ne_nil legs hne
      exact absurd (mem_map.mpr ⟨leg, hleg, of_decide_eq_true (hsettled leg hleg)⟩) hno
    · intro h
      exact absurd ⟨h.wired, h.monetized⟩ hlands

/-- **The executions whose verified legs have their deltas.** Either no leg the loop comes to is
verified, or every leg is, and the deltas of all of them land. -/
theorem verifiedApplied_iff :
    AppliedOnce request (Execution.run deps request services uuid legAnswers).2 ↔
      (Started deps request services →
        noLegVerified deps request .READY_TO_SUBMIT (answeredLegs request uuid legAnswers)) ∨
      (AllLegsVerified deps request (answeredLegs request uuid legAnswers) ∧
        DeltasLand deps request services
          ((answeredLegs request uuid legAnswers).map (legAfter deps request))
          ((answeredLegs request uuid legAnswers).map (evidenceAfter deps request))) := by
  have hpending : Pending (answeredLegs request uuid legAnswers) := answeredLegs_pending
  have hids : ((answeredLegs request uuid legAnswers).map (·.1.executionLegId)).Nodup := by
    have hlegs : ((buildLegs uuid request).map (·.executionLegId)).Nodup := buildLegs_ids
    have hmap : (answeredLegs request uuid legAnswers).map (·.1) = buildLegs uuid request :=
      answeredLegs_legs
    rwa [← hmap, map_map] at hlegs
  have hcases : RunCases deps request services (answeredLegs request uuid legAnswers)
      (Execution.run deps request services uuid legAnswers) := run_cases
  revert hcases hids hpending
  generalize answeredLegs request uuid legAnswers = entries
  generalize Execution.run deps request services uuid legAnswers = outcome
  intro hpending hids hcases
  cases hcases with
  | notStarted hstarted hlegs hledger hpositions hcompleted =>
    rw [appliedOnce_without hpositions, hlegs]
    refine ⟨fun _ => .inl fun h => absurd h hstarted, fun _ hverified => ?_⟩
    rw [map_map] at hverified
    obtain ⟨entry, hentry, hstatus⟩ := mem_map.mp hverified
    rw [Function.comp_apply, hpending entry hentry] at hstatus
    cases hstatus
  | failed hstarted hunsettled hstatuses hledger hpositions hcompleted =>
    rw [appliedOnce_without hpositions, hstatuses, ← noLegVerified_iff hpending]
    refine ⟨fun h => .inl fun _ => h, ?_⟩
    rintro (hnone | ⟨hall, -⟩)
    · exact hnone hstarted
    · -- were all the legs verified, the loop would have got through with every leg settled
      obtain ⟨final, hpasses⟩ := loopPasses_of_allLegsVerified hall
      obtain ⟨⟨leg, answers⟩, hentry, hno⟩ := hunsettled final hpasses
      rw [(legAfter_settled (hpending _ hentry)).mpr (hall _ hentry).1] at hno
      cases hno
  | settled hstarted hpasses hsettled hlegs hstate hevidence hledger hpositions =>
    have hall := allLegsVerified_of_settled hpending hpasses hsettled
    cases entries with
    | nil =>
      obtain ⟨hlegs', -⟩ := complete_positions deps request services hevidence
      refine ⟨fun _ => .inl fun _ => trivial, fun _ leg hleg => ?_⟩
      rw [hlegs', hlegs] at hleg
      cases hleg
    | cons head entries =>
      have hids' : (((head :: entries).map (legAfter deps request)).map
          (·.executionLegId)).Nodup := by
        rw [map_map]
        simpa only [Function.comp_def, legAfter_id] using hids
      have hsettled' : ∀ leg ∈ (head :: entries).map (legAfter deps request),
          leg.settled = true := by
        intro leg hleg
        obtain ⟨entry, hentry, rfl⟩ := mem_map.mp hleg
        exact hsettled entry hentry
      rw [appliedOnce_complete (by simp) hids' hsettled' hlegs hevidence hpositions]
      refine ⟨fun h => .inr ⟨hall, h⟩, ?_⟩
      rintro (hnone | ⟨-, h⟩)
      · have hhead := (hnone hstarted).1
        rw [(hall head mem_cons_self).1] at hhead
        cases hhead
      · exact h

/-! ## A venue that cannot be reached -/

instance : Decidable (AppliedOnce request run) := by
  unfold AppliedOnce
  infer_instance

def twoVenueRequest : ExecutionRequestV0 :=
  { executionId := "execution-1"
    rfqId := "rfq-1"
    userId := "user-1"
    canonicalTopicKey := "CRYPTO|ATH_BY_DATE|BTC"
    canonicalOutcomeId := none
    candidateId := some "2026-05-31"
    side := .buy
    size := 1
    selectedLaneId := "lane-1"
    venuePath := ["LIMITLESS", "POLYMARKET"]
    fastLaneEnabled := false
    ghostFillProtectionEnabled := true
    expectedPrice := 1 / 2
    fallbackLaneId := none
    metadata := [] }

def plainDeps : OrchestratorDeps :=
  { fees :=
      { priceImprovementShare := none
        fastLaneFee := none
        ghostFillProtectionFee := none
        futureSettlementFee := 0
        policy := none }
    monetization := none
    maxAttempts := some 1
    timeoutMs := 100
    positions := true }

def answeringServices : ServiceAnswers :=
  { preflight := .ok none
    upsertPolicy := .done
    createLedgerEntry := fun _ => .done
    applySettlementDelta := fun _ => .done
    audit := fun _ => .ok "audit-id" }

def submittedAnswers (fill : FillStatus) (settlement : SettlementStatusV0) : LegAnswers :=
  { prepareOrder := .ok ()
    submitOrder := .ok
      { venueOrderId := "order-1"
        fillId := some "fill-1"
        status := if fill = .FILLED then .FILLED else .SUBMITTED }
    fetchFillState := .ok { status := fill, offchainFilled := false }
    fetchSettlementState := [.ok { status := settlement, evidence := [] }]
    fallbackLane := .ok none
    audit := fun _ => .ok "audit-id"
    failedClosed := .ok "audit-id"
    normalizeVenueError := fun _ => "VENUE_ERROR" }

/-- The first leg settles, the venue of the second does not take the order. -/
def secondVenueFails : ℕ → LegAnswers
  | 0 => submittedAnswers .FILLED .SETTLEMENT_VERIFIED
  | _ => { submittedAnswers .FILLED .SETTLEMENT_VERIFIED with
      submitOrder := .error (.service "venue unavailable") }

/-- The verified leg is left without its delta. -/
theorem verified_not_applied :
    ¬ AppliedOnce twoVenueRequest (Execution.run plainDeps twoVenueRequest answeringServices
      (fun _ => "uuid") secondVenueFails).2 := by
  decide +kernel

end LotusRfq.Execution
