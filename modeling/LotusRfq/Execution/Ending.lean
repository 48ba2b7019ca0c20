import LotusRfq.Execution.Phases

/-!
# LotusRfq — how an execution ends

A whole call of `execute` ends in one of three ways: before its first leg, in the loop or after
a leg that is not settled, or with the writes of an execution whose legs are all settled. Only
the last one writes to the ledger or to the positions (`run_cases`).
-/

namespace LotusRfq.Execution

open Attempts List

/-! ## What the answers come to -/

def noLegVerified (deps : OrchestratorDeps) (request : ExecutionRequestV0) :
    ExecutionStateV0 → List (ExecutionLegV0 × LegAnswers) → Prop
  | _, [] => True
  | state, (leg, answers) :: legs =>
    verifies deps request leg answers = false ∧
      ∀ next, legPasses deps request leg answers state = some next →
        noLegVerified deps request next legs

def AllLegsVerified (deps : OrchestratorDeps) (request : ExecutionRequestV0)
    (legs : List (ExecutionLegV0 × LegAnswers)) : Prop :=
  ∀ entry ∈ legs, verifies deps request entry.1 entry.2 = true ∧
    (entry.2.audit .SETTLEMENT_VERIFIED).isOk

variable {deps : OrchestratorDeps} {request : ExecutionRequestV0} {services : ServiceAnswers}
  {leg : ExecutionLegV0} {answers : LegAnswers} {legs : List (ExecutionLegV0 × LegAnswers)}
  {state : ExecutionStateV0}

theorem statusAfter_verified (hpending : leg.settlementStatus = .SETTLEMENT_PENDING) :
    statusAfter deps request leg answers = .SETTLEMENT_VERIFIED ↔
      verifies deps request leg answers = true := by
  unfold statusAfter verifies
  cases legCheck deps request leg answers with
  | none => simp [hpending]
  | some check => exact decide_eq_true_iff.symm

def Pending (legs : List (ExecutionLegV0 × LegAnswers)) : Prop :=
  ∀ entry ∈ legs, entry.1.settlementStatus = .SETTLEMENT_PENDING

theorem noLegVerified_iff (hpending : Pending legs) : noLegVerified deps request state legs ↔
      .SETTLEMENT_VERIFIED ∉ statusesAfter deps request state legs := by
  induction legs generalizing state with
  | nil => simp [noLegVerified, statusesAfter]
  | cons entry legs ih =>
    obtain ⟨leg, answers⟩ := entry
    obtain ⟨hleg, hlegs⟩ := forall_mem_cons.mp hpending
    have hhead : statusAfter deps request leg answers = .SETTLEMENT_VERIFIED ↔
        verifies deps request leg answers = true := statusAfter_verified hleg
    rw [noLegVerified, statusesAfter, mem_cons, not_or, ← Bool.not_eq_true, ← hhead]
    refine and_congr ⟨fun h h' => h h'.symm, fun h h' => h h'.symm⟩ ?_
    cases legPasses deps request leg answers state with
    | some next => simp [ih hlegs]
    | none =>
      simp only [reduceCtorEq, false_imp_iff, implies_true, true_iff, mem_map, not_exists, not_and]
      intro later hlater hverified
      rw [hlegs later hlater] at hverified
      cases hverified

theorem legAfter_settled (hpending : leg.settlementStatus = .SETTLEMENT_PENDING) :
    (legAfter deps request (leg, answers)).settled = true ↔
      verifies deps request leg answers = true := by
  rw [← statusAfter_verified hpending]
  unfold legAfter statusAfter ExecutionLegV0.settled
  cases legCheck deps request leg answers with
  | none => exact decide_eq_true_iff
  | some check => exact decide_eq_true_iff

theorem legPasses_of_verifies (hverifies : verifies deps request leg answers = true)
    (haudit : (answers.audit .SETTLEMENT_VERIFIED).isOk) :
    ∃ check, legCheck deps request leg answers = some check ∧
      legPasses deps request leg answers state = some (stateAfterFill check.fill state) := by
  unfold verifies at hverifies
  cases hcheck : legCheck deps request leg answers with
  | none => rw [hcheck] at hverifies; cases hverifies
  | some check =>
    rw [hcheck, Option.any_some, decide_eq_true_eq] at hverifies
    refine ⟨check, rfl, ?_⟩
    rw [legPasses, hcheck, Option.bind_some, LegCheck.passes, hverifies, if_pos haudit]

theorem audited_of_legPasses {next : ExecutionStateV0}
    (hverifies : verifies deps request leg answers = true)
    (hpasses : legPasses deps request leg answers state = some next) :
    (answers.audit .SETTLEMENT_VERIFIED).isOk := by
  unfold verifies at hverifies
  obtain ⟨check, hcheck, hpass⟩ := Option.bind_eq_some_iff.mp hpasses
  rw [hcheck, Option.any_some, decide_eq_true_eq] at hverifies
  rw [LegCheck.passes, hverifies] at hpass
  by_contra hno
  rw [if_neg hno] at hpass
  cases hpass

/-! ## A whole call -/

/-- How a call of `execute` ends. -/
inductive RunCases (deps : OrchestratorDeps) (request : ExecutionRequestV0)
    (services : ServiceAnswers) (legs : List (ExecutionLegV0 × LegAnswers)) :
    Except ExecutionError ExecutionResultV0 × ExecutionRun → Prop where
  | notStarted {ending run} (hstarted : ¬ Started deps request services)
      (hlegs : run.legs = legs.map (·.1)) (hledger : run.ledger = [])
      (hpositions : run.positions = []) (hcompleted : ¬ Completed ending) :
      RunCases deps request services legs (ending, run)
  | failed {ending run} (hstarted : Started deps request services)
      (hunsettled : ∀ final, loopPasses deps request .READY_TO_SUBMIT legs = some final →
        ∃ entry ∈ legs, (legAfter deps request entry).settled = false)
      (hstatuses : run.legs.map (·.settlementStatus) =
        statusesAfter deps request .READY_TO_SUBMIT legs)
      (hledger : run.ledger = []) (hpositions : run.positions = [])
      (hcompleted : ¬ Completed ending) :
      RunCases deps request services legs (ending, run)
  | settled {final run} (hstarted : Started deps request services)
      (hpasses : loopPasses deps request .READY_TO_SUBMIT legs = some final)
      (hsettled : ∀ entry ∈ legs, (legAfter deps request entry).settled = true)
      (hlegs : run.legs = legs.map (legAfter deps request)) (hstate : run.state = final)
      (hevidence : run.settlementEvidenceByLegId = legs.map (evidenceAfter deps request))
      (hledger : run.ledger = []) (hpositions : run.positions = []) :
      RunCases deps request services legs (go (complete deps request services) run)

theorem finish_not_completed {run : ExecutionRun} (hopen : run.state ≠ .COMPLETED) :
    ¬ Completed (.ok (finish run)) := by
  rintro ⟨result, h, hcompleted⟩
  cases h
  exact hopen hcompleted

theorem error_not_completed {error : ExecutionError} : ¬ Completed (.error error) := by
  rintro ⟨result, h, -⟩
  cases h

theorem execute_cases {start : ExecutionRun} (hlegs : start.legs = legs.map (·.1))
    (hstate : start.state = .CREATED) (hevidence : start.settlementEvidenceByLegId = [])
    (hledger : start.ledger = []) (hpositions : start.positions = []) :
    RunCases deps request services legs (go (execute deps request services legs) start) := by
  have hkept : Unwritten start (go (preflightPhase deps request services) start).2 :=
    unwritten_preflightPhase start ⟨⟨rfl, rfl, rfl⟩, by rw [hstate]; decide⟩
  unfold execute
  by_cases hstarted : Started deps request services
  · obtain ⟨run₁, hgo₁, hbooks₁, hstate₁, hevidence₁⟩ := preflightPhase_next hstate hstarted
    rw [go_bind_ok hgo₁]
    show RunCases deps request services legs (go (legsPhase deps request services legs) run₁)
    unfold legsPhase
    have hlegs₁ : run₁.legs = [] ++ legs.map (·.1) := hbooks₁.legs.trans hlegs
    have hbetween : Between run₁.state := .inl hstate₁
    obtain ⟨hstatuses, hledger₂, hpositions₂, hopen₂⟩ :=
      handleLegs_elim deps request hlegs₁ hbetween
    rw [map_nil, nil_append, hstate₁] at hstatuses
    rw [hbooks₁.ledger, hledger] at hledger₂
    rw [hbooks₁.positions, hpositions] at hpositions₂
    cases hpasses : loopPasses deps request run₁.state legs with
    | none =>
      have hne := handleLegs_ne_next hlegs₁ hbetween hpasses
      rw [hstate₁] at hpasses
      have hunsettled : ∀ final, loopPasses deps request .READY_TO_SUBMIT legs = some final →
          ∃ entry ∈ legs, (legAfter deps request entry).settled = false := by
        intro final h
        rw [hpasses] at h
        cases h
      rw [length_nil] at hstatuses hledger₂ hpositions₂ hopen₂ hne
      rcases hgo₂ : go (handleLegs deps request 0 legs) run₁ with ⟨error | ending, run₂⟩
      · rw [hgo₂] at hstatuses hledger₂ hpositions₂
        rw [go_bind_error hgo₂]
        exact .failed hstarted hunsettled hstatuses hledger₂ hpositions₂ error_not_completed
      · rw [hgo₂] at hstatuses hledger₂ hpositions₂ hopen₂ hne
        rw [go_bind_ok hgo₂]
        cases ending with
        | next => exact absurd rfl hne
        | finish =>
          exact .failed hstarted hunsettled hstatuses hledger₂ hpositions₂
            (finish_not_completed hopen₂)
    | some final =>
      obtain ⟨run₂, hgo₂, hlegs₂, hstate₂, hevidence₂, -, -⟩ :=
        handleLegs_passes hlegs₁ hbetween hpasses
      rw [hgo₂] at hstatuses hledger₂ hpositions₂ hopen₂
      rw [length_nil] at hgo₂
      rw [go_bind_ok hgo₂]
      rw [hstate₁] at hpasses
      rw [hevidence₁, hevidence, nil_append] at hevidence₂
      rw [nil_append] at hlegs₂
      show RunCases deps request services legs (go (afterLegs deps request services) run₂)
      rw [afterLegs, go_bind_ok go_get, go_ite]
      by_cases hall : run₂.legs.all (·.settled) = true
      · rw [if_pos hall]
        refine .settled hstarted hpasses ?_ hlegs₂ hstate₂ hevidence₂ hledger₂ hpositions₂
        rw [hlegs₂, all_map, all_eq_true] at hall
        exact hall
      · rw [if_neg hall]
        have hleft : Unwritten run₂ (go (failUnsettled services) run₂).2 :=
          unwritten_failUnsettled run₂ ⟨⟨rfl, rfl, rfl⟩, hopen₂⟩
        refine .failed hstarted (fun _ _ => ?_) (hleft.1.legs ▸ hstatuses)
          (hleft.1.ledger.trans hledger₂) (hleft.1.positions.trans hpositions₂)
          (failUnsettled_not_completed hopen₂)
        rw [hlegs₂, all_map, Bool.not_eq_true, all_eq_false] at hall
        obtain ⟨entry, hentry, hno⟩ := hall
        exact ⟨entry, hentry, by simpa using hno⟩
  · rcases hgo : go (preflightPhase deps request services) start with ⟨error | ending, run₁⟩
    · rw [hgo] at hkept
      rw [go_bind_error hgo]
      exact .notStarted hstarted (hkept.1.legs.trans hlegs) (hkept.1.ledger.trans hledger)
        (hkept.1.positions.trans hpositions) error_not_completed
    · rw [hgo] at hkept
      rw [go_bind_ok hgo]
      cases ending with
      | next => exact absurd (started_of_next (congrArg Prod.fst hgo)) hstarted
      | finish =>
        exact .notStarted hstarted (hkept.1.legs.trans hlegs) (hkept.1.ledger.trans hledger)
          (hkept.1.positions.trans hpositions) (finish_not_completed hkept.2)

variable {uuid : ℕ → String} {legAnswers : ℕ → LegAnswers}

theorem answeredLegs_legs :
    (answeredLegs request uuid legAnswers).map (·.1) = buildLegs uuid request := by
  simp [answeredLegs, Function.comp_def, zipIdx_map_fst]

theorem answeredLegs_pending : Pending (answeredLegs request uuid legAnswers) := by
  intro entry hentry
  have hleg : entry.1 ∈ buildLegs uuid request := answeredLegs_legs ▸ mem_map_of_mem hentry
  exact (buildLegs_fresh hleg).2.1

theorem run_cases : RunCases deps request services (answeredLegs request uuid legAnswers)
    (run deps request services uuid legAnswers) :=
  execute_cases answeredLegs_legs.symm rfl rfl rfl rfl

end LotusRfq.Execution
