import LotusRfq.Funding.WithdrawalOperations
import LotusRfq.Lib.Evidence

/-!
# LotusRfq — what a re-quote forgets

A recorded transaction hash is the evidence that money moved. Every operation but a quote keeps
the legs and adds to their hashes and records; a quote deletes the legs of its intent, whatever
was recorded on them.

* **`quoteIntent_remembers_iff`**, **`quoteWithdrawalIntent_remembers_iff`** — when a quote forgets
  nothing;
* **`nothingForgotten_iff`** — and when a sequence of operations does not.
-/

namespace LotusRfq.Funding

open Attempts Tables Transitions Evidence

/-! ## Both sides of the service -/

structure FundingServiceState where
  funding : FundingSystem
  withdrawals : WithdrawalTables

inductive FundingServiceAction where
  | funding (action : FundingAction) (answers : FundingAnswers)
  | withdrawal (action : WithdrawalAction) (answers : WithdrawalAnswers)

def fundingServiceStep (config : FundingConfig) (withdrawalConfig : WithdrawalConfig)
    (s : FundingServiceState) : FundingServiceAction → Option FundingServiceState
  | .funding action answers =>
    some { s with funding := (go (action.code config answers) s.funding).2 }
  | .withdrawal action answers =>
    some { s with withdrawals :=
      (go (action.code withdrawalConfig answers) ⟨s.funding.tables, s.withdrawals⟩).2.tables }

/-- The legs with a recorded hash, and the records about them. -/
def FundingRemembers (tables tables' : FundingTables) : Prop :=
  Remembers FundingRouteLeg.routeLegId FundingRouteLeg.txHashes
    FundingReconciliationRecord.routeLegId tables.routeLegs tables.reconciliations
    tables'.routeLegs tables'.reconciliations

def WithdrawalsRemember (tables tables' : WithdrawalTables) : Prop :=
  Remembers WithdrawalRouteLeg.withdrawalRouteLegId WithdrawalRouteLeg.txHashes
    WithdrawalReconciliationRecord.withdrawalRouteLegId tables.routeLegs tables.reconciliations
    tables'.routeLegs tables'.reconciliations

/-- No recorded hash and no record about its leg is gone. -/
def NothingForgotten (s t : FundingServiceState) : Prop :=
  FundingRemembers s.funding.tables t.funding.tables ∧
    WithdrawalsRemember s.withdrawals t.withdrawals

theorem NothingForgotten.trans {s t u : FundingServiceState} (h : NothingForgotten s t)
    (h' : NothingForgotten t u) : NothingForgotten s u :=
  ⟨h.1.trans h'.1, h.2.trans h'.2⟩

def DistinctLegIds (s : FundingServiceState) : Prop :=
  (s.funding.tables.routeLegs.map (·.routeLegId)).Nodup ∧
    (s.withdrawals.routeLegs.map (·.withdrawalRouteLegId)).Nodup

/-! ## Operations that extend -/

theorem fundingRemembers_of_extends {s t : FundingSystem} (h : Extends s t) :
    FundingRemembers s.tables t.tables :=
  .of_grown (h.routeLegs.imp fun _ _ hgrown => ⟨hgrown.routeLegId, hgrown.txHashes⟩)
    h.reconciliations.subset

theorem withdrawalsRemember_of_extends {s t : WithdrawalSystem} (h : WithdrawalsExtend s t) :
    WithdrawalsRemember s.tables t.tables :=
  .of_grown (h.routeLegs.imp fun _ _ hgrown => ⟨hgrown.withdrawalRouteLegId, hgrown.txHashes⟩)
    h.reconciliations.subset

/-! ## Quotes -/

def quotedTables (answers : FundingAnswers) (userId fundingIntentId : String)
    (tables : FundingTables) : Except FundingError FundingTables := do
  let view ← tables.getIntent userId fundingIntentId
  let routeLegs ← view.targets.mapM fun target =>
    (answers.quote target).map (buildRouteLeg target)
  tables.replaceRouteLegs fundingIntentId routeLegs

theorem quoteIntent_eq (answers : FundingAnswers) (userId intentId : String) (s : FundingSystem) :
    (go (quoteIntent answers userId intentId) s).2 =
      match quotedTables answers userId intentId s.tables with
      | .ok tables =>
        { s with tables := tables.updateIntentStatus intentId .USER_SIGNATURE_REQUIRED }
      | .error _ => s := by
  rw [quoteIntent, go_bind, go_loadIntent]
  cases hview : s.tables.getIntent userId intentId with
  | error error =>
    have hquoted : quotedTables answers userId intentId s.tables = .error error := by
      rw [quotedTables, hview]
      rfl
    rw [hquoted]
  | ok view =>
    simp only [go_bind, go_await]
    cases hlegs : view.targets.mapM fun target =>
        (answers.quote target).map (buildRouteLeg target) with
    | error error =>
      have hquoted : quotedTables answers userId intentId s.tables = .error error := by
        simp only [quotedTables, hview, bind, Except.bind, hlegs]
      rw [hquoted]
    | ok routeLegs =>
      have hquoted : quotedTables answers userId intentId s.tables =
          s.tables.replaceRouteLegs intentId routeLegs := by
        simp only [quotedTables, hview, bind, Except.bind, hlegs]
      simp only [hquoted, executeChecked, go_bind, go_get, go_await]
      cases s.tables.replaceRouteLegs intentId routeLegs <;> rfl

/-- A quote that goes through deletes the legs of the intent, and puts unsubmitted ones there. -/
theorem quotedTables_ok {answers : FundingAnswers} {userId intentId : String}
    {tables tables' : FundingTables}
    (h : quotedTables answers userId intentId tables = .ok tables') :
    ∃ routeLegs, (∀ leg ∈ routeLegs, leg.txHashes = []) ∧
      tables.replaceRouteLegs intentId routeLegs = .ok tables' := by
  obtain ⟨view, -, hrest⟩ := bind_eq_ok.mp h
  obtain ⟨routeLegs, hlegs, hreplace⟩ := bind_eq_ok.mp hrest
  refine ⟨routeLegs, fun leg hleg => ?_, hreplace⟩
  obtain ⟨target, -, quote, rfl⟩ := mem_quoted hlegs hleg
  rfl

/-- **A funding quote** that goes through is remembered exactly when no leg of the intent had a
recorded hash. -/
theorem quoteIntent_remembers_iff {answers : FundingAnswers} {userId intentId : String}
    {tables tables' : FundingTables} (hids : (tables.routeLegs.map (·.routeLegId)).Nodup)
    (h : quotedTables answers userId intentId tables = .ok tables') :
    FundingRemembers tables tables' ↔
      ∀ leg ∈ tables.routeLegs, leg.fundingIntentId = intentId → leg.txHashes = [] := by
  obtain ⟨routeLegs, hnew, hreplace⟩ := quotedTables_ok h
  obtain ⟨hlegs, hrecords, -, -⟩ := FundingTables.replaceRouteLegs_ok hreplace
  simp only [ne_eq, decide_not] at hlegs
  rw [FundingRemembers, hlegs, hrecords, remembers_replace_iff hids hnew]
  simp only [decide_eq_true_eq]

def quotedWithdrawalTables (answers : WithdrawalAnswers) (userId withdrawalIntentId : String)
    (s : WithdrawalSystem) : Except FundingError WithdrawalTables := do
  let view ← s.tables.getWithdrawalIntent userId withdrawalIntentId
  let routeLegSets ← view.sources.mapM
    (quoteWithdrawalSource answers s.funding userId view.intent)
  s.tables.replaceWithdrawalRouteLegs withdrawalIntentId routeLegSets.flatten

theorem quoteWithdrawalIntent_eq (answers : WithdrawalAnswers)
    (userId intentId : String) (s : WithdrawalSystem) :
    (go (quoteWithdrawalIntent answers userId intentId) s).2 =
      match quotedWithdrawalTables answers userId intentId s with
      | .ok tables => { s with
          tables := tables.updateWithdrawalIntentStatus intentId .USER_SIGNATURE_REQUIRED }
      | .error _ => s := by
  rw [quoteWithdrawalIntent, go_bind, go_loadWithdrawalIntent]
  cases hview : s.tables.getWithdrawalIntent userId intentId with
  | error error =>
    have hquoted : quotedWithdrawalTables answers userId intentId s = .error error := by
      rw [quotedWithdrawalTables, hview]
      rfl
    rw [hquoted]
  | ok view =>
    simp only [go_bind, go_get, go_await]
    cases hlegs : view.sources.mapM
        (quoteWithdrawalSource answers s.funding userId view.intent) with
    | error error =>
      have hquoted : quotedWithdrawalTables answers userId intentId s = .error error := by
        simp only [quotedWithdrawalTables, hview, bind, Except.bind, hlegs]
      rw [hquoted]
    | ok routeLegSets =>
      have hquoted : quotedWithdrawalTables answers userId intentId s =
          s.tables.replaceWithdrawalRouteLegs intentId routeLegSets.flatten := by
        simp only [quotedWithdrawalTables, hview, bind, Except.bind, hlegs]
      simp only [hquoted, executeWithdrawalChecked, go_bind, go_get, go_await]
      cases s.tables.replaceWithdrawalRouteLegs intentId routeLegSets.flatten <;> rfl

theorem quotedWithdrawalTables_ok {answers : WithdrawalAnswers}
    {userId intentId : String} {s : WithdrawalSystem} {tables : WithdrawalTables}
    (h : quotedWithdrawalTables answers userId intentId s = .ok tables) :
    ∃ routeLegs, (∀ leg ∈ routeLegs, leg.txHashes = []) ∧
      s.tables.replaceWithdrawalRouteLegs intentId routeLegs = .ok tables := by
  obtain ⟨view, -, hrest⟩ := bind_eq_ok.mp h
  obtain ⟨routeLegSets, hlegs, hreplace⟩ := bind_eq_ok.mp hrest
  refine ⟨routeLegSets.flatten, fun leg hleg => ?_, hreplace⟩
  obtain ⟨source, -, plan, hplanned⟩ := mem_quotedWithdrawal hlegs hleg
  exact (mem_routeLegs_of_plan hplanned).1

/-- **A withdrawal quote**, likewise. -/
theorem quoteWithdrawalIntent_remembers_iff {answers : WithdrawalAnswers}
    {userId intentId : String} {s : WithdrawalSystem} {tables : WithdrawalTables}
    (hids : (s.tables.routeLegs.map (·.withdrawalRouteLegId)).Nodup)
    (h : quotedWithdrawalTables answers userId intentId s = .ok tables) :
    WithdrawalsRemember s.tables tables ↔
      ∀ leg ∈ s.tables.routeLegs, leg.withdrawalIntentId = intentId → leg.txHashes = [] := by
  obtain ⟨routeLegs, hnew, hreplace⟩ := quotedWithdrawalTables_ok h
  obtain ⟨hlegs, hrecords, -⟩ := replaceWithdrawalRouteLegs_ok hreplace
  simp only [ne_eq, decide_not] at hlegs
  rw [WithdrawalsRemember, hlegs, hrecords, remembers_replace_iff hids hnew]
  simp only [decide_eq_true_eq]

/-! ## Sequences of operations -/

/-- Where a quote gets an answer for each part of the intent, no leg that it is about to replace
has a recorded hash. -/
def QuotesUnsubmitted (s : FundingServiceState) : FundingServiceAction → Prop
  | .funding (.quoteIntent userId fundingIntentId) answers =>
    (quotedTables answers userId fundingIntentId s.funding.tables).isOk →
      ∀ leg ∈ s.funding.tables.routeLegs, leg.fundingIntentId = fundingIntentId →
        leg.txHashes = []
  | .withdrawal (.quoteWithdrawalIntent userId withdrawalIntentId) answers =>
    (quotedWithdrawalTables answers userId withdrawalIntentId
      ⟨s.funding.tables, s.withdrawals⟩).isOk →
      ∀ leg ∈ s.withdrawals.routeLegs, leg.withdrawalIntentId = withdrawalIntentId →
        leg.txHashes = []
  | _ => True

instance (s : FundingServiceState) (action : FundingServiceAction) :
    Decidable (QuotesUnsubmitted s action) := by
  unfold QuotesUnsubmitted
  split <;> infer_instance

variable {config : FundingConfig} {withdrawalConfig : WithdrawalConfig}
  {s t : FundingServiceState}

theorem remembers_funding_iff (hids : DistinctLegIds s) (action : FundingAction)
    (answers : FundingAnswers) :
    FundingRemembers s.funding.tables (go (action.code config answers) s.funding).2.tables ↔
      QuotesUnsubmitted s (.funding action answers) := by
  cases action with
  | quoteIntent userId intentId =>
    show FundingRemembers _ (go (quoteIntent answers userId intentId) s.funding).2.tables ↔ _
    rw [quoteIntent_eq, QuotesUnsubmitted]
    cases hquoted : quotedTables answers userId intentId s.funding.tables with
    | error error => exact ⟨fun _ h => absurd h (by simp [Except.isOk, Except.toBool]), fun _ => .refl _ _⟩
    | ok tables =>
      refine (quoteIntent_remembers_iff hids.1 hquoted).trans ?_
      exact ⟨fun h _ => h, fun h => h rfl⟩
  | submitRouteLeg now userId intentId routeLegId txHash =>
    exact ⟨fun _ => trivial,
      fun _ => fundingRemembers_of_extends (extends_submitRouteLeg s.funding (.refl _))⟩
  | refreshIntentStatus userId intentId =>
    exact ⟨fun _ => trivial,
      fun _ => fundingRemembers_of_extends (extends_refreshIntentStatus s.funding (.refl _))⟩
  | verifyVenueReadiness userId intentId routeLegId =>
    exact ⟨fun _ => trivial,
      fun _ => fundingRemembers_of_extends (extends_verifyVenueReadiness s.funding (.refl _))⟩

theorem remembers_withdrawal_iff (hids : DistinctLegIds s) (action : WithdrawalAction)
    (answers : WithdrawalAnswers) :
    WithdrawalsRemember s.withdrawals (go (action.code withdrawalConfig answers)
        ⟨s.funding.tables, s.withdrawals⟩).2.tables ↔
      QuotesUnsubmitted s (.withdrawal action answers) := by
  cases action with
  | quoteWithdrawalIntent userId intentId =>
    show WithdrawalsRemember _ (go (quoteWithdrawalIntent answers userId intentId)
      ⟨s.funding.tables, s.withdrawals⟩).2.tables ↔ _
    rw [quoteWithdrawalIntent_eq, QuotesUnsubmitted]
    cases hquoted : quotedWithdrawalTables answers userId intentId
        ⟨s.funding.tables, s.withdrawals⟩ with
    | error error => exact ⟨fun _ h => absurd h (by simp [Except.isOk, Except.toBool]), fun _ => .refl _ _⟩
    | ok tables =>
      refine (quoteWithdrawalIntent_remembers_iff hids.2 hquoted).trans ?_
      exact ⟨fun h _ => h, fun h => h rfl⟩
  | submitWithdrawalRouteLeg now userId intentId withdrawalRouteLegId txHash =>
    exact ⟨fun _ => trivial,
      fun _ => withdrawalsRemember_of_extends
        (extends_submitWithdrawalRouteLeg ⟨s.funding.tables, s.withdrawals⟩ (.refl _))⟩
  | refreshWithdrawalStatus userId intentId =>
    exact ⟨fun _ => trivial,
      fun _ => withdrawalsRemember_of_extends
        (extends_refreshWithdrawalStatus ⟨s.funding.tables, s.withdrawals⟩ (.refl _))⟩

/-- One operation forgets nothing exactly when it does not re-quote what was submitted. -/
theorem step_nothingForgotten_iff (hids : DistinctLegIds s) {action : FundingServiceAction}
    (hstep : fundingServiceStep config withdrawalConfig s action = some t) :
    NothingForgotten s t ↔ QuotesUnsubmitted s action := by
  cases action with
  | funding action answers =>
    cases hstep
    rw [← remembers_funding_iff hids]
    exact ⟨fun h => h.1, fun h => ⟨h, .refl _ _⟩⟩
  | withdrawal action answers =>
    cases hstep
    rw [← remembers_withdrawal_iff hids]
    exact ⟨fun h => h.2, fun h => ⟨.refl _ _, h⟩⟩

theorem distinctLegIds_funding (hids : (s.funding.tables.routeLegs.map (·.routeLegId)).Nodup)
    (action : FundingAction) (answers : FundingAnswers) :
    ((go (action.code config answers) s.funding).2.tables.routeLegs.map (·.routeLegId)).Nodup := by
  have hextends {t : FundingSystem} (h : Extends s.funding t) :
      (t.tables.routeLegs.map (·.routeLegId)).Nodup := h.legIds ▸ hids
  cases action with
  | quoteIntent userId intentId =>
    show ((go (quoteIntent answers userId intentId) s.funding).2.tables.routeLegs.map
      (·.routeLegId)).Nodup
    rw [quoteIntent_eq]
    cases hquoted : quotedTables answers userId intentId s.funding.tables with
    | error error => exact hids
    | ok tables =>
      obtain ⟨routeLegs, -, hreplace⟩ := quotedTables_ok hquoted
      exact (FundingTables.replaceRouteLegs_ok hreplace).2.2.1
  | submitRouteLeg now userId intentId routeLegId txHash =>
    exact hextends (extends_submitRouteLeg s.funding (.refl _))
  | refreshIntentStatus userId intentId =>
    exact hextends (extends_refreshIntentStatus s.funding (.refl _))
  | verifyVenueReadiness userId intentId routeLegId =>
    exact hextends (extends_verifyVenueReadiness s.funding (.refl _))

theorem distinctLegIds_withdrawal {s : WithdrawalSystem}
    (hids : (s.tables.routeLegs.map (·.withdrawalRouteLegId)).Nodup) (action : WithdrawalAction)
    (answers : WithdrawalAnswers) :
    ((go (action.code withdrawalConfig answers) s).2.tables.routeLegs.map
      (·.withdrawalRouteLegId)).Nodup := by
  have hextends {t : WithdrawalSystem} (h : WithdrawalsExtend s t) :
      (t.tables.routeLegs.map (·.withdrawalRouteLegId)).Nodup := h.legIds ▸ hids
  cases action with
  | quoteWithdrawalIntent userId intentId =>
    show ((go (quoteWithdrawalIntent answers userId intentId) s).2.tables.routeLegs.map
      (·.withdrawalRouteLegId)).Nodup
    rw [quoteWithdrawalIntent_eq]
    cases hquoted : quotedWithdrawalTables answers userId intentId s with
    | error error => exact hids
    | ok tables =>
      obtain ⟨routeLegs, -, hreplace⟩ := quotedWithdrawalTables_ok hquoted
      exact (replaceWithdrawalRouteLegs_ok hreplace).2.2.1
  | submitWithdrawalRouteLeg now userId intentId withdrawalRouteLegId txHash =>
    exact hextends (extends_submitWithdrawalRouteLeg s (.refl _))
  | refreshWithdrawalStatus userId intentId =>
    exact hextends (extends_refreshWithdrawalStatus s (.refl _))

theorem distinctLegIds_step (hids : DistinctLegIds s) {action : FundingServiceAction}
    (hstep : fundingServiceStep config withdrawalConfig s action = some t) : DistinctLegIds t := by
  cases action with
  | funding action answers =>
    cases hstep
    exact ⟨distinctLegIds_funding hids.1 action answers, hids.2⟩
  | withdrawal action answers =>
    cases hstep
    exact ⟨hids.1, distinctLegIds_withdrawal
      (s := ⟨s.funding.tables, s.withdrawals⟩) hids.2 action answers⟩

/-- **No state forgets what an earlier one recorded, exactly when no quote replaces a leg with a
recorded hash.** -/
theorem nothingForgotten_iff (config : FundingConfig) (withdrawalConfig : WithdrawalConfig)
    {s : FundingServiceState} (hids : DistinctLegIds s) (actions : List FundingServiceAction) :
    (states (fundingServiceStep config withdrawalConfig) actions s).Pairwise NothingForgotten ↔
      EachStep (fundingServiceStep config withdrawalConfig)
        (fun s action _ => QuotesUnsubmitted s action) actions s := by
  rw [pairwise_states_iff (R := NothingForgotten) NothingForgotten.trans]
  refine eachStep_iff (P := DistinctLegIds) ?_ ?_ hids
  · intro s action t hs hstep _
    exact distinctLegIds_step hs hstep
  · intro s action t hs hstep
    exact step_nothingForgotten_iff hs hstep

/-! ### A second quote -/

/-- An intent that nobody has quoted, and no withdrawals. -/
def unquotedService : FundingServiceState :=
  ⟨unquoted, ⟨[], [], [], []⟩⟩

theorem unquotedService_distinct : DistinctLegIds unquotedService :=
  ⟨List.nodup_nil, List.nodup_nil⟩

def plentifulAgain : FundingAnswers :=
  { plentiful with quote := fun _ => .ok ⟨"leg-2", .LIFI, some 99, 120⟩ }

def submittedOnce : List FundingServiceAction :=
  submittedFirst.map fun (action, answers) => .funding action answers

def withoutCollaborators : WithdrawalConfig := ⟨false, false⟩

/-- Quoted once more after the money was sent: the hash is nowhere to be found. -/
theorem submittedOnce_forgotten : ¬ ∀ config withdrawalConfig s, DistinctLegIds s → ∀ actions,
    (states (fundingServiceStep config withdrawalConfig) actions s).Pairwise NothingForgotten := by
  intro h
  have hpairs := (pairwise_states_iff (R := NothingForgotten) NothingForgotten.trans _ _).mp
    (h polymarketChecked withoutCollaborators unquotedService unquotedService_distinct
      (submittedOnce ++ [.funding (.quoteIntent "user-1" "intent-1") plentifulAgain]))
  have hlast := (((hpairs _ rfl).2 _ rfl).2 _ rfl).2 _ rfl
  let before := (submittedFirst.foldl (fun s operation =>
    (go (operation.1.code polymarketChecked operation.2) s).2) unquoted)
  have hrecorded : ∃ leg ∈ before.tables.routeLegs, leg.txHashes ≠ [] := by decide +kernel
  obtain ⟨leg, hleg, hhash⟩ := hrecorded
  obtain ⟨leg', hleg', -, hgrown⟩ := hlast.1.1.kept leg hleg hhash
  have hnone : ∀ leg' ∈ (go (quoteIntent plentifulAgain "user-1" "intent-1")
      before).2.tables.routeLegs, leg'.txHashes = [] := by decide +kernel
  rw [hnone leg' hleg'] at hgrown
  exact hhash (List.prefix_nil.mp hgrown)

theorem nothingForgotten_submittedOnce : DistinctLegIds unquotedService ∧
    (states (fundingServiceStep polymarketChecked withoutCollaborators) submittedOnce
      unquotedService).Pairwise NothingForgotten :=
  ⟨unquotedService_distinct, (nothingForgotten_iff polymarketChecked withoutCollaborators
    unquotedService_distinct submittedOnce).mpr (eachStep_of_play (by decide +kernel))⟩

end LotusRfq.Funding
