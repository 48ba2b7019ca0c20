import LotusRfq.Funding.Withdrawals

/-!
# LotusRfq — what the withdrawal operations leave behind

As on the funding side, only a re-quote deletes anything; the other operations leave tables that
*extend* the ones they found. The provider status is not among what stays: every reconciliation
writes a new one.

* **`extends_submitWithdrawalRouteLeg`**, **`extends_refreshWithdrawalStatus`** — however these
  operations end.
-/

namespace LotusRfq.Funding

open Attempts Tables WithdrawalTables List

/-! ## The same leg, later -/

structure GrownWithdrawalLeg (leg leg' : WithdrawalRouteLeg) : Prop where
  withdrawalRouteLegId : leg'.withdrawalRouteLegId = leg.withdrawalRouteLegId
  withdrawalIntentId : leg'.withdrawalIntentId = leg.withdrawalIntentId
  withdrawalSourceId : leg'.withdrawalSourceId = leg.withdrawalSourceId
  sourceVenue : leg'.sourceVenue = leg.sourceVenue
  sourceToken : leg'.sourceToken = leg.sourceToken
  estimate : leg'.destinationAmountEstimate = leg.destinationAmountEstimate
  txHashes : leg.txHashes <+: leg'.txHashes

theorem GrownWithdrawalLeg.refl (leg : WithdrawalRouteLeg) : GrownWithdrawalLeg leg leg :=
  ⟨rfl, rfl, rfl, rfl, rfl, rfl, prefix_rfl⟩

theorem GrownWithdrawalLeg.trans {leg leg' leg'' : WithdrawalRouteLeg}
    (h : GrownWithdrawalLeg leg leg') (h' : GrownWithdrawalLeg leg' leg'') :
    GrownWithdrawalLeg leg leg'' where
  withdrawalRouteLegId := h'.withdrawalRouteLegId.trans h.withdrawalRouteLegId
  withdrawalIntentId := h'.withdrawalIntentId.trans h.withdrawalIntentId
  withdrawalSourceId := h'.withdrawalSourceId.trans h.withdrawalSourceId
  sourceVenue := h'.sourceVenue.trans h.sourceVenue
  sourceToken := h'.sourceToken.trans h.sourceToken
  estimate := h'.estimate.trans h.estimate
  txHashes := h.txHashes.trans h'.txHashes

theorem grownWithdrawalLeg_submissionChange (txHash : String) (status : WithdrawalLegState)
    (venueReleaseStatus destinationStatus : Option ConfirmationStatus) (leg : WithdrawalRouteLeg) :
    GrownWithdrawalLeg leg
      (submissionChange txHash status venueReleaseStatus destinationStatus leg) :=
  ⟨rfl, rfl, rfl, rfl, rfl, rfl, prefix_append _ _⟩

theorem grownWithdrawalLeg_change (input : ReconciliationUpdate) (leg : WithdrawalRouteLeg) :
    GrownWithdrawalLeg leg (input.change leg) :=
  ⟨rfl, rfl, rfl, rfl, rfl, rfl, prefix_rfl⟩

/-! ## The same tables, later -/

def WithdrawalSource.identity (source : WithdrawalSource) : WithdrawalSource :=
  { source with status := .WITHDRAWAL_LEG_CREATED }

def WithdrawalIntent.identity (intent : WithdrawalIntent) : WithdrawalIntent :=
  { intent with status := .WITHDRAWAL_CREATED }

/-- Nothing that was there is gone, and the funding side is as it was. -/
structure WithdrawalsExtend (s t : WithdrawalSystem) : Prop where
  funding : t.funding = s.funding
  intents : t.tables.intents.map (·.identity) = s.tables.intents.map (·.identity)
  sources : t.tables.sources.map (·.identity) = s.tables.sources.map (·.identity)
  routeLegs : List.Forall₂ GrownWithdrawalLeg s.tables.routeLegs t.tables.routeLegs
  reconciliations : s.tables.reconciliations <+: t.tables.reconciliations

theorem forall₂_grownWithdrawalLeg_refl (legs : List WithdrawalRouteLeg) :
    List.Forall₂ GrownWithdrawalLeg legs legs :=
  List.forall₂_same.mpr fun leg _ => GrownWithdrawalLeg.refl leg

theorem WithdrawalsExtend.refl (s : WithdrawalSystem) : WithdrawalsExtend s s :=
  ⟨rfl, rfl, rfl, forall₂_grownWithdrawalLeg_refl _, prefix_rfl⟩

theorem WithdrawalsExtend.trans {s t u : WithdrawalSystem} (h : WithdrawalsExtend s t)
    (h' : WithdrawalsExtend t u) : WithdrawalsExtend s u where
  funding := h'.funding.trans h.funding
  intents := h'.intents.trans h.intents
  sources := h'.sources.trans h.sources
  routeLegs := forall₂_trans GrownWithdrawalLeg.trans h.routeLegs h'.routeLegs
  reconciliations := h.reconciliations.trans h'.reconciliations

theorem WithdrawalsExtend.legIds {s t : WithdrawalSystem} (h : WithdrawalsExtend s t) :
    t.tables.routeLegs.map (·.withdrawalRouteLegId) =
      s.tables.routeLegs.map (·.withdrawalRouteLegId) :=
  map_of_forall₂ h.routeLegs GrownWithdrawalLeg.withdrawalRouteLegId

/-! ## Statements -/

theorem extends_updateWithdrawalLeg {change : WithdrawalRouteLeg → WithdrawalRouteLeg}
    (hchange : ∀ leg, GrownWithdrawalLeg leg (change leg)) (legId : String)
    (status : WithdrawalLegState) (s : WithdrawalSystem) : WithdrawalsExtend s { s with
      tables := s.tables.updateLeg legId change status } where
  funding := rfl
  intents := rfl
  sources := by
    show (s.tables.sources.map _).map _ = _
    rw [map_map]
    refine map_congr_left fun source _ => ?_
    rw [Function.comp_apply]
    split <;> rfl
  routeLegs := forall₂_update GrownWithdrawalLeg.refl hchange legId _
  reconciliations := prefix_rfl

theorem extends_updateWithdrawalIntentStatus (intentId : String)
    (status : WithdrawalAggregateState) (s : WithdrawalSystem) : WithdrawalsExtend s { s with
      tables := s.tables.updateWithdrawalIntentStatus intentId status } where
  funding := rfl
  intents := by
    show (update WithdrawalIntent.withdrawalIntentId intentId
      (fun intent => { intent with status }) s.tables.intents).map _ = _
    apply map_update
    intro intent
    rfl
  sources := rfl
  routeLegs := forall₂_grownWithdrawalLeg_refl _
  reconciliations := prefix_rfl

theorem extends_withdrawalWrite (statement : WithdrawalWrite) (s : WithdrawalSystem) :
    WithdrawalsExtend s { s with tables := statement.apply s.tables } := by
  cases statement with
  | updateWithdrawalRouteLegSubmission legId txHash status venueReleaseStatus
      destinationStatus =>
    exact extends_updateWithdrawalLeg (grownWithdrawalLeg_submissionChange txHash status
      venueReleaseStatus destinationStatus) legId status s
  | updateWithdrawalIntentStatus intentId status =>
    exact extends_updateWithdrawalIntentStatus intentId status s

theorem extends_createWithdrawalReconciliationRecord {record : WithdrawalReconciliationRecord}
    {s : WithdrawalSystem} {tables : WithdrawalTables}
    (h : createWithdrawalReconciliationRecord record s.tables = .ok tables) :
    WithdrawalsExtend s { s with tables } := by
  unfold createWithdrawalReconciliationRecord at h
  split at h
  next =>
    cases h
    exact ⟨rfl, rfl, rfl, forall₂_grownWithdrawalLeg_refl _, prefix_append _ _⟩
  next => cases h

/-! ## Operations -/

variable {config : WithdrawalConfig} {answers : WithdrawalAnswers} {s₀ s : WithdrawalSystem}
  {userId intentId legId txHash : String} {view : WithdrawalIntentView}
  {leg : WithdrawalRouteLeg}

theorem go_loadWithdrawalIntent (s : WithdrawalSystem) :
    go (loadWithdrawalIntent userId intentId) s =
      (s.tables.getWithdrawalIntent userId intentId, s) := by
  rw [loadWithdrawalIntent, go_bind, go_get]
  exact go_await

theorem keeps_loadWithdrawalIntent {P : WithdrawalSystem → Prop} :
    Keeps P (loadWithdrawalIntent userId intentId) := by
  intro s hs
  rw [go_loadWithdrawalIntent]
  exact hs

theorem extends_record {record : WithdrawalReconciliationRecord} : Keeps (WithdrawalsExtend s₀)
      (executeWithdrawalChecked (createWithdrawalReconciliationRecord record)) := by
  refine keeps_get fun s hs => ?_
  rw [go_bind, go_await]
  cases hrecord : createWithdrawalReconciliationRecord record s.tables with
  | error error => exact hs
  | ok tables => exact hs.trans (extends_createWithdrawalReconciliationRecord hrecord)

theorem extends_reconciliation (legId : String) (input : ReconciliationUpdate) :
    Keeps (WithdrawalsExtend s₀)
      (executeWithdrawal (updateWithdrawalRouteLegReconciliation legId input)) :=
  keeps_modify fun s hs => hs.trans
    (extends_updateWithdrawalLeg (grownWithdrawalLeg_change input) legId _ s)

theorem extends_submitWithdrawalRouteLeg {now : ℕ} : Keeps (WithdrawalsExtend s₀)
    (submitWithdrawalRouteLeg now userId intentId legId txHash) := by
  refine keeps_bind keeps_loadWithdrawalIntent fun view => keeps_bind keeps_await fun writes =>
    keeps_modify fun s hs => ?_
  induction writes generalizing s with
  | nil => exact hs
  | cons statement writes ih =>
    exact ih { s with tables := statement.apply s.tables }
      (hs.trans (extends_withdrawalWrite statement s))

theorem extends_completeSourceLegs {bridgeBackTxHash : String} : Keeps (WithdrawalsExtend s₀)
    (completeVenueEvmSourceLegsSatisfiedByBridgeBack intentId view leg bridgeBackTxHash) :=
  keeps_ite keeps_pure (keeps_mapM fun _ _ => keeps_bind extends_record fun _ =>
    keeps_bind (extends_reconciliation _ _) fun _ => keeps_pure)

theorem extends_refreshWithdrawalLeg : Keeps (WithdrawalsExtend s₀)
    (refreshWithdrawalLeg config answers intentId view leg) := by
  unfold refreshWithdrawalLeg
  split
  · exact keeps_pure
  · refine keeps_ite keeps_pure (keeps_ite keeps_pure ?_)
    refine keeps_bind keeps_await fun result => keeps_bind keeps_await fun _ => ?_
    exact keeps_bind extends_record fun _ => keeps_bind (extends_reconciliation _ _) fun _ =>
      keeps_ite (keeps_bind extends_completeSourceLegs fun _ => keeps_pure) keeps_pure

theorem extends_refreshPolymarketBridgeSandboxStatus : Keeps (WithdrawalsExtend s₀)
    (refreshPolymarketBridgeSandboxStatus config answers view) := by
  refine keeps_ite keeps_pure (keeps_bind (keeps_mapM fun leg _ => ?_) fun _ => keeps_pure)
  exact keeps_ite keeps_pure (keeps_ite keeps_pure (extends_reconciliation _ _))

theorem extends_refreshWithdrawalStatus : Keeps (WithdrawalsExtend s₀)
    (refreshWithdrawalStatus config answers userId intentId) := by
  refine keeps_bind keeps_loadWithdrawalIntent fun view =>
    keeps_bind extends_refreshPolymarketBridgeSandboxStatus fun _ =>
      keeps_ite keeps_pure (keeps_bind (keeps_mapM fun _ _ => extends_refreshWithdrawalLeg)
        fun _ => keeps_ite (keeps_modify fun s hs => ?_) keeps_pure)
  exact hs.trans (extends_updateWithdrawalIntentStatus _ _ s)

/-! ## A quote as one change -/

theorem replaceWithdrawalRouteLegs_ok {tables tables' : WithdrawalTables}
    {routeLegs : List WithdrawalRouteLeg}
    (h : tables.replaceWithdrawalRouteLegs intentId routeLegs = .ok tables') :
    tables'.routeLegs = (tables.routeLegs.filter fun leg =>
        leg.withdrawalIntentId ≠ intentId) ++ routeLegs ∧
      (tables'.reconciliations = tables.reconciliations.filter fun record =>
        record.withdrawalRouteLegId ∉ (tables.routeLegs.filter fun leg =>
          leg.withdrawalIntentId = intentId).map (·.withdrawalRouteLegId)) ∧
      (tables'.routeLegs.map (·.withdrawalRouteLegId)).Nodup ∧
      tables'.intents = tables.intents ∧
      tables'.sources.map (·.identity) = tables.sources.map (·.identity) := by
  -- the sources are all that the loop over the new legs writes
  have hloop (legs : List WithdrawalRouteLeg) (start : WithdrawalTables) :
      (legs.foldl (fun tables leg => tables.updateSourceStatus leg.withdrawalSourceId leg.status)
        start).routeLegs = start.routeLegs ∧
      (legs.foldl (fun tables leg => tables.updateSourceStatus leg.withdrawalSourceId leg.status)
        start).reconciliations = start.reconciliations ∧
      (legs.foldl (fun tables leg => tables.updateSourceStatus leg.withdrawalSourceId leg.status)
        start).intents = start.intents ∧
      (legs.foldl (fun tables leg => tables.updateSourceStatus leg.withdrawalSourceId leg.status)
        start).sources.map (·.identity) = start.sources.map (·.identity) := by
    induction legs generalizing start with
    | nil => exact ⟨rfl, rfl, rfl, rfl⟩
    | cons leg legs ih =>
      obtain ⟨hlegs, hrecords, hintents, hsources⟩ :=
        ih (start.updateSourceStatus leg.withdrawalSourceId leg.status)
      refine ⟨hlegs, hrecords, hintents, hsources.trans ?_⟩
      apply map_update
      intro source
      rfl
  simp only [replaceWithdrawalRouteLegs] at h
  split at h
  next hnodup =>
    cases h
    obtain ⟨hlegs, hrecords, hintents, hsources⟩ := hloop routeLegs _
    exact ⟨hlegs, hrecords, by rw [hlegs]; exact hnodup, hintents, hsources⟩
  next => cases h

theorem mem_routeLegs_of_plan {plan : WithdrawalPlan} {intent : WithdrawalIntent}
    {source : WithdrawalSource} (h : leg ∈ plan.routeLegs intent source) :
    leg.txHashes = [] ∧ leg.withdrawalIntentId = intent.withdrawalIntentId ∧
      leg.withdrawalSourceId = source.withdrawalSourceId := by
  cases plan with
  | venue planned =>
    rw [mem_singleton.mp h]
    exact ⟨rfl, rfl, rfl⟩
  | limitlessBridgeBack bridgeQuote sourceWalletAddress =>
    rw [mem_singleton.mp h]
    exact ⟨rfl, rfl, rfl⟩
  | venueEvmBridgeBack firstHop bridgeQuote sourceWalletAddress destinationTokenSymbol =>
    rcases mem_cons.mp h with rfl | hsecond
    · exact ⟨rfl, rfl, rfl⟩
    · rw [mem_singleton.mp hsecond]
      exact ⟨rfl, rfl, rfl⟩

theorem mem_quotedWithdrawal {sources : List WithdrawalSource} {funding : FundingTables}
    {intent : WithdrawalIntent} {routeLegSets : List (List WithdrawalRouteLeg)}
    (h : sources.mapM (quoteWithdrawalSource answers funding userId intent) = .ok routeLegSets)
    (hleg : leg ∈ routeLegSets.flatten) :
    ∃ source ∈ sources, ∃ plan : WithdrawalPlan, leg ∈ plan.routeLegs intent source := by
  obtain ⟨set, hset, hmem⟩ := mem_flatten.mp hleg
  obtain ⟨source, hsource, hquoted⟩ := mem_of_mapM h hset
  unfold quoteWithdrawalSource at hquoted
  split at hquoted
  next => cases hquoted
  next =>
    split at hquoted
    next => cases hquoted
    next =>
      cases hplan : answers.plan source with
      | error error =>
        rw [hplan] at hquoted
        cases hquoted
      | ok plan =>
        rw [hplan] at hquoted
        cases hquoted
        exact ⟨source, hsource, plan, hmem⟩

end LotusRfq.Funding
