import LotusRfq.Funding.Service
import LotusRfq.Lib.Transitions

/-!
# LotusRfq — what the funding operations leave behind

Only a re-quote deletes anything. Every other operation writes to the legs that are there, appends
to their transaction hashes and to the reconciliation rows, and asks its questions: the system it
leaves *extends* the one it found.

* **`extends_submitRouteLeg`**, **`extends_verifyVenueReadiness`**,
  **`extends_refreshIntentStatus`** — however these operations end;
* **`go_verifyVenueReadiness`** — a readiness check that finds its leg, as one change;
* **`quoteIntent_cases`** — what a quote leaves;
* **`WellKeyed`** — the primary key of the legs and the foreign key of the reconciliation rows.
-/

namespace LotusRfq.Funding

open Attempts FundingTables Tables Transitions List

/-! ## The same leg, later -/

/-- The later row of a leg: what identifies it stays, its hashes are appended to. -/
structure GrownLeg (leg leg' : FundingRouteLeg) : Prop where
  routeLegId : leg'.routeLegId = leg.routeLegId
  fundingIntentId : leg'.fundingIntentId = leg.fundingIntentId
  fundingTargetId : leg'.fundingTargetId = leg.fundingTargetId
  targetVenue : leg'.targetVenue = leg.targetVenue
  estimate : leg'.destinationAmountEstimate = leg.destinationAmountEstimate
  routeProvider : leg'.routeProvider = leg.routeProvider
  txHashes : leg.txHashes <+: leg'.txHashes

theorem GrownLeg.refl (leg : FundingRouteLeg) : GrownLeg leg leg :=
  ⟨rfl, rfl, rfl, rfl, rfl, rfl, prefix_rfl⟩

variable {leg : FundingRouteLeg} {tables : FundingTables} {record : FundingReconciliationRecord}
  {P : FundingSystem → Prop} {now : ℕ} {routeLegs : List FundingRouteLeg}
  {tables' : FundingTables}

theorem GrownLeg.trans {leg' leg'' : FundingRouteLeg} (h : GrownLeg leg leg')
    (h' : GrownLeg leg' leg'') : GrownLeg leg leg'' where
  routeLegId := h'.routeLegId.trans h.routeLegId
  fundingIntentId := h'.fundingIntentId.trans h.fundingIntentId
  fundingTargetId := h'.fundingTargetId.trans h.fundingTargetId
  targetVenue := h'.targetVenue.trans h.targetVenue
  estimate := h'.estimate.trans h.estimate
  routeProvider := h'.routeProvider.trans h.routeProvider
  txHashes := h.txHashes.trans h'.txHashes

theorem grownLeg_submissionChange (txHash : String) (status : FundingLegState)
    (leg : FundingRouteLeg) : GrownLeg leg (submissionChange txHash status leg) :=
  ⟨rfl, rfl, rfl, rfl, rfl, rfl, prefix_append _ _⟩

theorem grownLeg_change (input : ProviderStatusUpdate) (leg : FundingRouteLeg) :
    GrownLeg leg (input.change leg) :=
  ⟨rfl, rfl, rfl, rfl, rfl, rfl, prefix_rfl⟩

/-! ## The same system, later -/

def FundingTarget.identity (target : FundingTarget) : FundingTarget :=
  { target with status := .LEG_CREATED }

def FundingIntent.identity (intent : FundingIntent) : FundingIntent :=
  { intent with status := .INTENT_CREATED }

structure Extends (s t : FundingSystem) : Prop where
  intents : t.tables.intents.map (·.identity) = s.tables.intents.map (·.identity)
  targets : t.tables.targets.map (·.identity) = s.tables.targets.map (·.identity)
  routeLegs : List.Forall₂ GrownLeg s.tables.routeLegs t.tables.routeLegs
  reconciliations : s.tables.reconciliations <+: t.tables.reconciliations
  lifiReports : s.lifiReports <+: t.lifiReports
  readinessChecks : s.readinessChecks <+: t.readinessChecks

theorem forall₂_grownLeg_refl (legs : List FundingRouteLeg) : List.Forall₂ GrownLeg legs legs :=
  List.forall₂_same.mpr fun leg _ => GrownLeg.refl leg

theorem Extends.refl (s : FundingSystem) : Extends s s :=
  ⟨rfl, rfl, forall₂_grownLeg_refl _, prefix_rfl, prefix_rfl, prefix_rfl⟩

theorem forall₂_grownLeg_trans {legs legs' legs'' : List FundingRouteLeg}
    (h : List.Forall₂ GrownLeg legs legs') (h' : List.Forall₂ GrownLeg legs' legs'') :
    List.Forall₂ GrownLeg legs legs'' :=
  forall₂_trans GrownLeg.trans h h'

section

variable {s t : FundingSystem} (h : Extends s t)

include h

theorem Extends.trans {u : FundingSystem} (h' : Extends t u) :
    Extends s u where
  intents := h'.intents.trans h.intents
  targets := h'.targets.trans h.targets
  routeLegs := forall₂_grownLeg_trans h.routeLegs h'.routeLegs
  reconciliations := h.reconciliations.trans h'.reconciliations
  lifiReports := h.lifiReports.trans h'.lifiReports
  readinessChecks := h.readinessChecks.trans h'.readinessChecks

theorem Extends.exists_grown (hleg : leg ∈ s.tables.routeLegs) :
    ∃ leg' ∈ t.tables.routeLegs, GrownLeg leg leg' :=
  exists_right h.routeLegs hleg

theorem Extends.exists_origin {leg' : FundingRouteLeg} (hleg : leg' ∈ t.tables.routeLegs) :
    ∃ leg ∈ s.tables.routeLegs, GrownLeg leg leg' :=
  exists_left h.routeLegs hleg

theorem Extends.legIds :
    t.tables.routeLegs.map (·.routeLegId) = s.tables.routeLegs.map (·.routeLegId) :=
  map_of_forall₂ h.routeLegs GrownLeg.routeLegId

end

/-! ## Statements and questions -/

theorem extends_updateLeg {change : FundingRouteLeg → FundingRouteLeg}
    (hchange : ∀ leg, GrownLeg leg (change leg)) (legId : String) (status : FundingLegState)
    (s : FundingSystem) :
    Extends s { s with tables := s.tables.updateLeg legId change status } where
  intents := rfl
  targets := by
    show (s.tables.targets.map _).map _ = _
    rw [map_map]
    refine map_congr_left fun target _ => ?_
    rw [Function.comp_apply]
    split <;> rfl
  routeLegs := forall₂_update GrownLeg.refl hchange legId s.tables.routeLegs
  reconciliations := prefix_rfl
  lifiReports := prefix_rfl
  readinessChecks := prefix_rfl

theorem extends_updateIntentStatus (intentId : String) (status : FundingAggregateState)
    (s : FundingSystem) :
    Extends s { s with tables := s.tables.updateIntentStatus intentId status } where
  intents := by
    show (update FundingIntent.fundingIntentId intentId
      (fun intent => { intent with status }) s.tables.intents).map _ = _
    apply map_update
    intro intent
    rfl
  targets := rfl
  routeLegs := forall₂_grownLeg_refl _
  reconciliations := prefix_rfl
  lifiReports := prefix_rfl
  readinessChecks := prefix_rfl

theorem extends_apply (statement : FundingWrite) (s : FundingSystem) :
    Extends s { s with tables := statement.apply s.tables } := by
  cases statement with
  | updateRouteLegSubmission legId txHash status =>
    exact extends_updateLeg (grownLeg_submissionChange txHash status) legId status s
  | updateRouteLegProviderStatus legId input =>
    exact extends_updateLeg (grownLeg_change input) legId input.status s
  | updateIntentStatus intentId status =>
    exact extends_updateIntentStatus intentId status s

theorem extends_createReconciliationRecord {s : FundingSystem}
    (h : createReconciliationRecord record s.tables = .ok tables) :
    Extends s { s with tables } := by
  unfold createReconciliationRecord at h
  split at h
  next =>
    cases h
    exact ⟨rfl, rfl, forall₂_grownLeg_refl _, prefix_append _ _, prefix_rfl,
      prefix_rfl⟩
  next => cases h

variable {config : FundingConfig} {answers : FundingAnswers} {s₀ : FundingSystem}
  {userId intentId legId txHash : String}

theorem keeps_loadIntent : Keeps P (loadIntent userId intentId) :=
  keeps_get fun s hs => by rw [go_await]; exact hs

theorem go_loadIntent (s : FundingSystem) :
    go (loadIntent userId intentId) s = (s.tables.getIntent userId intentId, s) := by
  rw [loadIntent, go_bind, go_get]
  exact go_await

theorem extends_executeChecked :
    Keeps (Extends s₀) (executeChecked (createReconciliationRecord record)) := by
  refine keeps_get fun s hs => ?_
  rw [go_bind, go_await]
  cases hrecord : createReconciliationRecord record s.tables with
  | error error => exact hs
  | ok tables => exact hs.trans (extends_createReconciliationRecord hrecord)

theorem extends_applyVenueReadinessResult {result : VenueFundingReadinessResult} :
    Keeps (Extends s₀) (applyVenueReadinessResult userId intentId leg result) :=
  keeps_bind keeps_loadIntent fun _ =>
    keeps_bind extends_executeChecked fun _ =>
      keeps_bind
        (keeps_modify fun s hs => hs.trans (extends_updateLeg (grownLeg_change _) _ _ s)) fun _ =>
        keeps_modify fun s hs => hs.trans (extends_updateIntentStatus _ _ s)

theorem extends_readinessChecks (check : ReadinessCheck) (s : FundingSystem) :
    Extends s { s with readinessChecks := s.readinessChecks ++ [check] } :=
  ⟨rfl, rfl, forall₂_grownLeg_refl _, prefix_rfl, prefix_rfl, prefix_append _ _⟩

theorem extends_verifyVenueReadiness :
    Keeps (Extends s₀) (verifyVenueReadiness config answers userId intentId legId) := by
  refine keeps_bind keeps_loadIntent fun view => ?_
  cases view.findLeg legId with
  | none => exact keeps_throw
  | some leg =>
    refine keeps_bind (keeps_modify fun s hs => ?_) fun _ => extends_applyVenueReadinessResult
    exact hs.trans (extends_readinessChecks _ s)

theorem extends_askLifi : Keeps (Extends s₀) (askLifi answers legId txHash) :=
  keeps_bind keeps_await fun _ =>
    keeps_bind
      (keeps_modify fun _ hs => hs.trans ⟨rfl, rfl, forall₂_grownLeg_refl _, prefix_rfl,
        prefix_append _ _, prefix_rfl⟩) fun _ =>
      keeps_pure

theorem keeps_verifiedStatus {otherwise : FundingLegState}
    (h : Keeps P (verifyVenueReadiness config answers userId intentId legId)) :
    Keeps P (verifiedStatus config answers userId intentId legId otherwise) :=
  keeps_bind h fun _ => keeps_bind keeps_loadIntent fun _ => keeps_pure

/-- A refresh keeps what the checks, the answers of LI.FI and the writes of statuses keep. -/
theorem keeps_refreshIntentStatus
    (hverify : ∀ legId, Keeps P (verifyVenueReadiness config answers userId intentId
      legId)) (hask : ∀ legId txHash, Keeps P (askLifi answers legId txHash))
    (hleg : ∀ legId input, Keeps P (execute (updateRouteLegProviderStatus legId input)))
    (hintent : ∀ status, Keeps P (execute (updateIntentStatus intentId status))) :
    Keeps P (refreshIntentStatus config answers userId intentId) := by
  refine keeps_bind keeps_loadIntent fun view => keeps_bind (keeps_mapM fun leg _ => ?_)
    fun states => keeps_ite (hintent _) keeps_pure
  rw [refreshLeg]
  split
  · exact keeps_pure
  · refine keeps_ite keeps_pure (keeps_ite (keeps_ite ?_ keeps_pure) (keeps_ite (keeps_ite ?_
      keeps_pure) ?_))
    · exact keeps_verifiedStatus (hverify _)
    · exact keeps_verifiedStatus (hverify _)
    · exact keeps_bind (hask _ _) fun _ => keeps_bind (hleg _ _) fun _ =>
        keeps_ite (keeps_verifiedStatus (hverify _)) keeps_pure

theorem extends_refreshIntentStatus :
    Keeps (Extends s₀) (refreshIntentStatus config answers userId intentId) :=
  keeps_refreshIntentStatus (fun _ => extends_verifyVenueReadiness) (fun _ _ => extends_askLifi)
    (fun legId input => keeps_modify fun s hs =>
      hs.trans (extends_updateLeg (grownLeg_change input) legId input.status s))
    (fun status => keeps_modify fun s hs =>
      hs.trans (extends_updateIntentStatus intentId status s))

theorem extends_submitRouteLeg :
    Keeps (Extends s₀) (submitRouteLeg now userId intentId legId txHash) := by
  refine keeps_bind keeps_loadIntent fun view => keeps_bind keeps_await fun writes =>
    keeps_modify fun s hs => ?_
  induction writes generalizing s with
  | nil => exact hs
  | cons statement writes ih =>
    exact ih { s with tables := statement.apply s.tables } (hs.trans (extends_apply statement s))

/-! ## A submission as its statements -/

def submittedStatus (leg : FundingRouteLeg) : FundingLegState :=
  if leg.routeProvider = .DIRECT_TRANSFER then .LEG_VENUE_CREDIT_PENDING else .LEG_BRIDGE_PENDING

/-- A submission that goes through: the leg it found, and its statements, the hash first and the
state of the intent last. -/
theorem submitRouteLegWrites_ok {view : FundingIntentView} {writes : List FundingWrite}
    (h : submitRouteLegWrites now view intentId legId txHash = .ok writes) :
    ∃ leg status, view.findLeg legId = some leg ∧ now < leg.expiresAt ∧
      txHash ∉ leg.txHashes ∧ isTxHash txHash = true ∧
      status = aggregateFundingStatus (view.routeLegs.map fun candidate =>
        if candidate.routeLegId = leg.routeLegId then submittedStatus leg else candidate.status) ∧
      writes = .updateRouteLegSubmission leg.routeLegId txHash (submittedStatus leg) ::
        ((if leg.routeProvider = .DIRECT_TRANSFER then
          [.updateRouteLegProviderStatus leg.routeLegId {
            status := .LEG_VENUE_CREDIT_PENDING, bridgeStatus := .NOT_APPLICABLE
            destinationStatus := .PENDING, venueCreditStatus := .PENDING, errorReason := none }]
        else []) ++ [.updateIntentStatus intentId status]) := by
  unfold submitRouteLegWrites at h
  split at h
  next => cases h
  next leg hleg =>
    split at h
    next => cases h
    next hexpires =>
      split at h
      next => cases h
      next hrecorded =>
        split at h
        next => cases h
        next hvalid =>
          cases h
          exact ⟨leg, _, hleg, not_le.mp hexpires, hrecorded, by simpa using hvalid, rfl, rfl⟩

theorem submittedStatus_ne_ready (leg : FundingRouteLeg) :
    submittedStatus leg ≠ .LEG_READY_TO_TRADE := by
  unfold submittedStatus
  split <;> decide

/-! ## A readiness check as one change -/

/-- The tables once a readiness result has been recorded and applied. -/
def verifiedTables (view : FundingIntentView) (fundingIntentId : String) (leg : FundingRouteLeg)
    (result : VenueFundingReadinessResult) (tables : FundingTables) : FundingTables :=
  updateIntentStatus fundingIntentId (aggregateFundingStatus (view.routeLegs.map fun candidate =>
      if candidate.routeLegId = leg.routeLegId then readinessStatus result else candidate.status))
    (updateRouteLegProviderStatus leg.routeLegId (readinessUpdate leg result)
      { tables with
        reconciliations := tables.reconciliations ++ [reconciliationOf fundingIntentId leg result] })

variable {s : FundingSystem} {view : FundingIntentView} {leg : FundingRouteLeg}

theorem go_verifyVenueReadiness
    (hview : s.tables.getIntent userId intentId = .ok view)
    (hleg : view.findLeg legId = some leg) :
    go (verifyVenueReadiness config answers userId intentId legId) s =
      (.ok (), { s with
        tables := verifiedTables view intentId leg
          (readinessResult config leg (answers.fetchUsableUsdcBalance leg.routeLegId)) s.tables
        readinessChecks := s.readinessChecks ++ [{
          userId, leg, tables := s.tables
          result := readinessResult config leg (answers.fetchUsableUsdcBalance leg.routeLegId) }] })
    := by
  obtain ⟨hmem, -, hid⟩ := FundingIntentView.mem_of_findLeg hview hleg
  have hexists : leg.routeLegId ∈ s.tables.routeLegs.map (·.routeLegId) :=
    mem_map_of_mem hmem
  rw [verifyVenueReadiness, go_bind, go_loadIntent, hview]
  simp only [hleg, go_bind, go_modify, applyVenueReadinessResult, go_loadIntent, hview,
    executeChecked, execute, go_get, go_await, go_set, createReconciliationRecord,
    reconciliationOf, hexists, if_true]
  rfl

theorem go_verifyVenueReadiness_eq
    (h : ∀ view leg, s.tables.getIntent userId intentId = .ok view →
      view.findLeg legId ≠ some leg) :
    (go (verifyVenueReadiness config answers userId intentId legId) s).2 = s := by
  rw [verifyVenueReadiness, go_bind, go_loadIntent]
  cases hview : s.tables.getIntent userId intentId with
  | error error => rfl
  | ok view =>
    cases hleg : view.findLeg legId with
    | none => simp only [hleg, go_throw]
    | some leg => exact absurd hleg (h view leg hview)

/-! ## A quote as one change -/

theorem replaceRouteLegs_targets (h : tables.replaceRouteLegs intentId routeLegs = .ok tables') :
    tables'.targets.map (·.identity) = tables.targets.map (·.identity) := by
  have hloop (legs : List FundingRouteLeg) (start : FundingTables) :
      (legs.foldl (fun tables leg => tables.updateTargetStatus leg.fundingTargetId leg.status)
        start).targets.map (·.identity) = start.targets.map (·.identity) := by
    induction legs generalizing start with
    | nil => rfl
    | cons leg legs ih =>
      refine (ih (start.updateTargetStatus leg.fundingTargetId leg.status)).trans ?_
      apply map_update
      intro target
      rfl
  simp only [FundingTables.replaceRouteLegs] at h
  split at h
  next =>
    cases h
    exact hloop routeLegs _
  next => cases h

/-- A quote that gets through replaces the legs of the intent by unsubmitted ones; one that throws
has changed nothing. -/
theorem quoteIntent_cases (answers : FundingAnswers) (userId intentId : String)
    (s : FundingSystem) :
    (go (quoteIntent answers userId intentId) s).2 = s ∨
      ∃ view routeLegs tables, s.tables.getIntent userId intentId = .ok view ∧
        (view.targets.mapM fun target => (answers.quote target).map (buildRouteLeg target)) =
          .ok routeLegs ∧
        replaceRouteLegs intentId routeLegs s.tables = .ok tables ∧
        (go (quoteIntent answers userId intentId) s).2 =
          { s with tables := tables.updateIntentStatus intentId .USER_SIGNATURE_REQUIRED } := by
  rw [quoteIntent, go_bind, go_loadIntent]
  cases hview : s.tables.getIntent userId intentId with
  | error error => exact .inl rfl
  | ok view =>
    simp only [go_bind, go_await]
    cases hlegs : view.targets.mapM fun target =>
        (answers.quote target).map (buildRouteLeg target) with
    | error error => exact .inl rfl
    | ok routeLegs =>
      simp only [executeChecked, go_bind, go_get, go_await]
      cases hreplace : replaceRouteLegs intentId routeLegs s.tables with
      | error error => exact .inl rfl
      | ok tables => exact .inr ⟨view, routeLegs, tables, rfl, hlegs, hreplace, rfl⟩

theorem mem_quoted {targets : List FundingTarget}
    (h : (targets.mapM fun target => (answers.quote target).map (buildRouteLeg target)) = .ok
      routeLegs) (hleg : leg ∈ routeLegs) :
    ∃ target ∈ targets, ∃ quote, leg = buildRouteLeg target quote := by
  obtain ⟨target, htarget, hbuilt⟩ := mem_of_mapM h hleg
  cases hquote : answers.quote target with
  | error error =>
    rw [hquote] at hbuilt
    cases hbuilt
  | ok quote =>
    rw [hquote] at hbuilt
    cases hbuilt
    exact ⟨target, htarget, quote, rfl⟩

/-! ## Keys -/

/-- The primary key of the legs, and the foreign key of the reconciliation rows. -/
structure WellKeyed (tables : FundingTables) : Prop where
  legIds : (tables.routeLegs.map (·.routeLegId)).Nodup
  reconciliations : ∀ record ∈ tables.reconciliations,
    record.routeLegId ∈ tables.routeLegs.map (·.routeLegId)

theorem WellKeyed.of_extends {t : FundingSystem} (h : WellKeyed s.tables) (hext : Extends s t)
    (hrecords : t.tables.reconciliations = s.tables.reconciliations) : WellKeyed t.tables where
  legIds := hext.legIds ▸ h.legIds
  reconciliations := by
    rw [hrecords, hext.legIds]
    exact h.reconciliations

theorem WellKeyed.record_of_replaced (h : WellKeyed tables)
    (hreplace : tables.replaceRouteLegs intentId routeLegs = .ok tables')
    (hrecord : record ∈ tables'.reconciliations) :
    record ∈ tables.reconciliations ∧ ∃ row ∈ tables.routeLegs,
      row.fundingIntentId ≠ intentId ∧ row.routeLegId = record.routeLegId := by
  rw [(replaceRouteLegs_ok hreplace).2.1, mem_filter] at hrecord
  obtain ⟨row, hrow, hid⟩ := mem_map.mp (h.reconciliations record hrecord.1)
  refine ⟨hrecord.1, row, hrow, fun hsame => ?_, hid⟩
  have hdeleted : record.routeLegId ∈ (tables.routeLegs.filter fun leg =>
      leg.fundingIntentId = intentId).map (·.routeLegId) :=
    mem_map.mpr ⟨row, mem_filter.mpr ⟨hrow, by simpa using hsame⟩, hid⟩
  simp [hdeleted] at hrecord

theorem mem_kept {row : FundingRouteLeg} (hrow : row ∈ tables.routeLegs)
    (hother : row.fundingIntentId ≠ intentId) :
    row ∈ tables.routeLegs.filter fun leg => leg.fundingIntentId ≠ intentId :=
  mem_filter.mpr ⟨hrow, by simpa using hother⟩

theorem WellKeyed.replaceRouteLegs (h : WellKeyed tables)
    (hreplace : tables.replaceRouteLegs intentId routeLegs = .ok tables') : WellKeyed tables' := by
  obtain ⟨hlegs, -, hnodup, -⟩ := replaceRouteLegs_ok hreplace
  refine ⟨hnodup, fun record hrecord => ?_⟩
  obtain ⟨-, row, hrow, hother, hid⟩ := h.record_of_replaced hreplace hrecord
  rw [hlegs, ← hid]
  exact mem_map_of_mem (mem_append_left _ (mem_kept hrow hother))

theorem wellKeyed_verifyVenueReadiness : Keeps (fun s => WellKeyed s.tables)
    (verifyVenueReadiness config answers userId intentId legId) := by
  intro s h
  by_cases hfound : ∃ view leg, s.tables.getIntent userId intentId = .ok view ∧
      view.findLeg legId = some leg
  · obtain ⟨view, leg, hview, hleg⟩ := hfound
    have hext : Extends s
        (go (verifyVenueReadiness config answers userId intentId legId) s).2 :=
      extends_verifyVenueReadiness s (Extends.refl s)
    refine ⟨hext.legIds ▸ h.legIds, ?_⟩
    rw [hext.legIds, go_verifyVenueReadiness hview hleg]
    intro record hrecord
    rcases mem_append.mp hrecord with hold | hnew
    · exact h.reconciliations record hold
    · rw [mem_singleton.mp hnew]
      exact mem_map_of_mem (FundingIntentView.mem_of_findLeg hview hleg).1
  · have hnone := fun view leg hview hleg => hfound ⟨view, leg, hview, hleg⟩
    rw [go_verifyVenueReadiness_eq hnone]
    exact h

theorem wellKeyed_refreshIntentStatus : Keeps (fun s => WellKeyed s.tables)
    (refreshIntentStatus config answers userId intentId) :=
  keeps_refreshIntentStatus (fun _ => wellKeyed_verifyVenueReadiness)
    (fun _ _ => keeps_bind keeps_await fun _ => keeps_bind (keeps_modify fun _ h => h) fun _ =>
      keeps_pure)
    (fun legId input => keeps_modify fun s h => h.of_extends
      (extends_updateLeg (grownLeg_change input) legId input.status s) rfl)
    (fun status => keeps_modify fun s h => h.of_extends
      (extends_updateIntentStatus intentId status s) rfl)

theorem wellKeyed_submitRouteLeg : Keeps (fun s => WellKeyed s.tables)
    (submitRouteLeg now userId intentId legId txHash) := by
  refine keeps_bind keeps_loadIntent fun view => keeps_bind keeps_await fun writes =>
    keeps_modify fun s h => ?_
  induction writes generalizing s with
  | nil => exact h
  | cons statement writes ih =>
    refine ih { s with tables := statement.apply s.tables }
      (h.of_extends (extends_apply statement s) ?_)
    cases statement <;> rfl

theorem wellKeyed_quoteIntent : Keeps (fun s => WellKeyed s.tables)
    (quoteIntent answers userId intentId) := by
  intro s h
  rcases quoteIntent_cases answers userId intentId s with
    hsame | ⟨view, routeLegs, tables, -, -, hreplace, hgo⟩
  · rw [hsame]
    exact h
  · rw [hgo]
    exact (h.replaceRouteLegs hreplace).of_extends
      (extends_updateIntentStatus intentId .USER_SIGNATURE_REQUIRED { s with tables }) rfl

def runFunding (config : FundingConfig) (operations : List (FundingAction × FundingAnswers))
    (s : FundingSystem) : FundingSystem :=
  operations.foldl (fun s operation => (go (operation.1.code config operation.2) s).2) s

theorem reaches_runFunding (config : FundingConfig)
    (operations : List (FundingAction × FundingAnswers)) (s : FundingSystem) :
    Reaches (fundingStep config) s (runFunding config operations s) := by
  induction operations generalizing s with
  | nil => exact .refl
  | cons operation operations ih => exact (Run.tail .refl operation trivial rfl).trans (ih _)

theorem wellKeyed_step {operation : FundingAction × FundingAnswers} {t : FundingSystem}
    (h : WellKeyed s.tables) (hstep : fundingStep config s operation = some t) :
    WellKeyed t.tables := by
  obtain ⟨action, answers⟩ := operation
  cases hstep
  cases action with
  | quoteIntent => exact wellKeyed_quoteIntent s h
  | submitRouteLeg => exact wellKeyed_submitRouteLeg s h
  | refreshIntentStatus => exact wellKeyed_refreshIntentStatus s h
  | verifyVenueReadiness => exact wellKeyed_verifyVenueReadiness s h

end LotusRfq.Funding
