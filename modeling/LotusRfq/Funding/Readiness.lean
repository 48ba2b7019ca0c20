import LotusRfq.Funding.Operations

/-!
# LotusRfq — when a LI.FI leg is ready to trade

A LI.FI leg should be ready to trade only once LI.FI reported one of its transfers complete. The
checker takes a leg for received by its state alone, and an inconclusive check moves the leg to a
state it takes for received: verified twice, a leg that was never submitted is ready as soon as
its venue has the balance.

* **`readinessResult_readyToTrade`** — what confirms a leg;
* **`readySound_refreshIntentStatus`** — a refresh asks LI.FI first, so what it confirms has been
  reported;
* **`readySound_iff`** — over a whole sequence of operations, legs and records are ready on a
  report only, exactly when no verification confirms a leg that was taken for received.
-/

namespace LotusRfq.Funding

open Attempts FundingTables Tables Transitions List

/-! ## Reports and readiness -/

/-- LI.FI reported a hash of the leg complete. -/
def Reported (reports : List (String × LifiStatus)) (leg : FundingRouteLeg) : Prop :=
  ∃ txHash ∈ leg.txHashes, (txHash, LifiStatus.DONE_COMPLETED) ∈ reports

def HasReadyRecord (tables : FundingTables) (leg : FundingRouteLeg) : Prop :=
  ∃ record ∈ tables.reconciliations, record.routeLegId = leg.routeLegId ∧ record.readyToTrade = true

/-- A LI.FI leg that is ready, or has a ready record, has a recorded hash that LI.FI reported
complete. -/
def ReadySound (s : FundingSystem) : Prop :=
  ∀ leg ∈ s.tables.routeLegs, leg.routeProvider = .LIFI →
    leg.status = .LEG_READY_TO_TRADE ∨ HasReadyRecord s.tables leg → Reported s.lifiReports leg

def Unquoted (s : FundingSystem) : Prop :=
  s.tables.routeLegs = [] ∧ s.tables.reconciliations = []

/-- A checker is at work for the venue, and the balance it reads covers the leg. -/
def covers (config : FundingConfig) (leg : FundingRouteLeg) (read : BalanceRead) : Bool :=
  match config.venueReadinessCheckers leg.targetVenue, read, leg.destinationAmountEstimate with
  | some checker, .balance (some usable) _, some requiredAmount =>
    checker.enabled && checker.configured &&
      decide (effectiveRequiredAmount requiredAmount checker.balanceTolerance ≤ usable)
  | _, _, _ => false

/-- The operation is not the verification of a LI.FI leg that the checker takes for received and
its venue covers, while LI.FI has reported none of its hashes complete. -/
def VerifiesReported (config : FundingConfig) (s : FundingSystem)
    (operation : FundingAction × FundingAnswers) : Prop :=
  match operation.1 with
  | .verifyVenueReadiness userId fundingIntentId routeLegId =>
    ∀ view leg, s.tables.getIntent userId fundingIntentId = .ok view →
      view.findLeg routeLegId = some leg → leg.routeProvider = .LIFI →
      destinationReceivedForLeg leg = true →
      covers config leg (operation.2.fetchUsableUsdcBalance leg.routeLegId) = true →
      Reported s.lifiReports leg
  | _ => True

variable {config : FundingConfig} {answers : FundingAnswers} {s s₀ t : FundingSystem}
  {userId intentId routeLegId : String} {leg leg' : FundingRouteLeg}

/-! ## What a check confirms -/

theorem check_readyToTrade {checker : ReadinessConfig} (leg : FundingRouteLeg)
    (read : BalanceRead) (hchecker : config.venueReadinessCheckers leg.targetVenue = some checker) :
    (check checker leg read).readyToTrade =
      (destinationReceivedForLeg leg && covers config leg read) := by
  unfold check covers
  rw [hchecker]
  by_cases hgates : destinationReceivedForLeg leg = true ∧ checker.enabled = true ∧
      checker.configured = true
  · obtain ⟨hreceived, henabled, hconfigured⟩ := hgates
    simp only [hreceived, henabled, hconfigured, Bool.not_true, Bool.false_eq_true, if_false,
      Bool.true_and]
    cases read with
    | restricted code => rfl
    | unavailable => rfl
    | balance usableBalance raw =>
      cases usableBalance with
      | none => rfl
      | some usable =>
        cases leg.destinationAmountEstimate with
        | none => rfl
        | some requiredAmount =>
          by_cases hle : effectiveRequiredAmount requiredAmount checker.balanceTolerance ≤ usable
          · simp [hle, henabled, hconfigured]
          · simp [hle, unconfirmed]
  · -- the balance is not even looked at
    have hnot : (destinationReceivedForLeg leg && (checker.enabled && checker.configured)) = false := by
      simpa using hgates
    have hright : ∀ amounts, (destinationReceivedForLeg leg &&
        (checker.enabled && checker.configured && amounts)) = false := by
      intro amounts
      rw [← Bool.and_assoc, hnot, Bool.false_and]
    have hleft : ∀ confirmed, (if !destinationReceivedForLeg leg then
          unconfirmed .UNKNOWN false none "DESTINATION_NOT_CONFIRMED"
        else if !checker.enabled then
          unconfirmed .UNKNOWN true none (checker.venue.text ++ "_FUNDING_READINESS_DISABLED")
        else if !checker.configured then
          unconfirmed .UNKNOWN true none (checker.venue.text ++ "_FUNDING_READINESS_NOT_CONFIGURED")
        else confirmed).readyToTrade = false := by
      intro confirmed
      cases hreceived : destinationReceivedForLeg leg with
      | false => rfl
      | true =>
        cases henabled : checker.enabled with
        | false => rfl
        | true => simp_all [unconfirmed]
    rw [hleft]
    cases read with
    | restricted code => simp
    | unavailable => simp
    | balance usableBalance raw =>
      cases usableBalance with
      | none => simp
      | some usable =>
        cases leg.destinationAmountEstimate with
        | none => simp
        | some requiredAmount => exact (hright _).symm

theorem readinessResult_readyToTrade (leg : FundingRouteLeg) (read : BalanceRead) :
    (readinessResult config leg read).readyToTrade =
      (destinationReceivedForLeg leg && covers config leg read) := by
  unfold readinessResult
  cases hchecker : config.venueReadinessCheckers leg.targetVenue with
  | none => simp [covers, hchecker, checkerNotConfigured, unconfirmed]
  | some checker => exact check_readyToTrade leg read hchecker

theorem check_isReady {checker : ReadinessConfig} (leg : FundingRouteLeg) (read : BalanceRead) :
    (check checker leg read).isReady = (check checker leg read).readyToTrade := by
  unfold check
  repeat' split
  all_goals simp [VenueFundingReadinessResult.isReady, unconfirmed]

theorem readinessResult_isReady (leg : FundingRouteLeg) (read : BalanceRead) :
    (readinessResult config leg read).isReady = (readinessResult config leg read).readyToTrade := by
  unfold readinessResult
  split
  · simp [checkerNotConfigured, unconfirmed, VenueFundingReadinessResult.isReady]
  · exact check_isReady leg read

theorem readinessStatus_eq_ready {result : VenueFundingReadinessResult} :
    readinessStatus result = .LEG_READY_TO_TRADE ↔ result.isReady = true := by
  unfold readinessStatus
  by_cases hready : result.isReady = true
  · simp [hready]
  · by_cases hfailed : result.status = .FAILED <;> simp [hready, hfailed]

/-- LI.FI alone makes no leg ready, and lets a check follow only where it reported the transfer
complete. -/
theorem mapLifiStatus_status (status : LifiStatus) :
    (mapLifiStatusToFundingLeg status).status ≠ .LEG_READY_TO_TRADE ∧
      ((mapLifiStatusToFundingLeg status).status = .LEG_DESTINATION_RECEIVED ∨
        (mapLifiStatusToFundingLeg status).status = .LEG_VENUE_CREDIT_PENDING →
          status = .DONE_COMPLETED) := by
  cases status <;> decide

/-! ## Reports stay reports -/

theorem Reported.grown {reports reports' : List (String × LifiStatus)} (h : Reported reports leg)
    (hleg : GrownLeg leg leg') (hreports : reports <+: reports') : Reported reports' leg' := by
  obtain ⟨txHash, htx, hreport⟩ := h
  exact ⟨txHash, hleg.txHashes.subset htx, hreports.subset hreport⟩

theorem Extends.grown_of_id (h : Extends s t) (hkeys : WellKeyed s.tables)
    (hleg : leg ∈ s.tables.routeLegs) (hleg' : leg' ∈ t.tables.routeLegs)
    (hid : leg'.routeLegId = leg.routeLegId) : GrownLeg leg leg' := by
  obtain ⟨origin, horigin, hgrown⟩ := h.exists_origin hleg'
  have hsame : origin = leg :=
    eq_of_key hkeys.legIds horigin hleg (hgrown.routeLegId.symm.trans hid)
  exact hsame ▸ hgrown

/-! ## Writes that make no leg ready -/

theorem ReadySound.updateLeg (h : ReadySound s) {change : FundingRouteLeg → FundingRouteLeg}
    (hchange : ∀ leg, GrownLeg leg (change leg)) (routeLegId : String) (status : FundingLegState)
    (hstatus : ∀ leg, (change leg).status ≠ .LEG_READY_TO_TRADE) :
    ReadySound { s with tables := s.tables.updateLeg routeLegId change status } := by
  intro leg' hleg' hprovider hready
  rcases mem_update.mp hleg' with ⟨leg, hleg, -, rfl⟩ | ⟨hleg, -⟩
  · have hgrown := hchange leg
    rcases hready with hready | ⟨record, hrecord, hid, hrecordReady⟩
    · exact absurd hready (hstatus leg)
    · refine (h leg hleg (hgrown.routeProvider ▸ hprovider) (.inr ?_)).grown hgrown prefix_rfl
      exact ⟨record, hrecord, hid.trans hgrown.routeLegId, hrecordReady⟩
  · exact h leg' hleg hprovider hready

/-! ## The operations -/

theorem readySound_quoteIntent (hkeys : WellKeyed s.tables) (h : ReadySound s) :
    ReadySound (go (quoteIntent answers userId intentId) s).2 := by
  rcases quoteIntent_cases answers userId intentId s with
    hsame | ⟨view, routeLegs, tables, -, hquoted, hreplace, hgo⟩
  · rw [hsame]
    exact h
  rw [hgo]
  obtain ⟨hlegs, -, hnodup, -⟩ := replaceRouteLegs_ok hreplace
  intro leg hleg hprovider hready
  change leg ∈ tables.routeLegs at hleg
  rw [hlegs, mem_append] at hleg
  rcases hleg with hkept | hnew
  · refine h leg (mem_filter.mp hkept).1 hprovider (hready.imp id ?_)
    rintro ⟨record, hrecord, hid, hrecordReady⟩
    exact ⟨record, (hkeys.record_of_replaced hreplace hrecord).1, hid, hrecordReady⟩
  · -- a leg just quoted has a fresh id, so no row is about it
    exfalso
    obtain ⟨target, -, quote, rfl⟩ := mem_quoted hquoted hnew
    rcases hready with hready | ⟨record, hrecord, hid, -⟩
    · cases hready
    · obtain ⟨-, row, hrow, hother, hrowId⟩ := hkeys.record_of_replaced hreplace hrecord
      rw [hlegs, map_append] at hnodup
      exact (nodup_append.mp hnodup).2.2 _ (mem_map_of_mem (mem_kept hrow hother)) _
        (mem_map_of_mem hnew) (hrowId.trans hid)

theorem readySound_submitRouteLeg {now : ℕ} {txHash : String} (h : ReadySound s) :
    ReadySound (go (submitRouteLeg now userId intentId routeLegId txHash) s).2 := by
  rw [submitRouteLeg, go_bind, go_loadIntent]
  cases hview : s.tables.getIntent userId intentId with
  | error error => exact h
  | ok view =>
    simp only [go_bind, go_await]
    cases hwrites : submitRouteLegWrites now view intentId routeLegId txHash with
    | error error => exact h
    | ok writes =>
      obtain ⟨leg, status, -, -, -, -, -, rfl⟩ := submitRouteLegWrites_ok hwrites
      have hsubmitted : ReadySound { s with
          tables := s.tables.updateRouteLegSubmission leg.routeLegId txHash (submittedStatus leg) } :=
        h.updateLeg (grownLeg_submissionChange txHash _) _ _ fun _ => submittedStatus_ne_ready leg
      by_cases hdirect : leg.routeProvider = .DIRECT_TRANSFER
      · simp only [hdirect, if_true]
        exact hsubmitted.updateLeg (grownLeg_change _) leg.routeLegId .LEG_VENUE_CREDIT_PENDING
          fun _ hready => by cases hready
      · simp only [hdirect, if_false]
        exact hsubmitted

theorem readySound_verifyVenueReadiness (hkeys : WellKeyed s.tables) (h : ReadySound s)
    (hreported : ∀ view leg, s.tables.getIntent userId intentId = .ok view →
      view.findLeg routeLegId = some leg → leg.routeProvider = .LIFI →
      destinationReceivedForLeg leg = true →
      covers config leg (answers.fetchUsableUsdcBalance leg.routeLegId) = true →
      Reported s.lifiReports leg) :
    ReadySound (go (verifyVenueReadiness config answers userId intentId routeLegId) s).2 := by
  by_cases hfound : ∃ view leg, s.tables.getIntent userId intentId = .ok view ∧
      view.findLeg routeLegId = some leg
  · obtain ⟨view, leg, hview, hleg⟩ := hfound
    obtain ⟨hmem, -, -⟩ := FundingIntentView.mem_of_findLeg hview hleg
    rw [go_verifyVenueReadiness hview hleg]
    intro leg' hleg' hprovider hready
    -- the row of the leg itself, or one that the check does not touch
    rcases mem_update.mp hleg' with ⟨row, hrow, hid, rfl⟩ | ⟨hother, hid⟩
    · obtain rfl : row = leg := eq_of_key hkeys.legIds hrow hmem hid
      by_cases hresult : (readinessResult config row
          (answers.fetchUsableUsdcBalance row.routeLegId)).readyToTrade = true
      · rw [readinessResult_readyToTrade, Bool.and_eq_true] at hresult
        exact hreported view row hview hleg hprovider hresult.1 hresult.2
      · rcases hready with hready | ⟨record, hrecord, hrecordId, hrecordReady⟩
        · exact absurd (readinessResult_isReady row _ ▸ readinessStatus_eq_ready.mp hready) hresult
        · refine h row hrow hprovider (.inr ⟨record, ?_, hrecordId, hrecordReady⟩)
          rcases mem_append.mp hrecord with hold | hnew
          · exact hold
          · rw [mem_singleton.mp hnew] at hrecordReady
            exact absurd hrecordReady hresult
    · refine h leg' hother hprovider (hready.imp id ?_)
      rintro ⟨record, hrecord, hrecordId, hrecordReady⟩
      rcases mem_append.mp hrecord with hold | hnew
      · exact ⟨record, hold, hrecordId, hrecordReady⟩
      · rw [mem_singleton.mp hnew] at hrecordId
        exact absurd hrecordId.symm hid
  · rw [go_verifyVenueReadiness_eq fun view leg hview hleg => hfound ⟨view, leg, hview, hleg⟩]
    exact h

/-- What a refresh carries from leg to leg: the system extends the one the view was read in, and
its readiness is sound. -/
structure Refreshing (s₀ s : FundingSystem) : Prop where
  keys : WellKeyed s.tables
  sound : ReadySound s
  extension : Extends s₀ s

theorem keeps_refreshing_verify (hkeys : WellKeyed s₀.tables) (hleg : leg ∈ s₀.tables.routeLegs)
    (hreported : leg.routeProvider = .LIFI → Reported s₀.lifiReports leg) :
    Keeps (Refreshing s₀) (verifyVenueReadiness config answers userId intentId leg.routeLegId) := by
  intro s h
  refine ⟨wellKeyed_verifyVenueReadiness s h.keys, ?_, extends_verifyVenueReadiness s h.extension⟩
  refine readySound_verifyVenueReadiness h.keys h.sound fun view row hview hrow hprovider _ _ => ?_
  obtain ⟨hmem, -, hid⟩ := FundingIntentView.mem_of_findLeg hview hrow
  have hgrown := h.extension.grown_of_id hkeys hleg hmem hid
  exact (hreported (hgrown.routeProvider ▸ hprovider)).grown hgrown h.extension.lifiReports

theorem refreshing_updateLeg (h : Refreshing s₀ s) (routeLegId : String)
    {input : ProviderStatusUpdate} (hstatus : input.status ≠ .LEG_READY_TO_TRADE) :
    Refreshing s₀ { s with tables := s.tables.updateRouteLegProviderStatus routeLegId input } :=
  have hext := extends_updateLeg (grownLeg_change input) routeLegId input.status s
  ⟨h.keys.of_extends hext rfl, h.sound.updateLeg (grownLeg_change input) _ _ fun _ => hstatus,
    h.extension.trans hext⟩

theorem refreshing_report (h : Refreshing s₀ s) (report : String × LifiStatus) :
    Refreshing s₀ { s with lifiReports := s.lifiReports ++ [report] } where
  keys := h.keys
  sound := fun leg hleg hprovider hready =>
    (h.sound leg hleg hprovider hready).grown (GrownLeg.refl leg) (prefix_append _ _)
  extension := h.extension.trans ⟨rfl, rfl, forall₂_grownLeg_refl _, prefix_rfl,
    prefix_append _ _, prefix_rfl⟩

theorem keeps_refreshing_leg (hkeys : WellKeyed s₀.tables) (hsound : ReadySound s₀)
    (hleg : leg ∈ s₀.tables.routeLegs) :
    Keeps (Refreshing s₀) (refreshLeg config answers userId intentId leg) := by
  rw [refreshLeg]
  split
  · exact keeps_pure
  next latestTxHash hlatest =>
    refine keeps_ite keeps_pure ?_
    by_cases hready : leg.status = .LEG_READY_TO_TRADE
    · -- the leg was ready when the view was read, so it had been reported by then
      rw [if_pos hready]
      refine keeps_ite (keeps_verifiedStatus (keeps_refreshing_verify hkeys hleg ?_)) keeps_pure
      exact fun hprovider => hsound leg hleg hprovider (.inl hready)
    rw [if_neg hready]
    by_cases hdirect : leg.routeProvider = .DIRECT_TRANSFER
    · rw [if_pos hdirect]
      refine keeps_ite (keeps_verifiedStatus (keeps_refreshing_verify hkeys hleg ?_)) keeps_pure
      intro hprovider
      rw [hdirect] at hprovider
      cases hprovider
    rw [if_neg hdirect]
    intro s h
    rw [go_bind, askLifi, go_bind, go_await]
    cases answers.lifiStatus leg.routeLegId with
    | error error => exact h
    | ok status =>
      -- the report is on record before the leg is written to or verified
      have hasked := refreshing_report h (latestTxHash, status)
      have hwritten := refreshing_updateLeg hasked leg.routeLegId (mapLifiStatus_status status).1
      simp only [go_bind, go_modify, go_pure, execute, go_ite]
      split
      next hverify =>
        have hcompleted := (mapLifiStatus_status status).2 hverify.1
        have hmid : Refreshing { s with lifiReports := s.lifiReports ++ [(latestTxHash, status)] }
            { s with
              tables := s.tables.updateRouteLegProviderStatus leg.routeLegId
                (mapLifiStatusToFundingLeg status)
              lifiReports := s.lifiReports ++ [(latestTxHash, status)] } :=
          refreshing_updateLeg ⟨hasked.keys, hasked.sound, Extends.refl _⟩ _
            (mapLifiStatus_status status).1
        obtain ⟨row, hrow, hgrown⟩ := h.extension.exists_grown hleg
        have htx : latestTxHash ∈ row.txHashes := hgrown.txHashes.subset (mem_of_getLast? hlatest)
        have hreported : Reported (s.lifiReports ++ [(latestTxHash, status)]) row :=
          ⟨latestTxHash, htx, by simp [hcompleted]⟩
        rw [← hgrown.routeLegId] at hmid ⊢
        have hverify : Keeps (Refreshing { s with
            lifiReports := s.lifiReports ++ [(latestTxHash, status)] })
            (verifyVenueReadiness config answers userId intentId row.routeLegId) :=
          keeps_refreshing_verify hasked.keys hrow fun _ => hreported
        have hstatus : Keeps _ (verifiedStatus config answers userId intentId
            row.routeLegId (mapLifiStatusToFundingLeg status).status) :=
          keeps_verifiedStatus hverify
        have hverified := hstatus _ hmid
        exact ⟨hverified.keys, hverified.sound, hasked.extension.trans hverified.extension⟩
      next => exact hwritten

theorem readySound_refreshIntentStatus (hkeys : WellKeyed s.tables) (h : ReadySound s) :
    ReadySound (go (refreshIntentStatus config answers userId intentId) s).2 := by
  have hstart : Refreshing s s := ⟨hkeys, h, Extends.refl s⟩
  rw [refreshIntentStatus, go_bind, go_loadIntent]
  cases hview : s.tables.getIntent userId intentId with
  | error error => exact h
  | ok view =>
    have hkeeps : Keeps (Refreshing s) (view.routeLegs.mapM
        (refreshLeg config answers userId intentId) >>= fun refreshedStates =>
          if refreshedStates ≠ [] then
            execute (updateIntentStatus intentId (aggregateFundingStatus refreshedStates))
          else pure ()) := by
      refine keeps_bind (keeps_mapM fun leg hleg => ?_) fun states =>
        keeps_ite (keeps_modify fun t ht => ?_) keeps_pure
      · rw [(getIntent_ok hview).2.2.2, listRouteLegs, mem_filter] at hleg
        exact keeps_refreshing_leg hkeys h hleg.1
      · have hext := extends_updateIntentStatus intentId (aggregateFundingStatus states) t
        exact ⟨ht.keys.of_extends hext rfl, ht.sound, ht.extension.trans hext⟩
    exact (hkeeps s hstart).sound

/-! ## Sequences of operations -/

/-- Verifying a leg makes readiness unsound exactly when it confirms one that was taken for
received. -/
theorem readySound_verify_iff (hkeys : WellKeyed s.tables) (h : ReadySound s) :
    ReadySound (go (verifyVenueReadiness config answers userId intentId routeLegId) s).2 ↔
      VerifiesReported config s (.verifyVenueReadiness userId intentId routeLegId, answers) := by
  refine ⟨fun hafter view leg hview hleg hprovider hreceived hcovers => ?_,
    readySound_verifyVenueReadiness hkeys h⟩
  have hresult : (readinessResult config leg
      (answers.fetchUsableUsdcBalance leg.routeLegId)).isReady = true := by
    rw [readinessResult_isReady, readinessResult_readyToTrade, hreceived, hcovers]
    rfl
  rw [go_verifyVenueReadiness hview hleg] at hafter
  -- the row the check left is ready, so it is reported, and it has the hashes of the leg
  refine hafter ((readinessUpdate leg _).change leg) (mem_update.mpr (.inl ⟨leg, ?_, rfl, rfl⟩))
    hprovider (.inl (readinessStatus_eq_ready.mpr hresult))
  exact (FundingIntentView.mem_of_findLeg hview hleg).1

theorem readySound_step_iff {operation : FundingAction × FundingAnswers}
    (hkeys : WellKeyed s.tables) (h : ReadySound s)
    (hstep : fundingStep config s operation = some t) :
    ReadySound t ↔ VerifiesReported config s operation := by
  obtain ⟨action, answers⟩ := operation
  cases hstep
  cases action with
  | quoteIntent => exact iff_of_true (readySound_quoteIntent hkeys h) trivial
  | submitRouteLeg => exact iff_of_true (readySound_submitRouteLeg h) trivial
  | refreshIntentStatus => exact iff_of_true (readySound_refreshIntentStatus hkeys h) trivial
  | verifyVenueReadiness => exact readySound_verify_iff hkeys h

/-- **Ready on a report.** In a sequence of operations on intents that are not quoted yet, the LI.FI
legs and records are ready on a report of LI.FI only, exactly when no verification confirms a leg
that was taken for received. -/
theorem readySound_iff (config : FundingConfig) {s : FundingSystem} (hs : Unquoted s)
    (operations : List (FundingAction × FundingAnswers)) :
    EachStep (fundingStep config) (fun _ _ t => ReadySound t) operations s ↔
      EachStep (fundingStep config) (fun s operation _ => VerifiesReported config s operation)
        operations s := by
  have hkeys : WellKeyed s.tables :=
    ⟨by rw [hs.1]; exact nodup_nil, by rw [hs.2]; intro record hrecord; cases hrecord⟩
  have hsound : ReadySound s := by
    intro leg hleg
    rw [hs.1] at hleg
    cases hleg
  refine eachStep_iff (P := fun s => WellKeyed s.tables ∧ ReadySound s) ?_ ?_ ⟨hkeys, hsound⟩
  · exact fun s operation t h hstep hright => ⟨wellKeyed_step h.1 hstep, hright⟩
  · exact fun s operation t h hstep => readySound_step_iff h.1 h.2 hstep

/-! ### A leg verified twice -/

/-- An intent of 100 for POLYMARKET, which nobody has quoted yet. -/
def unquoted : FundingSystem where
  tables := {
    intents := [⟨"intent-1", "user-1", .INTENT_CREATED⟩]
    targets := [⟨"target-1", "intent-1", .POLYMARKET, "USDC", 100, .LEG_CREATED⟩]
    routeLegs := []
    reconciliations := [] }
  lifiReports := []
  readinessChecks := []

def polymarketChecked : FundingConfig where
  venueReadinessChecksEnabled := true
  venueReadinessCheckers := fun venue =>
    if venue = .POLYMARKET then some ⟨.POLYMARKET, true, true, 0, le_refl 0⟩ else none

/-- LI.FI quotes 99 and reports every transfer complete; the venue holds 250. -/
def plentiful : FundingAnswers where
  lifiStatus := fun _ => .ok .DONE_COMPLETED
  fetchUsableUsdcBalance := fun _ => .balance (some 250) none
  quote := fun _ => .ok ⟨"leg-1", .LIFI, some 99, 60⟩

/-- Quoted and verified twice; no transaction was ever submitted. -/
def verifiedTwice : List (FundingAction × FundingAnswers) :=
  [(.quoteIntent "user-1" "intent-1", plentiful),
    (.verifyVenueReadiness "user-1" "intent-1" "leg-1", plentiful),
    (.verifyVenueReadiness "user-1" "intent-1" "leg-1", plentiful)]

/-- The leg of `verifiedTwice` is ready to trade, and nothing was sent. -/
theorem verifiedTwice_unsound : ¬ ∀ config s, Unquoted s → ∀ operations,
    EachStep (fundingStep config) (fun _ _ t => ReadySound t) operations s := by
  intro h
  have hlast := (((h polymarketChecked unquoted ⟨rfl, rfl⟩ verifiedTwice _ rfl).2 _ rfl).2 _ rfl).1
  have hready : ∃ leg ∈ (go (verifyVenueReadiness polymarketChecked plentiful "user-1" "intent-1"
      "leg-1") (go (verifyVenueReadiness polymarketChecked plentiful "user-1" "intent-1" "leg-1")
        (go (quoteIntent plentiful "user-1" "intent-1") unquoted).2).2).2.tables.routeLegs,
      leg.routeProvider = .LIFI ∧ leg.status = .LEG_READY_TO_TRADE ∧ leg.txHashes = [] := by
    decide +kernel
  obtain ⟨leg, hleg, hprovider, hstatus, hnone⟩ := hready
  obtain ⟨txHash, htx, -⟩ := hlast leg hleg hprovider (.inl hstatus)
  rw [hnone] at htx
  cases htx

def transferHash : String := "0x" ++ String.ofList (List.replicate 64 'a')

/-- Quoted, submitted, refreshed and verified once more. -/
def submittedFirst : List (FundingAction × FundingAnswers) :=
  [(.quoteIntent "user-1" "intent-1", plentiful),
    (.submitRouteLeg 0 "user-1" "intent-1" "leg-1" transferHash, plentiful),
    (.refreshIntentStatus "user-1" "intent-1", plentiful)]

theorem readySound_submittedFirst : Unquoted unquoted ∧
    EachStep (fundingStep polymarketChecked) (fun _ _ t => ReadySound t) submittedFirst unquoted :=
  ⟨⟨rfl, rfl⟩, (readySound_iff polymarketChecked ⟨rfl, rfl⟩ submittedFirst).mpr
    fun _ _ => ⟨trivial, fun _ _ => ⟨trivial, fun _ _ => ⟨trivial, trivial⟩⟩⟩⟩

end LotusRfq.Funding
