import LotusRfq.Funding.WithdrawalOperations

/-!
# LotusRfq — refreshing a bridge-back

A withdrawal that LI.FI bridges back, alone or after a first hop that its venue released. Refreshing
asks LI.FI as long as the provider status of the leg says that it is a bridge-back leg; a
reconciliation writes another provider status over it.

* **`ensures_refreshOther`** — a leg that is no bridge-back leg, refreshed;
* **`completed_of_delivered`** — a first report of the delivery completes the intent;
* **`not_completed_of_inconclusive`** — after a report of anything else no later one does;
* **`completed_iff`** — so the outcome is the same exactly when nothing was reported before.
-/

namespace LotusRfq.Funding

open Attempts Tables WithdrawalTables List

/-! ## What is refreshed -/

/-- A first hop that waits for the bridge-back leg, submitted. -/
structure FirstHop (intent : WithdrawalIntent) (bridgeBack hop : WithdrawalRouteLeg) : Prop where
  mode : bridgeBack.providerStatus.mode = some "VENUE_EVM_BRIDGE_BACK"
  other : isLifiBridgeBackWithdrawalLeg hop = false
  source : hop.withdrawalSourceId = bridgeBack.withdrawalSourceId
  venue : hop.sourceVenue = bridgeBack.sourceVenue
  planned : hop.providerStatus.bridgeBackPlanned = true
  chain : hop.providerStatus.finalDestinationChain = some intent.destinationChain
  wallet : hop.providerStatus.finalDestinationWalletAddress = some intent.destinationWalletAddress
  txHashes : hop.txHashes ≠ []
  status : hop.status ∈ refreshedStates

/-- An intent whose legs are a LI.FI bridge-back leg, alone or after a first hop, all submitted. -/
structure SubmittedBridgeBack (tables : WithdrawalTables) (userId withdrawalIntentId : String)
    (view : WithdrawalIntentView) (firstHop : Option WithdrawalRouteLeg)
    (bridgeBack : WithdrawalRouteLeg) : Prop where
  legIds : (tables.routeLegs.map (·.withdrawalRouteLegId)).Nodup
  loaded : tables.getWithdrawalIntent userId withdrawalIntentId = .ok view
  routeLegs : view.routeLegs = firstHop.toList ++ [bridgeBack]
  isBridgeBack : isLifiBridgeBackWithdrawalLeg bridgeBack = true
  txHashes : bridgeBack.txHashes ≠ []
  status : bridgeBack.status ∈ refreshedStates
  firstHop : ∀ hop ∈ firstHop, FirstHop view.intent bridgeBack hop

/-- LI.FI answers about the leg with `report`. -/
def Reports (withdrawalRouteLegId : String) (report : Except FundingError LifiTransfer)
    (answers : WithdrawalAnswers) : Prop :=
  ∀ request, answers.lifiStatus withdrawalRouteLegId request = report

/-- LI.FI is unavailable, or has nothing to report yet. -/
def Inconclusive : Except FundingError LifiTransfer → Prop
  | .error _ => True
  | .ok transfer => transfer.status = .PENDING ∨ transfer.status = .NOT_FOUND

/-- LI.FI has delivered a positive amount of the expected token between the expected wallets. -/
structure Delivered (intent : WithdrawalIntent) (leg : WithdrawalRouteLeg)
    (transfer : LifiTransfer) : Prop where
  status : transfer.status = .DONE_COMPLETED
  wallets : ownershipVerified intent leg transfer = true
  amount : ∃ amount, transfer.receivedAmount = some amount ∧ 0 < amount
  token : equalsIgnoreCase (some (transfer.receivedToken.getD leg.sourceToken))
    (expectedWithdrawalResultToken leg) = true

/-- The completion checker answers, and the persistence gate lets completions pass. -/
structure Unhindered (answers : WithdrawalAnswers) : Prop where
  check : ∀ withdrawalRouteLegId,
    ∃ result, answers.checkCompletion withdrawalRouteLegId = .ok result
  persist : ∀ leg result, answers.assertCanPersist leg result = .ok ()

def refreshes (config : WithdrawalConfig) (userId withdrawalIntentId : String)
    (answers : List WithdrawalAnswers) (s : WithdrawalSystem) : WithdrawalSystem :=
  answers.foldl (fun s answers =>
    (go (refreshWithdrawalStatus config answers userId withdrawalIntentId) s).2) s

def Completed (userId withdrawalIntentId : String) (legs : List WithdrawalRouteLeg)
    (s : WithdrawalSystem) : Prop :=
  ∃ view, s.tables.getWithdrawalIntent userId withdrawalIntentId = .ok view ∧
    view.intent.status = .COMPLETED ∧
    view.routeLegs.map (fun leg => (leg.withdrawalRouteLegId, leg.status)) =
      legs.map fun leg => (leg.withdrawalRouteLegId, .WITHDRAWAL_LEG_COMPLETED)

/-! ## The rows while a refresh runs -/

variable {config : WithdrawalConfig} {answers : WithdrawalAnswers} {s₀ s : WithdrawalSystem}
  {userId intentId : String} {view : WithdrawalIntentView}
  {leg bridge : WithdrawalRouteLeg} {firstHop : Option WithdrawalRouteLeg}
  {R R' : WithdrawalRouteLeg → Prop}

/-- Nothing that was there is gone, and `R` holds of every leg. -/
def Holds (s₀ : WithdrawalSystem) (R : WithdrawalRouteLeg → Prop) (s : WithdrawalSystem) : Prop :=
  WithdrawalsExtend s₀ s ∧ ∀ row ∈ s.tables.routeLegs, R row

theorem ensures_record {record : WithdrawalReconciliationRecord}
    (hleg : record.withdrawalRouteLegId ∈ s₀.tables.routeLegs.map (·.withdrawalRouteLegId)) :
    Ensures (Holds s₀ R) (executeWithdrawalChecked (createWithdrawalReconciliationRecord record))
      fun _ => Holds s₀ R := by
  rintro s ⟨hs, hrows⟩
  have hcreate : createWithdrawalReconciliationRecord record s.tables = .ok { s.tables with
      reconciliations := s.tables.reconciliations ++ [record] } :=
    if_pos (hs.legIds ▸ hleg)
  refine ⟨(), { s with tables := { s.tables with
    reconciliations := s.tables.reconciliations ++ [record] } }, ?_,
    hs.trans (extends_createWithdrawalReconciliationRecord hcreate), hrows⟩
  simp only [executeWithdrawalChecked, go_bind, go_get, go_await, hcreate, go_set]

variable {legId : String} {input : ReconciliationUpdate}
  {report : Except FundingError LifiTransfer} {intent : WithdrawalIntent}
  {transfer : LifiTransfer}

theorem ensures_reconciliation
    (hrow : ∀ row, R row → row.withdrawalRouteLegId = legId → R' (input.change
      row)) (hother : ∀ row, R row → row.withdrawalRouteLegId ≠ legId → R' row) :
    Ensures (Holds s₀ R) (executeWithdrawal (updateWithdrawalRouteLegReconciliation legId input))
      fun _ => Holds s₀ R' := by
  refine ensures_modify fun s hs => ?_
  refine ⟨hs.1.trans (extends_updateWithdrawalLeg (grownWithdrawalLeg_change input)
    legId input.status s), fun row hmem => ?_⟩
  rcases mem_update.mp hmem with ⟨old, hold, hkey, rfl⟩ | ⟨hold, hkey⟩
  · exact hrow old (hs.2 old hold) hkey
  · exact hother row (hs.2 row hold) hkey

theorem mem_of_loaded (h : s.tables.getWithdrawalIntent userId intentId = .ok view) :
    s.tables.findWithdrawalIntentById intentId = some view.intent ∧
      view.intent.userId = userId ∧ view.routeLegs = s.tables.listWithdrawalRouteLegs intentId := by
  unfold getWithdrawalIntent at h
  split at h
  next => cases h
  next intent hfind =>
    split at h
    next => cases h
    next huser =>
      cases h
      exact ⟨hfind, not_not.mp huser, rfl⟩

theorem legId_mem (h : s.tables.getWithdrawalIntent userId intentId = .ok view)
    (hleg : leg ∈ view.routeLegs) :
    leg ∈ s.tables.routeLegs ∧ leg.withdrawalIntentId = intentId := by
  rw [(mem_of_loaded h).2.2, listWithdrawalRouteLegs, mem_filter] at hleg
  exact ⟨hleg.1, of_decide_eq_true hleg.2⟩

theorem loaded_of_extends (h : s₀.tables.getWithdrawalIntent userId intentId = .ok view)
    (hs : WithdrawalsExtend s₀ s) :
    ∃ view', s.tables.getWithdrawalIntent userId intentId = .ok view' ∧
      view'.intent.identity = view.intent.identity ∧ view'.routeLegs.map (·.withdrawalRouteLegId) =
        view.routeLegs.map (·.withdrawalRouteLegId) := by
  obtain ⟨hfind, huser, hlegs⟩ := mem_of_loaded h
  -- the row of the intent, by its identity
  have hselect : (s.tables.findWithdrawalIntentById intentId).map (·.identity) =
      (s₀.tables.findWithdrawalIntentById intentId).map (·.identity) := by
    have hcolumn (intents : List WithdrawalIntent) :
        (select WithdrawalIntent.withdrawalIntentId intentId intents).map (·.identity) =
          (intents.map (·.identity)).find? fun intent =>
            intent.withdrawalIntentId = intentId := by
      rw [find?_map]
      rfl
    rw [findWithdrawalIntentById, findWithdrawalIntentById, hcolumn, hcolumn, hs.intents]
  rw [hfind, Option.map_some, Option.map_eq_some_iff] at hselect
  obtain ⟨intent', hfind', hidentity⟩ := hselect
  have huser' : intent'.userId = userId := by
    have hsame : intent'.identity.userId = view.intent.identity.userId := by rw [hidentity]
    exact hsame.trans huser
  -- the legs, by their ids and the ids of their intents
  have hkeys : s.tables.routeLegs.map (fun leg => (leg.withdrawalIntentId,
      leg.withdrawalRouteLegId)) = s₀.tables.routeLegs.map fun leg =>
        (leg.withdrawalIntentId, leg.withdrawalRouteLegId) :=
    map_of_forall₂ hs.routeLegs fun hgrown => by
      rw [hgrown.withdrawalIntentId, hgrown.withdrawalRouteLegId]
  have hlist (legs : List WithdrawalRouteLeg) :
      (legs.filter fun leg => leg.withdrawalIntentId = intentId).map (·.withdrawalRouteLegId) =
        ((legs.map fun leg => (leg.withdrawalIntentId, leg.withdrawalRouteLegId)).filter
          fun key => key.1 = intentId).map (·.2) := by
    rw [filter_map, map_map]
    rfl
  refine ⟨⟨intent', s.tables.listWithdrawalSources intentId,
    s.tables.listWithdrawalRouteLegs intentId,
    s.tables.listWithdrawalReconciliations intentId⟩, ?_, hidentity, ?_⟩
  · rw [getWithdrawalIntent, hfind']
    exact if_neg (not_not.mpr huser')
  · rw [hlegs]
    show (s.tables.routeLegs.filter _).map _ = (s₀.tables.routeLegs.filter _).map _
    rw [hlist, hlist, hkeys]

/-! ## Refreshing the other legs -/

theorem ensures_refreshPolymarketBridge
    (hlegs : ∀ leg ∈ view.routeLegs, leg.providerStatus.provider = some "POLYMARKET_BRIDGE" →
      ∀ row (input : ReconciliationUpdate), R row →
        row.withdrawalRouteLegId = leg.withdrawalRouteLegId → input.status = leg.status →
        input.providerStatus.provider = leg.providerStatus.provider → R (input.change row)) :
    Ensures (Holds s₀ R) (refreshPolymarketBridgeSandboxStatus config answers view)
      fun _ => Holds s₀ R := by
  refine ensures_ite (fun _ => ensures_pure fun _ => id) fun _ =>
    ensures_bind (Q := fun _ => Holds s₀ R) ?_ fun _ => ensures_pure fun _ => id
  have hbody : ∀ leg ∈ view.routeLegs, Ensures (Holds s₀ R) (refreshPolymarketBridgeLeg answers leg)
      fun _ s => Holds s₀ R s ∧ True := by
    intro leg hleg
    refine ensures_ite (fun _ => ensures_pure fun _ hs => ⟨hs, trivial⟩) fun hsandbox =>
      ensures_ite (fun _ => ensures_pure fun _ hs => ⟨hs, trivial⟩) fun _ => ?_
    have hprovider : leg.providerStatus.provider = some "POLYMARKET_BRIDGE" :=
      not_not.mp fun hne => hsandbox (.inl hne)
    refine Ensures.weaken ?_ fun _ _ hs => ⟨hs, trivial⟩
    refine ensures_reconciliation (fun row hrow hkey => ?_) fun _ hrow _ => hrow
    refine hlegs leg hleg hprovider row _ hrow hkey rfl ?_
    -- the provider is copied
    dsimp only
    split <;> rfl
  exact (ensures_mapM hbody).weaken fun _ _ hs => hs.1

/-- A leg that is no bridge-back leg, refreshed: whatever the checker says of it has to keep `R`. -/
theorem ensures_refreshOther (hanswers : Unhindered answers)
    (hleg : leg.withdrawalRouteLegId ∈ s₀.tables.routeLegs.map (·.withdrawalRouteLegId))
    (hother : isLifiBridgeBackWithdrawalLeg leg = false)
    (hR : ∀ result, answers.checkCompletion leg.withdrawalRouteLegId = .ok result →
      ∀ row, R row → row.withdrawalRouteLegId = leg.withdrawalRouteLegId →
        R ((completionUpdate (mapWithdrawalCompletionResult view.intent leg result) result).change
          row)) :
    Ensures (Holds s₀ R) (refreshWithdrawalLeg config answers intentId view leg)
      fun _ => Holds s₀ R := by
  unfold refreshWithdrawalLeg
  split
  next => exact ensures_pure fun _ => id
  next latestTxHash _ =>
    refine ensures_ite (fun _ => ensures_pure fun _ => id) fun _ =>
      ensures_ite (fun _ => ensures_pure fun _ => id) fun _ => ?_
    obtain ⟨result, hresult⟩ := hanswers.check leg.withdrawalRouteLegId
    have hcompletion : completionResult answers view.intent leg latestTxHash = .ok result := by
      rw [completionResult, hother]
      exact hresult
    have hgate : passPersistenceGate answers leg result
        (mapWithdrawalCompletionResult view.intent leg result) = .ok () := by
      unfold passPersistenceGate
      split
      · exact hanswers.persist leg result
      · rfl
    refine ensures_bind (ensures_await hcompletion (Q := fun answer s =>
      Holds s₀ R s ∧ answer = result) fun _ hs => ⟨hs, rfl⟩) fun answer => ?_
    rintro s ⟨hs, rfl⟩
    refine ensures_bind (P := Holds s₀ R) (Q := fun _ => Holds s₀ R)
      (ensures_await hgate fun _ => id) (fun _ => ?_) s hs
    refine ensures_bind (ensures_record hleg) fun _ => ensures_bind
      (ensures_reconciliation (hR answer hresult) fun _ hrow _ => hrow) fun _ => ?_
    refine ensures_ite (fun hbridge => ?_) fun _ => ensures_pure fun _ => id
    rw [hother] at hbridge
    exact absurd hbridge.2 Bool.false_ne_true

/-! ## Refreshing the bridge-back leg -/

theorem ensures_refreshSubmitted (htxHashes : leg.txHashes ≠ [])
    (hstatus : leg.status ∈ refreshedStates) (hbridge : isLifiBridgeBackWithdrawalLeg leg = true)
    {Q : WithdrawalLegState × List String → WithdrawalSystem → Prop} (h : ∀ latestTxHash result,
      result = checkLifiBridgeBackStatus view.intent leg latestTxHash
        (answers.lifiStatus leg.withdrawalRouteLegId
          (lifiStatusRequest view.intent leg latestTxHash)) →
      Ensures (Holds s₀ R) (do
        await (passPersistenceGate answers leg result
          (mapWithdrawalCompletionResult view.intent leg result))
        recordCompletion intentId view leg latestTxHash result
          (mapWithdrawalCompletionResult view.intent leg result)) Q) :
    Ensures (Holds s₀ R) (refreshWithdrawalLeg config answers intentId view leg) Q := by
  unfold refreshWithdrawalLeg
  split
  next hnone => exact absurd (getLast?_eq_none_iff.mp hnone) htxHashes
  next latestTxHash _ =>
    refine ensures_ite (fun hnot => absurd hstatus hnot) fun _ =>
      ensures_ite (fun hnot => absurd hbridge hnot.1) fun _ => ?_
    have hcompletion : completionResult answers view.intent leg latestTxHash =
        .ok (checkLifiBridgeBackStatus view.intent leg latestTxHash
          (answers.lifiStatus leg.withdrawalRouteLegId
            (lifiStatusRequest view.intent leg latestTxHash))) := by
      rw [completionResult, hbridge]
      rfl
    intro s hs
    rw [hcompletion]
    exact h latestTxHash _ rfl s hs

theorem mapResult_of_inconclusive {latestTxHash : String} (h : Inconclusive report) :
    mapWithdrawalCompletionResult intent leg
      (checkLifiBridgeBackStatus intent leg latestTxHash report) =
        .WITHDRAWAL_LEG_RETRY_REQUIRED := by
  have hunknown : (checkLifiBridgeBackStatus intent leg latestTxHash report).status = .UNKNOWN := by
    cases report with
    | error error => rfl
    | ok transfer =>
      rcases h with hpending | hmissing
      · simp [checkLifiBridgeBackStatus, hpending]
      · simp [checkLifiBridgeBackStatus, hmissing]
  simp [mapWithdrawalCompletionResult, hunknown]

theorem mapResult_of_delivered {latestTxHash : String}
    (hbridge : isLifiBridgeBackWithdrawalLeg leg = true) (h : Delivered intent leg transfer) :
    mapWithdrawalCompletionResult intent leg
      (checkLifiBridgeBackStatus intent leg latestTxHash (.ok transfer)) =
        .WITHDRAWAL_LEG_COMPLETED := by
  obtain ⟨amount, hamount, hpositive⟩ := h.amount
  have hwallets := h.wallets
  rw [ownershipVerified, Bool.and_eq_true] at hwallets
  have hchain : equalsIgnoreCase (some intent.destinationChain) intent.destinationChain = true := by
    simp [equalsIgnoreCase]
  simp [mapWithdrawalCompletionResult, checkLifiBridgeBackStatus, h.status, h.wallets,
    destinationMatches, amountMatches, hwallets.2, hchain, h.token, hamount, hpositive, hbridge]

theorem completed_of_mapResult {result : WithdrawalCompletionEvidenceResult}
    (h : mapWithdrawalCompletionResult intent leg result = .WITHDRAWAL_LEG_COMPLETED) :
    result.completed = true := by
  unfold mapWithdrawalCompletionResult at h
  by_contra hopen
  rw [if_neg hopen] at h
  repeat' split at h
  all_goals cases h

/-- A leg that waits: it is going to be asked about as any other, and is not completed. -/
def Lost (withdrawalIntentId withdrawalRouteLegId : String) (row : WithdrawalRouteLeg) : Prop :=
  (row.withdrawalIntentId = withdrawalIntentId → isLifiBridgeBackWithdrawalLeg row = false) ∧
    (row.withdrawalRouteLegId = withdrawalRouteLegId → row.status ≠ .WITHDRAWAL_LEG_COMPLETED)

def Other (withdrawalIntentId withdrawalRouteLegId : String) (row : WithdrawalRouteLeg) : Prop :=
  row.withdrawalIntentId = withdrawalIntentId → row.withdrawalRouteLegId ≠ withdrawalRouteLegId →
    isLifiBridgeBackWithdrawalLeg row = false

theorem change_other (row : WithdrawalRouteLeg) (h : input.providerStatus.provider ≠ some "LIFI") :
    isLifiBridgeBackWithdrawalLeg (input.change row) = false := by
  show (decide (input.providerStatus.provider = some "LIFI") && _) = false
  rw [decide_eq_false h, Bool.false_and]

/-- **After an inconclusive report** the leg is no longer known as a bridge-back leg. -/
theorem ensures_refreshInconclusive
    (hleg : leg.withdrawalRouteLegId ∈ s₀.tables.routeLegs.map (·.withdrawalRouteLegId))
    (htxHashes : leg.txHashes ≠ []) (hstatus : leg.status ∈ refreshedStates)
    (hbridge : isLifiBridgeBackWithdrawalLeg leg = true)
    (hreports : Reports leg.withdrawalRouteLegId report answers) (hreport : Inconclusive report) :
    Ensures (Holds s₀ (Other intentId leg.withdrawalRouteLegId))
      (refreshWithdrawalLeg config answers intentId view leg)
      fun _ => Holds s₀ (Lost intentId leg.withdrawalRouteLegId) := by
  refine ensures_refreshSubmitted htxHashes hstatus hbridge fun latestTxHash result hresult => ?_
  rw [hreports] at hresult
  have hnext : mapWithdrawalCompletionResult view.intent leg result =
      .WITHDRAWAL_LEG_RETRY_REQUIRED := hresult ▸ mapResult_of_inconclusive hreport
  rw [hnext]
  refine ensures_bind (Q := fun _ => Holds s₀ (Other intentId leg.withdrawalRouteLegId))
    (ensures_await rfl fun _ => id) fun _ => ?_
  refine ensures_bind (ensures_record hleg) fun _ => ensures_bind
    (Q := fun _ => Holds s₀ (Lost intentId leg.withdrawalRouteLegId))
    (ensures_reconciliation (fun row _ _ => ⟨fun _ => change_other row nofun, fun _ => ?_⟩)
      fun row hrow hne => ⟨fun hintent => hrow hintent hne, fun heq => absurd heq hne⟩) fun _ => ?_
  · show WithdrawalLegState.WITHDRAWAL_LEG_RETRY_REQUIRED ≠ .WITHDRAWAL_LEG_COMPLETED
    decide
  · exact ensures_ite (fun hcompleted => nomatch hcompleted.1) fun _ => ensures_pure fun _ => id

/-! ## Completion -/

def Done (withdrawalRouteLegIds : List String) (row : WithdrawalRouteLeg) : Prop :=
  row.withdrawalRouteLegId ∈ withdrawalRouteLegIds → row.status = .WITHDRAWAL_LEG_COMPLETED

theorem ensures_complete {withdrawalRouteLegIds : List String}
    (hinput : input.status = .WITHDRAWAL_LEG_COMPLETED) :
    Ensures (Holds s₀ (Done withdrawalRouteLegIds))
      (executeWithdrawal (updateWithdrawalRouteLegReconciliation legId input))
      fun _ => Holds s₀ (Done (legId :: withdrawalRouteLegIds)) := by
  refine ensures_reconciliation (fun row _ _ _ => hinput) fun row hrow hne hmem => ?_
  rcases mem_cons.mp hmem with heq | hold
  · exact absurd heq hne
  · exact hrow hold

theorem sourceLegsSatisfied_eq
    (h : SubmittedBridgeBack s.tables userId intentId view firstHop bridge) :
    sourceLegsSatisfied view bridge = firstHop.toList := by
  rw [sourceLegsSatisfied, h.routeLegs, filter_append]
  have hself : List.filter (fun candidate =>
      decide (candidate.withdrawalRouteLegId ≠ bridge.withdrawalRouteLegId) &&
        decide (candidate.withdrawalSourceId = bridge.withdrawalSourceId) &&
        decide (candidate.sourceVenue = bridge.sourceVenue) &&
        decide (candidate.status ≠ .WITHDRAWAL_LEG_COMPLETED) &&
        decide (candidate.status ≠ .WITHDRAWAL_LEG_FAILED) &&
        candidate.providerStatus.bridgeBackPlanned &&
        equalsIgnoreCase candidate.providerStatus.finalDestinationChain
          view.intent.destinationChain &&
        equalsIgnoreCase candidate.providerStatus.finalDestinationWalletAddress
          view.intent.destinationWalletAddress) [bridge] = [] := by
    simp
  rw [hself, append_nil, filter_eq_self]
  intro hop hmem
  have hsome : firstHop = some hop := Option.mem_toList.mp hmem
  have hhop := h.firstHop hop hsome
  have hne : hop.withdrawalRouteLegId ≠ bridge.withdrawalRouteLegId := by
    -- the ids of the view's legs are distinct
    have hids : (view.routeLegs.map (·.withdrawalRouteLegId)).Nodup := by
      rw [(mem_of_loaded h.loaded).2.2]
      exact h.legIds.sublist (filter_sublist.map _)
    rw [h.routeLegs, hsome] at hids
    intro heq
    simp [heq] at hids
  have hopen : hop.status ≠ .WITHDRAWAL_LEG_COMPLETED ∧ hop.status ≠ .WITHDRAWAL_LEG_FAILED := by
    have hstatus := hhop.status
    constructor <;> intro heq <;> rw [heq] at hstatus <;> exact absurd hstatus (by decide)
  simp [hne, hhop.source, hhop.venue, hopen.1, hopen.2, hhop.planned, hhop.chain, hhop.wallet,
    equalsIgnoreCase]

theorem ensures_completeSourceLegs {bridgeBackTxHash : String}
    (h : SubmittedBridgeBack s₀.tables userId intentId view firstHop bridge) :
    Ensures (Holds s₀ (Done [bridge.withdrawalRouteLegId]))
      (completeVenueEvmSourceLegsSatisfiedByBridgeBack intentId view bridge bridgeBackTxHash)
      fun completedSourceLegIds s =>
        completedSourceLegIds = firstHop.toList.map (·.withdrawalRouteLegId) ∧
          Holds s₀ (Done (view.routeLegs.map (·.withdrawalRouteLegId))) s := by
  have hprovider : bridge.providerStatus.provider = some "LIFI" := by
    have hbridge := h.isBridgeBack
    rw [isLifiBridgeBackWithdrawalLeg, Bool.and_eq_true] at hbridge
    exact of_decide_eq_true hbridge.1
  unfold completeVenueEvmSourceLegsSatisfiedByBridgeBack
  rw [sourceLegsSatisfied_eq h, h.routeLegs]
  cases hcase : firstHop with
  | none =>
    refine ensures_ite (fun _ => ensures_pure fun s hs => ⟨rfl, hs⟩) fun _ =>
      ensures_pure fun s hs => ⟨rfl, hs⟩
  | some hop =>
    have hhop := h.firstHop hop hcase
    have hleg : hop ∈ view.routeLegs := by
      rw [h.routeLegs, hcase]
      exact mem_cons_self
    refine ensures_ite (fun hnot => absurd hnot ?_) fun _ => ?_
    · rintro (hnot | hnot)
      · exact hnot hprovider
      · exact hnot hhop.mode
    · refine ensures_bind (Q := fun completedId s => completedId = hop.withdrawalRouteLegId ∧
        Holds s₀ (Done [hop.withdrawalRouteLegId, bridge.withdrawalRouteLegId]) s) ?_ ?_
      · refine ensures_bind (ensures_record (mem_map_of_mem (legId_mem h.loaded hleg).1))
          fun _ => ?_
        exact ensures_bind (ensures_complete rfl) fun _ => ensures_pure fun s hs => ⟨rfl, hs⟩
      · rintro completedId s ⟨rfl, hs⟩
        exact ⟨_, s, rfl, rfl, hs⟩

/-- **The delivery** completes the bridge-back leg and its first hop. -/
theorem ensures_refreshDelivered (hanswers : Unhindered answers)
    (h : SubmittedBridgeBack s₀.tables userId intentId view firstHop bridge)
    (hreports : Reports bridge.withdrawalRouteLegId (.ok transfer) answers)
    (hdelivered : Delivered view.intent bridge transfer) :
    Ensures (Holds s₀ (Done [])) (refreshWithdrawalLeg config answers intentId view bridge)
      fun pushed s =>
        pushed = (.WITHDRAWAL_LEG_COMPLETED, firstHop.toList.map (·.withdrawalRouteLegId)) ∧
          Holds s₀ (Done (view.routeLegs.map (·.withdrawalRouteLegId))) s := by
  have hleg : bridge ∈ view.routeLegs := by
    rw [h.routeLegs]
    exact mem_append_right _ (mem_singleton_self _)
  refine ensures_refreshSubmitted h.txHashes h.status h.isBridgeBack
    fun latestTxHash result hresult => ?_
  rw [hreports] at hresult
  have hnext : mapWithdrawalCompletionResult view.intent bridge result =
      .WITHDRAWAL_LEG_COMPLETED := hresult ▸ mapResult_of_delivered h.isBridgeBack hdelivered
  rw [hnext]
  refine ensures_bind (Q := fun _ => Holds s₀ (Done []))
    (ensures_await (hanswers.persist bridge result) fun _ => id) fun _ => ?_
  refine ensures_bind (ensures_record (mem_map_of_mem (legId_mem h.loaded hleg).1)) fun _ =>
    ensures_bind (ensures_complete rfl) fun _ => ?_
  refine ensures_ite (fun _ => ?_) fun hnot => absurd ⟨rfl, h.isBridgeBack⟩ hnot
  refine ensures_bind (ensures_completeSourceLegs h) fun completedSourceLegIds => ?_
  exact ensures_pure fun s ⟨hids, hs⟩ => ⟨by rw [hids], hs⟩

/-! ## Whole refreshes -/

theorem ensures_load (h : s.tables.getWithdrawalIntent userId intentId = .ok view) :
    Ensures (· = s) (loadWithdrawalIntent userId intentId)
      fun loaded t => loaded = view ∧ t = s := by
  rintro t rfl
  exact ⟨view, t, by rw [go_loadWithdrawalIntent, h], rfl, rfl⟩

theorem ensures_aggregate {states : WithdrawalAggregateState} :
    Ensures (Holds s₀ R) (executeWithdrawal (updateWithdrawalIntentStatus intentId states))
      fun _ => Holds s₀ R :=
  ensures_modify fun s hs =>
    ⟨hs.1.trans (extends_updateWithdrawalIntentStatus intentId states s), hs.2⟩

theorem holds_self (h : ∀ row ∈ s.tables.routeLegs, R row) : Holds s R s := ⟨.refl s, h⟩

theorem ensures_refresh_inconclusive (config : WithdrawalConfig)
    (h : SubmittedBridgeBack s.tables userId intentId view firstHop bridge)
    (hanswers : Unhindered answers) (hreports : Reports bridge.withdrawalRouteLegId report answers)
    (hreport : Inconclusive report) :
    Ensures (· = s) (refreshWithdrawalStatus config answers userId intentId)
      fun _ => Holds s (Lost intentId bridge.withdrawalRouteLegId) := by
  have hbridge : bridge ∈ view.routeLegs := by
    rw [h.routeLegs]
    exact mem_append_right _ (mem_singleton_self _)
  have hid {leg : WithdrawalRouteLeg} (hleg : leg ∈ view.routeLegs) :
      leg.withdrawalRouteLegId ∈ s.tables.routeLegs.map (·.withdrawalRouteLegId) :=
    mem_map_of_mem (legId_mem h.loaded hleg).1
  -- of the rows of the intent, only the bridge-back leg is one
  have hstart : ∀ row ∈ s.tables.routeLegs, Other intentId bridge.withdrawalRouteLegId row := by
    intro row hrow hintent hne
    have hmem : row ∈ view.routeLegs := by
      rw [(mem_of_loaded h.loaded).2.2]
      exact mem_filter.mpr ⟨hrow, decide_eq_true hintent⟩
    rw [h.routeLegs] at hmem
    rcases mem_append.mp hmem with hhop | hself
    · exact (h.firstHop row (Option.mem_toList.mp hhop)).other
    · exact absurd (congrArg (·.withdrawalRouteLegId) (mem_singleton.mp hself)) hne
  refine ensures_bind (ensures_load h.loaded) fun loaded => ?_
  rintro t ⟨rfl, rfl⟩
  refine ensures_bind (ensures_refreshPolymarketBridge ?_) (fun _ => ?_) t (holds_self hstart)
  · intro leg _ hprovider row input _ _ _ hsame _ _
    refine change_other row ?_
    rw [hsame, hprovider]
    decide
  · refine ensures_ite (fun hnot => absurd (any_eq_true.mpr ⟨_, hbridge, h.isBridgeBack⟩)
      hnot.2) fun _ => ?_
    refine ensures_bind (Q := fun _ => Holds t (Lost intentId
      bridge.withdrawalRouteLegId)) ?_ fun refreshed => ?_
    · rw [h.routeLegs, mapM_append]
      refine ensures_bind (Q := fun _ => Holds t (Other intentId
        bridge.withdrawalRouteLegId)) ?_ fun _ => ?_
      · refine Ensures.weaken (ensures_mapM (K := fun _ _ => True) fun hop hhop => ?_)
          fun _ _ hs => hs.1
        have hmem : hop ∈ loaded.routeLegs := by
          rw [h.routeLegs]
          exact mem_append_left _ hhop
        refine Ensures.weaken (ensures_refreshOther hanswers (hid hmem)
          (h.firstHop hop (Option.mem_toList.mp hhop)).other ?_) fun _ _ hs => ⟨hs, trivial⟩
        exact fun result _ row _ _ _ _ => change_other row nofun
      · rw [mapM_cons, mapM_nil]
        refine ensures_bind (Q := fun _ => Holds t (Lost intentId
          bridge.withdrawalRouteLegId)) ?_ fun _ => ensures_pure fun _ => id
        refine ensures_bind (ensures_refreshInconclusive (hid hbridge) h.txHashes h.status
          h.isBridgeBack hreports hreport) fun _ => ensures_pure fun _ => id
    · exact ensures_ite (fun _ => ensures_aggregate) fun _ => ensures_pure fun _ => id

/-- A later refresh, whatever LI.FI reports: only the checker could complete the leg. -/
theorem ensures_refresh_lost (config : WithdrawalConfig)
    (hloaded : s₀.tables.getWithdrawalIntent userId intentId = .ok view)
    (hanswers : Unhindered answers)
    (hcheck : ∀ result, answers.checkCompletion legId = .ok result → result.completed = false) :
    Ensures (Holds s₀ (Lost intentId legId))
      (refreshWithdrawalStatus config answers userId intentId)
      fun _ => Holds s₀ (Lost intentId legId) := by
  intro s hs
  obtain ⟨view', hloaded', -⟩ := loaded_of_extends hloaded hs.1
  have hid {leg : WithdrawalRouteLeg} (hleg : leg ∈ view'.routeLegs) :
      leg.withdrawalRouteLegId ∈ s₀.tables.routeLegs.map (·.withdrawalRouteLegId) :=
    hs.1.legIds ▸ mem_map_of_mem (legId_mem hloaded' hleg).1
  refine ensures_bind (ensures_load hloaded') (fun loaded => ?_) s rfl
  rintro t ⟨rfl, rfl⟩
  have hlost : ∀ leg ∈ loaded.routeLegs, isLifiBridgeBackWithdrawalLeg leg = false ∧
      (leg.withdrawalRouteLegId = legId → leg.status ≠ .WITHDRAWAL_LEG_COMPLETED) := by
    intro leg hleg
    obtain ⟨hrow, hintent⟩ := legId_mem hloaded' hleg
    exact ⟨(hs.2 leg hrow).1 hintent, (hs.2 leg hrow).2⟩
  refine ensures_bind (ensures_refreshPolymarketBridge ?_) (fun _ => ?_) t hs
  · intro leg hleg hprovider row input _ hkey hstatus hsame
    refine ⟨fun _ => change_other row ?_, fun heq => ?_⟩
    · rw [hsame, hprovider]
      decide
    · show input.status ≠ _
      rw [hstatus]
      exact (hlost leg hleg).2 (hkey.symm.trans heq)
  · refine ensures_ite (fun _ => ensures_pure fun _ => id) fun _ => ?_
    refine ensures_bind (Ensures.weaken (ensures_mapM (K := fun _ _ => True) fun leg hleg => ?_)
      fun _ _ hs => hs.1) fun _ => ?_
    · refine Ensures.weaken (ensures_refreshOther hanswers (hid hleg) (hlost leg hleg).1 ?_)
        fun _ _ hs => ⟨hs, trivial⟩
      intro result hresult row _ hkey
      refine ⟨fun _ => change_other row nofun, fun heq => ?_⟩
      have hsame : row.withdrawalRouteLegId = legId := heq
      rw [← hkey, hsame] at hresult
      intro hcompleted
      have hopen := hcheck result hresult
      rw [completed_of_mapResult hcompleted] at hopen
      cases hopen
    · exact ensures_ite (fun _ => ensures_aggregate) fun _ => ensures_pure fun _ => id

theorem aggregateWithdrawalStatus_completed {states : List WithdrawalLegState} (hsome : states ≠ [])
    (h : ∀ state ∈ states, state = .WITHDRAWAL_LEG_COMPLETED) :
    aggregateWithdrawalStatus states = .COMPLETED := by
  have hall : (states.all fun state => state = .WITHDRAWAL_LEG_COMPLETED) = true :=
    all_eq_true.mpr fun state hmem => decide_eq_true (h state hmem)
  rw [aggregateWithdrawalStatus, if_neg hsome, if_pos hall]

/-- The state of the intent after the first hop was completed with the bridge-back leg. -/
theorem aggregate_of_delivered
    (h : SubmittedBridgeBack s.tables userId intentId view firstHop bridge)
    {hops : List (WithdrawalLegState × List String)}
    (hlength : hops.length = firstHop.toList.length) :
    let refreshed := hops ++ [(WithdrawalLegState.WITHDRAWAL_LEG_COMPLETED,
      firstHop.toList.map (·.withdrawalRouteLegId))]
    aggregateWithdrawalStatus ((view.routeLegs.zip refreshed).map fun (leg, pushed) =>
      if leg.withdrawalRouteLegId ∈ refreshed.flatMap (·.2) then .WITHDRAWAL_LEG_COMPLETED
      else pushed.1) = .COMPLETED := by
  intro refreshed
  rw [h.routeLegs, zip_append hlength.symm]
  refine aggregateWithdrawalStatus_completed (by simp) fun state hmem => ?_
  obtain ⟨⟨leg, pushed⟩, hpair, rfl⟩ := mem_map.mp hmem
  rcases mem_append.mp hpair with hhop | hself
  · have hleg : leg ∈ firstHop.toList := (of_mem_zip hhop).1
    have hauto : leg.withdrawalRouteLegId ∈ refreshed.flatMap (·.2) :=
      mem_flatMap.mpr ⟨_, mem_append_right _ (mem_singleton_self _), mem_map_of_mem hleg⟩
    exact if_pos hauto
  · have hpushed : (leg, pushed) = (bridge, (WithdrawalLegState.WITHDRAWAL_LEG_COMPLETED,
        firstHop.toList.map (·.withdrawalRouteLegId))) := mem_singleton.mp hself
    cases hpushed
    exact ite_self _

theorem ensures_refresh_delivered (config : WithdrawalConfig)
    (h : SubmittedBridgeBack s.tables userId intentId view firstHop bridge)
    (hanswers : Unhindered answers)
    (hreports : Reports bridge.withdrawalRouteLegId (.ok transfer) answers)
    (hdelivered : Delivered view.intent bridge transfer) :
    Ensures (· = s) (refreshWithdrawalStatus config answers userId intentId)
      fun _ t => ∃ u, Holds s (Done (view.routeLegs.map (·.withdrawalRouteLegId))) u ∧
        t = { u with tables := u.tables.updateWithdrawalIntentStatus intentId .COMPLETED } := by
  have hbridge : bridge ∈ view.routeLegs := by
    rw [h.routeLegs]
    exact mem_append_right _ (mem_singleton_self _)
  have hid {leg : WithdrawalRouteLeg} (hleg : leg ∈ view.routeLegs) :
      leg.withdrawalRouteLegId ∈ s.tables.routeLegs.map (·.withdrawalRouteLegId) :=
    mem_map_of_mem (legId_mem h.loaded hleg).1
  -- nothing is asked of the rows before the bridge-back leg is refreshed
  have hstart : ∀ row ∈ s.tables.routeLegs, Done [] row := fun _ _ hmem => nomatch hmem
  refine ensures_bind (ensures_load h.loaded) fun loaded => ?_
  rintro t ⟨rfl, rfl⟩
  refine ensures_bind (ensures_refreshPolymarketBridge fun _ _ _ _ _ _ _ _ _ hmem => nomatch hmem)
    (fun _ => ?_) t (holds_self hstart)
  refine ensures_ite (fun hnot => absurd (any_eq_true.mpr ⟨_, hbridge, h.isBridgeBack⟩)
    hnot.2) fun _ => ?_
  refine ensures_bind (Q := fun refreshed u => (∃ hops, hops.length = firstHop.toList.length ∧
    refreshed = hops ++ [(.WITHDRAWAL_LEG_COMPLETED,
      firstHop.toList.map (·.withdrawalRouteLegId))]) ∧
    Holds t (Done (loaded.routeLegs.map (·.withdrawalRouteLegId))) u) ?_ fun refreshed => ?_
  · rw [h.routeLegs, mapM_append]
    refine ensures_bind (ensures_mapM (P := Holds t (Done [])) (K := fun _ _ => True)
      fun hop hhop => ?_) fun hops => ?_
    · have hmem : hop ∈ loaded.routeLegs := by
        rw [h.routeLegs]
        exact mem_append_left _ hhop
      refine Ensures.weaken (ensures_refreshOther hanswers (hid hmem)
        (h.firstHop hop (Option.mem_toList.mp hhop)).other ?_) fun _ _ hs => ⟨hs, trivial⟩
      exact fun _ _ _ _ _ hnone => nomatch hnone
    · rintro u ⟨hu, hlength⟩
      rw [mapM_cons, mapM_nil, ← h.routeLegs]
      refine ensures_bind (Q := fun last v => last = [(.WITHDRAWAL_LEG_COMPLETED,
        firstHop.toList.map (·.withdrawalRouteLegId))] ∧
        Holds t (Done (loaded.routeLegs.map (·.withdrawalRouteLegId))) v) ?_ (fun last => ?_) u hu
      · refine ensures_bind (ensures_refreshDelivered hanswers h hreports hdelivered) fun _ => ?_
        exact ensures_pure fun v ⟨hpushed, hv⟩ => ⟨by rw [hpushed], hv⟩
      · exact ensures_pure fun v ⟨hlast, hv⟩ => ⟨⟨hops, hlength.length_eq.symm, by rw [hlast]⟩, hv⟩
  · rintro u ⟨⟨hops, hlength, rfl⟩, hu⟩
    have hsome : hops ++ [(WithdrawalLegState.WITHDRAWAL_LEG_COMPLETED,
        firstHop.toList.map (·.withdrawalRouteLegId))] ≠ [] := by simp
    rw [if_pos hsome]
    refine ⟨⟨⟩, _, rfl, u, hu, ?_⟩
    show { u with tables := _ } = _
    rw [aggregate_of_delivered h hlength]

/-- **A first report of the delivery** completes the legs and the intent. -/
theorem completed_of_delivered
    (h : SubmittedBridgeBack s.tables userId intentId view firstHop bridge)
    (hanswers : Unhindered answers)
    (hreports : Reports bridge.withdrawalRouteLegId (.ok transfer) answers)
    (hdelivered : Delivered view.intent bridge transfer) : Completed userId intentId view.routeLegs
      (go (refreshWithdrawalStatus config answers userId intentId) s).2 := by
  obtain ⟨-, -, u, ⟨hextends, hdone⟩, hend⟩ :=
    (ensures_refresh_delivered config h hanswers hreports hdelivered).final rfl
  rw [hend]
  have hextends' := hextends.trans (extends_updateWithdrawalIntentStatus intentId .COMPLETED u)
  obtain ⟨view', hloaded, -, hids⟩ := loaded_of_extends h.loaded hextends'
  refine ⟨view', hloaded, ?_, ?_⟩
  · have hupdated : (u.tables.updateWithdrawalIntentStatus intentId
        .COMPLETED).findWithdrawalIntentById intentId =
          (u.tables.findWithdrawalIntentById intentId).map
            fun intent => { intent with status := .COMPLETED } :=
      (select_update (f := fun intent : WithdrawalIntent => { intent with status := .COMPLETED })
        intentId intentId (fun _ => rfl) u.tables.intents).trans (if_pos rfl)
    have hfind := hupdated.symm.trans (mem_of_loaded hloaded).1
    obtain ⟨intent, -, hintent⟩ := Option.map_eq_some_iff.mp hfind
    rw [← hintent]
  · have hstatus : ∀ leg ∈ view'.routeLegs, leg.status = .WITHDRAWAL_LEG_COMPLETED := by
      intro leg hleg
      exact hdone leg (legId_mem hloaded hleg).1 (hids ▸ mem_map_of_mem hleg)
    have hpairs (legs : List WithdrawalRouteLeg) : legs.map (fun leg =>
            (leg.withdrawalRouteLegId, WithdrawalLegState.WITHDRAWAL_LEG_COMPLETED)) =
          (legs.map (·.withdrawalRouteLegId)).map fun id => (id, .WITHDRAWAL_LEG_COMPLETED) := by
      rw [map_map]
      rfl
    rw [hpairs, ← hids, ← hpairs]
    exact map_congr_left fun leg hleg => by rw [hstatus leg hleg]

theorem lost_of_refreshes (config : WithdrawalConfig)
    (hloaded : s₀.tables.getWithdrawalIntent userId intentId = .ok view)
    {answers : List WithdrawalAnswers} (hanswers : ∀ a ∈ answers, Unhindered a)
    (hcheck : ∀ a ∈ answers, ∀ result, a.checkCompletion legId = .ok result →
      result.completed = false) (hs : Holds s₀ (Lost intentId legId) s) :
    Holds s₀ (Lost intentId legId) (refreshes config userId intentId answers s) := by
  induction answers generalizing s with
  | nil => exact hs
  | cons a answers ih =>
    obtain ⟨-, -, hnext⟩ := (ensures_refresh_lost config hloaded
      (hanswers a mem_cons_self) (hcheck a mem_cons_self)).final hs
    exact ih (fun b hb => hanswers b (mem_cons_of_mem a hb))
      (fun b hb => hcheck b (mem_cons_of_mem a hb)) hnext

/-- **After an inconclusive report** nothing that LI.FI reports completes the leg, and only the
checker could. -/
theorem not_completed_of_inconclusive
    (h : SubmittedBridgeBack s.tables userId intentId view firstHop bridge)
    (hreports : Reports bridge.withdrawalRouteLegId report answers)
    (hreport : Inconclusive report) {later : List WithdrawalAnswers}
    (hanswers : ∀ a ∈ answers :: later, Unhindered a)
    (hcheck : ∀ a ∈ later, ∀ result, a.checkCompletion bridge.withdrawalRouteLegId = .ok
      result → result.completed = false) :
    ¬ Completed userId intentId view.routeLegs
      (refreshes config userId intentId (answers :: later) s) := by
  rintro ⟨view', hloaded, -, hlegs⟩
  obtain ⟨-, -, hfirst⟩ := (ensures_refresh_inconclusive config h
    (hanswers answers mem_cons_self) hreports hreport).final rfl
  have hlost := lost_of_refreshes config h.loaded
    (fun a ha => hanswers a (mem_cons_of_mem answers ha)) hcheck hfirst
  have hbridge : bridge ∈ view.routeLegs := by
    rw [h.routeLegs]
    exact mem_append_right _ (mem_singleton_self _)
  have hmem : (bridge.withdrawalRouteLegId, WithdrawalLegState.WITHDRAWAL_LEG_COMPLETED) ∈
      view'.routeLegs.map fun leg => (leg.withdrawalRouteLegId, leg.status) := by
    rw [hlegs]
    exact mem_map_of_mem hbridge
  obtain ⟨leg, hleg, heq⟩ := mem_map.mp hmem
  have hid : leg.withdrawalRouteLegId = bridge.withdrawalRouteLegId := congrArg Prod.fst heq
  exact (hlost.2 leg (legId_mem hloaded hleg).1).2 hid (congrArg Prod.snd heq)

/-- LI.FI answers with `report`; of the withdrawal itself the checker knows nothing. -/
def onlyLifi (report : Except FundingError LifiTransfer) : WithdrawalAnswers where
  supportsWithdrawal := fun _ => false
  plan := fun _ => .error (.provider "not asked")
  lifiStatus := fun _ _ => report
  checkCompletion := fun _ => .ok {
    status := .UNKNOWN, venueReleased := false, destinationReceived := false, completed := false
    withdrawalTxHash := none, destinationChain := none, destinationWalletAddress := none
    token := none, amount := none, reason := "NO_EVIDENCE" }
  assertCanPersist := fun _ _ => .ok ()
  fetchWithdrawalStatus := fun _ => .error (.provider "not asked")

theorem unhindered_onlyLifi (report : Except FundingError LifiTransfer) :
    Unhindered (onlyLifi report) :=
  ⟨fun _ => ⟨_, rfl⟩, fun _ _ => rfl⟩

/-- **The outcome of refreshing is the same exactly when there was nothing to refresh before**: a
bridge-back that LI.FI reports as delivered ends completed, whatever else is answered, if and only
if LI.FI reports that the first time it is asked. -/
theorem completed_iff (config : WithdrawalConfig)
    (h : SubmittedBridgeBack s.tables userId withdrawalIntentId view firstHop bridgeBack)
    {reports : List (Except FundingError LifiTransfer)} (hreports : ∀ r ∈ reports, Inconclusive r)
    {transfer : LifiTransfer} (hdelivered : Delivered view.intent bridgeBack transfer) :
    (∀ answers, (∀ a ∈ answers, Unhindered a) →
      List.Forall₂ (Reports bridgeBack.withdrawalRouteLegId) (reports ++ [.ok transfer]) answers →
      Completed userId withdrawalIntentId view.routeLegs
        (refreshes config userId withdrawalIntentId answers s)) ↔ reports = [] := by
  constructor
  · intro hall
    cases reports with
    | nil => rfl
    | cons report reports =>
      have hsilent : List.Forall₂ (Reports bridgeBack.withdrawalRouteLegId)
          (report :: reports ++ [.ok transfer])
          ((report :: reports ++ [Except.ok transfer]).map onlyLifi) :=
        List.forall₂_map_right_iff.mpr (List.forall₂_same.mpr fun _ _ _ => rfl)
      refine absurd (hall _ ?_ hsilent) ?_
      · intro a ha
        obtain ⟨report, -, rfl⟩ := mem_map.mp ha
        exact unhindered_onlyLifi report
      · refine not_completed_of_inconclusive h (fun _ => rfl) (hreports report mem_cons_self) ?_ ?_
        · intro a ha
          rw [← map_cons] at ha
          obtain ⟨report, -, rfl⟩ := mem_map.mp ha
          exact unhindered_onlyLifi report
        · intro a ha result hresult
          obtain ⟨report, -, rfl⟩ := mem_map.mp ha
          cases hresult
          rfl
  · rintro rfl answers hanswers hreported
    cases hreported with
    | cons hreport hnil =>
      cases hnil
      exact completed_of_delivered h (hanswers _ mem_cons_self) hreport hdelivered

/-! ### From OPINION to Solana -/

/-- Released by OPINION to the wallet of the user, to be delivered by LI.FI. -/
def releasedLeg : WithdrawalRouteLeg where
  withdrawalRouteLegId := "leg-1"
  withdrawalIntentId := "withdrawal-1"
  withdrawalSourceId := "source-1"
  sourceVenue := .OPINION
  sourceToken := "USDT"
  destinationAmountEstimate := 100
  expiresAt := 60
  transactionRequest := false
  txHashes := [transferHash]
  providerStatus := { WithdrawalProviderStatus.empty with
    bridgeBackPlanned := true
    finalDestinationChain := some "SOLANA"
    finalDestinationWalletAddress := some "SoUser" }
  venueReleaseStatus := .PENDING
  destinationStatus := .NOT_CONFIRMED
  status := .VENUE_RELEASE_PENDING
  errorReason := none

def bridgedLeg : WithdrawalRouteLeg where
  withdrawalRouteLegId := "leg-2"
  withdrawalIntentId := "withdrawal-1"
  withdrawalSourceId := "source-1"
  sourceVenue := .OPINION
  sourceToken := "USDT"
  destinationAmountEstimate := 100
  expiresAt := 60
  transactionRequest := true
  txHashes := [otherHash]
  providerStatus := { WithdrawalProviderStatus.empty with
    provider := some "LIFI"
    mode := some "VENUE_EVM_BRIDGE_BACK"
    sourceChain := some "BSC"
    destinationChain := some "SOLANA"
    destinationTokenSymbol := some "USDC"
    sourceWalletAddress := some "0xvenue" }
  venueReleaseStatus := .CONFIRMED
  destinationStatus := .PENDING
  status := .DESTINATION_PENDING
  errorReason := none

def bridging : WithdrawalSystem where
  funding := ⟨[], [], [], []⟩
  tables := {
    intents := [⟨"withdrawal-1", "user-1", "SOLANA", "SoUser", .WITHDRAWING⟩]
    sources := [⟨"source-1", "withdrawal-1", .OPINION, "USDT", 100, .DESTINATION_PENDING⟩]
    routeLegs := [releasedLeg, bridgedLeg]
    reconciliations := [] }

def bridgingView : WithdrawalIntentView :=
  ⟨⟨"withdrawal-1", "user-1", "SOLANA", "SoUser", .WITHDRAWING⟩, bridging.tables.sources,
    [releasedLeg, bridgedLeg], []⟩

theorem bridging_submitted : SubmittedBridgeBack bridging.tables "user-1" "withdrawal-1"
    bridgingView (some releasedLeg) bridgedLeg where
  legIds := by decide +kernel
  loaded := by rfl
  routeLegs := rfl
  isBridgeBack := by decide +kernel
  txHashes := cons_ne_nil _ _
  status := by decide
  firstHop := by
    rintro hop ⟨⟩
    exact ⟨rfl, by decide +kernel, rfl, rfl, rfl, rfl, rfl, cons_ne_nil _ _, by decide⟩

def pendingTransfer : LifiTransfer := ⟨.PENDING, none, none, none, none⟩

theorem pending_inconclusive :
    ∀ r ∈ [(.ok pendingTransfer : Except FundingError LifiTransfer)], Inconclusive r := by
  intro r hr
  rw [mem_singleton.mp hr]
  exact .inl rfl

def deliveredTransfer : LifiTransfer :=
  ⟨.DONE_COMPLETED, some 99, some "USDC", some "0xVenue", some "SoUser"⟩

theorem deliveredTransfer_delivered :
    Delivered bridgingView.intent bridgedLeg deliveredTransfer where
  status := rfl
  wallets := by decide +kernel
  amount := ⟨99, rfl, by decide +kernel⟩
  token := by decide +kernel

/-- Reported pending once, the delivery is never seen. -/
theorem bridging_pendingFirst : ¬ ∀ config s userId withdrawalIntentId view firstHop bridgeBack,
    SubmittedBridgeBack s.tables userId withdrawalIntentId view firstHop bridgeBack →
    ∀ reports, (∀ r ∈ reports, Inconclusive r) →
    ∀ transfer, Delivered view.intent bridgeBack transfer →
    ∀ answers, (∀ a ∈ answers, Unhindered a) →
      List.Forall₂ (Reports bridgeBack.withdrawalRouteLegId) (reports ++ [.ok transfer]) answers →
      Completed userId withdrawalIntentId view.routeLegs
        (refreshes config userId withdrawalIntentId answers s) := by
  intro h
  have hcompleted := h ⟨false, false⟩ bridging "user-1" "withdrawal-1" bridgingView
    (some releasedLeg) bridgedLeg bridging_submitted [.ok pendingTransfer]
    pending_inconclusive deliveredTransfer deliveredTransfer_delivered
    [onlyLifi (.ok pendingTransfer), onlyLifi (.ok deliveredTransfer)]
    (by simp [unhindered_onlyLifi]) (.cons (fun _ => rfl) (.cons (fun _ => rfl) .nil))
  obtain ⟨view, hloaded, hstatus, -⟩ := hcompleted
  have hlast : (refreshes ⟨false, false⟩ "user-1" "withdrawal-1"
      [onlyLifi (.ok pendingTransfer), onlyLifi (.ok deliveredTransfer)]
      bridging).tables.intents.map (·.status) = [.PARTIALLY_FAILED] := by decide +kernel
  have hmem := (mem_of_select (mem_of_loaded hloaded).1).1
  have hin : WithdrawalAggregateState.COMPLETED ∈ [WithdrawalAggregateState.PARTIALLY_FAILED] := by
    rw [← hlast, ← hstatus]
    exact mem_map_of_mem hmem
  exact absurd hin (by decide)

theorem completed_iff_bridging : Completed "user-1" "withdrawal-1" bridgingView.routeLegs
      (refreshes ⟨false, false⟩ "user-1" "withdrawal-1" [onlyLifi (.ok deliveredTransfer)]
        bridging) ∧
    ¬ ∀ answers, (∀ a ∈ answers, Unhindered a) →
      List.Forall₂ (Reports "leg-2") [.ok pendingTransfer, .ok deliveredTransfer] answers →
      Completed "user-1" "withdrawal-1" bridgingView.routeLegs
        (refreshes ⟨true, false⟩ "user-1" "withdrawal-1" answers bridging) := by
  constructor
  · exact (completed_iff ⟨false, false⟩ bridging_submitted 
      (forall_mem_nil _) deliveredTransfer_delivered).mpr rfl
      [onlyLifi (.ok deliveredTransfer)] (by simp [unhindered_onlyLifi]) (.cons (fun _ => rfl) .nil)
  · intro hall
    have hnil := (completed_iff ⟨true, false⟩ bridging_submitted 
      pending_inconclusive deliveredTransfer_delivered).mp hall
    cases hnil

end LotusRfq.Funding
