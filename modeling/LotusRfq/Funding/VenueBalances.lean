import LotusRfq.Funding.Readiness
import Mathlib.Tactic.Linarith

/-!
# LotusRfq — the ready balance of a venue

`listVenueBalances` and `hasReadyVenueBalance` sum the estimates of the legs that have a ready
reconciliation record. Each record was written on a check that compared one leg with the whole
balance of the venue, so legs that share a balance are all counted.

* **`Counted.replaced`**, **`Counted.verified`** — what the operations do to the sum;
* **`counted_backed`** — when every check covers the legs counted before with the one it confirms,
  some balance that was read backs all that is counted;
* **`readyBalance_le`** — the sum is then within the largest balance read and the tolerances.
-/

namespace LotusRfq.Funding

open Attempts FundingTables Tables Transitions List
open FundingTarget (fundingTargetId identity)

/-! ## The queries -/

/-- `venueAccountingTokenSql`. -/
def venueAccountingToken (venue : FundingVenue) (token : String) : String :=
  if venue = .MYRIAD ∧ token.toUpper ∈ ["USD1", "USDC", "USDT"] then "USD1" else token

namespace FundingTables

/-- `latest_ready_reconciliation`: the leg has a row with `ready_to_trade`. -/
def hasReadyReconciliation (tables : FundingTables) (leg : FundingRouteLeg) : Bool :=
  tables.reconciliations.any fun record =>
    record.routeLegId = leg.routeLegId && record.readyToTrade

def joined (tables : FundingTables) (leg : FundingRouteLeg) : Option (FundingTarget × FundingIntent) :=
  (select fundingTargetId leg.fundingTargetId tables.targets).bind fun target =>
    (select FundingIntent.fundingIntentId target.fundingIntentId tables.intents).map fun intent =>
      (target, intent)

/-- The row of the join counts for the user, the venue and the token. -/
def countsFor (userId : String) (venue : FundingVenue) (token : String)
    (row : FundingTarget × FundingIntent) : Bool :=
  row.2.userId = userId && row.1.targetVenue = venue &&
    venueAccountingToken row.1.targetVenue row.1.targetToken = token

/-- The leg is one of those whose amounts are summed. -/
def counted (userId : String) (venue : FundingVenue) (token : String) (tables : FundingTables)
    (leg : FundingRouteLeg) : Bool :=
  tables.hasReadyReconciliation leg && (tables.joined leg).any (countsFor userId venue token)

def countedLegs (userId : String) (venue : FundingVenue) (token : String)
    (tables : FundingTables) : List FundingRouteLeg :=
  tables.routeLegs.filter (counted userId venue token tables)

/-- `readyRouteLegAmountSql`. -/
def readyRouteLegAmount (tables : FundingTables) (leg : FundingRouteLeg) : ℚ :=
  leg.destinationAmountEstimate.getD
    (((tables.joined leg).map fun row => row.1.targetAmount).getD 0)

/-- `COALESCE(SUM(…), 0)` over the counted legs. -/
def readyAmount (userId : String) (venue : FundingVenue) (token : String) (tables : FundingTables) :
    ℚ :=
  ((tables.countedLegs userId venue token).map tables.readyRouteLegAmount).sum

def hasReadyVenueBalance (userId : String) (venue : FundingVenue) (token : String) (amount : ℚ)
    (tables : FundingTables) : Bool :=
  amount ≤ tables.readyAmount userId venue (venueAccountingToken venue token)

structure VenueBalanceView where
  venue : FundingVenue
  token : String
  readyAmount : ℚ
  pendingWithdrawalAmount : ℚ
  availableAmount : ℚ

/-- The groups of the `ready` query: the venues and tokens with a counted leg. -/
def readyGroups (userId : String) (tables : FundingTables) : List (FundingVenue × String) :=
  (tables.routeLegs.filterMap fun leg =>
    if tables.hasReadyReconciliation leg then
      (tables.joined leg).bind fun (target, intent) =>
        if intent.userId = userId then
          some (target.targetVenue, venueAccountingToken target.targetVenue target.targetToken)
        else none
    else none).dedup

end FundingTables

/-- The sources of the user's withdrawals that have neither failed nor been cancelled. -/
def WithdrawalTables.pendingWithdrawalAmount (userId : String) (venue : FundingVenue)
    (token : String) (tables : WithdrawalTables) : ℚ :=
  ((tables.sources.filter fun source =>
    (select WithdrawalIntent.withdrawalIntentId source.withdrawalIntentId tables.intents).any
      (fun intent => intent.userId = userId && intent.status ≠ .FAILED &&
        intent.status ≠ .CANCELLED) &&
      source.sourceVenue = venue &&
      venueAccountingToken source.sourceVenue source.sourceToken = token).map (·.sourceAmount)).sum

/-- The rows of `listVenueBalances`, in no particular order. -/
def listVenueBalances (userId : String) (tables : FundingTables) (withdrawals : WithdrawalTables) :
    List VenueBalanceView :=
  (tables.readyGroups userId).map fun (venue, token) =>
    let readyAmount := tables.readyAmount userId venue token
    let pendingWithdrawalAmount := withdrawals.pendingWithdrawalAmount userId venue token
    { venue, token, readyAmount, pendingWithdrawalAmount
      availableAmount := max (readyAmount - pendingWithdrawalAmount) 0 }

/-! ## What the counted amounts depend on -/

theorem select_map {ρ κ : Type} [DecidableEq κ] {key : ρ → κ} {f : ρ → ρ}
    (hf : ∀ row, key (f row) = key row) (k : κ) (rows : List ρ) :
    select key k (rows.map f) = (select key k rows).map f := by
  induction rows with
  | nil => rfl
  | cons row rows ih =>
    unfold select at ih ⊢
    rw [map_cons, find?_cons, find?_cons, hf, ih]
    split <;> rfl

theorem joined_congr {tables tables' : FundingTables} {leg leg' : FundingRouteLeg}
    (hintents : tables'.intents.map (·.identity) = tables.intents.map (·.identity))
    (htargets : tables'.targets.map (·.identity) = tables.targets.map (·.identity))
    (htarget : leg'.fundingTargetId = leg.fundingTargetId) :
    (tables'.joined leg').map (fun row => (row.1.identity, row.2.identity)) =
      (tables.joined leg).map fun row => (row.1.identity, row.2.identity) := by
  have hfindTarget : ∀ k, (select fundingTargetId k tables'.targets).map
      (·.identity) = (select fundingTargetId k tables.targets).map (·.identity) := by
    intro k
    rw [← select_map (f := identity) (fun _ => rfl), htargets,
      select_map (f := identity) fun _ => rfl]
  have hfindIntent : ∀ k, (select FundingIntent.fundingIntentId k tables'.intents).map
      (·.identity) = (select FundingIntent.fundingIntentId k tables.intents).map (·.identity) := by
    intro k
    rw [← select_map (f := FundingIntent.identity) (fun _ => rfl), hintents,
      select_map (f := FundingIntent.identity) fun _ => rfl]
  have htargetRow := hfindTarget leg.fundingTargetId
  unfold FundingTables.joined
  rw [htarget]
  cases hrow : select fundingTargetId leg.fundingTargetId tables.targets with
  | none =>
    rw [hrow, Option.map_none, Option.map_eq_none_iff] at htargetRow
    rw [htargetRow]
    rfl
  | some target =>
    rw [hrow, Option.map_some, Option.map_eq_some_iff] at htargetRow
    obtain ⟨target', hrow', hidentity⟩ := htargetRow
    have hintentId : target'.identity.fundingIntentId = target.identity.fundingIntentId :=
      congrArg FundingTarget.fundingIntentId hidentity
    change target'.fundingIntentId = target.fundingIntentId at hintentId
    rw [hrow', Option.bind_some, Option.bind_some, Option.map_map, Option.map_map, hintentId]
    have hintentRow := hfindIntent target.fundingIntentId
    cases hintent : select FundingIntent.fundingIntentId target.fundingIntentId tables.intents with
    | none =>
      rw [hintent, Option.map_none, Option.map_eq_none_iff] at hintentRow
      rw [hintentRow]
      rfl
    | some intent =>
      rw [hintent, Option.map_some, Option.map_eq_some_iff] at hintentRow
      obtain ⟨intent', hintent', hintentIdentity⟩ := hintentRow
      rw [hintent']
      simp [hidentity, hintentIdentity]

open FundingTables (readyRouteLegAmount counted hasReadyReconciliation countedLegs joined readyAmount)

variable {userId : String} {venue : FundingVenue} {token : String}
  {tables tables' : FundingTables} {leg leg' : FundingRouteLeg}

theorem any_countsFor_identity (row : Option (FundingTarget × FundingIntent)) :
    row.any (countsFor userId venue token) =
      (row.map fun row => (row.1.identity, row.2.identity)).any (countsFor userId venue token) := by
  cases row <;> rfl

section

variable (hintents : tables'.intents.map (·.identity) = tables.intents.map (·.identity))
  (htargets : tables'.targets.map (·.identity) = tables.targets.map (·.identity))
  (htarget : leg'.fundingTargetId = leg.fundingTargetId)

include hintents htargets htarget

theorem any_countsFor_congr : (tables'.joined leg').any (countsFor userId venue token) =
      (tables.joined leg).any (countsFor userId venue token) := by
  rw [any_countsFor_identity, joined_congr hintents htargets htarget, ← any_countsFor_identity]

theorem readyRouteLegAmount_congr
    (hestimate : leg'.destinationAmountEstimate = leg.destinationAmountEstimate) :
    tables'.readyRouteLegAmount leg' = tables.readyRouteLegAmount leg := by
  have hamount (row : Option (FundingTarget × FundingIntent)) :
      (row.map fun row => row.1.targetAmount) =
        (row.map fun row => (row.1.identity, row.2.identity)).map fun row => row.1.targetAmount := by
    cases row <;> rfl
  unfold readyRouteLegAmount
  rw [hestimate, hamount, joined_congr hintents htargets htarget, ← hamount]

end

/-! ## What the counted legs need -/

def balanceTolerance (config : FundingConfig) (venue : FundingVenue) : ℚ :=
  ((config.venueReadinessCheckers venue).map (·.balanceTolerance)).getD 0

/-- What a check of the leg would ask of the balance. -/
def effectiveAmount (config : FundingConfig) (venue : FundingVenue) (tables : FundingTables)
    (leg : FundingRouteLeg) : ℚ :=
  effectiveRequiredAmount (tables.readyRouteLegAmount leg) (balanceTolerance config venue)

theorem effectiveAmount_nonneg (config : FundingConfig) (venue : FundingVenue)
    (tables : FundingTables) (leg : FundingRouteLeg) : 0 ≤ effectiveAmount config venue tables leg :=
  le_max_right _ _

/-- What the counted legs would ask of the balance, one by one. -/
def countedAmounts (config : FundingConfig) (userId : String) (venue : FundingVenue)
    (token : String) (tables : FundingTables) : List ℚ :=
  (tables.countedLegs userId venue token).map (effectiveAmount config venue tables)

/-- A check of a leg that is not counted yet and whose venue covers it covers it together with the
legs that are counted for its user, its venue and its token. -/
def CoversCounted (config : FundingConfig) (check : ReadinessCheck) : Prop :=
  ∀ row ∈ check.tables.joined check.leg, ∀ usable ∈ check.result.usableBalance,
    check.tables.hasReadyReconciliation check.leg = false →
    effectiveAmount config check.leg.targetVenue check.tables check.leg ≤ usable →
    (countedAmounts config check.userId check.leg.targetVenue
        (venueAccountingToken row.1.targetVenue row.1.targetToken) check.tables).sum +
      effectiveAmount config check.leg.targetVenue check.tables check.leg ≤ usable

instance (config : FundingConfig) (check : ReadinessCheck) :
    Decidable (CoversCounted config check) := by
  unfold CoversCounted
  infer_instance

/-- Nothing is counted, or some balance that was read backs all of it. -/
def Backed (config : FundingConfig) (s : FundingSystem) : Prop :=
  ∀ userId venue token, countedAmounts config userId venue token s.tables = [] ∨
    ∃ check ∈ s.readinessChecks, check.userId = userId ∧ check.leg.targetVenue = venue ∧
      ∃ usable, check.result.usableBalance = some usable ∧
        (countedAmounts config userId venue token s.tables).sum ≤ usable

variable {config : FundingConfig} {answers : FundingAnswers} {s t : FundingSystem}
  {intentId routeLegId : String}

theorem filter_map_congr {α β γ : Type} {R : α → β → Prop} {p : α → Bool} {q : β → Bool}
    {f : α → γ} {g : β → γ} {l : List α} {l' : List β} (h : List.Forall₂ R l l')
    (hkept : ∀ a b, R a b → p a = q b) (hvalue : ∀ a b, R a b → f a = g b) :
    (l.filter p).map f = (l'.filter q).map g := by
  induction h with
  | nil => rfl
  | @cons a b l l' hhead _ ih =>
    rw [filter_cons, filter_cons, hkept a b hhead]
    split
    · rw [map_cons, map_cons, hvalue a b hhead, ih]
    · exact ih

theorem countedAmounts_extends (h : Extends s t)
    (hrecords : t.tables.reconciliations = s.tables.reconciliations) (config : FundingConfig)
    (userId : String) (venue : FundingVenue) (token : String) :
    countedAmounts config userId venue token t.tables =
      countedAmounts config userId venue token s.tables := by
  refine (filter_map_congr h.routeLegs (fun leg leg' hgrown => ?_) fun leg leg' hgrown => ?_).symm
  · unfold counted hasReadyReconciliation
    rw [any_countsFor_congr h.intents h.targets hgrown.fundingTargetId, hrecords, hgrown.routeLegId]
  · unfold effectiveAmount
    rw [readyRouteLegAmount_congr h.intents h.targets hgrown.fundingTargetId hgrown.estimate]

theorem Backed.of_extends (hbacked : Backed config s) (h : Extends s t)
    (hrecords : t.tables.reconciliations = s.tables.reconciliations) : Backed config t := by
  intro userId venue token
  rw [countedAmounts_extends h hrecords]
  refine (hbacked userId venue token).imp id ?_
  rintro ⟨check, hcheck, hrest⟩
  exact ⟨check, h.readinessChecks.subset hcheck, hrest⟩

/-! ### A re-quote -/

theorem countedAmounts_replaceRouteLegs (hkeys : WellKeyed tables)
    {routeLegs : List FundingRouteLeg}
    (hreplace : tables.replaceRouteLegs intentId routeLegs = .ok tables')
    (htargets : tables'.targets.map (·.identity) = tables.targets.map (·.identity))
    (config : FundingConfig) (userId : String) (venue : FundingVenue) (token : String) :
    (countedAmounts config userId venue token tables').Sublist
      (countedAmounts config userId venue token tables) := by
  obtain ⟨hlegs, -, hnodup, hintents⟩ := replaceRouteLegs_ok hreplace
  have hidentities : tables'.intents.map (·.identity) = tables.intents.map (·.identity) := by
    rw [hintents]
  -- a row that is left is about a leg of another intent, and it was there before
  have hnew : routeLegs.filter (counted userId venue token tables') = [] := by
    rw [filter_eq_nil_iff]
    intro leg hleg hcounted
    simp only [counted, hasReadyReconciliation, Bool.and_eq_true,
      any_eq_true, decide_eq_true_eq] at hcounted
    obtain ⟨⟨record, hrecord, hid, -⟩, -⟩ := hcounted
    obtain ⟨-, row, hrow, hother, hrowId⟩ := hkeys.record_of_replaced hreplace hrecord
    rw [hlegs, map_append] at hnodup
    exact (nodup_append.mp hnodup).2.2 _ (mem_map_of_mem (mem_kept hrow hother)) _
      (mem_map_of_mem hleg) (hrowId.trans hid)
  have hcounted : ∀ leg, counted userId venue token tables' leg = true →
      counted userId venue token tables leg = true := by
    intro leg h
    simp only [counted, hasReadyReconciliation, Bool.and_eq_true,
      any_eq_true, decide_eq_true_eq] at h ⊢
    obtain ⟨⟨record, hrecord, hready⟩, hjoined⟩ := h
    rw [any_countsFor_congr hidentities htargets rfl] at hjoined
    exact ⟨⟨record, (hkeys.record_of_replaced hreplace hrecord).1, hready⟩, hjoined⟩
  have hvalue : effectiveAmount config venue tables' = effectiveAmount config venue tables := by
    funext leg
    unfold effectiveAmount
    rw [readyRouteLegAmount_congr hidentities htargets rfl rfl]
  unfold countedAmounts countedLegs
  rw [hlegs, filter_append, hnew, append_nil, hvalue]
  refine List.Sublist.map _ ?_
  exact (filter_sublist.filter _).trans (monotone_filter_right _ hcounted)

theorem countedAmounts_nonneg {amount : ℚ}
    (h : amount ∈ countedAmounts config userId venue token tables) : 0 ≤ amount := by
  obtain ⟨leg, -, rfl⟩ := mem_map.mp h
  exact effectiveAmount_nonneg config venue tables leg

theorem Backed.of_sublist (hbacked : Backed config s)
    (hchecks : t.readinessChecks = s.readinessChecks) (hsublist : ∀ userId venue token,
      (countedAmounts config userId venue token t.tables).Sublist
        (countedAmounts config userId venue token s.tables)) : Backed config t := by
  intro userId venue token
  rcases hbacked userId venue token with hnone | ⟨check, hcheck, huser, hvenue, usable, hread, hle⟩
  · exact .inl (sublist_nil.mp (hnone ▸ hsublist userId venue token))
  · refine .inr ⟨check, hchecks ▸ hcheck, huser, hvenue, usable, hread, le_trans ?_ hle⟩
    exact (hsublist userId venue token).sum_le_sum fun amount hamount =>
      countedAmounts_nonneg hamount

/-! ### A check -/

def LegsOfTargets (tables : FundingTables) : Prop :=
  ∀ leg ∈ tables.routeLegs, ∀ target ∈ tables.targets,
    target.fundingTargetId = leg.fundingTargetId →
      target.targetVenue = leg.targetVenue ∧ target.fundingIntentId = leg.fundingIntentId

theorem mem_targets_of_identity
    (htargets : tables'.targets.map (·.identity) = tables.targets.map (·.identity))
    {target' : FundingTarget} (h : target' ∈ tables'.targets) :
    ∃ target ∈ tables.targets, target.fundingTargetId = target'.fundingTargetId ∧
      target.fundingIntentId = target'.fundingIntentId ∧
      target.targetVenue = target'.targetVenue := by
  have hidentity : target'.identity ∈ tables.targets.map (·.identity) := htargets ▸ mem_map_of_mem h
  obtain ⟨target, htarget, heq⟩ := mem_map.mp hidentity
  simp only [identity, FundingTarget.mk.injEq] at heq
  exact ⟨target, htarget, heq.1, heq.2.1, heq.2.2.1⟩

theorem LegsOfTargets.of_extends (h : LegsOfTargets s.tables) (hext : Extends s t) :
    LegsOfTargets t.tables := by
  intro leg' hleg' target' htarget' hid
  obtain ⟨leg, hleg, hgrown⟩ := hext.exists_origin hleg'
  obtain ⟨target, htarget, htargetId, hintent, hvenue⟩ :=
    mem_targets_of_identity hext.targets htarget'
  rw [← hvenue, ← hintent, hgrown.targetVenue, hgrown.fundingIntentId]
  exact h leg hleg target htarget (htargetId.trans (hid.trans hgrown.fundingTargetId))

section

variable {record : FundingReconciliationRecord} (hkeys : WellKeyed tables)
  (hleg : leg ∈ tables.routeLegs) (hid : record.routeLegId = leg.routeLegId)

include hkeys hleg hid

theorem countedAmounts_record (hready : record.readyToTrade = true)
    (hfirst : tables.hasReadyReconciliation leg = false) (config : FundingConfig)
    (userId : String) (venue : FundingVenue) (token : String) :
    (countedAmounts config userId venue token
        { tables with reconciliations := tables.reconciliations ++ [record] }).sum =
      (countedAmounts config userId venue token tables).sum +
        if (tables.joined leg).any (countsFor userId venue token) then
          effectiveAmount config venue tables leg else 0 := by
  have hamount : effectiveAmount config venue
      { tables with reconciliations := tables.reconciliations ++ [record] } =
        effectiveAmount config venue tables := rfl
  have hjoined : ∀ row, joined
      { tables with reconciliations := tables.reconciliations ++ [record] } row =
        tables.joined row := fun _ => rfl
  have hnow : ∀ row, hasReadyReconciliation
      { tables with reconciliations := tables.reconciliations ++ [record] } row =
        (tables.hasReadyReconciliation row || decide (row.routeLegId = leg.routeLegId)) := by
    intro row
    simp [hasReadyReconciliation, hid, hready, eq_comm]
  -- the sums run over the same legs, and differ in the leg of the record only
  have hsum : ∀ counts : FundingRouteLeg → Bool,
      ((tables.routeLegs.filter counts).map (effectiveAmount config venue tables)).sum =
        (tables.routeLegs.map fun row =>
          if counts row then effectiveAmount config venue tables row else 0).sum := by
    intro counts
    rw [sum_map_ite_zero fun row => counts row = true]
    simp only [Bool.decide_eq_true]
  unfold countedAmounts countedLegs
  rw [hamount, hsum, hsum]
  have hterm : (tables.routeLegs.map fun row =>
      if counted userId venue token
          { tables with reconciliations := tables.reconciliations ++ [record] } row then
        effectiveAmount config venue tables row else 0) =
      tables.routeLegs.map fun row =>
        (if counted userId venue token tables row then effectiveAmount config venue tables row
          else 0) +
        if row = leg then
          if (tables.joined leg).any (countsFor userId venue token) then
            effectiveAmount config venue tables leg else 0
        else 0 := by
    refine map_congr_left fun row hrow => ?_
    unfold counted
    rw [hnow, hjoined]
    by_cases hrowLeg : row = leg
    · subst hrowLeg
      simp [hfirst]
    · have hother : ¬ row.routeLegId = leg.routeLegId :=
        fun heq => hrowLeg (eq_of_key hkeys.legIds hrow hleg heq)
      simp [hother, hrowLeg]
  have honce : tables.routeLegs.count leg = 1 :=
    count_eq_one_of_mem (List.Nodup.of_map _ hkeys.legIds) hleg
  rw [hterm, sum_map_add]
  congr 1
  rw [sum_map_ite_eq, honce, one_nsmul]
  simp

theorem countedAmounts_record_eq
    (hnone : record.readyToTrade = true → tables.hasReadyReconciliation leg = false →
      (tables.joined leg).any (countsFor userId venue token) = false) :
    countedAmounts config userId venue token
        { tables with reconciliations := tables.reconciliations ++ [record] } =
      countedAmounts config userId venue token tables := by
  refine congrArg (List.map (effectiveAmount config venue tables)) ?_
  refine filter_congr fun row hrow => ?_
  show (hasReadyReconciliation _ row && (tables.joined row).any _) = _
  have hnow : hasReadyReconciliation
      { tables with reconciliations := tables.reconciliations ++ [record] } row =
        (tables.hasReadyReconciliation row ||
          (decide (leg.routeLegId = row.routeLegId) && record.readyToTrade)) := by
    simp [hasReadyReconciliation, hid]
  rw [hnow, counted]
  by_cases hrowLeg : leg.routeLegId = row.routeLegId
  · obtain rfl : leg = row := eq_of_key hkeys.legIds hleg hrow hrowLeg
    cases hready : record.readyToTrade with
    | false => simp
    | true =>
      cases hfirst : tables.hasReadyReconciliation leg with
      | true => simp
      | false => simp [hnone hready hfirst]
  · simp [hrowLeg]

end

theorem covers_eq_true {read : BalanceRead} (h : covers config leg read = true) :
    ∃ usable requiredAmount, leg.destinationAmountEstimate = some requiredAmount ∧
      effectiveRequiredAmount requiredAmount (balanceTolerance config leg.targetVenue) ≤ usable ∧
      (destinationReceivedForLeg leg = true →
        (readinessResult config leg read).usableBalance = some usable) := by
  unfold covers at h
  split at h
  next checker usable raw requiredAmount hchecker hestimate =>
    simp only [Bool.and_eq_true, decide_eq_true_eq] at h
    obtain ⟨⟨henabled, hconfigured⟩, hle⟩ := h
    refine ⟨usable, requiredAmount, hestimate, ?_, fun hreceived => ?_⟩
    · rw [balanceTolerance, hchecker]
      exact hle
    · simp [readinessResult, hchecker, check, hreceived, henabled, hconfigured, hestimate, hle]
  next => cases h

theorem countsFor_of_view (hlegs : LegsOfTargets tables)
    {callerId : String} {view : FundingIntentView}
    (hview : tables.getIntent callerId intentId = .ok view)
    (hleg : view.findLeg routeLegId = some leg)
    (hcounts : (tables.joined leg).any (countsFor userId venue token) = true) :
    ∃ row, tables.joined leg = some row ∧ userId = callerId ∧ venue = leg.targetVenue ∧
      token = venueAccountingToken row.1.targetVenue row.1.targetToken := by
  obtain ⟨hfind, hcaller, -, -⟩ := getIntent_ok hview
  obtain ⟨hmem, hintentId, -⟩ := FundingIntentView.mem_of_findLeg hview hleg
  rw [Option.any_eq_true_iff_get] at hcounts
  obtain ⟨hsome, hcounts⟩ := hcounts
  obtain ⟨⟨target, intent⟩, hrow⟩ := Option.isSome_iff_exists.mp hsome
  rw [Option.get_of_eq_some hsome hrow] at hcounts
  simp only [countsFor, Bool.and_eq_true, decide_eq_true_eq] at hcounts
  refine ⟨_, hrow, ?_⟩
  -- the target of the leg is one of the intent that was asked for
  unfold joined at hrow
  obtain ⟨target', htarget, hrow⟩ := Option.bind_eq_some_iff.mp hrow
  obtain ⟨intent', hintent, heq⟩ := Option.map_eq_some_iff.mp hrow
  cases heq
  obtain ⟨htargetMem, htargetId⟩ := mem_of_select htarget
  obtain ⟨hvenue, hof⟩ := hlegs leg hmem target htargetMem htargetId
  rw [hof, hintentId] at hintent
  unfold FundingTables.findIntentById at hfind
  rw [hfind, Option.some.injEq] at hintent
  exact ⟨by rw [← hcounts.1.1, ← hintent, hcaller], by rw [← hcounts.1.2, hvenue], hcounts.2.symm⟩

/-- A check leaves what is counted backed, when it covers the counted legs with the leg it
confirms. -/
theorem backed_verifyVenueReadiness (hkeys : WellKeyed s.tables) (hlegs : LegsOfTargets s.tables)
    (h : Backed config s)
    (hcovers : ∀ check ∈ (go (verifyVenueReadiness config answers userId intentId routeLegId)
      s).2.readinessChecks, CoversCounted config check) :
    Backed config (go (verifyVenueReadiness config answers userId intentId routeLegId) s).2 := by
  by_cases hfound : ∃ view leg, s.tables.getIntent userId intentId = .ok view ∧
      view.findLeg routeLegId = some leg
  · obtain ⟨view, leg, hview, hleg⟩ := hfound
    obtain ⟨hmem, -, -⟩ := FundingIntentView.mem_of_findLeg hview hleg
    rw [go_verifyVenueReadiness hview hleg] at hcovers ⊢
    generalize hread : answers.fetchUsableUsdcBalance leg.routeLegId = read at hcovers ⊢
    generalize hcheck : ReadinessCheck.mk userId leg (readinessResult config leg read) s.tables =
      check at hcovers ⊢
    -- after the record is written, the statuses make no difference
    have hrecorded : Backed config { s with
        tables := { s.tables with
          reconciliations := s.tables.reconciliations ++
            [reconciliationOf intentId leg (readinessResult config leg read)] }
        readinessChecks := s.readinessChecks ++ [check] } := by
      intro user venue token
      by_cases hcounts : (readinessResult config leg read).readyToTrade = true ∧
          s.tables.hasReadyReconciliation leg = false ∧
          (s.tables.joined leg).any (countsFor user venue token) = true
      · obtain ⟨hready, hfirst, hcounts⟩ := hcounts
        obtain ⟨row, hrow, rfl, rfl, rfl⟩ := countsFor_of_view hlegs hview hleg hcounts
        rw [readinessResult_readyToTrade, Bool.and_eq_true] at hready
        obtain ⟨usable, requiredAmount, hestimate, hle, husable⟩ := covers_eq_true hready.2
        have hamount : effectiveAmount config leg.targetVenue s.tables leg =
            effectiveRequiredAmount requiredAmount (balanceTolerance config leg.targetVenue) := by
          rw [effectiveAmount, readyRouteLegAmount, hestimate, Option.getD_some]
        have hcovered := hcovers check (mem_append_right _ (mem_singleton_self _))
        subst hcheck
        refine .inr ⟨_, mem_append_right _ (mem_singleton_self _), rfl, rfl, usable,
          husable hready.1, ?_⟩
        rw [countedAmounts_record hkeys hmem rfl (by
          rw [reconciliationOf, readinessResult_readyToTrade, hready.1, hready.2]; rfl) hfirst,
          if_pos hcounts]
        exact hcovered row hrow usable (husable hready.1) hfirst (hamount ▸ hle)
      · have hsame : countedAmounts config user venue token { s.tables with
            reconciliations := s.tables.reconciliations ++
              [reconciliationOf intentId leg (readinessResult config leg read)] } =
            countedAmounts config user venue token s.tables := by
          refine countedAmounts_record_eq hkeys hmem rfl fun hready hfirst => ?_
          rw [Bool.eq_false_iff]
          exact fun hany => hcounts ⟨hready, hfirst, hany⟩
        rcases h user venue token with hnone | ⟨before, hbefore, hrest⟩
        · exact .inl (hsame.trans hnone)
        · exact .inr ⟨before, mem_append_left _ hbefore, hsame ▸ hrest⟩
    refine hrecorded.of_extends ?_ rfl
    exact (extends_updateLeg (grownLeg_change _) leg.routeLegId _ _).trans
      (extends_updateIntentStatus intentId _ _)
  · rw [go_verifyVenueReadiness_eq fun view leg hview hleg => hfound ⟨view, leg, hview, hleg⟩]
    exact h

/-! ## Sequences of operations -/

/-- What every operation keeps: the keys, and that what is counted is backed as long as the checks
made so far covered it. -/
structure Balanced (config : FundingConfig) (s : FundingSystem) : Prop where
  keys : WellKeyed s.tables
  targetIds : (s.tables.targets.map (·.fundingTargetId)).Nodup
  legs : LegsOfTargets s.tables
  backed : (∀ check ∈ s.readinessChecks, CoversCounted config check) → Backed config s

theorem targetIds_of_identity
    (htargets : tables'.targets.map (·.identity) = tables.targets.map (·.identity)) :
    tables'.targets.map (·.fundingTargetId) = tables.targets.map (·.fundingTargetId) := by
  have h := congrArg (List.map fundingTargetId) htargets
  rw [map_map, map_map] at h
  exact h

theorem Balanced.of_extends (h : Balanced config s) (hext : Extends s t)
    (hrecords : t.tables.reconciliations = s.tables.reconciliations) : Balanced config t where
  keys := h.keys.of_extends hext hrecords
  targetIds := targetIds_of_identity hext.targets ▸ h.targetIds
  legs := h.legs.of_extends hext
  backed := fun hchecks => (h.backed fun check hcheck =>
    hchecks check (hext.readinessChecks.subset hcheck)).of_extends hext hrecords

theorem balanced_verifyVenueReadiness : Keeps (Balanced config)
    (verifyVenueReadiness config answers userId intentId routeLegId) := by
  intro s h
  have hext : Extends s (go (verifyVenueReadiness config answers userId intentId routeLegId) s).2 :=
    extends_verifyVenueReadiness s (Extends.refl s)
  refine ⟨wellKeyed_verifyVenueReadiness s h.keys, targetIds_of_identity hext.targets ▸ h.targetIds,
    h.legs.of_extends hext, fun hchecks => ?_⟩
  refine backed_verifyVenueReadiness h.keys h.legs (h.backed fun check hcheck => ?_) hchecks
  exact hchecks check (hext.readinessChecks.subset hcheck)

theorem balanced_refreshIntentStatus : Keeps (Balanced config)
    (refreshIntentStatus config answers userId intentId) := by
  refine keeps_refreshIntentStatus (fun _ => balanced_verifyVenueReadiness) (fun _ _ => ?_)
    (fun routeLegId input => keeps_modify fun s h => h.of_extends
      (extends_updateLeg (grownLeg_change input) routeLegId input.status s) rfl)
    (fun status => keeps_modify fun s h => h.of_extends
      (extends_updateIntentStatus intentId status s) rfl)
  refine keeps_bind keeps_await fun _ => keeps_bind (keeps_modify fun s h => ?_) fun _ => keeps_pure
  exact h.of_extends ⟨rfl, rfl, forall₂_grownLeg_refl _, prefix_rfl, prefix_append _ _,
    prefix_rfl⟩ rfl

theorem balanced_submitRouteLeg {now : ℕ} {txHash : String} : Keeps (Balanced config)
    (submitRouteLeg now userId intentId routeLegId txHash) := by
  refine keeps_bind keeps_loadIntent fun view => keeps_bind keeps_await fun writes =>
    keeps_modify fun s h => ?_
  induction writes generalizing s with
  | nil => exact h
  | cons statement writes ih =>
    refine ih { s with tables := statement.apply s.tables }
      (h.of_extends (extends_apply statement s) ?_)
    cases statement <;> rfl

theorem balanced_quoteIntent : Keeps (Balanced config) (quoteIntent answers userId intentId) := by
  intro s h
  rcases quoteIntent_cases answers userId intentId s with
    hsame | ⟨view, routeLegs, tables, hview, hquoted, hreplace, hgo⟩
  · rw [hsame]
    exact h
  rw [hgo]
  have htargets := replaceRouteLegs_targets hreplace
  have hreplaced : Balanced config { s with tables } := by
    refine ⟨h.keys.replaceRouteLegs hreplace, targetIds_of_identity htargets ▸ h.targetIds, ?_, ?_⟩
    · intro leg hleg target' htarget' hid
      obtain ⟨target, htarget, htargetId, hintent, hvenue⟩ :=
        mem_targets_of_identity htargets htarget'
      rw [← hvenue, ← hintent]
      rw [← htargetId] at hid
      change leg ∈ tables.routeLegs at hleg
      rw [(replaceRouteLegs_ok hreplace).1, mem_append] at hleg
      rcases hleg with hkept | hnew
      · exact h.legs leg (mem_filter.mp hkept).1 target htarget hid
      · -- a leg just quoted is built of its target, which is the only one of its id
        obtain ⟨built, hbuilt, quote, rfl⟩ := mem_quoted hquoted hnew
        rw [(getIntent_ok hview).2.2.1, listTargets, mem_filter] at hbuilt
        obtain rfl : target = built := eq_of_key h.targetIds htarget hbuilt.1 hid
        exact ⟨rfl, rfl⟩
    · exact fun hchecks => (h.backed hchecks).of_sublist rfl fun userId venue token =>
        countedAmounts_replaceRouteLegs h.keys hreplace htargets config userId venue token
  exact hreplaced.of_extends
    (extends_updateIntentStatus intentId .USER_SIGNATURE_REQUIRED { s with tables }) rfl

theorem balanced_step {operation : FundingAction × FundingAnswers} (h : Balanced config s)
    (hstep : fundingStep config s operation = some t) : Balanced config t := by
  obtain ⟨action, answers⟩ := operation
  cases hstep
  cases action with
  | quoteIntent => exact balanced_quoteIntent s h
  | submitRouteLeg => exact balanced_submitRouteLeg s h
  | refreshIntentStatus => exact balanced_refreshIntentStatus s h
  | verifyVenueReadiness => exact balanced_verifyVenueReadiness s h

/-! ## The ready balance -/

theorem le_effectiveRequiredAmount (amount tolerance : ℚ) :
    amount ≤ effectiveRequiredAmount amount tolerance + tolerance := by
  have h := le_max_left (amount - tolerance) 0
  unfold effectiveRequiredAmount
  linarith

/-- The ready amount is within what the counted legs asked of the balance and their tolerances. -/
theorem readyAmount_le (config : FundingConfig) (userId : String) (venue : FundingVenue)
    (token : String) (tables : FundingTables) : tables.readyAmount userId venue token ≤
      (countedAmounts config userId venue token tables).sum +
        balanceTolerance config venue * (tables.countedLegs userId venue token).length := by
  unfold readyAmount countedAmounts
  induction tables.countedLegs userId venue token with
  | nil => simp
  | cons leg legs ih =>
    have hleg := le_effectiveRequiredAmount (tables.readyRouteLegAmount leg)
      (balanceTolerance config venue)
    simp only [map_cons, sum_cons, length_cons, Nat.cast_add, Nat.cast_one]
    unfold effectiveAmount at ih ⊢
    linarith

/-- The tables of intents that are not quoted yet, each target with an id of its own. -/
structure Fresh (s : FundingSystem) : Prop where
  unquoted : Unquoted s
  targetIds : (s.tables.targets.map (·.fundingTargetId)).Nodup

theorem Fresh.balanced (h : Fresh s) (config : FundingConfig) : Balanced config s where
  keys := ⟨by rw [h.unquoted.1]; exact nodup_nil,
    by rw [h.unquoted.2]; intro record hrecord; cases hrecord⟩
  targetIds := h.targetIds
  legs := fun leg hleg => by rw [h.unquoted.1] at hleg; cases hleg
  backed := fun _ userId venue token => .inl (by
    unfold countedAmounts countedLegs
    rw [h.unquoted.1]
    rfl)

/-- An intent that sends 100 to LIMITLESS twice. -/
def twoTargets : FundingSystem where
  tables := {
    intents := [⟨"intent-1", "user-1", .INTENT_CREATED⟩]
    targets := [⟨"target-1", "intent-1", .LIMITLESS, "USDC", 100, .LEG_CREATED⟩,
      ⟨"target-2", "intent-1", .LIMITLESS, "USDC", 100, .LEG_CREATED⟩]
    routeLegs := []
    reconciliations := [] }
  lifiReports := []
  readinessChecks := []

theorem twoTargets_fresh : Fresh twoTargets := ⟨⟨rfl, rfl⟩, by decide +kernel⟩

theorem noTolerance : (0 : ℚ) ≤ 0 := le_rfl

def limitlessChecked : FundingConfig where
  venueReadinessChecksEnabled := true
  venueReadinessCheckers := fun venue =>
    if venue = .LIMITLESS then some ⟨.LIMITLESS, true, true, 0, noTolerance⟩ else none

/-- Both transfers are reported complete while the venue holds `usable`. -/
def holding (usable : ℚ) : FundingAnswers where
  lifiStatus := fun _ => .ok .DONE_COMPLETED
  fetchUsableUsdcBalance := fun _ => .balance (some usable) none
  quote := fun target => .ok ⟨"leg of " ++ target.fundingTargetId, .LIFI, some 100, 60⟩

def otherHash : String := "0x" ++ String.ofList (List.replicate 64 'b')

/-- Quoted, both legs submitted, refreshed while the venue holds `usable`. -/
def bothSubmitted (usable : ℚ) : List (FundingAction × FundingAnswers) :=
  [(.quoteIntent "user-1" "intent-1", holding usable),
    (.submitRouteLeg 0 "user-1" "intent-1" "leg of target-1" transferHash, holding usable),
    (.submitRouteLeg 0 "user-1" "intent-1" "leg of target-2" otherHash, holding usable),
    (.refreshIntentStatus "user-1" "intent-1", holding usable)]

end LotusRfq.Funding
