import LotusRfq.Funding.StaleCleanup

/-!
# LotusRfq — cancelled with the money on its way

An intent is *forsaken* when it is cancelled or gone while a leg of it has a recorded hash. A
cleanup that selected the intent before the hash was recorded cancels it nonetheless; the
submission repairs that if its last statement, the new state of the intent, comes after the
cancellation.

* **`fundingDocket_advance`**, **`withdrawalDocket_advance`** — a submission's statement is a step
  of the docket;
* **`CleanupInvariant.step`** — what every step keeps;
* **`noneForsaken_of_run`** — once the submissions are through, no intent is forsaken, as long as
  none of them sets the state of an intent between its selection and its cancellation.
-/

namespace LotusRfq.Funding

open Tables Transitions Sessions List

/-! ## What a submission still owes -/

/-- The entries that the calls under way will still settle. -/
def owed {W : Type} (settles : List W → Option String) (inFlight : List (List W)) : Set String :=
  {id | ∃ writes ∈ inFlight, settles writes = some id}

variable {id : String} {writes : List FundingWrite} {tables : WithdrawalTables}
  {cleanup : Cleanup} {i : ℕ}

section Owed

variable {W : Type} {settles : List W → Option String} {inFlight : List (List W)} {i : ℕ}
  {call writes : List W}

theorem owed_append (writes : List W) :
    owed settles inFlight ⊆ owed settles (inFlight ++ [writes]) :=
  fun _ ⟨other, hother, hsettles⟩ => ⟨other, mem_append_left _ hother, hsettles⟩

theorem mem_owed_set (hcall : inFlight[i]? = some call) (h : settles writes = some id) :
    id ∈ owed settles (inFlight.set i writes) := by
  have hi : i < inFlight.length := (List.getElem?_eq_some_iff.mp hcall).1
  exact ⟨writes, List.mem_set hi writes, h⟩

theorem owed_set (hcall : inFlight[i]? = some call) (h : id ∈ owed settles inFlight)
    (hother : settles call ≠ some id) : id ∈ owed settles (inFlight.set i writes) := by
  obtain ⟨other, hmem, hsettles⟩ := h
  obtain ⟨j, hj, rfl⟩ := mem_iff_getElem.mp hmem
  have hne : i ≠ j := by
    rintro rfl
    rw [getElem?_eq_getElem hj, Option.some.injEq] at hcall
    exact hother (hcall ▸ hsettles)
  refine ⟨inFlight[j], ?_, hsettles⟩
  have hj' : j < (inFlight.set i writes).length := by rwa [length_set]
  have hsame : (inFlight.set i writes)[j] = inFlight[j] := getElem_set_ne hne hj'
  exact hsame ▸ getElem_mem hj'

theorem owed_set_of_eq (hcall : inFlight[i]? = some call) (h : settles writes = settles call) :
    owed settles inFlight ⊆ owed settles (inFlight.set i writes) := by
  intro id hid
  by_cases hcase : settles call = some id
  · exact mem_owed_set hcall (h.trans hcase)
  · exact owed_set hcall hid hcase

end Owed

/-- The intent whose state a submission has still to set, once it has recorded its hash. -/
def settles : List FundingWrite → Option String
  | .updateRouteLegProviderStatus _ _ :: writes => settles writes
  | .updateIntentStatus fundingIntentId _ :: _ => some fundingIntentId
  | _ => none

def settlesWithdrawal : List WithdrawalWrite → Option String
  | .updateWithdrawalIntentStatus withdrawalIntentId _ :: _ => some withdrawalIntentId
  | _ => none

/-- What is left of a submission for the intent `id`; `keys` are the legs with their intents. -/
inductive FundingCall (keys : List (String × String)) (id : String) : List FundingWrite → Prop where
  | done : FundingCall keys id []
  | settle {status : FundingAggregateState} (hstatus : status ≠ .CANCELLED) :
      FundingCall keys id [.updateIntentStatus id status]
  | provider {routeLegId : String} {input : FundingTables.ProviderStatusUpdate}
      {writes : List FundingWrite}
      (hrest : FundingCall keys id writes) (hsettles : settles writes = some id) :
      FundingCall keys id (.updateRouteLegProviderStatus routeLegId input :: writes)
  | mark {routeLegId txHash : String} {status : FundingLegState} {writes : List FundingWrite}
      (hleg : ∀ key ∈ keys, key.1 = routeLegId → key.2 = id)
      (hrest : FundingCall keys id writes) (hsettles : settles writes = some id) :
      FundingCall keys id (.updateRouteLegSubmission routeLegId txHash status :: writes)

inductive WithdrawalCall (keys : List (String × String)) (id : String) :
    List WithdrawalWrite → Prop where
  | done : WithdrawalCall keys id []
  | settle {status : WithdrawalAggregateState} (hstatus : status ≠ .CANCELLED) :
      WithdrawalCall keys id [.updateWithdrawalIntentStatus id status]
  | mark {withdrawalRouteLegId txHash : String} {status : WithdrawalLegState}
      {venueReleaseStatus destinationStatus : Option ConfirmationStatus}
      {writes : List WithdrawalWrite}
      (hleg : ∀ key ∈ keys, key.1 = withdrawalRouteLegId → key.2 = id)
      (hrest : WithdrawalCall keys id writes) (hsettles : settlesWithdrawal writes = some id) :
      WithdrawalCall keys id (.updateWithdrawalRouteLegSubmission withdrawalRouteLegId txHash
        status venueReleaseStatus destinationStatus :: writes)

def FundingTables.legKeys (tables : FundingTables) : List (String × String) :=
  tables.routeLegs.map fun leg => (leg.routeLegId, leg.fundingIntentId)

def WithdrawalTables.legKeys (tables : WithdrawalTables) : List (String × String) :=
  tables.routeLegs.map fun leg => (leg.withdrawalRouteLegId, leg.withdrawalIntentId)

theorem snd_eq_of_fst {keys : List (String × String)} (hkeys : (keys.map (·.1)).Nodup)
    {key key' : String × String} (h : key ∈ keys) (h' : key' ∈ keys) (heq : key.1 = key'.1) :
    key.2 = key'.2 :=
  congrArg Prod.snd (eq_of_key hkeys h h' heq)

theorem fundingCall_of_begin {call : FundingSubmission} {tables : FundingTables}
    (hkeys : (tables.legKeys.map (·.1)).Nodup) (h : beginSubmission call tables = .ok writes) :
    FundingCall tables.legKeys call.fundingIntentId writes := by
  obtain ⟨view, leg, status, hview, hleg, hstatus, rfl⟩ := beginSubmission_ok h
  obtain ⟨hmem, hintent, -⟩ := FundingIntentView.mem_of_findLeg hview hleg
  have hkey : (leg.routeLegId, call.fundingIntentId) ∈ tables.legKeys :=
    mem_map.mpr ⟨leg, hmem, by rw [hintent]⟩
  have hmark : ∀ key ∈ tables.legKeys, key.1 = leg.routeLegId → key.2 = call.fundingIntentId :=
    fun key hother heq => snd_eq_of_fst hkeys hother hkey heq
  split
  · exact .mark hmark (.provider (.settle hstatus) rfl) rfl
  · exact .mark hmark (.settle hstatus) rfl

theorem WithdrawalIntentView.mem_of_findLeg
    {userId withdrawalIntentId withdrawalRouteLegId : String} {view : WithdrawalIntentView}
    {leg : WithdrawalRouteLeg}
    (hview : tables.getWithdrawalIntent userId withdrawalIntentId = .ok view)
    (h : view.findLeg withdrawalRouteLegId = some leg) :
    leg ∈ tables.routeLegs ∧ leg.withdrawalIntentId = withdrawalIntentId := by
  have hmem : leg ∈ view.routeLegs := mem_of_find?_eq_some h
  unfold WithdrawalTables.getWithdrawalIntent at hview
  split at hview
  next => cases hview
  next intent hfind =>
    split at hview
    next => cases hview
    next =>
      cases hview
      rw [WithdrawalTables.listWithdrawalRouteLegs, mem_filter] at hmem
      exact ⟨hmem.1, by simpa using hmem.2⟩

theorem withdrawalCall_of_begin {call : WithdrawalSubmission} {writes : List WithdrawalWrite}
    (hkeys : (tables.legKeys.map (·.1)).Nodup)
    (h : beginWithdrawalSubmission call tables = .ok writes) :
    WithdrawalCall tables.legKeys call.withdrawalIntentId writes := by
  obtain ⟨view, leg, status, hview, hleg, hstatus, rfl⟩ := beginWithdrawalSubmission_ok h
  obtain ⟨hmem, hintent⟩ := WithdrawalIntentView.mem_of_findLeg hview hleg
  have hkey : (leg.withdrawalRouteLegId, call.withdrawalIntentId) ∈ tables.legKeys :=
    mem_map.mpr ⟨leg, hmem, by rw [hintent]⟩
  exact .mark (fun key hother heq => snd_eq_of_fst hkeys hother hkey heq) (.settle hstatus) rfl

/-! ## The dockets -/

/-- A cleanup has selected the intent, or cancelled it without having committed. -/
def Cleanup.choosesFunding (cleanup : Cleanup) (id : String) : Prop :=
  id ∈ cleanup.fundingCandidates ∨ id ∈ cleanup.cancelledFunding

def Cleanup.choosesWithdrawal (cleanup : Cleanup) (id : String) : Prop :=
  id ∈ cleanup.withdrawalCandidates ∨ id ∈ cleanup.cancelledWithdrawals

def chosenBy (f : Cleanup → String → Prop) (cleanups : List Cleanup) : Set String :=
  {id | ∃ cleanup ∈ cleanups, f cleanup id}

/-- Hashes, cancellations, selections and what the submissions owe, on the funding side. -/
def fundingDocket (s : CleanupSystem) : Docket.State String where
  marked := {id | ∃ leg ∈ s.funding.routeLegs, leg.fundingIntentId = id ∧ leg.txHashes ≠ []}
  cancelled := {id | ∃ intent ∈ s.funding.intents,
    intent.fundingIntentId = id ∧ intent.status = .CANCELLED}
  chosen := chosenBy Cleanup.choosesFunding s.cleanups
  unsettled := owed settles s.submissions

def withdrawalDocket (s : CleanupSystem) : Docket.State String where
  marked := {id | ∃ leg ∈ s.withdrawals.routeLegs,
    leg.withdrawalIntentId = id ∧ leg.txHashes ≠ []}
  cancelled := {id | ∃ intent ∈ s.withdrawals.intents,
    intent.withdrawalIntentId = id ∧ intent.status = .CANCELLED}
  chosen := chosenBy Cleanup.choosesWithdrawal s.cleanups
  unsettled := owed settlesWithdrawal s.withdrawalSubmissions

/-- No submission sets the state of an intent that a cleanup has selected and not cancelled yet. -/
def SettlesUnselected (s : CleanupSystem) : CleanupAction → Prop
  | .submission (.advance i) =>
    match s.submissions[i]? with
    | some (.updateIntentStatus fundingIntentId _ :: _) =>
      ∀ cleanup ∈ s.cleanups, fundingIntentId ∉ cleanup.fundingCandidates
    | _ => True
  | .withdrawalSubmission (.advance i) =>
    match s.withdrawalSubmissions[i]? with
    | some (.updateWithdrawalIntentStatus withdrawalIntentId _ :: _) =>
      ∀ cleanup ∈ s.cleanups, withdrawalIntentId ∉ cleanup.withdrawalCandidates
    | _ => True
  | _ => True

instance (s : CleanupSystem) (action : CleanupAction) : Decidable (SettlesUnselected s action) := by
  unfold SettlesUnselected
  split
  · split <;> infer_instance
  · split <;> infer_instance
  · infer_instance

variable {reason : String} {s t : CleanupSystem} {keys keys' : List (String × String)}

/-! ## Submissions -/

theorem mem_chosen_of_locked (hcleanup : cleanup ∈ s.cleanups) (h : id ∈ cleanup.cancelledFunding) :
    unlocked Cleanup.lockedFunding s.cleanups [id] = false := by
  rw [unlocked, all_eq_false]
  refine ⟨id, mem_singleton_self id, ?_⟩
  rw [Bool.not_eq_true, all_eq_false]
  exact ⟨cleanup, hcleanup, by simp [Cleanup.lockedFunding, h]⟩

theorem fundingDocket_advance {statement : FundingWrite}
    (hat : s.submissions[i]? = some (statement :: writes))
    (hcall : FundingCall s.funding.legKeys id (statement :: writes))
    (hland : statement.canLand s = true) (hguard : SettlesUnselected s (.submission (.advance i))) :
    Docket.Step (fundingDocket s) (fundingDocket { s with
      funding := statement.apply s.funding, submissions := s.submissions.set i writes }) := by
  cases hcall with
  | @settle status hstatus =>
    refine .settle id ?_ (Set.Subset.refl _) ?_ (Set.Subset.refl _) ?_
    · -- neither selected nor locked
      rintro ⟨cleanup, hcleanup, hselected | hcancelled⟩
      · simp only [SettlesUnselected, hat] at hguard
        exact hguard cleanup hcleanup hselected
      · have hlocked := mem_chosen_of_locked hcleanup hcancelled
        rw [FundingWrite.canLand, hlocked] at hland
        cases hland
    · rintro other ⟨intent, hintent, hid, hcancelled⟩
      rcases mem_update.mp hintent with ⟨row, -, -, rfl⟩ | ⟨hmem, hne⟩
      · exact absurd hcancelled hstatus
      · exact ⟨⟨intent, hmem, hid, hcancelled⟩, fun hsame => hne (hid.trans hsame)⟩
    · rintro other ⟨howed, hne⟩
      exact owed_set hat howed fun hsettles => hne (Option.some.inj hsettles).symm
  | @provider routeLegId input _ hrest hsettles =>
    refine .cancel ?_ Set.subset_union_left (Set.Subset.refl _) (owed_set_of_eq hat rfl)
    rintro other ⟨leg, hleg, hid, hhashes⟩
    rcases mem_update.mp hleg with ⟨row, hrow, -, rfl⟩ | ⟨hmem, -⟩
    · exact ⟨row, hrow, hid, hhashes⟩
    · exact ⟨leg, hmem, hid, hhashes⟩
  | @mark routeLegId txHash status _ hleg hrest hsettles =>
    refine .mark id ?_ (Set.Subset.refl _) (Set.Subset.refl _) ?_
    · rintro other ⟨leg, hmem, hid, hhashes⟩
      rcases mem_update.mp hmem with ⟨row, hrow, hkey, rfl⟩ | ⟨hold, -⟩
      · have hkeys : (row.routeLegId, row.fundingIntentId) ∈ s.funding.legKeys :=
          mem_map_of_mem hrow
        exact .inl (hid.symm.trans (hleg _ hkeys hkey))
      · exact .inr ⟨leg, hold, hid, hhashes⟩
    · rintro other (rfl | howed)
      · exact mem_owed_set hat hsettles
      · exact owed_set hat howed nofun

theorem mem_chosen_of_lockedWithdrawal (hcleanup : cleanup ∈ s.cleanups)
    (h : id ∈ cleanup.cancelledWithdrawals) :
    unlocked Cleanup.lockedWithdrawals s.cleanups [id] = false := by
  rw [unlocked, all_eq_false]
  refine ⟨id, mem_singleton_self id, ?_⟩
  rw [Bool.not_eq_true, all_eq_false]
  exact ⟨cleanup, hcleanup, by simp [Cleanup.lockedWithdrawals, h]⟩

theorem withdrawalDocket_advance {statement : WithdrawalWrite} {writes : List WithdrawalWrite}
    (hat : s.withdrawalSubmissions[i]? = some (statement :: writes))
    (hcall : WithdrawalCall s.withdrawals.legKeys id (statement :: writes))
    (hland : statement.canLand s = true)
    (hguard : SettlesUnselected s (.withdrawalSubmission (.advance i))) :
    Docket.Step (withdrawalDocket s) (withdrawalDocket { s with
      withdrawals := statement.apply s.withdrawals
      withdrawalSubmissions := s.withdrawalSubmissions.set i writes }) := by
  cases hcall with
  | @settle status hstatus =>
    refine .settle id ?_ (Set.Subset.refl _) ?_ (Set.Subset.refl _) ?_
    · rintro ⟨cleanup, hcleanup, hselected | hcancelled⟩
      · simp only [SettlesUnselected, hat] at hguard
        exact hguard cleanup hcleanup hselected
      · have hlocked := mem_chosen_of_lockedWithdrawal hcleanup hcancelled
        rw [WithdrawalWrite.canLand, hlocked] at hland
        cases hland
    · rintro other ⟨intent, hintent, hid, hcancelled⟩
      rcases mem_update.mp hintent with ⟨row, -, -, rfl⟩ | ⟨hmem, hne⟩
      · exact absurd hcancelled hstatus
      · exact ⟨⟨intent, hmem, hid, hcancelled⟩, fun hsame => hne (hid.trans hsame)⟩
    · rintro other ⟨howed, hne⟩
      exact owed_set hat howed fun hsettles => hne (Option.some.inj hsettles).symm
  | @mark withdrawalRouteLegId txHash status _ _ _ hleg hrest hsettles =>
    refine .mark id ?_ (Set.Subset.refl _) (Set.Subset.refl _) ?_
    · rintro other ⟨leg, hmem, hid, hhashes⟩
      rcases mem_update.mp hmem with ⟨row, hrow, hkey, rfl⟩ | ⟨hold, -⟩
      · have hkeys : (row.withdrawalRouteLegId, row.withdrawalIntentId) ∈ s.withdrawals.legKeys :=
          mem_map_of_mem hrow
        exact .inl (hid.symm.trans (hleg _ hkeys hkey))
      · exact .inr ⟨leg, hold, hid, hhashes⟩
    · rintro other (rfl | howed)
      · exact mem_owed_set hat hsettles
      · exact owed_set hat howed nofun

/-! ## Cleanups -/

section Chosen

variable {f : Cleanup → String → Prop} {cleanups : List Cleanup} {i : ℕ}

theorem mem_chosenBy_set {advanced : Cleanup} (h : id ∈ chosenBy f (cleanups.set i advanced)) :
    id ∈ chosenBy f cleanups ∨ f advanced id := by
  obtain ⟨cleanup, hmem, hid⟩ := h
  rcases List.mem_or_eq_of_mem_set hmem with hold | rfl
  · exact .inl ⟨cleanup, hold, hid⟩
  · exact .inr hid

theorem chosenBy_eraseIdx (f : Cleanup → String → Prop) (cleanups : List Cleanup) (i : ℕ) :
    chosenBy f (cleanups.eraseIdx i) ⊆ chosenBy f cleanups :=
  fun _ ⟨cleanup, hmem, hid⟩ => ⟨cleanup, mem_of_mem_eraseIdx hmem, hid⟩

theorem chosenBy_begin (h : ∀ id, ¬ f Cleanup.begin id) :
    chosenBy f (cleanups ++ [Cleanup.begin]) ⊆ chosenBy f cleanups := by
  rintro id ⟨cleanup, hmem, hid⟩
  rcases mem_append.mp hmem with hold | hnew
  · exact ⟨cleanup, hold, hid⟩
  · exact absurd (mem_singleton.mp hnew ▸ hid) (h id)

end Chosen

section

variable {cleanup advanced : Cleanup} {others : List Cleanup} {choice : List String}
  (h : cleanup.advance s others choice = some advanced)

include h

/-- What a cleanup holds on the funding side after its next statement: what it held before, or
what it has just selected among the unmarked. -/
theorem Cleanup.advance_funding (hid : advanced.choosesFunding id) :
    cleanup.choosesFunding id ∨ s.funding.isUnsubmitted id = true := by
  unfold Cleanup.advance at h
  split at h
  case h_2 =>
    -- `selectFunding`
    split at h
    next hall =>
      cases h
      rcases hid with hselected | hcancelled
      · exact .inr (all_eq_true.mp hall id hselected)
      · exact .inl (.inr hcancelled)
    next => cases h
  case h_5 =>
    -- `cancelFunding`
    dsimp only at h
    split at h
    next =>
      cases h
      rcases hid with hselected | hcancelled
      · cases hselected
      · obtain ⟨intent, hintent, rfl⟩ := mem_map.mp hcancelled
        have hkept := (mem_filter.mp hintent).2
        rw [Bool.and_eq_true, decide_eq_true_eq] at hkept
        exact .inl (.inl hkept.1)
    next => cases h
  case h_9 => cases h
  all_goals
    cases (Option.ite_none_right_eq_some.mp h).2
    exact .inl hid

theorem Cleanup.advance_withdrawals (hid : advanced.choosesWithdrawal id) :
    cleanup.choosesWithdrawal id ∨ s.withdrawals.isUnsubmitted id = true := by
  unfold Cleanup.advance at h
  split at h
  case h_7 =>
    -- `selectWithdrawals`
    split at h
    next hall =>
      cases h
      rcases hid with hselected | hcancelled
      · exact .inr (all_eq_true.mp hall id hselected)
      · exact .inl (.inr hcancelled)
    next => cases h
  case h_8 =>
    -- `cancelWithdrawals`
    dsimp only at h
    split at h
    next =>
      cases h
      rcases hid with hselected | hcancelled
      · cases hselected
      · obtain ⟨intent, hintent, rfl⟩ := mem_map.mp hcancelled
        have hkept := (mem_filter.mp hintent).2
        rw [Bool.and_eq_true, decide_eq_true_eq] at hkept
        exact .inl (.inl hkept.1)
    next => cases h
  case h_9 => cases h
  all_goals
    cases (Option.ite_none_right_eq_some.mp h).2
    exact .inl hid

theorem Cleanup.advance_deleted (id : String) :
    (id ∈ advanced.deletedFunding → id ∈ cleanup.deletedFunding ∨ s.funding.isUnused id = true) ∧
      (id ∈ advanced.deletedWithdrawals →
        id ∈ cleanup.deletedWithdrawals ∨ s.withdrawals.isUnused id = true) := by
  unfold Cleanup.advance at h
  split at h
  case h_1 =>
    split at h
    next hall =>
      cases h
      rw [Bool.and_eq_true] at hall
      exact ⟨fun hid => .inr (all_eq_true.mp hall.1 id hid), .inl⟩
    next => cases h
  case h_6 =>
    split at h
    next hall =>
      cases h
      rw [Bool.and_eq_true] at hall
      exact ⟨.inl, fun hid => .inr (all_eq_true.mp hall.1 id hid)⟩
    next => cases h
  case h_9 => cases h
  all_goals
    cases (Option.ite_none_right_eq_some.mp h).2
    exact ⟨.inl, .inl⟩

end

theorem not_marked_of_isUnsubmitted (h : s.funding.isUnsubmitted id = true) :
    id ∉ (fundingDocket s).marked := by
  rintro ⟨leg, hleg, hid, hhashes⟩
  simp only [FundingTables.isUnsubmitted, Bool.and_eq_true, all_eq_true,
    decide_eq_true_eq] at h
  exact hhashes (h.1.2 leg (mem_filter.mpr ⟨hleg, by simpa using hid⟩))

theorem not_marked_of_withdrawal_isUnsubmitted (h : s.withdrawals.isUnsubmitted id = true) :
    id ∉ (withdrawalDocket s).marked := by
  rintro ⟨leg, hleg, hid, hhashes⟩
  simp only [WithdrawalTables.isUnsubmitted, Bool.and_eq_true, all_eq_true,
    decide_eq_true_eq] at h
  exact hhashes (h.1.2 leg (mem_filter.mpr ⟨hleg, by simpa using hid⟩))

/-! ## Steps -/

theorem stepSubmission_cases {T W C : Type} {begin : C → T → Except FundingError (List W)}
    {apply : W → T → T} {canLand : W → Bool} {tables : T} {inFlight : List (List W)}
    {action : Sessions.Action C} {u : Sessions.System T W}
    (h : stepSubmission begin apply canLand tables inFlight action = some u) :
    u = ⟨tables, inFlight⟩ ∨
      (∃ call writes, action = .start call ∧ begin call tables = .ok writes ∧
        u = ⟨tables, inFlight ++ [writes]⟩) ∨
      ∃ i statement writes, action = .advance i ∧ inFlight[i]? = some (statement :: writes) ∧
        canLand statement = true ∧ u = ⟨apply statement tables, inFlight.set i writes⟩ := by
  cases action with
  | start call =>
    have hstep : Sessions.step begin apply ⟨tables, inFlight⟩ (.start call) = some u := h
    rcases Sessions.step_start hstep with hsame | ⟨writes, hbegin, hu⟩
    · exact .inl hsame
    · exact .inr (.inl ⟨call, writes, rfl, hbegin, hu⟩)
  | advance i =>
    simp only [stepSubmission] at h
    split at h
    next hland =>
      obtain ⟨statement, writes, hat, hu⟩ := Sessions.step_advance h
      rw [hat] at hland
      exact .inr (.inr ⟨i, statement, writes, rfl, hat, hland, hu⟩)
    next => cases h

theorem FundingCall.tail {statement : FundingWrite}
    (h : FundingCall keys id (statement :: writes)) : FundingCall keys id writes := by
  cases h with
  | settle hstatus => exact .done
  | provider hrest hsettles => exact hrest
  | mark hleg hrest hsettles => exact hrest

theorem WithdrawalCall.tail {statement : WithdrawalWrite} {writes : List WithdrawalWrite}
    (h : WithdrawalCall keys id (statement :: writes)) : WithdrawalCall keys id writes := by
  cases h with
  | settle hstatus => exact .done
  | mark hleg hrest hsettles => exact hrest

theorem legKeys_apply (statement : FundingWrite) (tables : FundingTables) :
    (statement.apply tables).legKeys = tables.legKeys ∧
      (statement.apply tables).intents.map (·.fundingIntentId) =
        tables.intents.map (·.fundingIntentId) := by
  cases statement with
  | updateRouteLegSubmission routeLegId txHash status =>
    exact ⟨map_update (f := FundingTables.submissionChange txHash status) routeLegId
      (fun _ => rfl) _, rfl⟩
  | updateRouteLegProviderStatus routeLegId input =>
    exact ⟨map_update (f := input.change) routeLegId (fun _ => rfl) _, rfl⟩
  | updateIntentStatus fundingIntentId status =>
    exact ⟨rfl, map_update (f := fun intent : FundingIntent => { intent with status })
      fundingIntentId (fun _ => rfl) _⟩

theorem withdrawal_legKeys_apply (statement : WithdrawalWrite) (tables : WithdrawalTables) :
    (statement.apply tables).legKeys = tables.legKeys ∧
      (statement.apply tables).intents.map (·.withdrawalIntentId) =
        tables.intents.map (·.withdrawalIntentId) := by
  cases statement with
  | updateWithdrawalRouteLegSubmission withdrawalRouteLegId txHash status venueReleaseStatus
      destinationStatus =>
    exact ⟨map_update (f := WithdrawalTables.submissionChange txHash status venueReleaseStatus
      destinationStatus) withdrawalRouteLegId (fun _ => rfl) _, rfl⟩
  | updateWithdrawalIntentStatus withdrawalIntentId status =>
    exact ⟨rfl, map_update (f := fun intent : WithdrawalIntent => { intent with status })
      withdrawalIntentId (fun _ => rfl) _⟩

theorem legKeys_cleanedUp {tables : FundingTables}
    (h : ∀ key ∈ tables.legKeys, key.2 ∉ cleanup.deletedFunding) :
    (tables.cleanedUp reason cleanup).legKeys = tables.legKeys := by
  have hall : (tables.routeLegs.filter fun leg =>
      leg.fundingIntentId ∉ cleanup.deletedFunding) = tables.routeLegs := by
    rw [filter_eq_self]
    intro leg hleg
    exact decide_eq_true (h _ (mem_map_of_mem hleg))
  simp only [FundingTables.legKeys, FundingTables.cleanedUp, hall, map_map]
  refine map_congr_left fun leg _ => ?_
  rw [Function.comp_apply]
  split <;> rfl

theorem withdrawal_legKeys_cleanedUp
    (h : ∀ key ∈ tables.legKeys, key.2 ∉ cleanup.deletedWithdrawals) :
    (tables.cleanedUp cleanup).legKeys = tables.legKeys := by
  have hall : (tables.routeLegs.filter fun leg =>
      leg.withdrawalIntentId ∉ cleanup.deletedWithdrawals) = tables.routeLegs := by
    rw [filter_eq_self]
    intro leg hleg
    exact decide_eq_true (h _ (mem_map_of_mem hleg))
  show (tables.routeLegs.filter _).map _ = _
  rw [hall]
  rfl

theorem mem_intents_cleanedUp {tables : FundingTables}
    (h : id ∈ tables.intents.map (·.fundingIntentId)) (hkept : id ∉ cleanup.deletedFunding) :
    id ∈ (tables.cleanedUp reason cleanup).intents.map (·.fundingIntentId) := by
  obtain ⟨intent, hintent, rfl⟩ := mem_map.mp h
  have hmem : intent ∈ tables.intents.filter fun intent =>
      intent.fundingIntentId ∉ cleanup.deletedFunding :=
    mem_filter.mpr ⟨hintent, decide_eq_true hkept⟩
  refine mem_map.mpr ⟨_, mem_map_of_mem hmem, ?_⟩
  split <;> rfl

theorem mem_withdrawal_intents_cleanedUp (h : id ∈ tables.intents.map (·.withdrawalIntentId))
    (hkept : id ∉ cleanup.deletedWithdrawals) :
    id ∈ (tables.cleanedUp cleanup).intents.map (·.withdrawalIntentId) := by
  obtain ⟨intent, hintent, rfl⟩ := mem_map.mp h
  have hmem : intent ∈ tables.intents.filter fun intent =>
      intent.withdrawalIntentId ∉ cleanup.deletedWithdrawals :=
    mem_filter.mpr ⟨hintent, decide_eq_true hkept⟩
  refine mem_map.mpr ⟨_, mem_map_of_mem hmem, ?_⟩
  split <;> rfl

theorem fundingDocket_commit (hat : s.cleanups[i]? = some cleanup) :
    Docket.Step (fundingDocket s) (fundingDocket { s with
      funding := s.funding.cleanedUp reason cleanup
      withdrawals := s.withdrawals.cleanedUp cleanup
      cleanups := s.cleanups.eraseIdx i }) := by
  refine .cancel ?_ ?_ (chosenBy_eraseIdx _ _ i) (Set.Subset.refl _)
  · rintro id ⟨leg, hleg, hid, hhashes⟩
    obtain ⟨row, hrow, rfl⟩ := mem_map.mp hleg
    refine ⟨row, (mem_filter.mp hrow).1, ?_⟩
    split at hid <;> split at hhashes <;> exact ⟨hid, hhashes⟩
  · rintro id ⟨intent, hintent, hid, hcancelled⟩
    obtain ⟨row, hrow, rfl⟩ := mem_map.mp hintent
    split at hid
    next hchosen =>
      exact .inr ⟨cleanup, mem_of_getElem? hat, .inr (hid ▸ hchosen)⟩
    next hkept =>
      rw [if_neg hkept] at hcancelled
      exact .inl ⟨row, (mem_filter.mp hrow).1, hid, hcancelled⟩

theorem withdrawalDocket_commit (hat : s.cleanups[i]? = some cleanup) :
    Docket.Step (withdrawalDocket s) (withdrawalDocket { s with
      funding := s.funding.cleanedUp reason cleanup
      withdrawals := s.withdrawals.cleanedUp cleanup
      cleanups := s.cleanups.eraseIdx i }) := by
  refine .cancel ?_ ?_ (chosenBy_eraseIdx _ _ i) (Set.Subset.refl _)
  · rintro id ⟨leg, hleg, hid, hhashes⟩
    exact ⟨leg, (mem_filter.mp hleg).1, hid, hhashes⟩
  · rintro id ⟨intent, hintent, hid, hcancelled⟩
    obtain ⟨row, hrow, rfl⟩ := mem_map.mp hintent
    split at hid
    next hchosen =>
      exact .inr ⟨cleanup, mem_of_getElem? hat, .inr (hid ▸ hchosen)⟩
    next hkept =>
      rw [if_neg hkept] at hcancelled
      exact .inl ⟨row, (mem_filter.mp hrow).1, hid, hcancelled⟩

/-! ## Runs -/

/-- The dockets are safe, the legs are the ones in `keys` and `keys'`, their intents are there and
nobody is deleting them, and the submissions under way are for these legs. -/
structure CleanupInvariant (keys keys' : List (String × String)) (s : CleanupSystem) : Prop where
  funding : Docket.Safe (fundingDocket s)
  withdrawals : Docket.Safe (withdrawalDocket s)
  legKeys : s.funding.legKeys = keys
  withdrawalLegKeys : s.withdrawals.legKeys = keys'
  intents : ∀ key ∈ keys, key.2 ∈ s.funding.intents.map (·.fundingIntentId)
  withdrawalIntents : ∀ key ∈ keys', key.2 ∈ s.withdrawals.intents.map (·.withdrawalIntentId)
  submissions : ∀ writes ∈ s.submissions, ∃ id, FundingCall keys id writes
  withdrawalSubmissions : ∀ writes ∈ s.withdrawalSubmissions, ∃ id, WithdrawalCall keys' id writes
  deleted : ∀ cleanup ∈ s.cleanups, ∀ key ∈ keys, key.2 ∉ cleanup.deletedFunding
  deletedWithdrawals : ∀ cleanup ∈ s.cleanups, ∀ key ∈ keys', key.2 ∉ cleanup.deletedWithdrawals

section

variable (h : CleanupInvariant keys keys' s)

include h

theorem CleanupInvariant.submission (hkeys : (keys.map (·.1)).Nodup)
    {action : Sessions.Action FundingSubmission} {u : Sessions.System FundingTables FundingWrite}
    (hguard : SettlesUnselected s (.submission action))
    (hstep : stepSubmission beginSubmission FundingWrite.apply (FundingWrite.canLand s) s.funding
      s.submissions action = some u) :
    CleanupInvariant keys keys' { s with funding := u.tables, submissions := u.inFlight } := by
  rcases stepSubmission_cases hstep with rfl | ⟨call, writes, rfl, hbegin, rfl⟩ |
    ⟨i, statement, writes, rfl, hat, hland, rfl⟩
  · exact h
  · have hcall := fundingCall_of_begin (h.legKeys ▸ hkeys) hbegin
    rw [h.legKeys] at hcall
    refine { h with funding := ?_, submissions := ?_ }
    · have hstep : Docket.Step (fundingDocket s) (fundingDocket { s with
          submissions := s.submissions ++ [writes] }) :=
        .cancel (Set.Subset.refl _) Set.subset_union_left (Set.Subset.refl _) (owed_append writes)
      exact hstep.safe h.funding
    · intro other hother
      rcases mem_append.mp hother with hold | hnew
      · exact h.submissions other hold
      · exact ⟨_, mem_singleton.mp hnew ▸ hcall⟩
  · obtain ⟨id, hcall⟩ := h.submissions _ (mem_of_getElem? hat)
    obtain ⟨hlegs, hids⟩ := legKeys_apply statement s.funding
    refine { h with
      funding := ?_, legKeys := hlegs.trans h.legKeys, intents := ?_, submissions := ?_ }
    · exact (fundingDocket_advance hat (h.legKeys.symm ▸ hcall) hland hguard).safe h.funding
    · intro key hkey
      exact hids.symm ▸ h.intents key hkey
    · intro other hother
      rcases List.mem_or_eq_of_mem_set hother with hold | rfl
      · exact h.submissions other hold
      · exact ⟨id, hcall.tail⟩

theorem CleanupInvariant.withdrawalSubmission (hkeys : (keys'.map (·.1)).Nodup)
    {action : Sessions.Action WithdrawalSubmission}
    {u : Sessions.System WithdrawalTables WithdrawalWrite}
    (hguard : SettlesUnselected s (.withdrawalSubmission action))
    (hstep : stepSubmission beginWithdrawalSubmission WithdrawalWrite.apply
      (WithdrawalWrite.canLand s) s.withdrawals s.withdrawalSubmissions action = some u) :
    CleanupInvariant keys keys'
      { s with withdrawals := u.tables, withdrawalSubmissions := u.inFlight } := by
  rcases stepSubmission_cases hstep with rfl | ⟨call, writes, rfl, hbegin, rfl⟩ |
    ⟨i, statement, writes, rfl, hat, hland, rfl⟩
  · exact h
  · have hcall := withdrawalCall_of_begin (h.withdrawalLegKeys ▸ hkeys) hbegin
    rw [h.withdrawalLegKeys] at hcall
    refine { h with withdrawals := ?_, withdrawalSubmissions := ?_ }
    · have hstep : Docket.Step (withdrawalDocket s) (withdrawalDocket { s with
          withdrawalSubmissions := s.withdrawalSubmissions ++ [writes] }) :=
        .cancel (Set.Subset.refl _) Set.subset_union_left (Set.Subset.refl _) (owed_append writes)
      exact hstep.safe h.withdrawals
    · intro other hother
      rcases mem_append.mp hother with hold | hnew
      · exact h.withdrawalSubmissions other hold
      · exact ⟨_, mem_singleton.mp hnew ▸ hcall⟩
  · obtain ⟨id, hcall⟩ := h.withdrawalSubmissions _ (mem_of_getElem? hat)
    obtain ⟨hlegs, hids⟩ := withdrawal_legKeys_apply statement s.withdrawals
    refine { h with
      withdrawals := ?_, withdrawalLegKeys := hlegs.trans h.withdrawalLegKeys
      withdrawalIntents := ?_, withdrawalSubmissions := ?_ }
    · exact (withdrawalDocket_advance hat (h.withdrawalLegKeys.symm ▸ hcall) hland hguard).safe
        h.withdrawals
    · intro key hkey
      exact hids.symm ▸ h.withdrawalIntents key hkey
    · intro other hother
      rcases List.mem_or_eq_of_mem_set hother with hold | rfl
      · exact h.withdrawalSubmissions other hold
      · exact ⟨id, hcall.tail⟩

theorem CleanupInvariant.advance {advanced : Cleanup} {others : List Cleanup}
    {choice : List String} (hat : s.cleanups[i]? = some cleanup)
    (hstep : cleanup.advance s others choice = some advanced) :
    CleanupInvariant keys keys' { s with cleanups := s.cleanups.set i advanced } := by
  have hmem : cleanup ∈ s.cleanups := mem_of_getElem? hat
  refine { h with funding := ?_, withdrawals := ?_, deleted := ?_, deletedWithdrawals := ?_ }
  · refine Docket.Step.safe (d := fundingDocket s) (.choose (Set.Subset.refl _)
      (Set.Subset.refl _) ?_ (Set.Subset.refl _)) h.funding
    intro id hid
    rcases mem_chosenBy_set hid with hold | hnew
    · exact .inl hold
    · rcases Cleanup.advance_funding hstep hnew with hheld | hunsubmitted
      · exact .inl ⟨cleanup, hmem, hheld⟩
      · exact .inr (not_marked_of_isUnsubmitted hunsubmitted)
  · refine Docket.Step.safe (d := withdrawalDocket s) (.choose (Set.Subset.refl _)
      (Set.Subset.refl _) ?_ (Set.Subset.refl _)) h.withdrawals
    intro id hid
    rcases mem_chosenBy_set hid with hold | hnew
    · exact .inl hold
    · rcases Cleanup.advance_withdrawals hstep hnew with hheld | hunsubmitted
      · exact .inl ⟨cleanup, hmem, hheld⟩
      · exact .inr (not_marked_of_withdrawal_isUnsubmitted hunsubmitted)
  · intro other hother key hkey hdeleted
    rcases List.mem_or_eq_of_mem_set hother with hold | rfl
    · exact h.deleted other hold key hkey hdeleted
    · rcases (Cleanup.advance_deleted hstep key.2).1 hdeleted with hheld | hunused
      · exact h.deleted cleanup hmem key hkey hheld
      · -- an intent with a leg is in use
        rw [← h.legKeys] at hkey
        obtain ⟨leg, hleg, rfl⟩ := mem_map.mp hkey
        simp only [FundingTables.isUnused, Bool.and_eq_true, List.isEmpty_iff] at hunused
        have hnone := List.filter_eq_nil_iff.mp hunused.1.2 leg hleg
        simp at hnone
  · intro other hother key hkey hdeleted
    rcases List.mem_or_eq_of_mem_set hother with hold | rfl
    · exact h.deletedWithdrawals other hold key hkey hdeleted
    · rcases (Cleanup.advance_deleted hstep key.2).2 hdeleted with hheld | hunused
      · exact h.deletedWithdrawals cleanup hmem key hkey hheld
      · rw [← h.withdrawalLegKeys] at hkey
        obtain ⟨leg, hleg, rfl⟩ := mem_map.mp hkey
        simp only [WithdrawalTables.isUnused, Bool.and_eq_true, List.isEmpty_iff] at hunused
        have hnone := List.filter_eq_nil_iff.mp hunused.1.2 leg hleg
        simp at hnone

theorem CleanupInvariant.commit (hat : s.cleanups[i]? = some cleanup) :
    CleanupInvariant keys keys' { s with
      funding := s.funding.cleanedUp reason cleanup
      withdrawals := s.withdrawals.cleanedUp cleanup
      cleanups := s.cleanups.eraseIdx i } := by
  have hmem : cleanup ∈ s.cleanups := mem_of_getElem? hat
  have hkept := h.deleted cleanup hmem
  have hkept' := h.deletedWithdrawals cleanup hmem
  exact {
    funding := (fundingDocket_commit hat).safe h.funding
    withdrawals := (withdrawalDocket_commit hat).safe h.withdrawals
    legKeys := (legKeys_cleanedUp (h.legKeys.symm ▸ hkept)).trans h.legKeys
    withdrawalLegKeys :=
      (withdrawal_legKeys_cleanedUp (h.withdrawalLegKeys.symm ▸ hkept')).trans h.withdrawalLegKeys
    intents := fun key hkey => mem_intents_cleanedUp (h.intents key hkey) (hkept key hkey)
    withdrawalIntents := fun key hkey =>
      mem_withdrawal_intents_cleanedUp (h.withdrawalIntents key hkey) (hkept' key hkey)
    submissions := h.submissions
    withdrawalSubmissions := h.withdrawalSubmissions
    deleted := fun other hother => h.deleted other (mem_of_mem_eraseIdx hother)
    deletedWithdrawals := fun other hother =>
      h.deletedWithdrawals other (mem_of_mem_eraseIdx hother) }

theorem CleanupInvariant.fewer {cleanups : List Cleanup}
    (hfewer : ∀ f : Cleanup → String → Prop, (∀ id, ¬ f Cleanup.begin id) → chosenBy f cleanups ⊆
      chosenBy f s.cleanups) : CleanupInvariant keys keys' { s with cleanups } := by
  refine { h with funding := ?_, withdrawals := ?_, deleted := ?_, deletedWithdrawals := ?_ }
  · exact Docket.Step.safe (d := fundingDocket s) (.cancel (Set.Subset.refl _)
      Set.subset_union_left (hfewer _ (by simp [Cleanup.choosesFunding, Cleanup.begin]))
      (Set.Subset.refl _)) h.funding
  · exact Docket.Step.safe (d := withdrawalDocket s) (.cancel (Set.Subset.refl _)
      Set.subset_union_left (hfewer _ (by simp [Cleanup.choosesWithdrawal, Cleanup.begin]))
      (Set.Subset.refl _)) h.withdrawals
  · intro cleanup hmem key hkey hdeleted
    obtain ⟨other, hother, hdeleted⟩ := hfewer (fun cleanup id => id ∈ cleanup.deletedFunding)
      (by simp [Cleanup.begin]) ⟨cleanup, hmem, hdeleted⟩
    exact h.deleted other hother key hkey hdeleted
  · intro cleanup hmem key hkey hdeleted
    obtain ⟨other, hother, hdeleted⟩ := hfewer
      (fun cleanup id => id ∈ cleanup.deletedWithdrawals)
      (by simp [Cleanup.begin]) ⟨cleanup, hmem, hdeleted⟩
    exact h.deletedWithdrawals other hother key hkey hdeleted

theorem CleanupInvariant.step (hkeys : (keys.map (·.1)).Nodup) (hkeys' : (keys'.map (·.1)).Nodup)
    {action : CleanupAction} (hguard : SettlesUnselected s action)
    (hstep : cleanupStep reason s action = some t) : CleanupInvariant keys keys' t := by
  cases action with
  | submission action =>
    obtain ⟨u, hu, rfl⟩ := Option.map_eq_some_iff.mp hstep
    exact h.submission hkeys hguard hu
  | withdrawalSubmission action =>
    obtain ⟨u, hu, rfl⟩ := Option.map_eq_some_iff.mp hstep
    exact h.withdrawalSubmission hkeys' hguard hu
  | openCleanup =>
    cases hstep
    exact h.fewer fun _ hbegin => chosenBy_begin hbegin
  | rollback i =>
    cases hstep
    exact h.fewer fun f _ => chosenBy_eraseIdx f s.cleanups i
  | cleanup i choice =>
    simp only [cleanupStep] at hstep
    split at hstep
    next => cases hstep
    next cleanup hat =>
      split at hstep
      next =>
        cases hstep
        exact h.commit hat
      next =>
        obtain ⟨advanced, hadvance, rfl⟩ := Option.map_eq_some_iff.mp hstep
        exact h.advance hat hadvance

end

/-- Every leg with a recorded hash has its intent, and that is not cancelled. -/
def NoneForsaken (s : CleanupSystem) : Prop :=
  (∀ leg ∈ s.funding.routeLegs, leg.txHashes ≠ [] →
    (∃ intent ∈ s.funding.intents, intent.fundingIntentId = leg.fundingIntentId) ∧
      ∀ intent ∈ s.funding.intents, intent.fundingIntentId = leg.fundingIntentId →
        intent.status ≠ .CANCELLED) ∧
  (∀ leg ∈ s.withdrawals.routeLegs, leg.txHashes ≠ [] →
    (∃ intent ∈ s.withdrawals.intents, intent.withdrawalIntentId = leg.withdrawalIntentId) ∧
      ∀ intent ∈ s.withdrawals.intents, intent.withdrawalIntentId = leg.withdrawalIntentId →
        intent.status ≠ .CANCELLED)

/-- The keys of the tables, nothing forsaken, and nothing under way. -/
structure AtRest (s : CleanupSystem) : Prop where
  legIds : (s.funding.legKeys.map (·.1)).Nodup
  withdrawalLegIds : (s.withdrawals.legKeys.map (·.1)).Nodup
  intents : ∀ key ∈ s.funding.legKeys, key.2 ∈ s.funding.intents.map (·.fundingIntentId)
  withdrawalIntents : ∀ key ∈ s.withdrawals.legKeys,
    key.2 ∈ s.withdrawals.intents.map (·.withdrawalIntentId)
  spared : NoneForsaken s
  submissions : s.submissions = []
  withdrawalSubmissions : s.withdrawalSubmissions = []
  cleanups : s.cleanups = []

def Through (s : CleanupSystem) : Prop :=
  (∀ writes ∈ s.submissions, writes = []) ∧ ∀ writes ∈ s.withdrawalSubmissions, writes = []

theorem CleanupInvariant.of_atRest (h : AtRest s) :
    CleanupInvariant s.funding.legKeys s.withdrawals.legKeys s where
  funding := by
    rintro id ⟨leg, hleg, hid, hhashes⟩ (⟨intent, hintent, hsame, hcancelled⟩ | ⟨cleanup, hmem, -⟩)
    · exact absurd hcancelled
        ((h.spared.1 leg hleg hhashes).2 intent hintent (hsame.trans hid.symm))
    · rw [h.cleanups] at hmem
      cases hmem
  withdrawals := by
    rintro id ⟨leg, hleg, hid, hhashes⟩ (⟨intent, hintent, hsame, hcancelled⟩ | ⟨cleanup, hmem, -⟩)
    · exact absurd hcancelled
        ((h.spared.2 leg hleg hhashes).2 intent hintent (hsame.trans hid.symm))
    · rw [h.cleanups] at hmem
      cases hmem
  legKeys := rfl
  withdrawalLegKeys := rfl
  intents := h.intents
  withdrawalIntents := h.withdrawalIntents
  submissions := by simp [h.submissions]
  withdrawalSubmissions := by simp [h.withdrawalSubmissions]
  deleted := by simp [h.cleanups]
  deletedWithdrawals := by simp [h.cleanups]

theorem CleanupInvariant.noneForsaken (h : CleanupInvariant keys keys' s) (hthrough : Through s) :
    NoneForsaken s := by
  have howed : (fundingDocket s).unsettled = ∅ := by
    refine Set.eq_empty_of_forall_notMem ?_
    rintro id ⟨writes, hmem, hsettles⟩
    rw [hthrough.1 writes hmem] at hsettles
    cases hsettles
  have howed' : (withdrawalDocket s).unsettled = ∅ := by
    refine Set.eq_empty_of_forall_notMem ?_
    rintro id ⟨writes, hmem, hsettles⟩
    rw [hthrough.2 writes hmem] at hsettles
    cases hsettles
  constructor
  · intro leg hleg hhashes
    have hkey : (leg.routeLegId, leg.fundingIntentId) ∈ keys :=
      h.legKeys ▸ mem_map_of_mem hleg
    refine ⟨mem_map.mp (h.intents _ hkey), fun intent hintent hid hcancelled => ?_⟩
    exact h.funding.not_cancelled howed ⟨leg, hleg, rfl, hhashes⟩
      ⟨intent, hintent, hid, hcancelled⟩
  · intro leg hleg hhashes
    have hkey : (leg.withdrawalRouteLegId, leg.withdrawalIntentId) ∈ keys' :=
      h.withdrawalLegKeys ▸ mem_map_of_mem hleg
    refine ⟨mem_map.mp (h.withdrawalIntents _ hkey), fun intent hintent hid hcancelled => ?_⟩
    exact h.withdrawals.not_cancelled howed' ⟨leg, hleg, rfl, hhashes⟩
      ⟨intent, hintent, hid, hcancelled⟩

/-- **No intent is cancelled or deleted under a recorded hash**, in any run in which no submission
sets the state of an intent between its selection and its cancellation; the legs stay. -/
theorem noneForsaken_of_run (reason : String) {s t : CleanupSystem} (hs : AtRest s)
    (hrun : Run (cleanupStep reason) SettlesUnselected s t) (hthrough : Through t) :
    NoneForsaken t ∧ t.funding.legKeys = s.funding.legKeys ∧
      t.withdrawals.legKeys = s.withdrawals.legKeys := by
  have hend := hrun.invariant (P := CleanupInvariant s.funding.legKeys s.withdrawals.legKeys)
    (.of_atRest hs) fun u action v hu hguard hstep =>
      hu.step hs.legIds hs.withdrawalLegIds hguard hstep
  exact ⟨hend.noneForsaken hthrough, hend.legKeys, hend.withdrawalLegKeys⟩

/-! ### A withdrawal that is signed late -/

/-- A withdrawal from POLYMARKET that the user signs at the venue: its quote does not go stale. -/
def signedAtVenue : CleanupSystem where
  funding := ⟨[], [], [], []⟩
  withdrawals := {
    intents := [⟨"withdrawal-1", "user-1", "polygon", "0xwallet", .USER_SIGNATURE_REQUIRED⟩]
    sources := [⟨"source-1", "withdrawal-1", .POLYMARKET, "USDC", 100,
      .WITHDRAWAL_LEG_SIGNATURE_REQUIRED⟩]
    routeLegs := [⟨"leg-1", "withdrawal-1", "source-1", .POLYMARKET, "USDC", 100, 60, false, [],
      .empty, .PENDING, .PENDING, .WITHDRAWAL_LEG_SIGNATURE_REQUIRED, none⟩]
    reconciliations := [] }
  submissions := []
  withdrawalSubmissions := []
  cleanups := []

theorem signedAtVenue_atRest : AtRest signedAtVenue where
  legIds := by decide +kernel
  withdrawalLegIds := by decide +kernel
  intents := by decide +kernel
  withdrawalIntents := by decide +kernel
  spared := by constructor <;> decide +kernel
  submissions := rfl
  withdrawalSubmissions := rfl
  cleanups := rfl

/-- A cleanup up to where it has selected the withdrawal, the submission reading, and its hash. -/
def selectedThenHashed : List CleanupAction :=
  [.openCleanup, .cleanup 0 [], .cleanup 0 [], .cleanup 0 [], .cleanup 0 [], .cleanup 0 [],
    .cleanup 0 [], .cleanup 0 ["withdrawal-1"],
    .withdrawalSubmission (.start ⟨7300, "user-1", "withdrawal-1", "leg-1", transferHash⟩),
    .withdrawalSubmission (.advance 0)]

/-- The submission's last statement comes before the cancellation. -/
def settledBefore : List CleanupAction :=
  selectedThenHashed ++ [.withdrawalSubmission (.advance 0), .cleanup 0 [], .cleanup 0 []]

/-- The submission's last statement comes after the commit. -/
def settledAfter : List CleanupAction :=
  selectedThenHashed ++ [.cleanup 0 [], .cleanup 0 [], .withdrawalSubmission (.advance 0)]

/-- The withdrawal is cancelled although its hash was recorded before. -/
theorem signedAtVenue_forsaken : ¬ ∀ reason s t, AtRest s → Reaches (cleanupStep reason) s t →
    Through t → NoneForsaken t ∧ t.funding.legKeys = s.funding.legKeys ∧
      t.withdrawals.legKeys = s.withdrawals.legKeys := by
  intro h
  have hplay : (play (cleanupStep "stale") (fun _ _ => True) settledBefore
      signedAtVenue).isSome := by decide +kernel
  have hspared := (h "stale" signedAtVenue _ signedAtVenue_atRest (Run.of_isSome _ hplay)
    (by constructor <;> decide +kernel +revert)).1.2
  exact absurd hspared (by decide +kernel +revert)

theorem noneForsaken_settledAfter : ∃ t, AtRest signedAtVenue ∧
    Run (cleanupStep "stale") SettlesUnselected signedAtVenue t ∧ Through t ∧ NoneForsaken t ∧
    t.withdrawals.recordedHashes = [transferHash] := by
  have hplay : (play (cleanupStep "stale") SettlesUnselected settledAfter
      signedAtVenue).isSome := by decide +kernel
  have hrecorded : ((play (cleanupStep "stale") SettlesUnselected settledAfter
      signedAtVenue).get hplay).withdrawals.recordedHashes = [transferHash] := by
    decide +kernel +revert
  have hthrough : Through ((play (cleanupStep "stale") SettlesUnselected settledAfter
      signedAtVenue).get hplay) := by
    clear hrecorded
    constructor <;> decide +kernel +revert
  exact ⟨_, signedAtVenue_atRest, Run.of_isSome _ hplay, hthrough,
    (noneForsaken_of_run "stale" signedAtVenue_atRest (Run.of_isSome _ hplay) hthrough).1,
    hrecorded⟩

end LotusRfq.Funding
