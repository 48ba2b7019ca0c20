import LotusRfq.Combo.NettingConservation

/-!
# LotusRfq — the id of a netting attempt

The id is the hash of the two combos, of the pairs of legs and of the size. A netting takes the
last of some leg, which no later netting has among its pairs, so an id comes once.

* **`attempt_identifies`** — along every run no netting is taken for an earlier one, and none is
  applied twice.
-/

namespace LotusRfq.Combo

open Tables Calls Transitions List
open NettingAttemptRow (attempt_id)

section

variable {env : NettingEnv} {db db' : ComboDb} {incoming candidate : LoadedCombo}
  {matchedPairs : List MatchedPair} {amount : ℚ} {incomingId candidateId : String}
  {isSafe : Except String Bool} {uuid : ℕ → String} {value : Option NettingTransactionResult}
  {hashed : Set NettingAttemptSnapshot}

def Hashed (env : NettingEnv) (init : NetSystem) : Set NettingAttemptSnapshot :=
  {snapshot | ∃ sys incomingId candidateId incoming candidate matchedPairs amount,
    Reaches (netAct env) init sys ∧
    NettingChecked sys.db incomingId candidateId incoming candidate matchedPairs amount ∧
    buildAttemptSnapshot env incoming.row.id candidate.row.id matchedPairs amount = snapshot}

/-- Of the legs that were hashed into an id, one has nothing left. -/
def Spent (env : NettingEnv) (hashed : Set NettingAttemptSnapshot) (db : ComboDb)
    (attemptId : String) : Prop :=
  ∃ snapshot ∈ hashed, env.hash snapshot = attemptId ∧ ∃ pair ∈ snapshot.matchedLegPairs,
    ∃ leg ∈ db.legs, leg.remaining_size = 0 ∧
      (leg.id = pair.incomingLegId ∨ leg.id = pair.candidateLegId)

structure AttemptsSpent (env : NettingEnv) (hashed : Set NettingAttemptSnapshot) (db : ComboDb) :
    Prop where
  legs : (db.legs.map LegRow.id).Nodup
  ids : (db.attempts.map attempt_id).Nodup
  uuids : db.exposureIdempotency = (db.attempts.map attempt_id).map hashToUuid
  spent : ∀ id ∈ db.attempts.map attempt_id, Spent env hashed db id

theorem mem_snapshot {pair : SnapshotPair} :
    pair ∈ (buildAttemptSnapshot env incoming.row.id candidate.row.id matchedPairs
        amount).matchedLegPairs ↔
      ∃ matched ∈ matchedPairs,
        (⟨matched.incomingLeg.id, matched.candidateLeg.id, amount⟩ : SnapshotPair) = pair := by
  rw [buildAttemptSnapshot, (Js.sortWith_perm _ _).mem_iff, mem_map]

/-- **An id is new** wherever the checks have found something to net. -/
theorem AttemptsSpent.fresh (h : AttemptsSpent env hashed db)
    (hhash : Set.InjOn (fun snapshot => hashToUuid (env.hash snapshot)) hashed)
    (hchecked : NettingChecked db incomingId candidateId incoming candidate matchedPairs amount)
    (hmem : buildAttemptSnapshot env incoming.row.id candidate.row.id matchedPairs amount ∈
      hashed) :
    attemptIdOf env incoming candidate matchedPairs amount ∉ db.attempts.map attempt_id ∧
      hashToUuid (attemptIdOf env incoming candidate matchedPairs amount) ∉
        db.exposureIdempotency := by
  have hnew : ∀ id ∈ db.attempts.map attempt_id,
      hashToUuid id ≠ hashToUuid (attemptIdOf env incoming candidate matchedPairs amount) := by
    intro id hid heq
    obtain ⟨snapshot, hhashed, rfl, pair, hpair, leg, hleg, hzero, hnamed⟩ := h.spent id hid
    rw [hhash hhashed hmem heq, mem_snapshot] at hpair
    obtain ⟨matched, hmatched, rfl⟩ := hpair
    obtain ⟨hin, hcand, -⟩ := hchecked.sizes
    have hpositive := hchecked.positive
    rcases hnamed with hsame | hsame
    · obtain ⟨hread, -, hle⟩ := hin matched hmatched
      rw [← eq_of_key h.legs hleg hread hsame, hzero] at hle
      exact hle.not_gt hpositive
    · obtain ⟨hread, -, hle⟩ := hcand matched hmatched
      rw [← eq_of_key h.legs hleg hread hsame, hzero] at hle
      exact hle.not_gt hpositive
  refine ⟨fun hmem => hnew _ hmem rfl, fun hmem => ?_⟩
  rw [h.uuids] at hmem
  obtain ⟨id, hid, heq⟩ := mem_map.mp hmem
  exact hnew id hid heq

/-- **Step lemma.** A netting that commits leaves one of its legs with nothing. -/
theorem AttemptsSpent.commit (h : AttemptsSpent env hashed db)
    (hhashed : ∀ incoming candidate matchedPairs amount,
      NettingChecked db incomingId candidateId incoming candidate matchedPairs amount →
      buildAttemptSnapshot env incoming.row.id candidate.row.id matchedPairs amount ∈ hashed)
    (hcommit : executeNettingTransaction env db incomingId candidateId isSafe uuid =
      .committed db' value) : AttemptsSpent env hashed db' := by
  obtain ⟨incoming, candidate, matchedPairs, amount, hchecked, hwrites⟩ :=
    executeNettingTransaction_writes hcommit
  obtain ⟨hnew, hids, huuids⟩ := (writeNetting_committed hwrites).1
  obtain ⟨hread, hlegs⟩ := writeNetting_legs h.legs hchecked hwrites
  refine ⟨by rw [hlegs, map_id_takeOff]; exact h.legs, ?_, ?_, fun id hid => ?_⟩
  · rw [hids]
    exact nodup_append.mpr ⟨h.ids, nodup_singleton _, fun id hid other hother heq =>
      hnew (mem_singleton.mp hother ▸ heq ▸ hid)⟩
  · rw [huuids, hids, map_append, h.uuids]
    rfl
  · rw [hids] at hid
    rcases mem_append.mp hid with hold | hlast
    · obtain ⟨snapshot, hsnapshot, hid, pair, hpair, leg, hleg, hzero, hnamed⟩ := h.spent id hold
      refine ⟨snapshot, hsnapshot, hid, pair, hpair, leg, ?_, hzero, hnamed⟩
      rw [hlegs]
      exact mem_map_takeOff hleg fun hmem =>
        (hzero ▸ (hread.of_mem h.legs hleg hmem).2).not_gt hchecked.positive
    · obtain rfl := mem_singleton.mp hlast
      obtain ⟨hin, hcand, matched, hmatched, hleast⟩ := hchecked.sizes
      refine ⟨_, hhashed _ _ _ _ hchecked, rfl, _, mem_snapshot.mpr ⟨matched, hmatched, rfl⟩, ?_⟩
      rw [hlegs]
      rcases min_choice matched.incomingLeg.remaining_size matched.candidateLeg.remaining_size with
        hmin | hmin
      · refine ⟨_, mem_map_of_mem (hin matched hmatched).1, ?_, .inl takeOff_id⟩
        rw [takeOff_of_mem (mem_flatMap.mpr ⟨matched, hmatched, by simp [MatchedPair.legIds]⟩),
          hleast, hmin, sub_self]
      · refine ⟨_, mem_map_of_mem (hcand matched hmatched).1, ?_, .inr takeOff_id⟩
        rw [takeOff_of_mem (mem_flatMap.mpr ⟨matched, hmatched, by simp [MatchedPair.legIds]⟩),
          hleast, hmin, sub_self]

end

theorem netAct_executes {env : NettingEnv} {sys sys' : NetSystem} {action : NetAction}
    (hact : netAct env sys action = some sys') :
    sys'.db = sys.db ∨ ∃ incomingId candidateId isSafe uuid value,
      executeNettingTransaction env sys.db incomingId candidateId isSafe uuid =
        .committed sys'.db value := by
  cases action with
  | start incomingCombo =>
    cases hact
    exact .inl rfl
  | net i isSafe uuid reply =>
    simp only [netAct] at hact
    split at hact
    next => cases hact
    next call hcall =>
      obtain ⟨⟨db, call'⟩, hstep, rfl⟩ := Option.map_eq_some_iff.mp hact
      have hdb := netStep_db hstep
      cases houtcome : call.outcome env sys.db isSafe uuid reply with
      | none => exact .inl (by rwa [houtcome] at hdb)
      | some outcome =>
        rw [houtcome] at hdb
        obtain ⟨candidateId, hexecute⟩ := NetCall.outcome_eq houtcome
        cases outcome with
        | rolledBack value => exact .inl hdb
        | aborted error => exact .inl hdb
        | committed db' value =>
          exact .inr ⟨_, candidateId, isSafe, uuid, value, by rw [hdb]; exact hexecute.symm⟩

/-- Every netting has its own id: none that is applied has the id of another, none that the checks
let pass is taken for one, and one with the id of an applied one is not applied. -/
structure AttemptsIdentified (env : NettingEnv) (db : ComboDb) : Prop where
  applied : ∀ incomingId candidateId isSafe uuid db' value,
    executeNettingTransaction env db incomingId candidateId isSafe uuid =
      .committed db' value → ∃ incoming candidate matchedPairs amount,
        NettingChecked db incomingId candidateId incoming candidate matchedPairs amount ∧
        db'.attempts.map attempt_id =
          db.attempts.map attempt_id ++
            [attemptIdOf env incoming candidate matchedPairs amount]
  distinct : (db.attempts.map attempt_id).Nodup
  unsuppressed : ∀ incomingId candidateId incoming candidate matchedPairs amount,
    NettingChecked db incomingId candidateId incoming candidate matchedPairs amount →
      attemptIdOf env incoming candidate matchedPairs amount ∉
        db.attempts.map attempt_id ∧
      hashToUuid (attemptIdOf env incoming candidate matchedPairs amount) ∉
        db.exposureIdempotency

/-- **An attempt id identifies its netting.** Along every run of `attemptNet` calls that begins with
no attempts, if what is hashed does not collide: the nettings that are applied have different ids,
and whatever a transaction finds to net is not taken for a netting that was applied. Wherever the
rows are those of a recorded netting, its replay computes the id that is recorded, and is not
applied. -/
theorem attempt_identifies (env : NettingEnv) {init sys : NetSystem}
    (hhash : Set.InjOn (fun snapshot => hashToUuid (env.hash snapshot)) (Hashed env init))
    (hlegs : (init.db.legs.map LegRow.id).Nodup)
    (hnone : init.db.attempts = [] ∧ init.db.exposureIdempotency = [])
    (hrun : Reaches (netAct env) init sys) : AttemptsIdentified env sys.db ∧
      ∀ db incomingId candidateId incoming candidate matchedPairs amount,
        NettingChecked db incomingId candidateId incoming candidate matchedPairs amount →
        attemptIdOf env incoming candidate matchedPairs amount ∈ db.attempts.map attempt_id →
        ∀ isSafe uuid db' value,
          executeNettingTransaction env db incomingId candidateId isSafe uuid ≠
            .committed db' value := by
  obtain ⟨hattempts, hidempotency⟩ := hnone
  have hreached : Reaches (netAct env) init sys ∧ AttemptsSpent env (Hashed env init) sys.db := by
    refine hrun.invariant (P := fun s => Reaches (netAct env) init s ∧
      AttemptsSpent env (Hashed env init) s.db) ⟨.refl, hlegs, by simp [hattempts],
      by simp [hattempts, hidempotency], by simp [hattempts]⟩ ?_
    intro s action s' ⟨hreaches, h⟩ _ hact
    refine ⟨hreaches.tail action trivial hact, ?_⟩
    rcases netAct_executes hact with hsame | ⟨_, _, _, _, _, hcommit⟩
    · rw [hsame]
      exact h
    · exact h.commit (fun _ _ _ _ hchecked => ⟨s, _, _, _, _, _, _, hreaches, hchecked, rfl⟩) hcommit
  obtain ⟨-, hspent⟩ := hreached
  refine ⟨⟨?_, hspent.ids, fun _ _ _ _ _ _ hchecked => hspent.fresh hhash hchecked
    ⟨sys, _, _, _, _, _, _, hrun, hchecked, rfl⟩⟩, ?_⟩
  · intro _ _ _ _ _ _ hcommit
    obtain ⟨incoming, candidate, matchedPairs, amount, hchecked, hwrites⟩ :=
      executeNettingTransaction_writes hcommit
    exact ⟨incoming, candidate, matchedPairs, amount, hchecked,
      (writeNetting_committed hwrites).1.ids⟩
  · intro db _ _ incoming candidate matchedPairs amount hchecked hrecorded _ _ _ _ hcommit
    obtain ⟨_, _, matchedPairs', amount', hagain, hwrites⟩ :=
      executeNettingTransaction_writes hcommit
    obtain ⟨_, _, hevaluate, hresolve⟩ := hchecked.pairs
    obtain ⟨_, _, hevaluate', hresolve'⟩ := hagain.pairs
    cases hchecked.loaded_incoming.symm.trans hagain.loaded_incoming
    cases hchecked.loaded_candidate.symm.trans hagain.loaded_candidate
    cases hevaluate.symm.trans hevaluate'
    cases hresolve.symm.trans hresolve'
    cases hchecked.size.symm.trans hagain.size
    exact (writeNetting_committed hwrites).1.fresh hrecorded

/-! ## Alice's and Bob's combos -/

def checkedPairs (db : ComboDb) (incomingId candidateId : String) :
    Option (LoadedCombo × LoadedCombo × List MatchedPair × ℚ) := do
  let incoming ← loadCombo db incomingId
  let candidate ← loadCombo db candidateId
  match evaluate (toCompatibilityInput incoming) (toCompatibilityInput candidate) with
  | .ok (.compatible pairs _) =>
    let matchedPairs ← (resolveAuthoritativeMatchedPairs incoming candidate pairs).toOption
    let amount ← (matchedPairs.map MatchedPair.nettableSize).min?
    return (incoming, candidate, matchedPairs, amount)
  | _ => none

theorem NettingChecked.pairs_eq {db : ComboDb} {incomingId candidateId : String}
    {incoming candidate : LoadedCombo} {matchedPairs : List MatchedPair} {amount : ℚ}
    (h : NettingChecked db incomingId candidateId incoming candidate matchedPairs
      amount) : checkedPairs db incomingId candidateId =
        some (incoming, candidate, matchedPairs, amount) := by
  obtain ⟨pairs, maxNettableSize, hevaluate, hresolve⟩ := h.pairs
  simp [checkedPairs, h.loaded_incoming, h.loaded_candidate, hevaluate, hresolve, h.size,
    Except.toOption]

/-- The legs of one combo against those of the other, all of them. -/
def mirroredSnapshots : List NettingAttemptSnapshot :=
  [⟨"alice's", "bob's", [⟨"a1", "b1", 5⟩, ⟨"a2", "b2", 5⟩], 5⟩,
    ⟨"bob's", "alice's", [⟨"b1", "a1", 5⟩, ⟨"b2", "a2", 5⟩], 5⟩]

theorem mirrored_checked {db : ComboDb}
    (hsame : db.combos = mirrored.combos ∧ db.legs = mirrored.legs)
    {incomingId candidateId : String} {incoming candidate : LoadedCombo}
    {matchedPairs : List MatchedPair} {amount : ℚ}
    (h : NettingChecked db incomingId candidateId incoming candidate matchedPairs amount) :
    buildAttemptSnapshot plainEnv incoming.row.id candidate.row.id matchedPairs amount ∈
        mirroredSnapshots ∧
      ∀ leg ∈ mirrored.legs.map (takeOff (matchedPairs.flatMap MatchedPair.legIds) amount),
        leg.remaining_size = 0 := by
  have hload (comboId : String) : loadCombo db comboId = loadCombo mirrored comboId := by
    unfold loadCombo selectLegs
    rw [hsame.1, hsame.2]
  have hids : ∀ comboId combo, loadCombo db comboId = some combo →
      comboId ∈ ["alice's", "bob's"] := by
    intro comboId combo hcombo
    obtain ⟨hmem, rfl, -⟩ := loadCombo_some hcombo
    exact (hsame.1 ▸ mem_map_of_mem hmem : combo.row.id ∈ mirrored.combos.map ComboRow.id)
  have hall : ∀ incomingId ∈ ["alice's", "bob's"], ∀ candidateId ∈ ["alice's", "bob's"],
      ∀ read ∈ checkedPairs mirrored incomingId candidateId,
        buildAttemptSnapshot plainEnv read.1.row.id read.2.1.row.id read.2.2.1 read.2.2.2 ∈
          mirroredSnapshots ∧
        ∀ leg ∈ mirrored.legs.map (takeOff (read.2.2.1.flatMap MatchedPair.legIds) read.2.2.2),
          leg.remaining_size = 0 := by
    decide +kernel
  have hread := h.pairs_eq
  rw [checkedPairs, hload, hload, ← checkedPairs] at hread
  exact hall _ (hids _ _ h.loaded_incoming) _ (hids _ _ h.loaded_candidate) _ hread

theorem not_checked_of_spent {db : ComboDb} (hspent : ∀ leg ∈ db.legs, leg.remaining_size = 0)
    {incomingId candidateId : String} {incoming candidate : LoadedCombo}
    {matchedPairs : List MatchedPair} {amount : ℚ} :
    ¬ NettingChecked db incomingId candidateId incoming candidate matchedPairs
      amount := by
  intro hchecked
  obtain ⟨hin, -, pair, hpair, -⟩ := hchecked.sizes
  obtain ⟨hmem, -, hle⟩ := hin pair hpair
  exact (hspent _ hmem ▸ hle).not_gt hchecked.positive

/-- Of the mirrored combos nothing is hashed but the whole of them, one way or the other. -/
theorem hashed_mirrored {snapshot : NettingAttemptSnapshot}
    (h : snapshot ∈ Hashed plainEnv ⟨mirrored, []⟩) : snapshot ∈ mirroredSnapshots := by
  obtain ⟨sys, _, _, _, _, _, _, hrun, hchecked, rfl⟩ := h
  have hstate : (sys.db.combos = mirrored.combos ∧ sys.db.legs = mirrored.legs) ∨
      ∀ leg ∈ sys.db.legs, leg.remaining_size = 0 := by
    refine hrun.invariant (P := fun s => (s.db.combos = mirrored.combos ∧
      s.db.legs = mirrored.legs) ∨ ∀ leg ∈ s.db.legs, leg.remaining_size = 0) (.inl ⟨rfl, rfl⟩) ?_
    intro s action s' h _ hact
    rcases netAct_executes hact with hsame | ⟨_, _, _, _, _, hcommit⟩
    · rwa [hsame]
    · obtain ⟨_, _, _, _, hchecked, hwrites⟩ := executeNettingTransaction_writes hcommit
      rcases h with hsame | hspent
      · have hids : (s.db.legs.map LegRow.id).Nodup := by
          rw [hsame.2]
          exact mirrored_opened.leg_ids
        rw [(writeNetting_legs hids hchecked hwrites).2, hsame.2]
        exact .inr (mirrored_checked hsame hchecked).2
      · exact absurd hchecked (not_checked_of_spent hspent)
  rcases hstate with hsame | hspent
  · exact (mirrored_checked hsame hchecked).1
  · exact absurd hchecked (not_checked_of_spent hspent)

/-- The combos are netted once, whoever comes first. -/
theorem mirrored_identified : ∃ sys, Reaches (netAct plainEnv) ⟨mirrored, []⟩ sys ∧
    sys.db.attempts.length = 1 ∧ AttemptsIdentified plainEnv sys.db := by
  have hplayed : (play (netAct plainEnv) (fun _ _ => True)
      (netOnce "alice's" "alice" "bob's" mirrored.legs) ⟨mirrored, []⟩).map
      (fun sys => sys.db.attempts.length) = some 1 := by decide +kernel
  obtain ⟨sys, hplay, hattempts⟩ := Option.map_eq_some_iff.mp hplayed
  have hapart : ∀ s ∈ mirroredSnapshots, ∀ t ∈ mirroredSnapshots,
      hashToUuid (plainEnv.hash s) = hashToUuid (plainEnv.hash t) → s = t := by decide +kernel
  have hrun : Reaches (netAct plainEnv) ⟨mirrored, []⟩ sys := Run.of_play _ hplay
  exact ⟨sys, hrun, hattempts, (attempt_identifies plainEnv
    (fun s hs t ht => hapart s (hashed_mirrored hs) t (hashed_mirrored ht))
    mirrored_opened.leg_ids ⟨rfl, rfl⟩ hrun).1⟩

end LotusRfq.Combo
