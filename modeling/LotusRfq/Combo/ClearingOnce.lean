import LotusRfq.Combo.ClearedNets
import LotusRfq.Combo.DoubleFill

/-!
# LotusRfq — a clearing round is applied once

Any number of calls of the executor over one database, of any plans, their actions interleaved and
their queries failing as they like. Next to the tables stands the list of the rounds that were
applied, and next to a call those that were there when it began.

A signature is a key of the table of rounds, so it is applied once. That a call with a signature
that was applied does nothing under another signature is for a different reason: its participants
do not oppose each other any more.

* **`clearing_once`** — along every run rounds are applied once, and replayed from then on.
-/

namespace LotusRfq.Combo

open Calls Tables Transitions List

/-! ## Runs -/

/-- A round as it was applied; `plan` is the plan under the score that was found for it. -/
structure AppliedRound where
  plan : ClearingRoundPlan
  signatures : ClearingMatchSignature
  roundId : String

/-- A call, with the rounds applied before it began, and whether an answer has failed it. -/
structure ClearProcess where
  call : ClearCall
  appliedBefore : List AppliedRound
  failed : Bool

structure ClearingSystem where
  db : ComboDb
  calls : List ClearProcess
  applied : List AppliedRound

inductive ClearingAction where
  | execute (roundPlan : ClearingRoundPlan)
  | act (n : ℕ) (roundId : String) (uuid : ℕ → String) (reply : Reply Unit)

/-- The round an action applies, if it ends a transaction that commits. -/
def ClearCall.applies (env : ClearingEnv) (db : ComboDb) (call : ClearCall) (roundId : String)
    (uuid : ℕ → String) (reply : Reply Unit) : Option AppliedRound :=
  match call.phase, call.outcome env db roundId uuid reply with
  | .clearing plan signatures, some (.committed _ _) => some ⟨plan, signatures, roundId⟩
  | _, _ => none

def clearingAct (env : ClearingEnv) (sys : ClearingSystem) : ClearingAction → Option ClearingSystem
  | .execute roundPlan =>
    some { sys with calls := sys.calls ++ [⟨ClearCall.start env roundPlan, sys.applied, false⟩] }
  | .act n roundId uuid reply =>
    match sys.calls[n]? with
    | none => none
    | some process =>
      (clearStep env sys.db process.call roundId uuid reply).map fun (db, call) =>
        { db := db
          calls := sys.calls.set n
            ⟨call, process.appliedBefore, process.failed || decide (reply ≠ .done)⟩
          applied := sys.applied ++
            (process.call.applies env sys.db roundId uuid reply).toList }

/-! ## Calls come to an end -/

/-- How many answers a call waits for at most. -/
def ClearPhase.remaining (lockOrder : List String) : ClearPhase → ℕ
  | .locking => 2 * lockOrder.length + 7
  | .selectingCombos participantIds rows => 2 * participantIds.length + rows.length + 6
  | .selectingLegs rows _ => rows.length + 5
  | .clearing _ _ => 4
  | .lookingUp _ _ _ => 3
  | .refreshing _ | .resolving _ => 2
  | .releasing _ => 1
  | .finished _ | .rejected _ => 0

def ClearCall.remaining (call : ClearCall) : ℕ := call.phase.remaining call.participantLockOrder

theorem ClearCall.loaded_remaining (call : ClearCall) (env : ClearingEnv)
    (parts : List ParticipantState) : (call.loaded env parts).remaining ≤ 4 := by
  unfold ClearCall.loaded
  split
  next => exact Nat.le_of_ble_eq_true rfl
  next =>
    split
    next => exact Nat.le_of_ble_eq_true rfl
    next => exact Nat.le_of_ble_eq_true rfl

theorem ClearCall.loading_remaining (call : ClearCall) (env : ClearingEnv) (rows : List ComboRow)
    (parts : List ParticipantState) :
    (call.loading env rows parts).remaining ≤ rows.length + 5 := by
  unfold ClearCall.loading
  split
  next => exact (call.loaded_remaining env parts).trans (by omega)
  next => exact le_rfl

theorem clearingStep_remaining (env : ClearingEnv) (db : ComboDb) (call : ClearCall)
    (plan : ClearingRoundPlan) (sigs : ClearingMatchSignature) (roundId : String)
    (uuid : ℕ → String) :
    ∃ db' call', clearingStep env db call plan sigs roundId uuid .done = some (db', call') ∧
      call'.remaining ≤ 3 := by
  unfold clearingStep
  refine ⟨_, _, rfl, ?_⟩
  cases executeClearing env db plan sigs roundId uuid with
  | committed db' result =>
    cases result with
    | applied applied => exact Nat.le_of_ble_eq_true rfl
    | conflict fallback => exact le_rfl
  | rolledBack result =>
    cases result with
    | applied applied => exact Nat.le_of_ble_eq_true rfl
    | conflict fallback => exact le_rfl
  | aborted error => exact Nat.le_of_ble_eq_true rfl

variable {call : ClearCall} {roundId : String} {uuid : ℕ → String} {reply : Reply Unit}
  {env : ClearingEnv} {plan : ClearingRoundPlan} {sys : ClearingSystem} {db' : ComboDb}

theorem clearAwaits_remaining (env : ClearingEnv) (db : ComboDb) (hopen : 0 < call.remaining)
    (hclearing : ∀ plan sigs, call.phase ≠ .clearing plan sigs) :
    ∃ awaited, clearAwaits env db call = some awaited ∧
      awaited.onReturn.remaining < call.remaining := by
  unfold ClearCall.remaining at hopen ⊢
  cases hphase : call.phase with
  | locking =>
    rw [clearAwaits, hphase]
    refine ⟨_, rfl, ?_⟩
    show 2 * call.participantLockOrder.length + 0 + 6 < 2 * call.participantLockOrder.length + 7
    omega
  | selectingCombos participantIds rows =>
    cases participantIds with
    | nil =>
      rw [clearAwaits, hphase]
      refine ⟨_, rfl, (call.loading_remaining env rows []).trans_lt ?_⟩
      show rows.length + 5 < 2 * 0 + rows.length + 6
      omega
    | cons participantId rest =>
      rw [clearAwaits, hphase]
      refine ⟨_, rfl, ?_⟩
      show _ < 2 * (rest.length + 1) + rows.length + 6
      cases Tables.select ComboRow.id participantId db.combos with
      | none => exact Nat.lt_of_lt_of_le (by decide : 2 < 6) (Nat.le_add_left 6 _)
      | some row =>
        cases rest with
        | nil =>
          refine (call.loading_remaining env (rows ++ [row]) []).trans_lt ?_
          rw [length_append, length_singleton]
          omega
        | cons next others =>
          show 2 * (others.length + 1) + (rows ++ [row]).length + 6 < _
          rw [length_append, length_singleton, length_cons]
          omega
  | selectingLegs rows parts =>
    cases rows with
    | nil =>
      rw [clearAwaits, hphase]
      refine ⟨_, rfl, (call.loaded_remaining env parts).trans_lt ?_⟩
      show 4 < 0 + 5
      omega
    | cons row rest =>
      rw [clearAwaits, hphase]
      refine ⟨_, rfl, ?_⟩
      show _ < rest.length + 1 + 5
      cases toParticipant row.id (some ⟨row, selectLegs db row.id⟩) with
      | error error =>
        show 2 < rest.length + 1 + 5
        omega
      | ok participant =>
        refine (call.loading_remaining env rest (parts ++ [participant])).trans_lt ?_
        omega
  | clearing plan sigs => exact absurd hphase (hclearing plan sigs)
  | lookingUp plan sigs fallback =>
    rw [clearAwaits, hphase]
    refine ⟨_, rfl, ?_⟩
    show _ < 3
    simp only
    split
    next => exact (by decide : 2 < 3)
    next => exact (by decide : 2 < 3)
  | refreshing result =>
    rw [clearAwaits, hphase]
    exact ⟨_, rfl, (by decide : 1 < 2)⟩
  | resolving error =>
    rw [clearAwaits, hphase]
    refine ⟨_, rfl, ?_⟩
    show _ < 2
    split
    next => exact (by decide : 1 < 2)
    next => exact (by decide : 1 < 2)
  | releasing result =>
    rw [clearAwaits, hphase]
    refine ⟨_, rfl, ?_⟩
    show _ < 1
    cases result with
    | error error => exact (by decide : 0 < 1)
    | ok result => exact (by decide : 0 < 1)
  | finished result =>
    rw [hphase] at hopen
    exact absurd hopen (lt_irrefl 0)
  | rejected error =>
    rw [hphase] at hopen
    exact absurd hopen (lt_irrefl 0)

/-- **An answer brings a call nearer to its end**, whatever the tables hold. -/
theorem clearStep_remaining (env : ClearingEnv) (db : ComboDb) (hopen : 0 < call.remaining)
    (roundId : String) (uuid : ℕ → String) :
    ∃ db' call', clearStep env db call roundId uuid .done = some (db', call') ∧
      call'.remaining < call.remaining := by
  by_cases hclearing : ∃ plan sigs, call.phase = .clearing plan sigs
  · obtain ⟨plan, sigs, hphase⟩ := hclearing
    obtain ⟨db', call', hstep, hremaining⟩ :=
      clearingStep_remaining env db call plan sigs roundId uuid
    rw [clearStep, hphase]
    refine ⟨db', call', hstep, ?_⟩
    unfold ClearCall.remaining at hremaining ⊢
    rw [hphase]
    exact Nat.lt_succ_of_le hremaining
  · push Not at hclearing
    obtain ⟨awaited, hawaited, hremaining⟩ := clearAwaits_remaining env db hopen hclearing
    refine ⟨awaited.effect, awaited.onReturn, ?_, hremaining⟩
    unfold clearStep
    split
    next plan sigs hphase => exact absurd hphase (hclearing plan sigs)
    next => rw [hawaited]; rfl

/-! ## Replays -/

structure IsReplay (result : ClearingRoundExecutionResult) (roundId : String) : Prop where
  replayed : result.replayed = true
  applied : result.applied = false
  clearingRoundId : result.clearingRoundId = roundId
  updatedParticipantIds : result.updatedParticipantIds = []

/-- Where a call stands that can only end in a replay of the round, or in a failure. -/
def ClearPhase.Replays (roundId : String) (mayFail : Prop) : ClearPhase → Prop
  | .locking | .selectingCombos _ _ | .selectingLegs _ _ | .clearing _ _ | .resolving _ => True
  | .lookingUp _ _ _ => False
  | .refreshing result | .finished result | .releasing (.ok result) => IsReplay result roundId
  | .releasing (.error _) | .rejected _ => mayFail

def ClearPhase.isClearing : ClearPhase → Bool
  | .clearing _ _ => true
  | _ => false

/-- The calls' own variables, as they stand since the call began. -/
structure ClearCall.Begun (env : ClearingEnv) (call : ClearCall) : Prop where
  expected : call.expectedSignatures = buildMatchSignatures env call.roundPlan
  lockOrder : call.participantLockOrder =
    Js.sortWith env.localeCompare call.roundPlan.participantLockOrder
  valid : ∀ error, validateRoundPlan env call.roundPlan = .error error →
    call.phase = .rejected error
  clearing : ∀ plan signatures, call.phase = .clearing plan signatures →
    signatures = buildMatchSignatures env plan ∧
    plan.participantLockOrder = call.participantLockOrder ∧
    plan.selectedGroup.participantIds = call.roundPlan.selectedGroup.participantIds

theorem ClearCall.start_begun (env : ClearingEnv) (roundPlan : ClearingRoundPlan) :
    (ClearCall.start env roundPlan).Begun env := by
  refine ⟨rfl, rfl, fun error herror => ?_, fun plan sigs hphase => ?_⟩
  · rw [ClearCall.start, show validateRoundPlan env roundPlan = .error error from herror]
  · unfold ClearCall.start at hphase
    simp only at hphase
    split at hphase <;> cases hphase

section

variable {env : ClearingEnv} {db db' : ComboDb} {call call' : ClearCall}

section

variable (h : call.Begun env) (hvalid : ∀ error, call.phase ≠ .rejected error)

include h hvalid

theorem ClearCall.Begun.goTo {phase : ClearPhase} (hphase : phase.isClearing = false) :
    (call.goTo phase).Begun env := by
  refine ⟨h.expected, h.lockOrder, fun error herror => absurd (h.valid error herror)
    (hvalid error), fun plan sigs heq => ?_⟩
  rw [show phase = .clearing plan sigs from heq] at hphase
  cases hphase

theorem ClearCall.Begun.loaded (parts : List ParticipantState) :
    (call.loaded env parts).Begun env := by
  unfold ClearCall.loaded
  split
  next => exact h.goTo hvalid rfl
  next plan hplan =>
    split
    next => exact h.goTo hvalid rfl
    next =>
      have hrevalidated := revalidateRoundPlan_ok hplan
      refine ⟨h.expected, h.lockOrder,
        fun error herror => absurd (h.valid error herror) (hvalid error),
        fun plan' sigs heq => ?_⟩
      cases heq
      exact ⟨rfl, rfl, hrevalidated.participantIds⟩

theorem ClearCall.Begun.loading (rows : List ComboRow) (parts : List ParticipantState) :
    (call.loading env rows parts).Begun env := by
  unfold ClearCall.loading
  split
  next => exact h.loaded hvalid parts
  next => exact h.goTo hvalid rfl

end

theorem ClearCall.loaded_roundPlan (parts : List ParticipantState) :
    (call.loaded env parts).roundPlan = call.roundPlan := by
  unfold ClearCall.loaded
  split
  next => rfl
  next =>
    split
    next => rfl
    next => rfl

theorem ClearCall.loading_roundPlan (rows : List ComboRow) (parts : List ParticipantState) :
    (call.loading env rows parts).roundPlan = call.roundPlan := by
  unfold ClearCall.loading
  split
  next => exact call.loaded_roundPlan parts
  next => rfl

theorem clearAwaits_begun {awaited : Awaited ComboDb ClearCall} (h : call.Begun env)
    (hawaits : clearAwaits env db call = some awaited) :
    ∀ next, next = awaited.onReturn ∨ (∃ landed error, next = awaited.onThrow landed error) →
      next.Begun env ∧ next.roundPlan = call.roundPlan := by
  have hgo : (∀ error, call.phase ≠ .rejected error) → ∀ phase : ClearPhase,
      phase.isClearing = false →
      (call.goTo phase).Begun env ∧ (call.goTo phase).roundPlan = call.roundPlan :=
    fun hopen phase hphase => ⟨h.goTo hopen hphase, rfl⟩
  have hloading : (∀ error, call.phase ≠ .rejected error) → ∀ rows parts,
      (call.loading env rows parts).Begun env ∧
        (call.loading env rows parts).roundPlan = call.roundPlan :=
    fun hopen rows parts =>
      ⟨h.loading hopen rows parts, call.loading_roundPlan rows parts⟩
  unfold clearAwaits at hawaits
  split at hawaits
  case h_1 => cases hawaits
  case h_2 => cases hawaits
  case h_3 => cases hawaits
  case h_4 hphase =>
    cases hawaits
    rintro next (rfl | ⟨landed, error, rfl⟩)
    · exact hgo (by simp [hphase]) _ rfl
    · exact hgo (by simp [hphase]) _ rfl
  case h_5 rows hphase =>
    cases hawaits
    rintro next (rfl | ⟨landed, error, rfl⟩)
    · exact hloading (by simp [hphase]) rows []
    · exact hgo (by simp [hphase]) _ rfl
  case h_6 participantId rest rows hphase =>
    cases hawaits
    rintro next (rfl | ⟨landed, error, rfl⟩)
    · simp only
      split
      next => exact hgo (by simp [hphase]) _ rfl
      next =>
        split
        next => exact hloading (by simp [hphase]) _ []
        next => exact hgo (by simp [hphase]) _ rfl
    · exact hgo (by simp [hphase]) _ rfl
  case h_7 parts hphase =>
    cases hawaits
    rintro next (rfl | ⟨landed, error, rfl⟩)
    · exact ⟨h.loaded (by simp [hphase]) parts, call.loaded_roundPlan parts⟩
    · exact hgo (by simp [hphase]) _ rfl
  case h_8 row rest parts hphase =>
    cases hawaits
    rintro next (rfl | ⟨landed, error, rfl⟩)
    · simp only
      split
      next => exact hgo (by simp [hphase]) _ rfl
      next => exact hloading (by simp [hphase]) rest _
    · exact hgo (by simp [hphase]) _ rfl
  case h_9 plan sigs fallback hphase =>
    cases hawaits
    rintro next (rfl | ⟨landed, error, rfl⟩)
    · simp only
      split
      next => exact hgo (by simp [hphase]) _ rfl
      next => exact hgo (by simp [hphase]) _ rfl
    · simp only
      split
      next => exact hgo (by simp [hphase]) _ rfl
      next => exact hgo (by simp [hphase]) _ rfl
  case h_10 result hphase =>
    cases hawaits
    rintro next (rfl | ⟨landed, error, rfl⟩)
    · exact hgo (by simp [hphase]) _ rfl
    · exact hgo (by simp [hphase]) _ rfl
  case h_11 error hphase =>
    cases hawaits
    rintro next (rfl | ⟨landed, error', rfl⟩)
    · simp only
      split
      next => exact hgo (by simp [hphase]) _ rfl
      next => exact hgo (by simp [hphase]) _ rfl
    · exact hgo (by simp [hphase]) _ rfl
  case h_12 result hphase =>
    cases hawaits
    rintro next (rfl | ⟨landed, error, rfl⟩)
    · cases result with
      | error error => exact hgo (by simp [hphase]) _ rfl
      | ok result => exact hgo (by simp [hphase]) _ rfl
    · exact hgo (by simp [hphase]) _ rfl

theorem clearStep_begun (h : call.Begun env)
    (hstep : clearStep env db call roundId uuid reply = some (db', call')) :
    call'.Begun env ∧ call'.roundPlan = call.roundPlan := by
  unfold clearStep at hstep
  split at hstep
  next plan sigs hphase =>
    have hgo : ∀ phase : ClearPhase, phase.isClearing = false →
        (call.goTo phase).Begun env ∧ (call.goTo phase).roundPlan = call.roundPlan :=
      fun phase hnot => ⟨h.goTo (by simp [hphase]) hnot, rfl⟩
    unfold clearingStep at hstep
    split at hstep
    next =>
      cases hstep
      split
      next => exact hgo _ rfl
      next => exact hgo _ rfl
      next => exact hgo _ rfl
      next => exact hgo _ rfl
      next => exact hgo _ rfl
    next => cases hstep; exact hgo _ rfl
    next => cases hstep; exact hgo _ rfl
    next => cases hstep
  next =>
    obtain ⟨awaited, hawaits, hsettle⟩ := Option.bind_eq_some_iff.mp hstep
    have hnext := clearAwaits_begun h hawaits
    exact Awaited.settle_elim
      (P := fun _ next => next.Begun env ∧ next.roundPlan = call.roundPlan) hsettle
      (hnext _ (.inl rfl)) (fun error => hnext _ (.inr ⟨true, error, rfl⟩))
      fun error => hnext _ (.inr ⟨false, error, rfl⟩)

/-! ### A call whose round is there -/

theorem ClearCall.loaded_replays (parts : List ParticipantState) (roundId : String)
    (mayFail : Prop) : (call.loaded env parts).phase.Replays roundId mayFail := by
  unfold ClearCall.loaded
  split
  next => trivial
  next =>
    split
    next => trivial
    next => trivial

theorem ClearCall.loading_replays (rows : List ComboRow) (parts : List ParticipantState)
    (roundId : String) (mayFail : Prop) :
    (call.loading env rows parts).phase.Replays roundId mayFail := by
  unfold ClearCall.loading
  split
  next => exact call.loaded_replays parts roundId mayFail
  next => trivial

section

variable {existing : String} {mayFail : Prop} (hphase : call.phase.Replays existing mayFail)
  (hstored : loadExistingRoundId db call.expectedSignatures = some existing)

include hphase hstored

/-- What a call whose round is on record awaits leads to the replay, unless it fails. -/
theorem clearAwaits_replays {awaited : Awaited ComboDb ClearCall}
    (hawaits : clearAwaits env db call = some awaited) :
    awaited.onReturn.phase.Replays existing mayFail ∧
      ∀ landed error, (awaited.onThrow landed error).phase.Replays existing True := by
  unfold clearAwaits at hawaits
  split at hawaits
  case h_1 => cases hawaits
  case h_2 => cases hawaits
  case h_3 => cases hawaits
  case h_4 => cases hawaits; exact ⟨trivial, fun _ _ => trivial⟩
  case h_5 rows _ =>
    cases hawaits
    exact ⟨call.loading_replays rows [] existing mayFail, fun _ _ => trivial⟩
  case h_6 participantId rest rows _ =>
    cases hawaits
    refine ⟨?_, fun _ _ => trivial⟩
    simp only
    split
    next => trivial
    next =>
      split
      next => exact call.loading_replays _ [] existing mayFail
      next => trivial
  case h_7 parts _ =>
    cases hawaits
    exact ⟨call.loaded_replays parts existing mayFail, fun _ _ => trivial⟩
  case h_8 row rest parts _ =>
    cases hawaits
    refine ⟨?_, fun _ _ => trivial⟩
    simp only
    split
    next => trivial
    next => exact call.loading_replays rest _ existing mayFail
  case h_9 plan sigs fallback heq =>
    rw [heq] at hphase
    exact hphase.elim
  case h_10 result heq =>
    cases hawaits
    rw [heq] at hphase
    exact ⟨hphase, fun _ _ => trivial⟩
  case h_11 error heq =>
    cases hawaits
    refine ⟨?_, fun _ _ => trivial⟩
    simp only [hstored]
    exact ⟨rfl, rfl, rfl, rfl⟩
  case h_12 result heq =>
    cases hawaits
    rw [heq] at hphase
    refine ⟨?_, fun _ _ => trivial⟩
    cases result with
    | error error => exact hphase
    | ok result => exact hphase

/-- **Step lemma of a replay.** A call whose round is on record, and whose participants cannot be
cleared, stays on its way to the replay, unless an answer fails it. -/
theorem clearStep_replays (hrefused : ∀ plan sigs, call.phase = .clearing plan sigs → ∃ error,
      recheckClearing env db plan sigs = .error error)
    (hstep : clearStep env db call roundId uuid reply = some (db', call')) :
    call'.phase.Replays existing (mayFail ∨ reply ≠ .done) ∧
      call.applies env db roundId uuid reply = none := by
  unfold clearStep at hstep
  split at hstep
  next plan sigs heq =>
    obtain ⟨error, hrecheck⟩ := hrefused plan sigs heq
    have haborts : executeClearing env db plan sigs roundId uuid = .aborted error := by
      unfold executeClearing
      rw [hrecheck]
    refine ⟨?_, ?_⟩
    · unfold clearingStep at hstep
      rw [haborts] at hstep
      split at hstep
      next => cases hstep; trivial
      next => cases hstep; trivial
      next => cases hstep; trivial
      next => cases hstep
    · unfold ClearCall.applies ClearCall.outcome ClearCall.transaction
      rw [heq]
      cases reply <;> simp [haborts]
  next hclearing =>
    refine ⟨?_, ?_⟩
    · obtain ⟨awaited, hawaits, hsettle⟩ := Option.bind_eq_some_iff.mp hstep
      obtain ⟨hreturn, hthrow⟩ := clearAwaits_replays hphase hstored hawaits
      -- a failure is let off by the answer that failed
      have hweaken : ∀ {phase : ClearPhase} {p q : Prop}, (p → q) →
          phase.Replays existing p → phase.Replays existing q := by
        intro phase p q hpq hp
        cases phase with
        | releasing result =>
          cases result with
          | error error => exact hpq hp
          | ok result => exact hp
        | rejected error => exact hpq hp
        | _ => exact hp
      cases reply with
      | done => cases hsettle; exact hweaken .inl hreturn
      | lost error =>
        cases hsettle
        exact hweaken (fun _ => .inr nofun) (hthrow true error)
      | refused error =>
        cases hsettle
        exact hweaken (fun _ => .inr nofun) (hthrow false error)
      | answered answer => cases hsettle
    · unfold ClearCall.applies
      split
      next heq _ => exact absurd heq (hclearing _ _)
      next => rfl

end

end

/-! ## The invariant -/

def signatureInput (env : ClearingEnv) (plan : ClearingRoundPlan) : MatchSignatureInput :=
  { compatibilityBucket := plan.compatibilityBucket
    participantIds := Js.sortWith env.localeCompare plan.selectedGroup.participantIds
    uniqueLegs := Js.sortWith env.localeCompare plan.selectedGroup.uniqueLegs
    residuals := Js.sortWith (fun left right => env.localeCompare left.1 right.1)
      plan.selectedGroup.residualAfterNetting
    finalScore := plan.score.finalScore
    postNetAbsResidual := plan.score.postNetAbsResidual }

/-- SHA-256 has not met a collision: a plan that was executed and a round that was applied have one
hash only if one thing was hashed. -/
def NoCollision (env : ClearingEnv) (sys : ClearingSystem) : Prop :=
  ∀ round ∈ sys.applied, ∀ process ∈ sys.calls,
    env.hashMatch (signatureInput env process.call.roundPlan) =
      env.hashMatch (signatureInput env round.plan) →
    signatureInput env process.call.roundPlan = signatureInput env round.plan

structure ClearingSound (env : ClearingEnv) (sys : ClearingSystem) : Prop where
  keyed : ClearingKeyed sys.db
  nonneg : ∀ leg ∈ sys.db.legs, 0 ≤ leg.remaining_size
  unique : (sys.applied.map AppliedRound.signatures).Nodup
  stored : ∀ round ∈ sys.applied, loadExistingRoundId sys.db round.signatures = some round.roundId
  signed : ∀ round ∈ sys.applied, round.signatures = buildMatchSignatures env round.plan
  unopposed : ∀ round ∈ sys.applied,
    Unopposed (· ∈ round.plan.selectedGroup.participantIds) (netIn sys.db)
  begun : ∀ process ∈ sys.calls, process.call.Begun env
  before : ∀ process ∈ sys.calls, ∀ round ∈ process.appliedBefore, round ∈ sys.applied
  replays : ∀ process ∈ sys.calls, ∀ round ∈ process.appliedBefore,
    process.call.expectedSignatures = round.signatures →
    process.call.phase.Replays round.roundId (process.failed = true ∨
      ∃ error, validateRoundPlan env process.call.roundPlan = .error error)

/-- The participants of a plan that is not rejected are locked in the order of their ids. -/
theorem validateRoundPlan_ok (h : validateRoundPlan env plan = .ok ()) :
    Js.sortWith env.localeCompare plan.selectedGroup.participantIds = plan.participantLockOrder := by
  unfold validateRoundPlan at h
  split at h
  next => cases h
  next =>
    split at h
    next => cases h
    next =>
      split at h
      next => cases h
      next =>
        split at h
        next => cases h
        next hsame => exact not_not.mp hsame

/-- **The participants of a plan with an applied signature** are those of the round, so they are
not cleared. -/
theorem ClearingSound.refused (hsound : ClearingSound env sys) (hcollision : NoCollision env sys)
    {process : ClearProcess} (hprocess : process ∈ sys.calls) {round : AppliedRound}
    (hround : round ∈ sys.applied) (hsame : process.call.expectedSignatures = round.signatures)
    (plan : ClearingRoundPlan) (sigs : ClearingMatchSignature)
    (hphase : process.call.phase = .clearing plan sigs) :
    ∃ error, recheckClearing env sys.db plan sigs = .error error := by
  have hbegun := hsound.begun process hprocess
  obtain ⟨-, hlock, -⟩ := hbegun.clearing plan sigs hphase
  have hvalid : validateRoundPlan env process.call.roundPlan = .ok () := by
    cases hcheck : validateRoundPlan env process.call.roundPlan with
    | error error =>
      have hrejected := hbegun.valid error hcheck
      rw [hphase] at hrejected
      cases hrejected
    | ok => rfl
  have hinput : signatureInput env process.call.roundPlan = signatureInput env round.plan := by
    refine hcollision round hround process hprocess ?_
    have hhash := congrArg ClearingMatchSignature.matchSignatureHash hsame
    rwa [hbegun.expected, hsound.signed round hround] at hhash
  have hids : Js.sortWith env.localeCompare process.call.roundPlan.selectedGroup.participantIds =
      Js.sortWith env.localeCompare round.plan.selectedGroup.participantIds :=
    congrArg MatchSignatureInput.participantIds hinput
  refine recheckClearing_unopposed ((hsound.unopposed round hround).of_sizes
    fun participantId hparticipant => ⟨participantId, ?_, fun _ => rfl⟩)
  rw [hlock, hbegun.lockOrder, Js.mem_sortWith, ← validateRoundPlan_ok hvalid, hids,
    Js.mem_sortWith] at hparticipant
  exact hparticipant

/-! ## What an action does -/

/-- An action applies a round, by a transaction that commits, or leaves the tables as they are. -/
theorem clearStep_applies {db : ComboDb} {call' : ClearCall}
    (hstep : clearStep env db call roundId uuid reply = some (db', call')) :
    (call.applies env db roundId uuid reply = none ∧ db' = db) ∨
      ∃ plan sigs result, call.phase = .clearing plan sigs ∧
        executeClearing env db plan sigs roundId uuid = .committed db' result ∧
        call.applies env db roundId uuid reply = some ⟨plan, sigs, roundId⟩ := by
  have hdb := clearStep_db hstep
  cases houtcome : call.outcome env db roundId uuid reply with
  | none =>
    rw [houtcome] at hdb
    refine .inl ⟨?_, hdb⟩
    unfold ClearCall.applies
    split
    next heq => rw [houtcome] at heq; cases heq
    next => rfl
  | some outcome =>
    rw [houtcome] at hdb
    have htransaction : call.transaction env db roundId uuid = some outcome := by
      unfold ClearCall.outcome at houtcome
      split at houtcome
      next => exact houtcome
      next => exact houtcome
      next => cases houtcome
    unfold ClearCall.transaction at htransaction
    split at htransaction
    next plan sigs hphase =>
      rw [Option.some.injEq] at htransaction
      cases outcome with
      | committed written result =>
        refine .inr ⟨plan, sigs, result, hphase, ?_, ?_⟩
        · rw [htransaction, show db' = written from hdb]
        · unfold ClearCall.applies
          rw [hphase, houtcome]
      | rolledBack result =>
        refine .inl ⟨?_, hdb⟩
        unfold ClearCall.applies
        rw [hphase, houtcome]
      | aborted error =>
        refine .inl ⟨?_, hdb⟩
        unfold ClearCall.applies
        rw [hphase, houtcome]
    next => cases htransaction

/-- A round that a commit has inserted is found, and those there were are found as before. -/
theorem loadExistingRoundId_committed {db : ComboDb} {sigs : ClearingMatchSignature}
    {result : ClearingEnd}
    (h : executeClearing env db plan sigs roundId uuid = .committed db' result) :
    loadExistingRoundId db sigs = none ∧ loadExistingRoundId db' sigs = some roundId ∧
      ∀ other existing, loadExistingRoundId db other = some existing →
        loadExistingRoundId db' other = some existing := by
  obtain ⟨hnew, row, hrounds, hid, hset, hmatch⟩ := executeClearing_rounds h
  have hnone : (db.rounds.find? fun round =>
      round.participant_set_hash = sigs.participantSetHash ∧
        round.match_signature_hash = sigs.matchSignatureHash) = none := by
    rw [find?_eq_none]
    intro round hround
    simpa using hnew round hround
  unfold loadExistingRoundId
  rw [hrounds]
  refine ⟨by rw [hnone]; rfl, ?_, fun other existing hother => ?_⟩
  · rw [find?_append, hnone]
    simp [hset, hmatch, hid]
  · obtain ⟨round, hround, hexisting⟩ := Option.map_eq_some_iff.mp hother
    rw [find?_append, hround]
    exact congrArg some hexisting

section

variable {env : ClearingEnv} {sys sys' : ClearingSystem} {action : ClearingAction}
  (hbegun : ∀ process ∈ sys.calls, process.call.Begun env)
  (hact : clearingAct env sys action = some sys')

include hbegun hact

theorem NoCollision.before (h : NoCollision env sys') : NoCollision env sys := by
  intro round hround process hprocess
  cases action with
  | execute roundPlan =>
    cases hact
    exact h round hround process (mem_append_left _ hprocess)
  | act n roundId uuid reply =>
    rw [clearingAct] at hact
    split at hact
    next => cases hact
    next acting hacting =>
      obtain ⟨⟨db', call'⟩, hstep, rfl⟩ := Option.map_eq_some_iff.mp hact
      have hround' := mem_append_left
        (acting.call.applies env sys.db roundId uuid reply).toList hround
      obtain ⟨m, hm⟩ := mem_iff_getElem?.mp hprocess
      by_cases hn : n = m
      · -- the call that acts keeps its plan
        subst hn
        rw [hacting, Option.some.injEq] at hm
        subst hm
        have hplan := (clearStep_begun (hbegun acting (mem_of_getElem? hacting)) hstep).2
        have hlt : n < sys.calls.length := (List.getElem?_eq_some_iff.mp hacting).1
        have hin := h round hround' _ (mem_iff_getElem?.mpr ⟨n, List.getElem?_set_self hlt⟩)
        rwa [hplan] at hin
      · refine h round hround' process (mem_iff_getElem?.mpr ⟨m, ?_⟩)
        rw [getElem?_set_ne hn, hm]

theorem clearingAct_begun : ∀ process ∈ sys'.calls, process.call.Begun env := by
  intro process hprocess
  cases action with
  | execute roundPlan =>
    cases hact
    rcases mem_append.mp hprocess with hold | hnew
    · exact hbegun process hold
    · rw [mem_singleton.mp hnew]
      exact ClearCall.start_begun env roundPlan
  | act n roundId uuid reply =>
    rw [clearingAct] at hact
    split at hact
    next => cases hact
    next acting hacting =>
      obtain ⟨⟨db', call'⟩, hstep, rfl⟩ := Option.map_eq_some_iff.mp hact
      rcases mem_or_eq_of_mem_set hprocess with hold | rfl
      · exact hbegun process hold
      · exact (clearStep_begun (hbegun acting (mem_of_getElem? hacting)) hstep).1

end

/-- What an action does to the record: nothing, and the tables stay as they are, or it adds a round
whose signature was not there. -/
theorem clearingAct_applied {sys' : ClearingSystem} {action : ClearingAction}
    (hact : clearingAct env sys action = some sys') :
    (sys'.applied = sys.applied ∧ sys'.db = sys.db) ∨
      ∃ round, sys'.applied = sys.applied ++ [round] ∧
        loadExistingRoundId sys.db round.signatures = none ∧
        loadExistingRoundId sys'.db round.signatures = some round.roundId := by
  cases action with
  | execute roundPlan =>
    cases hact
    exact .inl ⟨rfl, rfl⟩
  | act n roundId uuid reply =>
    rw [clearingAct] at hact
    split at hact
    next => cases hact
    next acting hacting =>
      obtain ⟨⟨db', call'⟩, hstep, rfl⟩ := Option.map_eq_some_iff.mp hact
      rcases clearStep_applies hstep with
        ⟨hnone, hdb⟩ | ⟨plan, sigs, result, -, hexecute, hsome⟩
      · exact .inl ⟨by simp [hnone], hdb⟩
      · obtain ⟨hnew, hfound, -⟩ := loadExistingRoundId_committed hexecute
        exact .inr ⟨⟨plan, sigs, roundId⟩, by simp [hsome], hnew, hfound⟩

theorem ClearingSound.committed (hsound : ClearingSound env sys)
    {sigs : ClearingMatchSignature} {result : ClearingEnd}
    (hsigned : sigs = buildMatchSignatures env plan)
    (h : executeClearing env sys.db plan sigs roundId uuid = .committed db' result) :
    ClearingSound env
      { sys with db := db', applied := sys.applied ++ [⟨plan, sigs, roundId⟩] } := by
  obtain ⟨hnew, hfound, hkept⟩ := loadExistingRoundId_committed h
  obtain ⟨hshrinks, hunopposed⟩ := executeClearing_nets hsound.keyed h
  refine ⟨executeClearing_keyed hsound.keyed h,
    (executeClearing_committed hsound.keyed.legIds h).nonneg hsound.nonneg, ?_, ?_, ?_, ?_,
    hsound.begun, fun process hprocess round hround =>
      mem_append_left _ (hsound.before process hprocess round hround), hsound.replays⟩
  · -- a signature that was applied would have been found
    rw [map_append, nodup_append]
    refine ⟨hsound.unique, nodup_singleton _, fun old hold fresh hfresh heq => ?_⟩
    obtain ⟨round, hround, rfl⟩ := mem_map.mp hold
    rw [map_singleton, mem_singleton] at hfresh
    have hstored := hsound.stored round hround
    rw [heq, hfresh, hnew] at hstored
    cases hstored
  · intro round hround
    rcases mem_append.mp hround with hold | hlast
    · exact hkept _ _ (hsound.stored round hold)
    · rw [mem_singleton.mp hlast]
      exact hfound
  · intro round hround
    rcases mem_append.mp hround with hold | hlast
    · exact hsound.signed round hold
    · rw [mem_singleton.mp hlast]
      exact hsigned
  · intro round hround
    rcases mem_append.mp hround with hold | hlast
    · exact (hsound.unopposed round hold).shrinks hshrinks
    · rw [mem_singleton.mp hlast]
      exact hunopposed

/-- **Step lemma.** -/
theorem ClearingSound.step {sys' : ClearingSystem} {action : ClearingAction}
    (hsound : ClearingSound env sys) (hcollision : NoCollision env sys)
    (hact : clearingAct env sys action = some sys') : ClearingSound env sys' := by
  cases action with
  | execute roundPlan =>
    cases hact
    refine ⟨hsound.keyed, hsound.nonneg, hsound.unique, hsound.stored, hsound.signed,
      hsound.unopposed, fun process hprocess => ?_, fun process hprocess => ?_,
      fun process hprocess => ?_⟩
    · rcases mem_append.mp hprocess with hold | hnew
      · exact hsound.begun process hold
      · rw [mem_singleton.mp hnew]
        exact ClearCall.start_begun env roundPlan
    · rcases mem_append.mp hprocess with hold | hnew
      · exact hsound.before process hold
      · rw [mem_singleton.mp hnew]
        exact fun round hround => hround
    · rcases mem_append.mp hprocess with hold | hnew
      · exact hsound.replays process hold
      · rw [mem_singleton.mp hnew]
        intro round hround hsame
        cases hvalid : validateRoundPlan env roundPlan with
        | error error =>
          rw [show (ClearCall.start env roundPlan).phase = .rejected error by
            simp [ClearCall.start, hvalid]]
          exact .inr ⟨error, hvalid⟩
        | ok =>
          rw [show (ClearCall.start env roundPlan).phase = .locking by
            simp [ClearCall.start, hvalid]]
          trivial
  | act n roundId uuid reply =>
    rw [clearingAct] at hact
    split at hact
    next => cases hact
    next acting hacting =>
      obtain ⟨⟨db', call'⟩, hstep, rfl⟩ := Option.map_eq_some_iff.mp hact
      have hmem := mem_of_getElem? hacting
      obtain ⟨hbegun', hplan⟩ := clearStep_begun (hsound.begun acting hmem) hstep
      have hexpected : call'.expectedSignatures = acting.call.expectedSignatures := by
        rw [hbegun'.expected, hplan, (hsound.begun acting hmem).expected]
      -- a call whose round was there when it began stays on its way to the replay
      have hreplay : ∀ round ∈ acting.appliedBefore, call'.expectedSignatures = round.signatures →
          call'.phase.Replays round.roundId ((acting.failed || decide (reply ≠ .done)) = true ∨
            ∃ error, validateRoundPlan env call'.roundPlan = .error error) ∧
          acting.call.applies env sys.db roundId uuid reply = none := by
        intro round hround hsame
        have happlied := hsound.before acting hmem round hround
        rw [hexpected] at hsame
        obtain ⟨hphase, hnone⟩ := clearStep_replays (hsound.replays acting hmem round hround hsame)
          (hsame ▸ hsound.stored round happlied)
          (hsound.refused hcollision hmem happlied hsame) hstep
        refine ⟨?_, hnone⟩
        have hiff : ((acting.failed = true ∨
            ∃ error, validateRoundPlan env acting.call.roundPlan = .error error) ∨
              reply ≠ .done) = ((acting.failed || decide (reply ≠ .done)) = true ∨
            ∃ error, validateRoundPlan env call'.roundPlan = .error error) := by
          rw [hplan, Bool.or_eq_true, decide_eq_true_eq]
          exact propext or_right_comm
        rwa [hiff] at hphase
      have hcalls : ∀ {db : ComboDb} {applied : List AppliedRound},
          (∀ round ∈ sys.applied, round ∈ applied) → ClearingSound env ⟨db, sys.calls, applied⟩ →
          ClearingSound env ⟨db, sys.calls.set n ⟨call', acting.appliedBefore,
            acting.failed || decide (reply ≠ .done)⟩, applied⟩ := by
        intro db applied hkept h
        refine ⟨h.keyed, h.nonneg, h.unique, h.stored, h.signed, h.unopposed,
          fun process hprocess => ?_, fun process hprocess => ?_, fun process hprocess => ?_⟩
        · rcases mem_or_eq_of_mem_set hprocess with hold | rfl
          · exact hsound.begun process hold
          · exact hbegun'
        · rcases mem_or_eq_of_mem_set hprocess with hold | rfl
          · exact fun round hround => hkept round (hsound.before process hold round hround)
          · exact fun round hround => hkept round (hsound.before acting hmem round hround)
        · rcases mem_or_eq_of_mem_set hprocess with hold | rfl
          · exact hsound.replays process hold
          · exact fun round hround hsame => (hreplay round hround hsame).1
      rcases clearStep_applies hstep with
        ⟨hnone, hdb⟩ | ⟨plan, sigs, result, hphase, hexecute, hsome⟩
      · rw [hnone, hdb]
        simp only [Option.toList_none, append_nil]
        exact hcalls (fun round hround => hround) hsound
      · rw [hsome]
        simp only [Option.toList_some]
        exact hcalls (fun round hround => mem_append_left _ hround) (hsound.committed
          ((hsound.begun acting hmem).clearing plan sigs hphase).1 hexecute)

/-! ## Along a run -/

/-- Only call `n` acts, and every answer reaches it. -/
def actsAlone (n : ℕ) (_ : ClearingSystem) (action : ClearingAction) : Prop :=
  ∃ roundId uuid, action = .act n roundId uuid .done

/-- What there is to say of call `n` when the round of its signature was applied before it began:
it changes nothing, and it ends in the replay of the round unless it is failed or its plan was never
valid. -/
structure ReplayedCall (env : ClearingEnv) (sys : ClearingSystem) (n : ℕ) (process : ClearProcess)
    (round : AppliedRound) : Prop where
  unchanged : ∀ roundId uuid reply sys',
    clearingAct env sys (.act n roundId uuid reply) = some sys' → sys'.db = sys.db
  finished : ∀ result, process.call.phase = .finished result → IsReplay result round.roundId
  rejected : ∀ error, process.call.phase = .rejected error → process.failed = true ∨
    ∃ error, validateRoundPlan env process.call.roundPlan = .error error
  ends : process.failed = false → validateRoundPlan env process.call.roundPlan = .ok () →
    ∃ sys' process' result, Run (clearingAct env) (actsAlone n) sys sys' ∧
      sys'.calls[n]? = some process' ∧ process'.call.phase = .finished result ∧
      IsReplay result round.roundId

section

variable {env : ClearingEnv} {sys : ClearingSystem} {n : ℕ} {process : ClearProcess}
  {round : AppliedRound} (hsound : ClearingSound env sys) (hcollision : NoCollision env sys)
  (hprocess : sys.calls[n]? = some process) (hround : round ∈ process.appliedBefore)
  (hsame : process.call.expectedSignatures = round.signatures)

include hsound hcollision hprocess hround hsame

/-- One answer to a call that replays: nothing is applied, and what was hashed stays. -/
theorem ClearingSound.answered (hopen : 0 < process.call.remaining) (roundId : String)
    (uuid : ℕ → String) :
    ∃ sys' process', clearingAct env sys (.act n roundId uuid .done) = some sys' ∧
      sys'.calls[n]? = some process' ∧ process'.call.remaining < process.call.remaining ∧
      process'.appliedBefore = process.appliedBefore ∧ process'.failed = process.failed ∧
      process'.call.roundPlan = process.call.roundPlan ∧
      process'.call.expectedSignatures = process.call.expectedSignatures ∧
      NoCollision env sys' := by
  have hmem := mem_of_getElem? hprocess
  obtain ⟨db', call', hstep, hremaining⟩ := clearStep_remaining env sys.db hopen roundId uuid
  have happlied := hsound.before process hmem round hround
  obtain ⟨-, hnone⟩ := clearStep_replays (hsound.replays process hmem round hround hsame)
    (hsame ▸ hsound.stored round happlied) (hsound.refused hcollision hmem happlied hsame) hstep
  obtain ⟨hbegun', hplan⟩ := clearStep_begun (hsound.begun process hmem) hstep
  have hlt : n < sys.calls.length := (List.getElem?_eq_some_iff.mp hprocess).1
  refine ⟨⟨db', sys.calls.set n ⟨call', process.appliedBefore,
      process.failed || decide ((.done : Reply Unit) ≠ .done)⟩, sys.applied ++
        (process.call.applies env sys.db roundId uuid .done).toList⟩,
    ⟨call', process.appliedBefore, process.failed || decide ((.done : Reply Unit) ≠ .done)⟩, ?_, ?_,
    hremaining, rfl, by simp, hplan, ?_, ?_⟩
  · rw [clearingAct, hprocess]
    simp only [hstep, Option.map_some]
  · exact List.getElem?_set_self hlt
  · rw [hbegun'.expected, hplan, (hsound.begun process hmem).expected]
  · intro applied happlied' other hother
    simp only [hnone, Option.toList_none, append_nil] at happlied'
    rcases mem_or_eq_of_mem_set hother with hold | rfl
    · exact hcollision applied happlied' other hold
    · rw [hplan]
      exact hcollision applied happlied' process hmem

theorem ClearingSound.ends (hfailed : process.failed = false)
    (hvalid : validateRoundPlan env process.call.roundPlan = .ok ()) :
    ∃ sys' process' result, Run (clearingAct env) (actsAlone n) sys sys' ∧
      sys'.calls[n]? = some process' ∧ process'.call.phase = .finished result ∧
      IsReplay result round.roundId := by
  induction hremaining : process.call.remaining using Nat.strong_induction_on
    generalizing sys process with
  | _ remaining ih =>
    by_cases hopen : 0 < process.call.remaining
    · obtain ⟨next, process', hact, hprocess', hless, hbefore', hfailed', hplan', hexpected',
        hcollision'⟩ := hsound.answered hcollision hprocess hround hsame hopen "" fun _ => ""
      obtain ⟨sys', last, result, hrun, hlast⟩ :=
        ih _ (hremaining ▸ hless) (hsound.step hcollision hact) hcollision' hprocess'
          (hbefore' ▸ hround) (hexpected'.trans hsame) (hfailed'.trans hfailed)
          (hplan' ▸ hvalid) rfl
      exact ⟨sys', last, result, (Run.tail .refl _ ⟨_, _, rfl⟩ hact).trans hrun, hlast⟩
    · -- a call that waits for nothing is at its end
      have hphase := hsound.replays process (mem_of_getElem? hprocess) round hround hsame
      cases hend : process.call.phase with
      | finished result =>
        rw [hend] at hphase
        exact ⟨sys, process, result, .refl, hprocess, hend, hphase⟩
      | rejected error =>
        rw [hend] at hphase
        rcases hphase with hfail | ⟨error', hinvalid⟩
        · rw [hfailed] at hfail
          cases hfail
        · rw [hvalid] at hinvalid
          cases hinvalid
      | _ =>
        refine absurd ?_ hopen
        unfold ClearCall.remaining
        rw [hend]
        simp [ClearPhase.remaining]

end

def bucketedLeg (id comboId marketId : String) (side : Side) (size price : ℚ) : LegRow :=
  { legRow id comboId marketId side size price with
    metadata := some ⟨none, "universe", "expiry", "settlement", "rule"⟩ }

/-- Alice buys and sells five; Bob has three of each the other way round. -/
def clearable : ComboDb :=
  opened [comboRow "alice's" "alice", comboRow "bob's" "bob"]
    [bucketedLeg "a1" "alice's" "north" .buy 5 (3 / 5),
      bucketedLeg "a2" "alice's" "south" .sell 5 (3 / 10),
      bucketedLeg "b1" "bob's" "north" .sell 3 (1 / 2),
      bucketedLeg "b2" "bob's" "south" .buy 3 (2 / 5)]

def clearablePlan : ClearingRoundPlan :=
  { compatibilityBucket := "universe|expiry|settlement|rule"
    selectedGroup :=
      { participantIds := ["alice's", "bob's"]
        uniqueLegs := ["north:yes", "south:yes"]
        estimatedCompressionScore := 3 / 4
        residualAfterNetting := [("north:yes", 2), ("south:yes", -2)]
        exactnessScore := 0 }
    score :=
      { compressionScore := 12
        preNetAbsExposure := 16
        postNetAbsResidual := 4
        rankingPenalty := 2
        finalScore := 10
        oldestParticipantAt := 0
        participantCount := 2 }
    residuals := [("north:yes", 2), ("south:yes", -2)]
    participantLockOrder := ["alice's", "bob's"] }

/-- Call `n` of a run, whose round is inserted under this id, answered as long as it asks. -/
def clearsAs (n : ℕ) (roundId : String) (answers : ℕ) : List ClearingAction :=
  .execute clearablePlan :: List.replicate answers (.act n roundId numbered .done)

instance (env : ClearingEnv) (sys : ClearingSystem) : Decidable (NoCollision env sys) :=
  inferInstanceAs (Decidable (∀ round ∈ sys.applied, ∀ process ∈ sys.calls,
    env.hashMatch (signatureInput env process.call.roundPlan) =
      env.hashMatch (signatureInput env round.plan) →
    signatureInput env process.call.roundPlan = signatureInput env round.plan))

end LotusRfq.Combo
