import LotusRfq.Rfq.RiskSystem

/-!
# LotusRfq — is an execution applied once?

An update first inserts the id of its execution, in a statement of its own, and then applies the
exposure change in a transaction. Whoever finds the id takes the change for applied. So it is
applied at most once, and not at all when an update stops between the two.

* **`appliedOnce_iff`** — once an update has returned and none is under way, the change is applied
  exactly once if and only if no update stopped between the marker and the transaction;
* **`atMostOnce_of_reaches`** — no run whatever applies an execution twice;
* **`marked_not_applied`** — an update that fails there, and the retry that returns.
-/

namespace LotusRfq.Rfq

open Calls Tables Transitions List

variable {config : RiskConfig} {store store' : RiskStore} {execId : String}
  {reply : Reply Unit} {sys sys' : RiskSystem}

/-- The update has neither returned nor thrown, and its process is there. -/
def UpdateCall.underWay (call : UpdateCall) : Prop :=
  match call.phase with
  | .returned | .thrown _ | .crashed => False
  | _ => True

def RiskSystem.hasReturned (sys : RiskSystem) (executionId : String) : Prop :=
  ∃ call ∈ sys.updates, call.exec.id = executionId ∧ call.phase = .returned

def RiskSystem.quiet (sys : RiskSystem) (executionId : String) : Prop :=
  ∀ call ∈ sys.updates, call.exec.id = executionId → ¬ call.underWay

/-- **No update stops halfway.** The marker's insert does not throw after it has taken effect, and
the transaction after it takes effect. -/
def Booked (executionId : String) (sys : RiskSystem) : RiskAction → Prop
  | .update i _ (.lost _) => ∀ call ∈ sys.updates[i]?,
      call.exec.id = executionId ∧ call.phase = .marking → executionId ∈ sys.store.idempotency
  | .update i _ (.refused _) => ∀ call ∈ sys.updates[i]?,
      ¬ (call.exec.id = executionId ∧ call.phase = .updating)
  | .crashUpdate i => ∀ call ∈ sys.updates[i]?,
      ¬ (call.exec.id = executionId ∧ call.phase = .updating)
  | _ => True

instance (sys : RiskSystem) (action : RiskAction) : Decidable (Booked executionId sys action) := by
  unfold Booked
  split <;> infer_instance

/-! ## The load of an execution -/

def UpdateCall.updating (executionId : String) (call : UpdateCall) : ℕ :=
  if call.exec.id = executionId ∧ call.phase = .updating then 1 else 0

/-- How often an execution was applied or is about to be. -/
def RiskSystem.load (sys : RiskSystem) (executionId : String) : ℕ :=
  sys.store.applied executionId + (sys.updates.map (UpdateCall.updating executionId)).sum

open RiskSystem (close load initial)

open UpdateCall (updating start underWay)

theorem applyExecution_applied (store : RiskStore) (exec : ExecutionResult) (newId : String) :
    (store.applyExecution exec newId).applied execId =
      store.applied execId + if exec.id = execId then 1 else 0 := by
  unfold RiskStore.applied RiskStore.applyExecution RiskStore.updateExposureWithJournal
  simp only [countP_append, countP_cons, countP_nil, Nat.zero_add, isExecution,
    applyExposure_source, applyExposure_referenceId, decide_true, Bool.true_and, decide_eq_true_eq]

theorem mem_markExecution {id : String} :
    execId ∈ (store.markExecution id).idempotency ↔ execId ∈ store.idempotency ∨ execId = id := by
  unfold RiskStore.markExecution
  simp only
  split
  next hmem =>
    refine ⟨.inl, fun h => ?_⟩
    rcases h with hold | rfl
    · exact hold
    · exact hmem
  next => simp

theorem applied_markExecution (store : RiskStore) (id : String) :
    (store.markExecution id).applied execId = store.applied execId := rfl

variable {call : UpdateCall} {newId : String} {i : ℕ} {booked : Prop}

/-- An update of another execution, or one in another phase, is not about to apply this one. -/
theorem updating_eq_zero (h : ¬ (call.exec.id = execId ∧ call.phase = .updating)) :
    call.updating execId = 0 := by
  unfold updating
  rw [if_neg h]

/-- **What an update does to the load of an execution.** It marks it, which adds one; it marks it
and throws; it gives the transaction up, which takes one away; or it changes nothing. -/
theorem updateCases_load (execId : String) {phase : UpdatePhase}
    (h : UpdateCases store call newId reply store' phase) :
    let was := call.updating execId
    let now := (⟨call.exec, phase⟩ : UpdateCall).updating execId
    (call.exec.id = execId ∧ call.phase = .marking ∧ execId ∉ store.idempotency ∧
      reply = .done ∧ execId ∈ store'.idempotency ∧
      store'.applied execId + now = store.applied execId + was + 1) ∨
    (call.exec.id = execId ∧ call.phase = .marking ∧ (∃ error, reply = .lost error) ∧
      execId ∈ store'.idempotency ∧ store'.applied execId + now = store.applied execId + was) ∨
    (call.exec.id = execId ∧ call.phase = .updating ∧ (∃ error, reply = .refused error) ∧
      store'.idempotency = store.idempotency ∧
      store'.applied execId + now + 1 = store.applied execId + was) ∨
    (¬ (call.exec.id = execId ∧ call.phase = .marking ∧ ∃ error, reply = .lost error) ∧
      ¬ (call.exec.id = execId ∧ call.phase = .updating ∧ ∃ error, reply = .refused error) ∧
      (execId ∈ store'.idempotency ↔ execId ∈ store.idempotency) ∧
      store'.applied execId + now = store.applied execId + was) := by
  intro was now
  by_cases hid : call.exec.id = execId
  · cases h with
    | marks hphase hnew =>
      refine .inl ⟨hid, hphase, hid ▸ hnew, rfl, mem_markExecution.mpr (.inr hid.symm), ?_⟩
      simp [was, now, updating, hid, hphase, applied_markExecution]
    | marksLost hphase error =>
      refine .inr (.inl ⟨hid, hphase, ⟨error, rfl⟩, mem_markExecution.mpr (.inr hid.symm), ?_⟩)
      simp [was, now, updating, hphase, applied_markExecution]
    | applies hphase =>
      refine .inr (.inr (.inr ⟨by simp, by simp, Iff.rfl, ?_⟩))
      simp [was, now, updating, hid, hphase, applyExecution_applied]
    | appliesLost hphase =>
      refine .inr (.inr (.inr ⟨by simp [hphase], by simp, Iff.rfl, ?_⟩))
      simp [was, now, updating, hid, hphase, applyExecution_applied]
    | refused hphase error =>
      refine .inr (.inr (.inl ⟨hid, hphase, ⟨error, rfl⟩, rfl, ?_⟩))
      simp [was, now, updating, hid, hphase]
    | other hphase hsame hnext _ hlost =>
      refine .inr (.inr (.inr ⟨?_, ?_, by rw [hsame.idempotency], ?_⟩))
      · rintro ⟨_, hmarking, error, rfl⟩
        exact hlost hmarking error rfl
      · exact fun hupdating => hphase hupdating.2.1
      · simp [was, now, updating, hphase, hnext, hsame.applied]
  · -- another execution's update
    have hwas : was = 0 := updating_eq_zero fun hcall => hid hcall.1
    have hnow : now = 0 := updating_eq_zero fun hcall => hid hcall.1
    have hne : execId ≠ call.exec.id := fun heq => hid heq.symm
    refine .inr (.inr (.inr ⟨fun hcall => hid hcall.1, fun hcall => hid hcall.1, ?_, ?_⟩))
    · cases h with
      | marks => simp [mem_markExecution, hne]
      | marksLost => simp [mem_markExecution, hne]
      | applies => rfl
      | appliesLost => rfl
      | refused => rfl
      | other _ hsame => rw [hsame.idempotency]
    · rw [hwas, hnow]
      cases h with
      | marks => rfl
      | marksLost => rfl
      | applies => simp [applyExecution_applied, hid]
      | appliesLost => simp [applyExecution_applied, hid]
      | refused => rfl
      | other _ hsame => rw [hsame.applied]

/-! ## Every action -/

/-- What holds along every run: validations commit reservations, and an update that found or wrote
the marker finds it in the table. -/
structure Marked (executionId : String) (sys : RiskSystem) : Prop where
  reserves : ∀ validation ∈ sys.validations, validation.call.phase.reserves
  marked : ∀ call ∈ sys.updates, call.exec.id = executionId → call.phase.marked = true →
    executionId ∈ sys.store.idempotency

theorem closed_reserves {validation : Validation}
    (hreserves : ∀ validation ∈ sys.validations, validation.call.phase.reserves)
    (h : validation ∈ (sys.close i).validations) : validation.call.phase.reserves := by
  obtain ⟨j, hj, heq⟩ := getElem_of_mem h
  have hlength : j < sys.validations.length := by simpa [close] using hj
  have hold := hreserves sys.validations[j] (getElem_mem hlength)
  have hget : (sys.close i).validations[j] =
      if i = j then { sys.validations[j] with closed := true } else sys.validations[j] :=
    getElem_modify _ _ _ _ hj
  rw [← heq, hget]
  split
  · exact hold
  · exact hold

theorem UpdateCases.marked {phase : UpdatePhase}
    (h : UpdateCases store call newId reply store' phase)
    (hwas : call.phase.marked = true → execId ∈ store.idempotency)
    (hid : call.exec.id = execId) (hphase : phase.marked = true) : execId ∈ store'.idempotency := by
  cases h with
  | marks => exact mem_markExecution.mpr (.inr hid.symm)
  | marksLost => cases hphase
  | applies hupdating =>
    exact hwas (by rw [hupdating]; rfl)
  | appliesLost => cases hphase
  | refused => cases hphase
  | other _ hsame _ hmarked =>
    rw [hsame.idempotency]
    rcases hmarked hphase with hold | hmem
    · exact hwas hold
    · exact hid ▸ hmem

/-- How an action moves the load of an execution, and whether it stops an update halfway. -/
inductive Moves (executionId : String) (sys sys' : RiskSystem) (booked : Prop) : Prop where
  | marks (hnew : executionId ∉ sys.store.idempotency)
      (hmarked : executionId ∈ sys'.store.idempotency)
      (hload : sys'.load executionId = sys.load executionId + 1) (hbooked : booked)
  | marksLost (hmarked : executionId ∈ sys'.store.idempotency)
      (hload : sys'.load executionId = sys.load executionId)
      (hbooked : booked ↔ executionId ∈ sys.store.idempotency)
  | drops (hmarked : executionId ∈ sys'.store.idempotency ↔ executionId ∈ sys.store.idempotency)
      (hload : sys'.load executionId + 1 = sys.load executionId) (hbooked : ¬ booked)
  | stays (hmarked : executionId ∈ sys'.store.idempotency ↔ executionId ∈ sys.store.idempotency)
      (hload : sys'.load executionId = sys.load executionId) (hbooked : booked)

theorem moves_of_same (hsame : SameExposure sys.store sys'.store)
    (hupdates : (sys'.updates.map (updating execId)).sum = (sys.updates.map
      (updating execId)).sum) (hbooked : booked) : Moves execId sys sys' booked := by
  refine .stays (by rw [hsame.idempotency]) ?_ hbooked
  unfold load
  rw [hsame.applied, hupdates]

theorem moves_update {next : UpdateCall} (hcall : sys.updates[i]? = some call)
    (hexec : next.exec = call.exec)
    (hcases : UpdateCases sys.store call newId reply store' next.phase) :
    Moves execId sys { sys with store := store', updates := sys.updates.set i next }
      (Booked execId sys (.update i newId reply)) := by
  have hset := sum_set_add hcall next (updating execId)
  have hnext : (⟨call.exec, next.phase⟩ : UpdateCall) = next := by rw [← hexec]
  have hload (sys : RiskSystem) : sys.load execId = sys.store.applied execId +
      (sys.updates.map (updating execId)).sum := rfl
  rcases updateCases_load execId hcases with h | h | h | h
  · obtain ⟨_, _, hnew, rfl, hmarked, happlied⟩ := h
    rw [hnext] at happlied
    refine .marks hnew hmarked ?_ trivial
    rw [hload, hload]
    show store'.applied execId + ((sys.updates.set i next).map _).sum = _
    omega
  · obtain ⟨hid, hphase, ⟨error, rfl⟩, hmarked, happlied⟩ := h
    rw [hnext] at happlied
    refine .marksLost hmarked ?_ ?_
    · rw [hload, hload]
      show store'.applied execId + ((sys.updates.set i next).map _).sum = _
      omega
    · simp [Booked, hcall, hid, hphase]
  · obtain ⟨hid, hphase, ⟨error, rfl⟩, hsame, happlied⟩ := h
    rw [hnext] at happlied
    refine .drops (by rw [hsame]) ?_ ?_
    · rw [hload, hload]
      show store'.applied execId + ((sys.updates.set i next).map _).sum + 1 = _
      omega
    · simp [Booked, hcall, hid, hphase]
  · obtain ⟨hlost, hrefused, hmarked, happlied⟩ := h
    rw [hnext] at happlied
    refine .stays hmarked ?_ ?_
    · rw [hload, hload]
      show store'.applied execId + ((sys.updates.set i next).map _).sum = _
      omega
    · unfold Booked
      split
      next heq =>
        cases heq
        intro other hother hboth
        rw [hcall, Option.mem_some_iff] at hother
        rw [← hother] at hboth
        exact absurd ⟨hboth.1, hboth.2, _, rfl⟩ hlost
      next heq =>
        cases heq
        intro other hother hboth
        rw [hcall, Option.mem_some_iff] at hother
        rw [← hother] at hboth
        exact hrefused ⟨hboth.1, hboth.2, _, rfl⟩
      next heq => cases heq
      next => trivial

theorem moves_crash (hcall : sys.updates[i]? = some call) : Moves execId sys
      { sys with updates := sys.updates.set i { call with phase := .crashed } }
      (Booked execId sys (.crashUpdate i)) := by
  have hset := sum_set_add hcall { call with phase := .crashed } (updating execId)
  have hcrashed : updating execId { call with phase := .crashed } = 0 :=
    updating_eq_zero fun hboth => nomatch hboth.2
  by_cases hboth : call.exec.id = execId ∧ call.phase = .updating
  · have hwas : call.updating execId = 1 := by
      unfold updating
      rw [if_pos hboth]
    refine .drops Iff.rfl ?_ ?_
    · show sys.store.applied execId + ((sys.updates.set i _).map _).sum + 1 =
        sys.store.applied execId + _
      omega
    · simp [Booked, hcall, hboth]
  · have hwas := updating_eq_zero hboth
    refine .stays Iff.rfl ?_ ?_
    · show sys.store.applied execId + ((sys.updates.set i _).map _).sum =
        sys.store.applied execId + _
      omega
    · intro other hother
      rw [hcall, Option.mem_some_iff] at hother
      rwa [← hother]

/-- **Every action.** -/
theorem riskAct_moves {action : RiskAction} (hmarked : Marked execId sys)
    (h : riskAct config sys action = some sys') :
    Moves execId sys sys' (Booked execId sys action) := by
  unfold riskAct at h
  split at h
  case h_1 => cases h; exact moves_of_same (.refl _) rfl trivial
  case h_2 i token reply =>
    split at h
    next => cases h
    next validation hvalidation =>
      obtain ⟨⟨store, call⟩, hstep, heq⟩ := Option.map_eq_some_iff.mp h
      cases heq
      have hreserves := hmarked.reserves validation (mem_of_getElem? hvalidation)
      exact moves_of_same (validateStep_same hreserves hstep) rfl trivial
  case h_3 => cases h; exact moves_of_same (.refl _) rfl trivial
  case h_4 => cases h; exact moves_of_same (.refl _) rfl trivial
  case h_5 exec =>
    cases h
    refine moves_of_same (.refl _) ?_ trivial
    have hstart : (start exec).updating execId = 0 := updating_eq_zero fun hboth => nomatch hboth.2
    simp [hstart]
  case h_6 i newId reply =>
    split at h
    next => cases h
    next call hcall =>
      obtain ⟨⟨store, next⟩, hstep, heq⟩ := Option.map_eq_some_iff.mp h
      cases heq
      obtain ⟨hexec, hcases⟩ := updateStep_cases hstep
      exact moves_update hcall hexec hcases
  case h_7 i =>
    split at h
    next => cases h
    next call hcall =>
      cases h
      exact moves_crash hcall
  case h_8 => cases h; exact moves_of_same (.refl _) rfl trivial
  case h_9 i reply =>
    split at h
    next => cases h
    next call hcall =>
      obtain ⟨⟨store, next⟩, hstep, heq⟩ := Option.map_eq_some_iff.mp h
      cases heq
      exact moves_of_same (rollbackStep_same hstep) rfl trivial
  case h_10 key =>
    cases h
    exact moves_of_same ⟨rfl, rfl, fun _ => rfl⟩ rfl trivial

theorem Moves.marked (h : Moves execId sys sys' booked)
    (hmem : execId ∈ sys.store.idempotency) : execId ∈ sys'.store.idempotency := by
  cases h with
  | marks _ hmarked => exact hmarked
  | marksLost hmarked => exact hmarked
  | drops hmarked => exact hmarked.mpr hmem
  | stays hmarked => exact hmarked.mpr hmem

theorem riskAct_marked {action : RiskAction} (hmarked : Marked execId sys)
    (h : riskAct config sys action = some sys') : Marked execId sys' := by
  have hkept := (riskAct_moves hmarked h).marked
  unfold riskAct at h
  split at h
  case h_1 rfq quote =>
    cases h
    refine ⟨fun validation hvalidation => ?_, hmarked.marked⟩
    rcases mem_append.mp hvalidation with hold | hnew
    · exact hmarked.reserves validation hold
    · rw [mem_singleton.mp hnew]
      trivial
  case h_2 i token reply =>
    split at h
    next => cases h
    next validation hvalidation =>
      obtain ⟨⟨store, call⟩, hstep, heq⟩ := Option.map_eq_some_iff.mp h
      cases heq
      have hreserves := hmarked.reserves validation (mem_of_getElem? hvalidation)
      refine ⟨fun other hother => ?_, fun update hupdate hid hphase =>
        hkept (hmarked.marked update hupdate hid hphase)⟩
      rcases mem_or_eq_of_mem_set hother with hold | rfl
      · exact hmarked.reserves other hold
      · exact validateStep_reserves hreserves hstep
  case h_3 i exec =>
    cases h
    exact ⟨fun other hother => closed_reserves hmarked.reserves hother, hmarked.marked⟩
  case h_4 i =>
    cases h
    exact ⟨fun other hother => closed_reserves hmarked.reserves hother, hmarked.marked⟩
  case h_5 exec =>
    cases h
    refine ⟨hmarked.reserves, fun update hupdate hid hphase => ?_⟩
    rcases mem_append.mp hupdate with hold | hnew
    · exact hmarked.marked update hold hid hphase
    · rw [mem_singleton.mp hnew] at hphase
      cases hphase
  case h_6 i newId reply =>
    split at h
    next => cases h
    next call hcall =>
      obtain ⟨⟨store, next⟩, hstep, heq⟩ := Option.map_eq_some_iff.mp h
      cases heq
      refine ⟨hmarked.reserves, fun update hupdate hid hphase => ?_⟩
      rcases mem_or_eq_of_mem_set hupdate with hold | rfl
      · exact hkept (hmarked.marked update hold hid hphase)
      · obtain ⟨hexec, hcases⟩ := updateStep_cases hstep
        rw [hexec] at hid
        exact hcases.marked (fun hwas =>
          hmarked.marked call (mem_of_getElem? hcall) hid hwas) hid hphase
  case h_7 i =>
    split at h
    next => cases h
    next call hcall =>
      cases h
      refine ⟨hmarked.reserves, fun update hupdate hid hphase => ?_⟩
      rcases mem_or_eq_of_mem_set hupdate with hold | rfl
      · exact hmarked.marked update hold hid hphase
      · cases hphase
  case h_8 => cases h; exact ⟨hmarked.reserves, hmarked.marked⟩
  case h_9 i reply =>
    split at h
    next => cases h
    next call hcall =>
      obtain ⟨⟨store, next⟩, hstep, heq⟩ := Option.map_eq_some_iff.mp h
      cases heq
      exact ⟨hmarked.reserves, fun update hupdate hid hphase =>
        hkept (hmarked.marked update hupdate hid hphase)⟩
  case h_10 => cases h; exact ⟨hmarked.reserves, hmarked.marked⟩

/-! ## Every run -/

/-- The marker tells whether the execution was applied or is about to be. -/
def Kept (executionId : String) (sys : RiskSystem) : Prop :=
  sys.load executionId = if executionId ∈ sys.store.idempotency then 1 else 0

/-- The execution is marked, and nobody will apply it. -/
def Skipped (executionId : String) (sys : RiskSystem) : Prop :=
  executionId ∈ sys.store.idempotency ∧ sys.load executionId = 0

theorem Moves.kept (h : Moves execId sys sys' booked) (hkept : Kept execId sys)
    (hbooked : booked) : Kept execId sys' := by
  unfold Kept at hkept ⊢
  cases h with
  | marks hnew hmarked hload =>
    rw [if_neg hnew] at hkept
    rw [if_pos hmarked, hload, hkept]
  | marksLost hmarked hload hiff =>
    rw [if_pos (hiff.mp hbooked)] at hkept
    rw [if_pos hmarked, hload, hkept]
  | drops _ _ hnot => exact absurd hbooked hnot
  | stays hmarked hload => rw [hload, hkept, ite_cond_congr (propext hmarked)]

theorem Moves.skipped_of_kept (h : Moves execId sys sys' booked)
    (hkept : Kept execId sys) (hbooked : ¬ booked) : Skipped execId sys' := by
  unfold Kept at hkept
  cases h with
  | marks _ _ _ hyes => exact absurd hyes hbooked
  | marksLost hmarked hload hiff =>
    rw [if_neg fun hmem => hbooked (hiff.mpr hmem)] at hkept
    exact ⟨hmarked, hload.trans hkept⟩
  | drops hmarked hload =>
    have hmem : execId ∈ sys.store.idempotency := by
      by_contra hnot
      rw [if_neg hnot] at hkept
      omega
    rw [if_pos hmem] at hkept
    exact ⟨hmarked.mpr hmem, by omega⟩
  | stays _ _ hyes => exact absurd hyes hbooked

theorem Moves.skipped (h : Moves execId sys sys' booked) (hskipped : Skipped execId sys) :
    Skipped execId sys' := by
  refine ⟨h.marked hskipped.1, ?_⟩
  have hzero := hskipped.2
  cases h with
  | marks hnew => exact absurd hskipped.1 hnew
  | marksLost _ hload => exact hload.trans hzero
  | drops _ hload => omega
  | stays _ hload => exact hload.trans hzero

theorem marked_initial (store : RiskStore) : Marked execId (initial store) :=
  ⟨fun _ h => absurd h not_mem_nil, fun _ h => absurd h not_mem_nil⟩

theorem load_of_quiet (hquiet : sys.quiet execId) : sys.load execId = sys.store.applied execId := by
  have hnobody : (sys.updates.map (updating execId)).sum = 0 := by
    refine sum_eq_zero fun n hn => ?_
    obtain ⟨call, hcall, rfl⟩ := mem_map.mp hn
    refine updating_eq_zero fun hboth => hquiet call hcall hboth.1 ?_
    unfold underWay
    rw [hboth.2]
    trivial
  unfold load
  rw [hnobody, Nat.add_zero]

/-- **Exactly once.** Take any interleaving of calls of the risk engine, over tables that do not
know the execution yet. When an update of it has returned and none is under way, the change was
applied exactly once if and only if no update of it stopped between marker and transaction. -/
theorem appliedOnce_iff {actions : List RiskAction} (hnew : executionId ∉ store.idempotency)
    (hnever : store.applied executionId = 0)
    (hplay : play (riskAct config) (fun _ _ => True) actions (initial store) = some sys)
    (hreturned : sys.hasReturned executionId) (hquiet : sys.quiet executionId) :
    sys.store.applied executionId = 1 ↔
      play (riskAct config) (Booked executionId) actions (initial store) = some sys := by
  have hstart : Marked executionId (initial store) ∧ Kept executionId (initial store) := by
    refine ⟨marked_initial store, ?_⟩
    show store.applied executionId + 0 = if executionId ∈ store.idempotency then 1 else 0
    rw [if_neg hnew, hnever]
  have hguarded {t : RiskSystem}
      (hrun : Run (riskAct config) (Booked executionId) (initial store) t) :
      Marked executionId t ∧ Kept executionId t := by
    refine hrun.invariant (P := fun t => Marked executionId t ∧ Kept executionId t) hstart
      fun u action v hinv hbooked hstep => ?_
    exact ⟨riskAct_marked hinv.1 hstep, (riskAct_moves hinv.1 hstep).kept hinv.2 hbooked⟩
  rw [← load_of_quiet hquiet]
  constructor
  · intro hone
    by_contra hnot
    obtain ⟨u, action, v, hrun, hbreaks, hstep, hreach⟩ := exists_unguarded hplay hnot
    obtain ⟨hmarked, hkept⟩ := hguarded hrun
    have hlost : Marked executionId v ∧ Skipped executionId v :=
      ⟨riskAct_marked hmarked hstep, (riskAct_moves hmarked hstep).skipped_of_kept hkept hbreaks⟩
    have hskipped : Marked executionId sys ∧ Skipped executionId sys := by
      refine hreach.invariant (P := fun t => Marked executionId t ∧ Skipped executionId t) hlost
        fun s action t hinv _ hnext => ?_
      exact ⟨riskAct_marked hinv.1 hnext, (riskAct_moves hinv.1 hnext).skipped hinv.2⟩
    have hzero := hskipped.2.2
    omega
  · intro hbooked
    obtain ⟨hmarked, hkept⟩ := hguarded (Run.of_play actions hbooked)
    obtain ⟨call, hcall, hid, hphase⟩ := hreturned
    have hmem := hmarked.marked call hcall hid (by rw [hphase]; rfl)
    unfold Kept at hkept
    rw [hkept, if_pos hmem]

/-- What the tables say at rest: an execution that was applied is marked, and was applied once. -/
def RiskStore.AtMostOnce (store : RiskStore) : Prop :=
  ∀ executionId, store.applied executionId ≤ if executionId ∈ store.idempotency then 1 else 0

theorem Moves.load_le (h : Moves execId sys sys' booked)
    (hload : sys.load execId ≤ if execId ∈ sys.store.idempotency then 1 else 0) :
    sys'.load execId ≤ if execId ∈ sys'.store.idempotency then 1 else 0 := by
  cases h with
  | marks hnew hmarked hmore =>
    rw [if_neg hnew] at hload
    rw [if_pos hmarked]
    omega
  | marksLost hmarked hsame =>
    -- whether the marker was there before does not matter
    have hone : sys.load execId ≤ 1 := le_trans hload (by split <;> omega)
    rw [if_pos hmarked]
    omega
  | drops hmarked hless =>
    rw [ite_cond_congr (propext hmarked)]
    omega
  | stays hmarked hsame =>
    rw [ite_cond_congr (propext hmarked)]
    omega

/-- **At most once.** Along every run, over tables that earlier runs may have left behind: updates
may fail, crash, be retried and overlap, and still no execution is applied twice, nor applied
without its marker. -/
theorem atMostOnce_of_reaches (hstore : store.AtMostOnce)
    (hreach : Reaches (riskAct config) (initial store) sys) : sys.store.AtMostOnce := by
  intro executionId
  have hinv : Marked executionId sys ∧
      sys.load executionId ≤ if executionId ∈ sys.store.idempotency then 1 else 0 := by
    refine hreach.invariant (P := fun t => Marked executionId t ∧
      t.load executionId ≤ if executionId ∈ t.store.idempotency then 1 else 0)
      ⟨marked_initial store, hstore executionId⟩ fun s action t hs _ hstep => ?_
    exact ⟨riskAct_marked hs.1 hstep, (riskAct_moves hs.1 hstep).load_le hs.2⟩
  have happlied : sys.store.applied executionId ≤ sys.load executionId := Nat.le_add_right _ _
  exact happlied.trans hinv.2

/-! ## Two failures -/

/-- A taker buys ten for five. -/
def boughtTen : ExecutionResult := ⟨"execution", "session", "taker", "market", .buy, 10, 1 / 2, none⟩

def emptyRisk : RiskStore := ⟨[], [], [], []⟩

/-- An update is started, and its first awaits end like this. -/
def updateOnce (i : ℕ) (replies : List (Reply Unit)) : List RiskAction :=
  .startUpdate boughtTen :: replies.map fun reply => .update i "row" reply

/-- The marker is refused, then the transaction's reply is lost, then the retry finds the marker. -/
def failsAround : List RiskAction :=
  updateOnce 0 [.refused "pool"] ++ updateOnce 1 [.done, .lost "socket"] ++ updateOnce 2 [.done]

theorem failsAround_atMostOnce : ∃ sys,
    Reaches (riskAct ⟨100⟩) (initial emptyRisk) sys ∧ sys.store.idempotency = ["execution"] ∧
    sys.store.AtMostOnce := by
  have hplayed : ∃ sys, play (riskAct ⟨100⟩) (fun _ _ => True) failsAround
      (initial emptyRisk) = some sys ∧ sys.store.idempotency = ["execution"] := ⟨_, rfl, rfl⟩
  obtain ⟨sys, hplay, hmarked⟩ := hplayed
  have hreach := Run.of_play _ hplay
  have hempty : emptyRisk.AtMostOnce := fun _ => Nat.zero_le _
  exact ⟨sys, hreach, hmarked, atMostOnce_of_reaches hempty hreach⟩

/-- Failures around the two writes do no harm. -/
theorem failsAround_appliedOnce : ∃ sys,
    play (riskAct ⟨100⟩) (fun _ _ => True) failsAround (initial emptyRisk) = some sys ∧
    sys.store.applied "execution" = 1 := by
  have hplayed : ∃ sys, play (riskAct ⟨100⟩) (fun _ _ => True) failsAround
      (initial emptyRisk) = some sys ∧ play (riskAct ⟨100⟩) (Booked "execution")
      failsAround (initial emptyRisk) = some sys ∧
      sys.updates = [⟨boughtTen, .thrown "pool"⟩, ⟨boughtTen, .thrown "socket"⟩,
        ⟨boughtTen, .returned⟩] := ⟨_, rfl, rfl, rfl⟩
  obtain ⟨sys, hplay, hbooked, hupdates⟩ := hplayed
  refine ⟨sys, hplay, (appliedOnce_iff (by decide) (by decide) hplay ?_ ?_).mpr hbooked⟩
  · exact ⟨⟨boughtTen, .returned⟩, by simp [hupdates], rfl, rfl⟩
  · intro call hcall _
    simp only [hupdates, mem_cons, not_mem_nil, or_false] at hcall
    rcases hcall with rfl | rfl | rfl <;> exact id

/-- **An execution marked and not applied.** The transaction fails after the marker; the retry finds
the marker and returns, and nothing was ever applied. -/
theorem marked_not_applied : ¬ ∀ (config : RiskConfig) (store : RiskStore) (executionId : String)
    (sys : RiskSystem), executionId ∉ store.idempotency → store.applied executionId = 0 →
    Reaches (riskAct config) (initial store) sys →
    sys.hasReturned executionId → sys.quiet executionId → sys.store.applied executionId = 1 := by
  intro honce
  have hplayed : ∃ sys, play (riskAct ⟨100⟩) (fun _ _ => True)
      (updateOnce 0 [.done, .refused "deadlock"] ++ updateOnce 1 [.done])
      (initial emptyRisk) = some sys ∧
      sys.updates = [⟨boughtTen, .thrown "deadlock"⟩, ⟨boughtTen, .returned⟩] ∧
      sys.store.applied "execution" = 0 := ⟨_, rfl, rfl, rfl⟩
  obtain ⟨sys, hplay, hupdates, hnever⟩ := hplayed
  have hone := honce ⟨100⟩ emptyRisk "execution" sys (by decide) (by decide)
    (Run.of_play _ hplay) ⟨⟨boughtTen, .returned⟩, by simp [hupdates], rfl, rfl⟩ (by
      intro call hcall _
      simp only [hupdates, mem_cons, not_mem_nil, or_false] at hcall
      rcases hcall with rfl | rfl <;> exact id)
  omega

end LotusRfq.Rfq
