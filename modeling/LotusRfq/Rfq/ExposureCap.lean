import LotusRfq.Rfq.ExposureOnce

/-!
# LotusRfq — is a taker's exposure within the cap?

A validation compares one row, of the session's market and side, with the cap. It counts neither
the other rows of the taker nor what earlier validations have let through: a reservation is a
journal row whose change is zero, and no check reads it. The total stays within the cap as long as
a validation that passes would have passed on the total, with everything that is still to come.

* **`gross_within_cap`** — under that condition, along every run;
* **`validated_twice`** — two sessions that are validated before either executes.
-/

namespace LotusRfq.Rfq

open Calls Tables Transitions List

variable {config : RiskConfig} {store store' : RiskStore} {reply : Reply Unit}
  {sys sys' : RiskSystem} {taker : String}

/-! ## What is performed -/

def ValidatePhase.isAccepted : ValidatePhase → Bool
  | .accepted _ => true
  | _ => false

structure Accepted (validation : Validation) (exec : ExecutionResult) : Prop where
  opened : validation.closed = false
  accepted : validation.call.phase.isAccepted = true
  session : exec.sessionId = validation.call.rfq.id
  taker : exec.takerId = validation.call.rfq.taker_id
  market : exec.canonicalMarketId = validation.call.rfq.canonical_market_id
  side : exec.side = validation.call.rfq.side
  notional : exec.deltaGross ≤ validation.call.quote.notional

instance (validation : Validation) (exec : ExecutionResult) :
    Decidable (Accepted validation exec) :=
  decidable_of_iff (validation.closed = false ∧ validation.call.phase.isAccepted = true ∧
      exec.sessionId = validation.call.rfq.id ∧ exec.takerId = validation.call.rfq.taker_id ∧
      exec.canonicalMarketId = validation.call.rfq.canonical_market_id ∧
      exec.side = validation.call.rfq.side ∧ exec.deltaGross ≤ validation.call.quote.notional)
    ⟨fun ⟨h₁, h₂, h₃, h₄, h₅, h₆, h₇⟩ => ⟨h₁, h₂, h₃, h₄, h₅, h₆, h₇⟩,
      fun ⟨h₁, h₂, h₃, h₄, h₅, h₆, h₇⟩ => ⟨h₁, h₂, h₃, h₄, h₅, h₆, h₇⟩⟩

/-- An execution is only performed after its validation accepted it, and an update is about an
execution that was performed. -/
def Performed (sys : RiskSystem) : RiskAction → Prop
  | .perform i exec => ∃ validation ∈ sys.validations[i]?, Accepted validation exec
  | .startUpdate exec => exec ∈ sys.executions
  | _ => True

instance (sys : RiskSystem) (action : RiskAction) : Decidable (Performed sys action) := by
  unfold Performed
  split <;> infer_instance

/-! ## What is still to come -/

def ValidatePhase.passed : ValidatePhase → Bool
  | .reserving _ _ | .committing _ _ | .accepted _ => true
  | _ => false

/-- What the execution of a validation may add to the taker's gross exposure. -/
def Validation.toCome (taker : String) (validation : Validation) : ℚ :=
  if validation.call.rfq.taker_id = taker ∧ validation.closed = false ∧
      validation.call.phase.passed = true then max 0 validation.call.quote.notional
  else 0

def RiskSystem.updating (sys : RiskSystem) (executionId : String) : ℕ :=
  (sys.updates.map (UpdateCall.updating executionId)).sum

/-- The execution has no marker, or an update that wrote it is about to apply it. -/
def RiskSystem.pending (sys : RiskSystem) (executionId : String) : Prop :=
  executionId ∉ sys.store.idempotency ∨ 0 < sys.updating executionId

instance (sys : RiskSystem) (executionId : String) : Decidable (sys.pending executionId) := by
  unfold RiskSystem.pending
  infer_instance

/-- What an execution that was performed will add. -/
def RiskSystem.execToCome (sys : RiskSystem) (taker : String) (exec : ExecutionResult) : ℚ :=
  if exec.takerId = taker ∧ sys.pending exec.id then max 0 exec.deltaGross else 0

/-- What is let through for a taker and not yet applied. -/
def RiskSystem.toCome (sys : RiskSystem) (taker : String) : ℚ :=
  (sys.validations.map (Validation.toCome taker)).sum +
    (sys.executions.map (sys.execToCome taker)).sum

/-- The validation reads its exposure row and passes. -/
def ValidateCall.passes (config : RiskConfig) (store : RiskStore) (call : ValidateCall) : Bool :=
  match call.phase with
  | .selectingExposure _ =>
    match checkUserCap config call.quote (selectExposure store.exposure call.rfq.taker_id
        call.rfq.canonical_market_id call.rfq.side) with
    | .ok _ => true
    | .error _ => false
  | _ => false

/-- **The condition.** A validation that passes on its row would pass on the taker's total, with
what is still to come. -/
def Covered (config : RiskConfig) (sys : RiskSystem) : RiskAction → Prop
  | .validate i _ .done => ∀ validation ∈ sys.validations[i]?,
      validation.call.passes config sys.store = true →
        totalGross sys.store.exposure validation.call.rfq.taker_id +
          sys.toCome validation.call.rfq.taker_id + max 0 validation.call.quote.notional ≤
            config.userNotionalCap
  | _ => True

open RiskSystem (execToCome updating pending toCome initial)

instance (config : RiskConfig) (sys : RiskSystem) (action : RiskAction) :
    Decidable (Covered config sys action) := by
  unfold Covered
  split <;> infer_instance

/-! ## A validation -/

theorem toCome_nonneg (taker : String) (validation : Validation) : 0 ≤ validation.toCome taker := by
  unfold Validation.toCome
  split
  · exact le_max_left 0 _
  · exact le_rfl

theorem validateStep_passed {call call' : ValidateCall} {token : String}
    (h : validateStep config store call token reply = some (store', call')) :
    call'.rfq = call.rfq ∧ call'.quote = call.quote ∧
      (call'.phase.passed = true → call.phase.passed = true ∨
        (reply = .done ∧ call.passes config store = true)) := by
  obtain ⟨⟨next, phase⟩, hsettle, heq⟩ := Option.map_eq_some_iff.mp h
  cases heq
  refine ⟨rfl, rfl, fun hpassed => ?_⟩
  have hpassed : phase.passed = true := hpassed
  obtain ⟨awaited, hawaited, hsettle⟩ := Option.bind_eq_some_iff.mp hsettle
  have hlockAgain (attempts : ℕ) : (lockAgain attempts).passed = false := by
    unfold lockAgain
    split <;> rfl
  have hthrown : ∀ applied error, (awaited.onThrow applied error).passed = false := by
    unfold validateAwaits at hawaited
    simp only at hawaited
    split at hawaited <;> cases hawaited
    case h_1 => exact fun _ _ => hlockAgain _
    all_goals exact fun _ _ => rfl
  cases reply with
  | answered => cases hsettle
  | lost error =>
    cases hsettle
    rw [hthrown] at hpassed
    cases hpassed
  | refused error =>
    cases hsettle
    rw [hthrown] at hpassed
    cases hpassed
  | done =>
    rw [Awaited.settle, Option.some.injEq, Prod.mk.injEq] at hsettle
    rw [← hsettle.2] at hpassed
    unfold validateAwaits at hawaited
    simp only at hawaited
    split at hawaited <;> cases hawaited
    case h_1 =>
      simp only at hpassed
      split at hpassed
      · rw [hlockAgain] at hpassed
        cases hpassed
      · cases hpassed
    case h_4 =>
      simp only at hpassed
      split at hpassed
      · cases hpassed
      · split at hpassed <;> cases hpassed
    case h_5 hphase =>
      right
      refine ⟨rfl, ?_⟩
      simp only [selectedExposure] at hpassed
      unfold ValidateCall.passes
      rw [hphase]
      simp only
      split at hpassed
      next => cases hpassed
      next hcheck => rw [hcheck]
    case h_6 hphase => left; rw [hphase]; rfl
    case h_7 hphase => left; rw [hphase]; rfl
    all_goals cases hpassed

/-! ## What is closed -/

theorem close_validations {i : ℕ} {validation : Validation}
    (hvalidation : sys.validations[i]? = some validation) :
    (sys.close i).validations = sys.validations.set i { validation with closed := true } := by
  obtain ⟨hlength, hget⟩ := List.getElem?_eq_some_iff.mp hvalidation
  show sys.validations.modify i _ = _
  rw [List.modify_eq_take_cons_drop hlength, hget, List.set_eq_take_append_cons_drop,
    if_pos hlength]

theorem toCome_closed (taker : String) (validation : Validation) :
    Validation.toCome taker { validation with closed := true } = 0 := by
  unfold Validation.toCome
  rw [if_neg fun h => nomatch h.2.1]

theorem close_sum {i : ℕ} {validation : Validation}
    (hvalidation : sys.validations[i]? = some validation) :
    ((sys.close i).validations.map (Validation.toCome taker)).sum + validation.toCome taker =
      (sys.validations.map (Validation.toCome taker)).sum := by
  rw [close_validations hvalidation, sum_set_add hvalidation, toCome_closed, add_zero]

theorem close_sum_le (sys : RiskSystem) (taker : String) (i : ℕ) :
    ((sys.close i).validations.map (Validation.toCome taker)).sum ≤
      (sys.validations.map (Validation.toCome taker)).sum := by
  cases hvalidation : sys.validations[i]? with
  | none =>
    have hlength : sys.validations.length ≤ i := getElem?_eq_none_iff.mp hvalidation
    show ((sys.validations.modify i _).map _).sum ≤ _
    rw [modify_eq_self hlength]
  | some validation =>
    rw [← close_sum hvalidation]
    exact le_add_of_nonneg_right (toCome_nonneg taker validation)

/-! ## What is pending -/

/-- What is pending after an action was pending before, when the marker stays and no update has
come to apply what was marked. -/
theorem pending_of_pending {execId : String}
    (hmarked : execId ∈ sys.store.idempotency → execId ∈ sys'.store.idempotency)
    (hupdating : sys'.updating execId ≤ sys.updating execId ∨ execId ∉ sys.store.idempotency)
    (h : sys'.pending execId) : sys.pending execId := by
  by_cases hmem : execId ∈ sys.store.idempotency
  · rcases h with hnot | hpositive
    · exact absurd (hmarked hmem) hnot
    · have hle := hupdating.resolve_right fun hnot => hnot hmem
      exact .inr (by omega)
  · exact .inl hmem

theorem execToCome_mono (h : ∀ execId, sys'.pending execId → sys.pending execId)
    (exec : ExecutionResult) : sys'.execToCome taker exec ≤ sys.execToCome taker exec := by
  unfold execToCome
  split
  next hpending => rw [if_pos ⟨hpending.1, h _ hpending.2⟩]
  next =>
    split
    · exact le_max_left 0 _
    · exact le_rfl

theorem updateCases_updating (execId : String) {call : UpdateCall} {newId : String}
    {phase : UpdatePhase} (h : UpdateCases store call newId reply store' phase) :
    (⟨call.exec, phase⟩ : UpdateCall).updating execId ≤ call.updating execId ∨
      (call.exec.id = execId ∧ execId ∉ store.idempotency) := by
  have hnot (next : UpdatePhase) (hnext : next ≠ .updating) :
      (⟨call.exec, next⟩ : UpdateCall).updating execId ≤ call.updating execId := by
    rw [updating_eq_zero fun hboth => hnext hboth.2]
    exact Nat.zero_le _
  cases h with
  | marks hphase hnew =>
    by_cases hid : call.exec.id = execId
    · exact .inr ⟨hid, hid ▸ hnew⟩
    · left
      have hzero : (⟨call.exec, .updating⟩ : UpdateCall).updating execId = 0 :=
        updating_eq_zero fun hboth => hid hboth.1
      omega
  | marksLost => exact .inl (hnot _ (by simp))
  | applies => exact .inl (hnot _ (by simp))
  | appliesLost => exact .inl (hnot _ (by simp))
  | refused => exact .inl (hnot _ (by simp))
  | other _ _ hnext => exact .inl (hnot _ hnext)

theorem updating_le_one (execId : String) (call : UpdateCall) : call.updating execId ≤ 1 := by
  unfold UpdateCall.updating
  split <;> omega

theorem marked_of_updating {execId : String} (hmarked : Marked execId sys)
    (h : 0 < sys.updating execId) : execId ∈ sys.store.idempotency := by
  by_contra hnot
  have hzero : sys.updating execId = 0 := by
    refine sum_eq_zero fun n hn => ?_
    obtain ⟨call, hcall, rfl⟩ := mem_map.mp hn
    refine updating_eq_zero fun hboth => hnot (hmarked.marked call hcall hboth.1 ?_)
    rw [hboth.2]
    rfl
  omega

/-! ## The invariant -/

structure Within (config : RiskConfig) (taker : String) (sys : RiskSystem) : Prop where
  ids : (sys.store.exposure.map ExposureRow.id).Nodup
  marked : ∀ executionId, Marked executionId sys
  once : ∀ executionId, sys.updating executionId ≤ 1
  known : ∀ call ∈ sys.updates, call.exec ∈ sys.executions
  within : totalGross sys.store.exposure taker + sys.toCome taker ≤ config.userNotionalCap

/-- An action that leaves the exposure and the updates alone, and brings nothing new. -/
theorem within_of_le (hinv : Within config taker sys) (hmarked : ∀ execId, Marked execId sys')
    (hsame : SameExposure sys.store sys'.store) (hupdates : sys'.updates = sys.updates)
    (hknown : ∀ exec ∈ sys.executions, exec ∈ sys'.executions)
    (hle : totalGross sys.store.exposure taker + sys'.toCome taker ≤ config.userNotionalCap) :
    Within config taker sys' := by
  refine ⟨hsame.exposure.symm ▸ hinv.ids, hmarked, fun execId => ?_, fun call hcall => ?_, ?_⟩
  · unfold updating
    rw [hupdates]
    exact hinv.once execId
  · exact hknown _ (hinv.known call (hupdates ▸ hcall))
  · rw [hsame.exposure]
    exact hle

theorem pending_of_same {execId : String} (h : sys'.pending execId)
    (hsame : SameExposure sys.store sys'.store) (hupdates : sys'.updates = sys.updates) :
    sys.pending execId := by
  refine pending_of_pending (fun hmem => hsame.idempotency.symm ▸ hmem) (.inl ?_) h
  unfold updating
  rw [hupdates]

theorem execSum_le (taker : String) (h : ∀ execId, sys'.pending execId → sys.pending execId) :
    (sys.executions.map (sys'.execToCome taker)).sum ≤
      (sys.executions.map (sys.execToCome taker)).sum :=
  sum_le_sum fun exec _ => execToCome_mono h exec

section

variable (hinv : Within config taker sys)

include hinv

theorem within_validate {i : ℕ} {token : String} {validation : Validation} {call : ValidateCall}
    (hvalidation : sys.validations[i]? = some validation)
    (hcovered : Covered config sys (.validate i token reply))
    (hmarked : ∀ execId, Marked execId
      { sys with
        store := store'
        validations := sys.validations.set i { validation with call := call } })
    (hstep : validateStep config sys.store validation.call token reply = some (store', call)) :
    Within config taker
      { sys with
        store := store'
        validations := sys.validations.set i { validation with call := call } } := by
  have hreserves := (hinv.marked "").reserves validation (mem_of_getElem? hvalidation)
  have hsame := validateStep_same hreserves hstep
  have hpending (execId : String)
      (h : pending
        { sys with
          store := store'
          validations := sys.validations.set i { validation with call := call } } execId) :
        sys.pending execId :=
    pending_of_same h hsame rfl
  have hexec := execSum_le taker hpending
  have hset := sum_set_add hvalidation { validation with call := call } (Validation.toCome taker)
  obtain ⟨hrfq, hquote, hpassed⟩ := validateStep_passed hstep
  refine within_of_le hinv hmarked hsame rfl (fun _ h => h) ?_
  have hbound := hinv.within
  have hold := toCome_nonneg taker validation
  unfold toCome at hbound ⊢
  by_cases hnew : Validation.toCome taker { validation with call := call } ≤
      validation.toCome taker
  · dsimp only at hexec hset ⊢
    linarith
  · -- the validation passes now, for this taker
    unfold Validation.toCome at hnew
    simp only [hrfq, hquote] at hnew
    split at hnew
    next hopen =>
      obtain ⟨htaker, hopened, hcall⟩ := hopen
      rcases hpassed hcall with hwas | ⟨rfl, hpasses⟩
      · rw [if_pos ⟨htaker, hopened, hwas⟩] at hnew
        exact absurd le_rfl hnew
      · have hcap := hcovered validation hvalidation hpasses
        rw [htaker] at hcap
        have hvalue : Validation.toCome taker { validation with call := call } =
            max 0 validation.call.quote.notional := by
          unfold Validation.toCome
          rw [hrfq, hquote, if_pos ⟨htaker, hopened, hcall⟩]
        unfold toCome at hcap
        rw [hvalue] at hset
        dsimp only at hexec hset ⊢
        linarith
    next => exact absurd (toCome_nonneg taker validation) hnew

theorem within_perform {i : ℕ} {exec : ExecutionResult}
    (hperformed : Performed sys (.perform i exec))
    (hmarked : ∀ execId, Marked execId
      { sys.close i with executions := sys.executions ++ [exec] }) :
    Within config taker { sys.close i with executions := sys.executions ++ [exec] } := by
  obtain ⟨validation, hvalidation, haccepted⟩ := hperformed
  have hpassed : validation.call.phase.passed = true := by
    have haccept := haccepted.accepted
    unfold ValidatePhase.isAccepted at haccept
    split at haccept
    next heq => rw [heq]; rfl
    next => cases haccept
  refine within_of_le hinv hmarked (.refl _) rfl
    (fun other hother => mem_append_left _ hother) ?_
  have hclosed : ((sys.close i).validations.map (Validation.toCome taker)).sum +
      validation.toCome taker = _ := close_sum hvalidation
  -- the execution takes the place of its validation
  have hexec : sys.execToCome taker exec ≤ validation.toCome taker := by
    unfold execToCome Validation.toCome
    split
    next hpending =>
      have htaker : validation.call.rfq.taker_id = taker := haccepted.taker ▸ hpending.1
      rw [if_pos ⟨htaker, haccepted.opened, hpassed⟩]
      exact max_le_max le_rfl haccepted.notional
    next => exact toCome_nonneg taker validation
  have hsum : ((sys.executions ++ [exec]).map (sys.execToCome taker)).sum =
      (sys.executions.map (sys.execToCome taker)).sum + sys.execToCome taker exec := by
    rw [map_append, sum_append, map_singleton, sum_singleton]
  have hbound := hinv.within
  unfold toCome at hbound ⊢
  show _ + (_ + ((sys.executions ++ [exec]).map (sys.execToCome taker)).sum) ≤ _
  rw [hsum]
  linarith

theorem within_giveUp {i : ℕ}
    (hmarked : ∀ execId, Marked execId (sys.close i)) : Within config taker (sys.close i) := by
  refine within_of_le hinv hmarked (.refl _) rfl (fun _ h => h) ?_
  have hclosed := close_sum_le sys taker i
  have hbound := hinv.within
  unfold toCome at hbound ⊢
  show _ + (_ + (sys.executions.map (sys.execToCome taker)).sum) ≤ _
  linarith

theorem within_updates {updates : List UpdateCall}
    (hmarked : ∀ execId, Marked execId
      { sys with store := store', updates := updates })
    (hids : (store'.exposure.map ExposureRow.id).Nodup)
    (honce : ∀ execId, (updates.map (UpdateCall.updating execId)).sum ≤ 1)
    (hknown : ∀ call ∈ updates, call.exec ∈ sys.executions)
    (hgross : totalGross store'.exposure taker +
      (sys.executions.map
        (execToCome { sys with store := store', updates := updates } taker)).sum ≤
        totalGross sys.store.exposure taker +
          (sys.executions.map (sys.execToCome taker)).sum) :
    Within config taker { sys with store := store', updates := updates } := by
  refine ⟨hids, hmarked, honce, hknown, ?_⟩
  have hbound := hinv.within
  unfold toCome at hbound ⊢
  dsimp only
  linarith

end

theorem updating_set {i : ℕ} {call : UpdateCall} (hcall : sys.updates[i]? = some call)
    (next : UpdateCall) (execId : String) :
    ((sys.updates.set i next).map (UpdateCall.updating execId)).sum +
      call.updating execId = sys.updating execId + next.updating execId :=
  sum_set_add hcall next (UpdateCall.updating execId)

theorem known_set {i : ℕ} {call next : UpdateCall} (hinv : Within config taker sys)
    (hcall : sys.updates[i]? = some call) (hexec : next.exec = call.exec) :
    ∀ other ∈ sys.updates.set i next, other.exec ∈ sys.executions := by
  intro other hother
  rcases mem_or_eq_of_mem_set hother with hold | rfl
  · exact hinv.known other hold
  · exact hexec ▸ hinv.known call (mem_of_getElem? hcall)

theorem within_crash {i : ℕ} {call : UpdateCall} (hinv : Within config taker sys)
    (hcall : sys.updates[i]? = some call)
    (hmarked : ∀ execId, Marked execId
      { sys with updates := sys.updates.set i { call with phase := .crashed } }) :
    Within config taker
      { sys with updates := sys.updates.set i { call with phase := .crashed } } := by
  have hcrashed (execId : String) :
      UpdateCall.updating execId { call with phase := .crashed } = 0 :=
    updating_eq_zero fun hboth => nomatch hboth.2
  have hle (execId : String) :
      ((sys.updates.set i { call with phase := .crashed }).map
        (UpdateCall.updating execId)).sum ≤ sys.updating execId := by
    have hset := updating_set hcall { call with phase := .crashed } execId
    have hzero := hcrashed execId
    omega
  have hpending (execId : String) :
      pending { sys with updates := sys.updates.set i { call with phase := .crashed } }
        execId → sys.pending execId :=
    pending_of_pending (fun h => h) (.inl (hle execId))
  exact within_updates hinv hmarked hinv.ids (fun id => (hle id).trans (hinv.once id))
    (known_set hinv hcall rfl) (add_le_add le_rfl (execSum_le taker hpending))

theorem within_update {i : ℕ} {call next : UpdateCall} {newId : String}
    (hinv : Within config taker sys) (hcall : sys.updates[i]? = some call)
    (hexec : next.exec = call.exec)
    (hcases : UpdateCases sys.store call newId reply store' next.phase)
    (hmarked : ∀ execId, Marked execId
      { sys with store := store', updates := sys.updates.set i next }) :
    Within config taker { sys with store := store', updates := sys.updates.set i next } := by
  have hnext : (⟨call.exec, next.phase⟩ : UpdateCall) = next := by rw [← hexec]
  have hset (execId : String) := updating_set hcall next execId
  have hmem := mem_of_getElem? hcall
  have hkept (execId : String) (h : execId ∈ sys.store.idempotency) :
      execId ∈ store'.idempotency :=
    (moves_update hcall hexec hcases).marked h
  have hmoved (execId : String) :
      ((sys.updates.set i next).map (UpdateCall.updating execId)).sum ≤
        sys.updating execId ∨ execId ∉ sys.store.idempotency := by
    rcases updateCases_updating execId hcases with hle | ⟨_, hnot⟩
    · rw [hnext] at hle
      have hsum := hset execId
      exact .inl (by omega)
    · exact .inr hnot
  have honce (execId : String) :
      ((sys.updates.set i next).map (UpdateCall.updating execId)).sum ≤ 1 := by
    rcases hmoved execId with hle | hnot
    · exact hle.trans (hinv.once execId)
    · have hzero : sys.updating execId = 0 := by
        by_contra hpositive
        exact hnot (marked_of_updating (hinv.marked execId) (Nat.pos_of_ne_zero hpositive))
      have hsum := hset execId
      have hone := updating_le_one execId next
      omega
  have hpending (execId : String) :
      pending { sys with store := store', updates := sys.updates.set i next }
        execId → sys.pending execId :=
    pending_of_pending (hkept execId) (hmoved execId)
  have hmono := execSum_le taker hpending
  have hknown := known_set hinv hcall hexec
  -- applied: what it adds to the total is no longer to come
  have happly (hphase : call.phase = .updating)
      (hfresh : newId ∉ sys.store.exposure.map ExposureRow.id)
      (hstore : store' = sys.store.applyExecution call.exec newId)
      (hnot : next.phase ≠ .updating) :
      Within config taker { sys with store := store', updates := sys.updates.set i next } := by
    have hids : (store'.exposure.map ExposureRow.id).Nodup := by
      rw [hstore]
      exact applyExposure_ids hinv.ids hfresh
    have hgross : totalGross store'.exposure taker = totalGross sys.store.exposure taker +
        if call.exec.takerId = taker then call.exec.deltaGross else 0 := by
      rw [hstore]
      exact applyExposure_totalGross hinv.ids taker
    have hwas : call.updating call.exec.id = 1 := by
      unfold UpdateCall.updating
      rw [if_pos ⟨rfl, hphase⟩]
    have hnow : next.updating call.exec.id = 0 := updating_eq_zero fun hboth => hnot hboth.2
    have hdone : ¬ pending
        { sys with store := store', updates := sys.updates.set i next } call.exec.id := by
      have hwasPending : call.exec.id ∈ sys.store.idempotency := by
        have hsum := hset call.exec.id
        exact marked_of_updating (hinv.marked _) (by omega)
      rintro (hnone | hpositive)
      · exact hnone (hkept _ hwasPending)
      · have hpositive : 0 < ((sys.updates.set i next).map
            (UpdateCall.updating call.exec.id)).sum := hpositive
        have hsum := hset call.exec.id
        have hone := hinv.once call.exec.id
        omega
    have hspent : execToCome
        { sys with store := store', updates := sys.updates.set i next } taker call.exec +
          (if call.exec.takerId = taker then call.exec.deltaGross else 0) ≤
            sys.execToCome taker call.exec := by
      have hsum := hset call.exec.id
      have hpositive : 0 < sys.updating call.exec.id := by omega
      unfold execToCome
      rw [if_neg fun hboth => hdone hboth.2, zero_add]
      split
      next htaker =>
        rw [if_pos ⟨htaker, .inr hpositive⟩]
        exact le_max_right 0 _
      next htaker => rw [if_neg fun hboth => htaker hboth.1]
    have hsum := sum_add_le (fun exec _ => execToCome_mono hpending exec)
      (hinv.known call hmem) hspent
    refine within_updates hinv hmarked hids honce hknown ?_
    rw [hgross]
    linarith
  generalize hphase' : next.phase = phase' at hcases
  cases hcases with
  | marks =>
    exact within_updates hinv hmarked hinv.ids honce hknown (add_le_add le_rfl hmono)
  | marksLost =>
    exact within_updates hinv hmarked hinv.ids honce hknown (add_le_add le_rfl hmono)
  | applies hphase hfresh =>
    exact happly hphase hfresh rfl (by rw [hphase']; exact fun heq => nomatch heq)
  | appliesLost hphase hfresh error =>
    exact happly hphase hfresh rfl (by rw [hphase']; exact fun heq => nomatch heq)
  | refused =>
    exact within_updates hinv hmarked hinv.ids honce hknown (add_le_add le_rfl hmono)
  | other _ hsame =>
    refine within_updates hinv hmarked (hsame.exposure.symm ▸ hinv.ids) honce hknown ?_
    rw [hsame.exposure]
    exact add_le_add le_rfl hmono

/-! ## Every run -/

theorem riskAct_within {action : RiskAction} (hinv : Within config taker sys)
    (hperformed : Performed sys action) (hcovered : Covered config sys action)
    (h : riskAct config sys action = some sys') : Within config taker sys' := by
  have hmarked (execId : String) : Marked execId sys' :=
    riskAct_marked (hinv.marked execId) h
  unfold riskAct at h
  split at h
  case h_1 rfq quote =>
    cases h
    refine within_of_le hinv hmarked (.refl _) rfl (fun _ h => h) ?_
    let started : Validation := ⟨ValidateCall.start rfq quote, false⟩
    have hstart : started.toCome taker = 0 := by
      unfold Validation.toCome
      rw [if_neg fun hopen => nomatch hopen.2.2]
    have hsum : ((sys.validations ++ [started]).map (Validation.toCome taker)).sum =
        (sys.validations.map (Validation.toCome taker)).sum := by
      rw [map_append, sum_append, map_singleton, sum_singleton, hstart,
        add_zero]
    have hbound := hinv.within
    unfold toCome at hbound ⊢
    show _ + (((sys.validations ++ [started]).map (Validation.toCome taker)).sum + _) ≤ _
    rw [hsum]
    exact hbound
  case h_2 i token reply =>
    split at h
    next => cases h
    next validation hvalidation =>
      obtain ⟨⟨store, call⟩, hstep, heq⟩ := Option.map_eq_some_iff.mp h
      cases heq
      exact within_validate hinv hvalidation hcovered hmarked hstep
  case h_3 i exec =>
    cases h
    exact within_perform hinv hperformed hmarked
  case h_4 i =>
    cases h
    exact within_giveUp hinv hmarked
  case h_5 exec =>
    cases h
    have hnew (execId : String) : (UpdateCall.start exec).updating execId = 0 :=
      updating_eq_zero fun hboth => nomatch hboth.2
    have hstart (execId : String) :
        ((sys.updates ++ [UpdateCall.start exec]).map (UpdateCall.updating execId)).sum =
          sys.updating execId := by
      rw [map_append, sum_append, map_singleton, sum_singleton, hnew,
        Nat.add_zero]
      rfl
    have hpending (execId : String) :
        pending { sys with updates := sys.updates ++ [UpdateCall.start exec] }
          execId → sys.pending execId :=
      pending_of_pending (fun h => h) (.inl (hstart execId).le)
    refine within_updates hinv hmarked hinv.ids
      (fun id => (hstart id).le.trans (hinv.once id)) (fun call hcall => ?_)
      (add_le_add le_rfl (execSum_le taker hpending))
    rcases mem_append.mp hcall with hold | hnew
    · exact hinv.known call hold
    · rw [mem_singleton.mp hnew]
      exact hperformed
  case h_6 i newId reply =>
    split at h
    next => cases h
    next call hcall =>
      obtain ⟨⟨store, next⟩, hstep, heq⟩ := Option.map_eq_some_iff.mp h
      cases heq
      obtain ⟨hexec, hcases⟩ := updateStep_cases hstep
      exact within_update hinv hcall hexec hcases hmarked
  case h_7 i =>
    split at h
    next => cases h
    next call hcall =>
      cases h
      exact within_crash hinv hcall hmarked
  case h_8 =>
    cases h
    exact within_of_le hinv hmarked (.refl _) rfl (fun _ h => h) hinv.within
  case h_9 i reply =>
    split at h
    next => cases h
    next call hcall =>
      obtain ⟨⟨store, next⟩, hstep, heq⟩ := Option.map_eq_some_iff.mp h
      cases heq
      have hsame := rollbackStep_same hstep
      have hpending (execId : String)
          (h : pending
            { sys with store := store, rollbacks := sys.rollbacks.set i next } execId) :
          sys.pending execId :=
        pending_of_same h hsame rfl
      have hexec := execSum_le taker hpending
      refine within_of_le hinv hmarked hsame rfl (fun _ h => h) ?_
      have hbound := hinv.within
      unfold toCome at hbound ⊢
      dsimp only
      linarith
  case h_10 key =>
    cases h
    exact within_of_le hinv hmarked ⟨rfl, rfl, fun _ => rfl⟩ rfl (fun _ h => h) hinv.within

def sessionOf (id : String) : RFQSessionRecord :=
  { id := id
    canonical_market_id := "market"
    taker_id := "taker"
    side := .buy
    status := "AWAITING_USER"
    stp_mode := none }

def quoteOf (quantity : ℚ) : RFQQuoteRecord :=
  { id := "quote"
    lp_key_id := "lp"
    price := 1 / 2
    quantity := quantity
    valid_until := 1000 }

/-- What is executed of a session: all that was quoted. -/
def executionOf (id : String) (quantity : ℚ) : ExecutionResult :=
  ⟨id, id, "taker", "market", .buy, quantity, 1 / 2, some id⟩

/-- The `i`-th validation, from its lock to its commit. -/
def validated (i : ℕ) (id : String) (quantity : ℚ) : List RiskAction :=
  .startValidation (sessionOf id) (quoteOf quantity) ::
    (List.replicate 7 .done).map fun reply => .validate i id reply

/-- The execution of the `i`-th validation, and its update up to the transaction. -/
def executed (i : ℕ) (id : String) (quantity : ℚ) : List RiskAction :=
  [.perform i (executionOf id quantity), .startUpdate (executionOf id quantity), .update i id .done,
    .update i id .done]

end LotusRfq.Rfq
