import LotusRfq.Rfq.ExecutionRouter

/-!
# LotusRfq — is a session executed once?

Calls of `execute` over one store, in any interleaving, with locks that expire. The table admits
one way into the gateway, from ACCEPTED, and no way back; but a call checks that way against the
status it read before it had the lock, and a status that is no state is not checked at all.

* **`gatewayOk_atMostOnce`** — one execution returns ok while no call enters on a status that the
  row no longer has, or that the table does not know;
* **`executed_on_stale_status`** — two calls that both read ACCEPTED, one after the other.
-/

namespace LotusRfq.Rfq

open Calls Tables Transitions

structure RouterSystem where
  store : RouterStore
  calls : List RouterCall

/-- The tables and the locks before anything is called. -/
def RouterSystem.initial (sessions : List RFQSessionRecord) (locks : List (String × String))
    (executions : List RFQExecutionRecord) : RouterSystem :=
  ⟨⟨sessions, locks, executions, [], []⟩, []⟩

inductive RouterAction where
  | start (command : ExecuteRFQCommand) (lockOwner : String)
  | step (i : ℕ) (uuid : String) (reply : Reply RouterAnswer)
  | expireLock (sessionId : String)

def routerAct (parseDate : String → Option ℤ) (sys : RouterSystem) :
    RouterAction → Option RouterSystem
  | .start command lockOwner =>
    some { sys with calls := sys.calls ++ [RouterCall.start command lockOwner] }
  | .step i uuid reply =>
    match sys.calls[i]? with
    | none => none
    | some call =>
      (routerStep parseDate sys.store call uuid reply).map fun (store, next) =>
        ⟨store, sys.calls.set i next⟩
  | .expireLock sessionId => some { sys with store := sys.store.releaseLock sessionId }

/-- A call enters on what the row still says: it passes the lock with a status that is a state, and
it writes EXECUTING over the status it has read. -/
def RouterCall.Current (store : RouterStore) (call : RouterCall) : Prop :=
  match call.phase with
  | .locking session =>
    store.isLocked call.command.sessionId = true ∨ (asRFQState session.status).isSome = true
  | .entering session => store.status call.command.sessionId = some session.status
  | _ => True

instance (store : RouterStore) (call : RouterCall) : Decidable (call.Current store) := by
  unfold RouterCall.Current
  split <;> infer_instance

/-- The condition on an action: a request that returns does not let a call in on a stale status. -/
def Current (sys : RouterSystem) : RouterAction → Prop
  | .step i _ .done => ∀ call ∈ sys.calls[i]?, call.Current sys.store
  | _ => True

instance (sys : RouterSystem) (action : RouterAction) : Decidable (Current sys action) := by
  unfold Current
  split <;> infer_instance

/-! ## One step -/

/-- A call that the gateway may still be asked by. -/
def RouterPhase.attempting : RouterPhase → Bool
  | .findingQuote _ _ | .executing _ _ _ | .persistingFailure _ _ _ _ => true
  | _ => false

def RouterCall.attempting (sessionId : String) (call : RouterCall) : ℕ :=
  if call.command.sessionId = sessionId ∧ call.phase.attempting then 1 else 0

open RouterCall (attempting thrown returned start)

variable {parseDate : String → Option ℤ} {store store' : RouterStore} {call call' : RouterCall}
  {uuid : String} {reply : Reply RouterAnswer}

theorem attempting_le (sessionId : String) (call : RouterCall) : call.attempting sessionId ≤ 1 := by
  unfold attempting
  split <;> omega

theorem attempting_eq_zero (sessionId : String) (h : call.phase.attempting = false) :
    call.attempting sessionId = 0 := by
  unfold attempting
  rw [if_neg fun hcall => by simp [h] at hcall]

theorem attempting_mono (sessionId : String) (hcommand : call'.command = call.command)
    (h : call.phase.attempting = true) :
    call'.attempting sessionId ≤ call.attempting sessionId := by
  unfold attempting
  rw [hcommand, h]
  split
  next hcall' => rw [if_pos ⟨hcall'.1, rfl⟩]
  next => exact Nat.zero_le _

theorem exposureUpdated_attempting (loop : QuoteLoop) (rankedQuote : RankedQuote) :
    (exposureUpdated loop rankedQuote).attempting = false := rfl

theorem thrown_attempting (call : RouterCall) (error : String) :
    (call.thrown error).attempting = false := by
  unfold thrown
  split <;> rfl

variable {sessionId : String} {sys : RouterSystem}

theorem perform_okResults {request : RouterRequest} (hreply : reply ≠ .answered (.gateway .ok)) :
    (store.perform uuid reply request).okResults sessionId = store.okResults sessionId := by
  unfold RouterStore.okResults
  cases request with
  | execute id quoteId price quantity =>
    unfold RouterStore.perform
    simp only
    split
    next result =>
      have hresult : (id, result) ≠ (sessionId, ExecutionGatewayResult.ok) := by
        intro heq
        exact hreply (by rw [(Prod.mk.inj heq).2])
      rw [List.count_append, List.count_singleton, if_neg (by simpa using hresult), Nat.add_zero]
    next => rfl
  | _ =>
    rw [perform_gatewayResults]
    intro id quoteId price quantity
    exact nofun

/-- The phases that a call can leave by a request that returns, other than the way in. -/
theorem returned_attempting {answer : Option RouterAnswer} {phase : RouterPhase}
    (h : call.returned parseDate store uuid answer = some phase)
    (hentering : ∀ session, call.phase ≠ .entering session)
    (hknown : ∀ session, call.phase = .locking session →
      store.isLocked call.command.sessionId = true ∨ (asRFQState session.status).isSome = true) :
    phase.attempting = false ∨ call.phase.attempting = true := by
  unfold returned at h
  split at h
  next =>
    simp only at h
    split at h
    case h_1 =>
      left
      cases h
      split <;> rfl
    case h_2 session hphase =>
      left
      cases h
      split
      next => rfl
      next hlocked =>
        have hstatus := (hknown session hphase).resolve_left hlocked
        unfold transitioning transitionSessionToState
        obtain ⟨state, hstate⟩ := Option.isSome_iff_exists.mp hstatus
        rw [hstate]
        simp only
        split
        next => rfl
        next hresult => split at hresult <;> cases hresult
        next => rfl
    case h_3 session hphase => exact absurd hphase (hentering session)
    case h_4 hphase => exact .inr (by rw [hphase]; rfl)
    case h_5 => left; cases h; rfl
    case h_6 => left; cases h; exact exposureUpdated_attempting _ _
    case h_7 => left; cases h; rfl
    case h_8 => left; cases h; rfl
    case h_9 => left; cases h; split <;> rfl
    case h_10 => cases h
  next answer =>
    split at h
    next hphase => exact .inr (by rw [hphase]; rfl)
    next hphase => exact .inr (by rw [hphase]; rfl)
    next => cases h

/-- **Results are paid for.** Unless it enters, a call that gets an ok result has nothing more to
ask of the gateway. -/
theorem routerStep_okResults (h : routerStep parseDate store call uuid reply = some (store', call'))
    (hentering : reply = .done → ∀ session, call.phase ≠ .entering session)
    (hcurrent : reply = .done → call.Current store) (sessionId : String) :
    store'.okResults sessionId + call'.attempting sessionId ≤
      store.okResults sessionId + call.attempting sessionId := by
  obtain ⟨hcall, request, hrequest, hcases⟩ := routerStep_cases h
  have hcommand : call'.command = call.command := by rw [hcall]; rfl
  generalize hphase' : call'.phase = phase' at hcases
  cases hcases with
  | lost error =>
    have hdone := attempting_eq_zero sessionId (hphase'.symm ▸ thrown_attempting call error)
    rw [perform_okResults (by simp), hdone]
    omega
  | refused error =>
    have hdone := attempting_eq_zero sessionId (hphase'.symm ▸ thrown_attempting call error)
    omega
  | returned hreply hreturned =>
    by_cases hok : reply = .answered (.gateway .ok)
    · -- the gateway's ok: the call goes on to book it
      subst hok
      cases hreply
      unfold returned at hreturned
      simp only at hreturned
      split at hreturned
      next => rename_i heq; cases heq
      next loop rankedQuote quoteRecord result hphase heq =>
        cases heq
        cases hreturned
        have hdone : call'.attempting sessionId = 0 :=
          attempting_eq_zero sessionId (by rw [hphase']; rfl)
        rw [hdone]
        simp only [RouterCall.request, hphase, Option.some.injEq] at hrequest
        subst hrequest
        show (store.gatewayResults ++ [(call.command.sessionId, _)]).count _ + 0 ≤ _
        rw [List.count_append, List.count_singleton]
        unfold RouterStore.okResults attempting
        rw [hphase]
        by_cases hid : call.command.sessionId = sessionId
        · simp [hid, RouterPhase.attempting]
        · simp [hid]
      next => cases hreturned
    · rw [perform_okResults hok]
      have hleft : phase'.attempting = false ∨ call.phase.attempting = true := by
        cases reply with
        | done =>
          cases hreply
          refine returned_attempting hreturned (hentering rfl) fun session hlocking => ?_
          have hknown := hcurrent rfl
          unfold RouterCall.Current at hknown
          rw [hlocking] at hknown
          exact hknown
        | answered answer =>
          cases hreply
          unfold returned at hreturned
          simp only at hreturned
          split at hreturned
          next hphase => exact .inr (by rw [hphase]; rfl)
          next hphase => exact .inr (by rw [hphase]; rfl)
          next => cases hreturned
        | lost error => cases hreply
        | refused error => cases hreply
      rcases hleft with hdone | hwas
      · have hdone := attempting_eq_zero sessionId (hphase'.symm ▸ hdone)
        omega
      · have hmono := attempting_mono sessionId hcommand hwas
        omega

/-! ## The way in -/

/-- **The way in.** A call is about to enter with a session that it read as ACCEPTED. -/
theorem routerStep_entry (h : routerStep parseDate store call uuid reply = some (store', call'))
    {session : RFQSessionRecord} (hentry : call'.phase = .entering session) :
    session.status = RFQState.ACCEPTED.text := by
  obtain ⟨_, request, _, hcases⟩ := routerStep_cases h
  rw [hentry] at hcases
  have hnone {phase : RouterPhase} (hphase : phase.past = true)
      (heq : phase = .entering session) : False := by
    rw [heq] at hphase
    cases hphase
  generalize hnext : RouterPhase.entering session = phase at hcases
  cases hcases with
  | lost error => exact (hnone (thrown_past call error) hnext.symm).elim
  | refused error => exact (hnone (thrown_past call error) hnext.symm).elim
  | returned hreply hreturned =>
    subst hnext
    unfold returned at hreturned
    split at hreturned
    next =>
      simp only at hreturned
      split at hreturned
      case h_1 =>
        rw [Option.some.injEq] at hreturned
        split at hreturned <;> cases hreturned
      case h_2 =>
        rw [Option.some.injEq] at hreturned
        split at hreturned
        next => cases hreturned
        next =>
          obtain ⟨hwriting, state, hstatus, hcan⟩ :=
            transitioning_entry (nextQuote_past _ _) (congrArg RouterPhase.past hreturned)
          cases hwriting.symm.trans hreturned
          rw [hstatus, canTransitionTo_EXECUTING.mp hcan]
      case h_3 => exact (hnone (nextQuote_past _ _) (Option.some.inj hreturned)).elim
      case h_4 => exact (hnone (failedAttempt_past _ _ _ _) (Option.some.inj hreturned)).elim
      case h_5 => cases hreturned
      case h_6 => cases hreturned
      case h_7 => cases hreturned
      case h_8 => cases hreturned
      case h_9 =>
        rw [Option.some.injEq] at hreturned
        split at hreturned <;> cases hreturned
      case h_10 => cases hreturned
    next answer =>
      split at hreturned
      next =>
        rw [Option.some.injEq] at hreturned
        exact (hnone (foundQuote_past _ _ _ _ _ _) hreturned).elim
      next result _ =>
        rw [Option.some.injEq] at hreturned
        cases result <;> cases hreturned
      next => cases hreturned

/-! ## The status -/

theorem request_updateStatus {status : RFQState}
    (h : call.request = some (.updateStatus sessionId status)) :
    sessionId = call.command.sessionId ∧ status ≠ .ACCEPTED := by
  unfold RouterCall.request at h
  simp only at h
  split at h <;> cases h <;> exact ⟨rfl, by decide⟩

theorem updateStatus_accepted {other : String} {status : RFQState} (hstatus : status ≠ .ACCEPTED)
    (h : (store.updateStatus sessionId status).status other = some RFQState.ACCEPTED.text) :
    other ≠ sessionId ∧ store.status other = some RFQState.ACCEPTED.text := by
  rw [updateStatus_status] at h
  split at h
  next =>
    obtain ⟨_, _, htext⟩ := Option.map_eq_some_iff.mp h
    exact absurd (text_injective htext) hstatus
  next hne => exact ⟨hne, h⟩

theorem perform_accepted {request : RouterRequest} (hrequest : call.request = some request)
    (h : (store.perform uuid reply request).status sessionId = some RFQState.ACCEPTED.text) :
    store.status sessionId = some RFQState.ACCEPTED.text := by
  by_cases hupdate : ∃ id status, request = .updateStatus id status
  · obtain ⟨id, status, rfl⟩ := hupdate
    exact (updateStatus_accepted (request_updateStatus hrequest).2 h).2
  · have hframe := @perform_status store uuid reply request
      fun id status heq => hupdate ⟨id, status, heq⟩
    rwa [hframe.1] at h

theorem routerStep_accepted (h : routerStep parseDate store call uuid reply = some (store', call'))
    (hstatus : store'.status sessionId = some RFQState.ACCEPTED.text) :
    store.status sessionId = some RFQState.ACCEPTED.text := by
  obtain ⟨_, request, hrequest, hcases⟩ := routerStep_cases h
  generalize call'.phase = phase' at hcases
  cases hcases with
  | returned => exact perform_accepted hrequest hstatus
  | lost => exact perform_accepted hrequest hstatus
  | refused => exact hstatus

theorem routerStep_enters (h : routerStep parseDate store call uuid .done = some (store', call'))
    {session : RFQSessionRecord} (hentering : call.phase = .entering session) :
    store' = store.updateStatus call.command.sessionId .EXECUTING ∧
      call'.command = call.command := by
  obtain ⟨hcall, request, hrequest, hcases⟩ := routerStep_cases h
  refine ⟨?_, by rw [hcall]; rfl⟩
  simp only [RouterCall.request, hentering, Option.some.injEq] at hrequest
  subst hrequest
  generalize call'.phase = phase' at hcases
  cases hcases
  rfl

/-! ## Every interleaving -/

/-- The calls of a session that the gateway may still be asked by. -/
def RouterSystem.attempts (sys : RouterSystem) (sessionId : String) : ℕ :=
  (sys.calls.map (attempting sessionId)).sum

/-- Of each session, one execution is ok or one call may get one, and then the session is no longer
ACCEPTED; a call that is about to enter has read ACCEPTED. -/
structure Once (sys : RouterSystem) : Prop where
  once : ∀ sessionId, sys.store.okResults sessionId + sys.attempts sessionId ≤ 1
  left : ∀ sessionId, sys.store.status sessionId = some RFQState.ACCEPTED.text →
    sys.store.okResults sessionId + sys.attempts sessionId = 0
  entry : ∀ call ∈ sys.calls, ∀ session, call.phase = .entering session →
    session.status = RFQState.ACCEPTED.text

open RouterSystem (initial attempts)

theorem once_initial (sessions : List RFQSessionRecord) (locks : List (String × String))
    (executions : List RFQExecutionRecord) : Once (initial sessions locks executions) where
  once _ := Nat.zero_le 1
  left _ _ := rfl
  entry call hcall := by cases hcall

theorem once_start (hinv : Once sys) (command : ExecuteRFQCommand) (lockOwner : String) :
    Once { sys with calls := sys.calls ++ [start command lockOwner] } := by
  have hattempts (sessionId : String) : attempts
        { sys with calls := sys.calls ++ [start command lockOwner] } sessionId =
          sys.attempts sessionId := by
    have hstart : (start command lockOwner).attempting sessionId = 0 :=
      attempting_eq_zero sessionId rfl
    simp [attempts, hstart]
  refine ⟨fun sessionId => ?_, fun sessionId hstatus => ?_, fun call hcall session hphase => ?_⟩
  · rw [hattempts]
    exact hinv.once sessionId
  · rw [hattempts]
    exact hinv.left sessionId hstatus
  · rcases List.mem_append.mp hcall with hold | hnew
    · exact hinv.entry call hold session hphase
    · rw [List.mem_singleton.mp hnew] at hphase
      cases hphase

theorem attempts_set {i : ℕ} (hcall : sys.calls[i]? = some call) (next : RouterCall)
    (store' : RouterStore) (sessionId : String) :
    attempts ⟨store', sys.calls.set i next⟩ sessionId + call.attempting sessionId =
      sys.attempts sessionId + next.attempting sessionId :=
  sum_set_add hcall next (attempting sessionId)

theorem once_step (hinv : Once sys) {i : ℕ} {next : RouterCall}
    (hcall : sys.calls[i]? = some call) (hguard : reply = .done → call.Current sys.store)
    (h : routerStep parseDate sys.store call uuid reply = some (store', next)) :
    Once ⟨store', sys.calls.set i next⟩ := by
  have hmem : call ∈ sys.calls := List.mem_of_getElem? hcall
  have hentry : ∀ other ∈ sys.calls.set i next, ∀ session, other.phase = .entering session →
      session.status = RFQState.ACCEPTED.text := by
    intro other hother session hphase
    rcases List.mem_or_eq_of_mem_set hother with hold | rfl
    · exact hinv.entry other hold session hphase
    · exact routerStep_entry h hphase
  have hset := attempts_set hcall next store'
  by_cases henters : reply = .done ∧ ∃ session, call.phase = .entering session
  · -- the session was ACCEPTED, so nobody is inside; now it is EXECUTING
    obtain ⟨rfl, session, hphase⟩ := henters
    obtain ⟨hstore, hcommand⟩ := routerStep_enters h hphase
    have hread := hguard rfl
    unfold RouterCall.Current at hread
    rw [hphase] at hread
    simp only at hread
    rw [hinv.entry call hmem session hphase] at hread
    have hnobody := hinv.left _ hread
    have hresults (sessionId : String) :
        store'.okResults sessionId = sys.store.okResults sessionId := by rw [hstore]; rfl
    have hwas (sessionId : String) : call.attempting sessionId = 0 :=
      attempting_eq_zero sessionId (by rw [hphase]; rfl)
    have hother {sessionId : String} (hne : sessionId ≠ call.command.sessionId) :
        next.attempting sessionId = 0 := by
      unfold attempting
      rw [hcommand, if_neg fun hown => hne hown.1.symm]
    refine ⟨fun sessionId => ?_, fun sessionId hstatus => ?_, hentry⟩
    · have hsum := hset sessionId
      have hone := attempting_le sessionId next
      have honce := hinv.once sessionId
      have hzero := hwas sessionId
      show store'.okResults sessionId + _ ≤ 1
      rw [hresults]
      by_cases hown : sessionId = call.command.sessionId
      · rw [← hown] at hnobody
        omega
      · have hnext := hother hown
        omega
    · have hstatus : store'.status sessionId = some RFQState.ACCEPTED.text := hstatus
      rw [hstore] at hstatus
      obtain ⟨hne, hstatus⟩ := updateStatus_accepted (by decide) hstatus
      have hsum := hset sessionId
      have hzero := hwas sessionId
      have hnext := hother hne
      have hleft := hinv.left sessionId hstatus
      show store'.okResults sessionId + _ = 0
      rw [hresults]
      omega
  · have hspent := routerStep_okResults h
      (fun hdone session hphase => henters ⟨hdone, session, hphase⟩) hguard
    refine ⟨fun sessionId => ?_, fun sessionId hstatus => ?_, hentry⟩
    · have hsum := hset sessionId
      have hspend := hspent sessionId
      have honce := hinv.once sessionId
      show store'.okResults sessionId + _ ≤ 1
      omega
    · have hsum := hset sessionId
      have hspend := hspent sessionId
      have hleft := hinv.left sessionId (routerStep_accepted h hstatus)
      show store'.okResults sessionId + _ = 0
      omega

theorem once_act {sys' : RouterSystem} {action : RouterAction} (hinv : Once sys)
    (hguard : Current sys action) (h : routerAct parseDate sys action = some sys') : Once sys' := by
  unfold routerAct at h
  split at h
  case h_1 command lockOwner =>
    cases h
    exact once_start hinv command lockOwner
  case h_2 i uuid reply =>
    split at h
    next => cases h
    next call hcall =>
      obtain ⟨⟨store, next⟩, hstep, heq⟩ := Option.map_eq_some_iff.mp h
      cases heq
      refine once_step hinv hcall ?_ hstep
      rintro rfl
      exact hguard call hcall
  case h_3 sessionId =>
    cases h
    exact ⟨hinv.once, hinv.left, hinv.entry⟩

/-- **At most once.** While no call enters on a status that the row no longer has or that is no
state, a gateway returns ok at most once for a session, in any interleaving and whatever happens to
the lock. -/
theorem gatewayOk_atMostOnce {sessions : List RFQSessionRecord} {locks : List (String × String)}
    {executions : List RFQExecutionRecord} {sys : RouterSystem}
    (hrun : Run (routerAct parseDate) Current
      (initial sessions locks executions) sys) (sessionId : String) :
    sys.store.okResults sessionId ≤ 1 := by
  have hinv : Once sys := hrun.invariant (once_initial sessions locks executions)
      fun _ _ _ hinv hguard hstep => once_act hinv hguard hstep
  have honce := hinv.once sessionId
  omega

/-! ## Two calls -/

def acceptedSession : RFQSessionRecord :=
  { id := "session"
    canonical_market_id := "market"
    taker_id := "taker"
    side := .buy
    status := "ACCEPTED"
    stp_mode := none }

def liveQuote : RFQQuoteRecord := ⟨"row", "lp", 1 / 2, 10, 1000⟩

def oneQuote : ExecuteRFQCommand := ⟨"session", [⟨"quote", none⟩], true⟩

/-- The `i`-th call is given these replies. -/
def stepReplies (i : ℕ) (replies : List (Reply RouterAnswer)) : List RouterAction :=
  replies.map fun reply => .step i "execution" reply

/-- From the lock on: the transition, the quote, the gateway's ok, the bookings, the release. -/
def executesOk : List (Reply RouterAnswer) :=
  [.done, .done, .answered (.quote (some liveQuote) 0), .answered (.gateway .ok), .done, .done,
    .done, .done]

/-- The second call starts when the first is over, and is turned away. -/
theorem oneAfterAnother_once : ∃ sys,
    Run (routerAct fun _ => none) Current (initial [acceptedSession] [] []) sys ∧
    sys.store.okResults "session" = 1 ∧ sys.store.status "session" = some "SETTLED" ∧
    sys.store.okResults "session" ≤ 1 := by
  have hplayed : (play (routerAct fun _ => none) Current
      ([.start oneQuote "a"] ++ stepReplies 0 (.done :: executesOk) ++
        [.start oneQuote "b"] ++ stepReplies 1 [.done, .done, .done])
      (initial [acceptedSession] [] [])).map
      (fun sys => (sys.store.okResults "session", sys.store.status "session")) =
        some (1, some "SETTLED") := by
    decide +kernel
  obtain ⟨sys, hplay, hsys⟩ := Option.map_eq_some_iff.mp hplayed
  have hrun := Run.of_play _ hplay
  obtain ⟨hresults, hstatus⟩ := Prod.mk.inj hsys
  exact ⟨sys, hrun, hresults, hstatus, gatewayOk_atMostOnce hrun "session"⟩

/-- **A session executed twice.** Both calls read ACCEPTED; the second gets the lock when the first
has settled the session and released it, and writes EXECUTING over SETTLED. -/
theorem executed_on_stale_status : ¬ ∀ (parseDate : String → Option ℤ)
    (sessions : List RFQSessionRecord) (locks : List (String × String))
    (executions : List RFQExecutionRecord) (sys : RouterSystem),
    Reaches (routerAct parseDate) (initial sessions locks executions) sys →
    ∀ sessionId, sys.store.okResults sessionId ≤ 1 := by
  intro honce
  have hplayed : (play (routerAct fun _ => none) (fun _ _ => True)
      ([.start oneQuote "a", .start oneQuote "b"] ++ stepReplies 0 [.done] ++
        stepReplies 1 [.done] ++ stepReplies 0 executesOk ++ stepReplies 1 executesOk)
      (initial [acceptedSession] [] [])).map
      (fun sys => sys.store.okResults "session") = some 2 := by
    decide +kernel
  obtain ⟨sys, hplay, hsys⟩ := Option.map_eq_some_iff.mp hplayed
  have htwo := honce _ _ _ _ sys (Run.of_play _ hplay) "session"
  omega

end LotusRfq.Rfq
