import LotusRfq.Rfq.ExecutionRouter

/-!
# LotusRfq — how a call of `execute` leaves its session

One call on a session that no other call touches, with every request and its reply in a trace. Once
the call has moved the session to EXECUTING, it has many ways out, and few of them write a status:
the one after an ok execution, and the two that give up because no quote was found or one was stale.

* **`exits_iff`** — the session ends SETTLED or FAILED, as it should, for exactly the traces that
  are `Leaves`;
* **`left_executing`** — a gateway that fails, and the session that stays in EXECUTING.
-/

namespace LotusRfq.Rfq

open Calls Tables Transitions List
open RouterCall (thrown returned)

abbrev RouterTrace : Type := List (RouterRequest × Reply RouterAnswer)

/-- A call on its own, and what it has asked so far. -/
structure RouterRun where
  store : RouterStore
  call : RouterCall
  trace : RouterTrace

def RouterRun.start (sessions : List RFQSessionRecord) (locks : List (String × String))
    (executions : List RFQExecutionRecord) (command : ExecuteRFQCommand) (lockOwner : String) :
    RouterRun :=
  ⟨⟨sessions, locks, executions, [], []⟩, RouterCall.start command lockOwner, []⟩

def runAct (parseDate : String → Option ℤ) (run : RouterRun)
    (action : String × Reply RouterAnswer) : Option RouterRun :=
  match run.call.request with
  | none => none
  | some request =>
    (routerStep parseDate run.store run.call action.1 action.2).map fun (store, call) =>
      ⟨store, call, run.trace ++ [(request, action.2)]⟩

def RouterRun.ended (run : RouterRun) : Prop := run.call.request = none

/-! ## What a trace says -/

def isEntry : RouterRequest × Reply RouterAnswer → Bool
  | (.updateStatus _ .EXECUTING, .done) | (.updateStatus _ .EXECUTING, .lost _) => true
  | _ => false

def isOk : RouterRequest × Reply RouterAnswer → Bool
  | (.execute _ _ _ _, .answered (.gateway .ok)) => true
  | _ => false

def isLookup : RouterRequest × Reply RouterAnswer → Bool
  | (.findByExternalQuoteId _ _, .answered (.quote _ _)) => true
  | _ => false

def isStale (parseDate : String → Option ℤ) : RouterRequest × Reply RouterAnswer → Bool
  | (.findByExternalQuoteId _ rankedQuote, .answered (.quote (some quoteRecord) now)) =>
    (staleReason parseDate now rankedQuote quoteRecord).isSome
  | _ => false

/-- The gateway failed for another reason than the one that counts as a missing quote. -/
def isFailure : RouterRequest × Reply RouterAnswer → Bool
  | (.execute _ _ _ _, .answered (.gateway (.failed reason))) => reason ≠ "QUOTE_NOT_FOUND"
  | _ => false

/-- An exception that leaves the session in EXECUTING: of the write that moved it there, of a
lookup, of the gateway, of the insert of an execution; or a last write that is refused. -/
def breaks : RouterRequest × Reply RouterAnswer → Bool
  | (.updateStatus _ .EXECUTING, .lost _) => true
  | (.updateStatus _ .SETTLED, .refused _) | (.updateStatus _ .FAILED, .refused _) => true
  | (.findByExternalQuoteId _ _, .lost _) | (.findByExternalQuoteId _ _, .refused _) => true
  | (.execute _ _ _ _, .lost _) | (.execute _ _ _ _, .refused _) => true
  | (.create _, .lost _) | (.create _, .refused _) => true
  | _ => false

/-- **When the session is left as it should be.** Nothing breaks, and either an execution is ok, or
a quote was looked up and the code after the loop finds one stale or all of them missing. -/
structure Leaves (parseDate : String → Option ℤ) (trace : RouterTrace) : Prop where
  unbroken : trace.any breaks = false
  closed : trace.any isOk = true ∨ trace.any isLookup = true ∧
    (trace.any (isStale parseDate) = true ∨ trace.any isFailure = false)

/-- A status that the table allows after the one it was written over. -/
def StatusWrite.Legal (write : StatusWrite) : Prop :=
  ∃ state : RFQState, write.before = some state.text ∧ canTransitionTo state write.status

/-- **The exit of a call.** The session is SETTLED if an execution was ok and FAILED otherwise, by
transitions of the table. -/
structure ExitsByTable (store : RouterStore) (sessionId : String) (trace : RouterTrace) : Prop where
  status : store.status sessionId =
    some (if trace.any isOk then RFQState.SETTLED else RFQState.FAILED).text
  legal : ∀ write ∈ store.statusWrites, write.Legal

/-! ## While the session is EXECUTING -/

variable {loop : QuoteLoop} {ranked : RankedQuote} {quoteRecord : RFQQuoteRecord}

section Executing

variable {parse : String → Option ℤ} {store store' : RouterStore} {call call' : RouterCall}
  {uuid sessionId : String} {reply : Reply RouterAnswer} {trace : RouterTrace}
  {request : RouterRequest} {phase : RouterPhase}

structure Executing (store : RouterStore) (sessionId : String) (trace : RouterTrace) : Prop where
  status : store.status sessionId = some RFQState.EXECUTING.text
  legal : ∀ write ∈ store.statusWrites, write.Legal
  unbroken : trace.any breaks = false

/-- What the loop knows: `attempts` are those made and the one that is about to be noted. -/
structure LoopNotes (parseDate : String → Option ℤ) (trace : RouterTrace) (loop : QuoteLoop)
    (attempts : List ExecutionAttemptResult) : Prop where
  session : loop.session.status = RFQState.ACCEPTED.text
  unfilled : trace.any isOk = false
  failed : ∀ attempt ∈ attempts, attempt.status = .FAILED
  stale : loop.sawStaleQuote = trace.any (isStale parseDate)
  missing : (∀ attempt ∈ attempts, attempt.reason = some "QUOTE_NOT_FOUND") ↔
    trace.any (isStale parseDate) = false ∧ trace.any isFailure = false

/-- What holds at each place of a call from the moment it has entered. -/
def Inside (parseDate : String → Option ℤ) (store : RouterStore) (sessionId : String)
    (trace : RouterTrace) : RouterPhase → Prop
  | .findingSession | .locking _ | .entering _ => False
  | .findingQuote loop _ =>
    Executing store sessionId trace ∧ LoopNotes parseDate trace loop loop.attempts ∧
      (0 < loop.attempts.length ↔ trace.any isLookup = true)
  | .executing loop _ _ =>
    Executing store sessionId trace ∧ LoopNotes parseDate trace loop loop.attempts ∧
      trace.any isLookup = true
  | .persistingFailure loop rankedQuote _ reason =>
    Executing store sessionId trace ∧
      LoopNotes parseDate trace loop
        (loop.attempts ++ [⟨rankedQuote.quoteId, .FAILED, some reason⟩]) ∧
      trace.any isLookup = true
  | .creating _ _ _ | .updatingExposure _ _ _ | .settling _ =>
    Executing store sessionId trace ∧ trace.any isOk = true
  | .failing =>
    Executing store sessionId trace ∧ trace.any isOk = false ∧ Leaves parseDate trace
  | .releasing _ | .finished _ | .rejected _ =>
    ExitsByTable store sessionId trace ↔ Leaves parseDate trace

theorem exits_of_stuck (hstatus : store.status sessionId = some RFQState.EXECUTING.text)
    (h : ¬ Leaves parse trace) : ExitsByTable store sessionId trace ↔ Leaves parse trace := by
  refine ⟨fun hexits => ?_, fun hleaves => absurd hleaves h⟩
  have htext := hstatus.symm.trans hexits.status
  rw [Option.some.injEq] at htext
  have heq := text_injective htext
  split at heq <;> cases heq

theorem Executing.append (reply : Reply RouterAnswer) (hexec : Executing store sessionId trace)
    (hrequest : ∀ id status, request ≠ .updateStatus id status)
    (hcases : StepCases parse store call uuid request reply store' phase)
    (hbreaks : breaks (request, reply) = false) :
    Executing store' sessionId (trace ++ [(request, reply)]) := by
  have hframe := @perform_status store uuid reply request hrequest
  have hunbroken : (trace ++ [(request, reply)]).any breaks = false := by
    rw [any_append, hexec.unbroken]
    simp [hbreaks]
  cases hcases with
  | returned =>
    exact ⟨(hframe.1 sessionId).trans hexec.status, hframe.2 ▸ hexec.legal, hunbroken⟩
  | lost =>
    exact ⟨(hframe.1 sessionId).trans hexec.status, hframe.2 ▸ hexec.legal, hunbroken⟩
  | refused => exact ⟨hexec.status, hexec.legal, hunbroken⟩

theorem not_leaves_of_breaks {entry : RouterRequest × Reply RouterAnswer}
    (h : breaks entry = true) : ¬ Leaves parse (trace ++ [entry]) := by
  intro hleaves
  have hunbroken := hleaves.unbroken
  rw [any_append] at hunbroken
  simp [h] at hunbroken

/-! ## The end of the loop -/

section

variable {loop : QuoteLoop} (hexec : Executing store sessionId trace)
  (hnotes : LoopNotes parse trace loop loop.attempts)
  (hlookup : 0 < loop.attempts.length ↔ trace.any isLookup = true)

include hexec hnotes hlookup

theorem inside_afterLoop : Inside parse store sessionId trace (afterLoop sessionId loop) := by
  have htoFailed : transitioning loop.session.status .FAILED .failing
      (.releasing (noValidQuotes sessionId)) = .failing := by
    rw [hnotes.session]
    rfl
  unfold afterLoop
  simp only [htoFailed]
  split
  next hmissing =>
    -- every attempt misses its quote
    have hnothing := hnotes.missing.mp fun attempt hattempt => by
      simpa using all_eq_true.mp hmissing.2 attempt hattempt
    exact ⟨hexec, hnotes.unfilled, hexec.unbroken, .inr ⟨hlookup.mp hmissing.1, .inr hnothing.2⟩⟩
  next hmissing =>
    split
    next hstale =>
      refine ⟨hexec, hnotes.unfilled, hexec.unbroken, .inr ⟨?_, .inl ?_⟩⟩
      · -- a stale quote was looked up
        rw [hnotes.stale] at hstale
        obtain ⟨entry, hentry, hisStale⟩ := any_eq_true.mp hstale.1
        refine any_eq_true.mpr ⟨entry, hentry, ?_⟩
        unfold isStale at hisStale
        split at hisStale
        · rfl
        · cases hisStale
      · exact hnotes.stale ▸ hstale.1
    next hstale =>
      refine exits_of_stuck hexec.status fun hleaves => ?_
      have hall : loop.attempts.all fun attempt => attempt.status = .FAILED := by
        simpa using hnotes.failed
      rcases hleaves.closed with hok | ⟨hsome, hisStale | hnoFailure⟩
      · rw [hnotes.unfilled] at hok
        cases hok
      · exact hstale ⟨hnotes.stale.trans hisStale, hall⟩
      · by_cases hisStale : trace.any (isStale parse) = true
        · exact hstale ⟨hnotes.stale.trans hisStale, hall⟩
        · have hnothing := hnotes.missing.mpr ⟨by simpa using hisStale, hnoFailure⟩
          exact hmissing ⟨hlookup.mpr hsome, by simpa using hnothing⟩

theorem inside_nextQuote : Inside parse store sessionId trace (nextQuote sessionId loop) := by
  unfold nextQuote
  split
  next => exact inside_afterLoop hexec hnotes hlookup
  next =>
    exact ⟨hexec, ⟨hnotes.session, hnotes.unfilled, hnotes.failed, hnotes.stale, hnotes.missing⟩,
      hlookup⟩

end

theorem inside_failedAttempt {reason : String} {command : ExecuteRFQCommand}
    (hexec : Executing store command.sessionId trace)
    (hnotes : LoopNotes parse trace loop (loop.attempts ++ [⟨ranked.quoteId, .FAILED,
      some reason⟩])) (hlookup : trace.any isLookup = true) :
    Inside parse store command.sessionId trace (failedAttempt command loop ranked reason) := by
  have hnoted : LoopNotes parse trace
      { loop with attempts := loop.attempts ++ [⟨ranked.quoteId, .FAILED, some reason⟩] }
      (loop.attempts ++ [⟨ranked.quoteId, .FAILED, some reason⟩]) :=
    ⟨hnotes.session, hnotes.unfilled, hnotes.failed, hnotes.stale, hnotes.missing⟩
  have hsome : 0 < (loop.attempts ++ [(⟨ranked.quoteId, .FAILED, some reason⟩ :
      ExecutionAttemptResult)]).length ↔ trace.any isLookup = true := by
    simp [hlookup]
  unfold failedAttempt
  simp only
  split
  · exact inside_nextQuote hexec hnoted hsome
  · exact inside_afterLoop hexec hnoted hsome

/-! ## One request -/

theorem exits_of_breaks (hexec : Executing store sessionId trace)
    (hrequest : ∀ id status, request ≠ .updateStatus id status)
    (hcases : StepCases parse store call uuid request reply store' phase)
    (hbreaks : breaks (request, reply) = true) :
    ExitsByTable store' sessionId (trace ++ [(request, reply)]) ↔
      Leaves parse (trace ++ [(request, reply)]) := by
  refine exits_of_stuck ?_ (not_leaves_of_breaks hbreaks)
  have hframe := @perform_status store uuid reply request hrequest
  cases hcases with
  | returned => exact (hframe.1 sessionId).trans hexec.status
  | lost => exact (hframe.1 sessionId).trans hexec.status
  | refused => exact hexec.status

/-- A request that moves no status, of a call that gives up on an exception: it remains to follow
what the request brings. -/
theorem inside_performed (hexec : Executing store sessionId trace)
    (hrequest : ∀ id status, request ≠ .updateStatus id status)
    (hbreaks : ∀ reply, breaks (request, reply) = (replyAnswer reply).isNone)
    (hthrown : ∀ error, call.thrown error = .releasing (.error error))
    (hcases : StepCases parse store call uuid request reply store' phase)
    (hdone : ∀ phase, call.returned parse store uuid none = some phase →
      Executing (store.perform uuid .done request) sessionId (trace ++ [(request, .done)]) →
      Inside parse (store.perform uuid .done request) sessionId (trace ++ [(request, .done)]) phase)
    (hanswered : ∀ answer phase, call.returned parse store uuid (some answer) = some phase →
      Executing (store.perform uuid (.answered answer) request) sessionId
        (trace ++ [(request, .answered answer)]) →
      Inside parse (store.perform uuid (.answered answer) request) sessionId
        (trace ++ [(request, .answered answer)]) phase) :
    Inside parse store' sessionId (trace ++ [(request, reply)]) phase := by
  have hexits := exits_of_breaks hexec hrequest hcases
  have happend := hexec.append reply hrequest hcases
  rw [hbreaks] at hexits happend
  cases hcases with
  | lost error =>
    rw [hthrown]
    exact hexits rfl
  | refused error =>
    rw [hthrown]
    exact hexits rfl
  | returned hreply hreturned =>
    rw [hreply] at happend
    cases reply with
    | done => cases hreply; exact hdone _ hreturned (happend rfl)
    | answered answer => cases hreply; exact hanswered answer _ hreturned (happend rfl)
    | lost error => cases hreply
    | refused error => cases hreply

theorem inside_findingQuote (hphase : call.phase = .findingQuote loop ranked)
    (hexec : Executing store call.command.sessionId trace)
    (hnotes : LoopNotes parse trace loop loop.attempts)
    (hcases : StepCases parse store call uuid (.findByExternalQuoteId call.command.sessionId
      ranked) reply store' phase) :
    Inside parse store' call.command.sessionId
      (trace ++ [(.findByExternalQuoteId call.command.sessionId ranked, reply)]) phase := by
  refine inside_performed hexec nofun (fun reply => by cases reply <;> rfl)
    (fun error => by rw [thrown, hphase]) hcases
    (fun _ hreturned => by simp [returned, hphase] at hreturned) ?_
  intro answer phase hreturned hexecuting'
  cases answer with
  | gateway result => simp [returned, hphase] at hreturned
  | quote quoteRecord now =>
    simp only [returned, hphase, Option.some.injEq] at hreturned
    subst hreturned
    have hlookup : (trace ++ [(RouterRequest.findByExternalQuoteId call.command.sessionId
        ranked, Reply.answered (RouterAnswer.quote quoteRecord now))]).any isLookup =
          true := by
      simp [isLookup]
    unfold foundQuote
    cases quoteRecord with
    | none =>
      refine inside_failedAttempt hexecuting' ⟨hnotes.session, ?_, ?_, ?_, ?_⟩ hlookup
      · simp [hnotes.unfilled, isOk]
      · exact forall_mem_append.mpr ⟨hnotes.failed, forall_mem_singleton.mpr rfl⟩
      · simp [hnotes.stale, isStale]
      · have hmissing := hnotes.missing
        simp only [any_append, any_cons, any_nil, isStale, isFailure, Bool.or_false] at hmissing ⊢
        rw [← hmissing]
        simp [or_imp, forall_and]
    | some quoteRecord =>
      simp only
      split
      next reason hstale =>
        refine ⟨hexecuting', ⟨hnotes.session, ?_, ?_, ?_, ?_⟩, hlookup⟩
        · simp [hnotes.unfilled, isOk]
        · exact forall_mem_append.mpr ⟨hnotes.failed, forall_mem_singleton.mpr rfl⟩
        · simp [isStale, hstale]
        · -- the reason of a stale quote is not that of a missing one
          have hreason : reason.text ≠ "QUOTE_NOT_FOUND" := by cases reason <;> decide
          simp [isStale, hstale, or_imp, forall_and, hreason]
      next hfresh =>
        refine ⟨hexecuting', ⟨hnotes.session, ?_, hnotes.failed, ?_, ?_⟩, hlookup⟩
        · simp [hnotes.unfilled, isOk]
        · simp [hnotes.stale, isStale, hfresh]
        · have hmissing := hnotes.missing
          simp only [any_append, any_cons, any_nil, isStale, isFailure,
            Bool.or_false, hfresh, Option.isSome_none] at hmissing ⊢
          exact hmissing

theorem inside_executing {price quantity : ℚ}
    (hphase : call.phase = .executing loop ranked quoteRecord)
    (hexec : Executing store call.command.sessionId trace)
    (hnotes : LoopNotes parse trace loop loop.attempts) (hlookup : trace.any isLookup = true)
    (hcases : StepCases parse store call uuid (.execute call.command.sessionId
      ranked.quoteId price quantity) reply store' phase) :
    Inside parse store' call.command.sessionId
      (trace ++ [(.execute call.command.sessionId ranked.quoteId price quantity, reply)])
      phase := by
  refine inside_performed hexec nofun (fun reply => by cases reply <;> rfl)
    (fun error => by rw [thrown, hphase]) hcases
    (fun _ hreturned => by simp [returned, hphase] at hreturned) ?_
  intro answer phase hreturned hexecuting'
  cases answer with
  | quote quoteRecord now => simp [returned, hphase] at hreturned
  | gateway result =>
    simp only [returned, hphase, Option.some.injEq] at hreturned
    subst hreturned
    unfold executedQuote
    cases result with
    | ok => exact ⟨hexecuting', by simp [isOk]⟩
    | failed reason =>
      refine ⟨hexecuting', ⟨hnotes.session, ?_, ?_, ?_, ?_⟩, by simp [hlookup]⟩
      · simp [hnotes.unfilled, isOk]
      · exact forall_mem_append.mpr ⟨hnotes.failed, forall_mem_singleton.mpr rfl⟩
      · simp [hnotes.stale, isStale]
      · have hmissing := hnotes.missing
        simp only [any_append, any_cons, any_nil, isStale, isFailure,
          Bool.or_false, Bool.or_eq_false_iff, mem_append, mem_singleton] at hmissing ⊢
        rw [← and_assoc, ← hmissing]
        simp [or_imp, forall_and]

theorem inside_persistingFailure {reason : String} {input : NewRFQExecutionInput}
    (hphase : call.phase = .persistingFailure loop ranked quoteRecord reason)
    (hexec : Executing store call.command.sessionId trace)
    (hnotes : LoopNotes parse trace loop (loop.attempts ++ [⟨ranked.quoteId, .FAILED,
      some reason⟩])) (hlookup : trace.any isLookup = true)
    (hcases : StepCases parse store call uuid (.create input) reply store' phase) :
    Inside parse store' call.command.sessionId (trace ++ [(.create input, reply)]) phase := by
  refine inside_performed hexec nofun (fun reply => by cases reply <;> rfl)
    (fun error => by rw [thrown, hphase]) hcases ?_
    fun _ _ hreturned => by simp [returned, hphase] at hreturned
  intro phase hreturned hexecuting'
  rw [returned, hphase] at hreturned
  cases hreturned
  refine inside_failedAttempt hexecuting' ⟨hnotes.session, ?_, hnotes.failed, ?_, ?_⟩
    (by simp [hlookup])
  · simp [hnotes.unfilled, isOk]
  · simp [hnotes.stale, isStale]
  · have hstale : (trace ++ [(RouterRequest.create input, Reply.done)]).any (isStale parse) =
        trace.any (isStale parse) := by
      simp [isStale]
    have hfailure : (trace ++ [(RouterRequest.create input, Reply.done)]).any isFailure =
        trace.any isFailure := by
      simp [isFailure]
    rw [hstale, hfailure]
    exact hnotes.missing

/-- The gateway has said ok: all that can go wrong now is the insert and the last write. -/
theorem inside_creating {input : NewRFQExecutionInput}
    (hphase : call.phase = .creating loop ranked quoteRecord)
    (hexec : Executing store call.command.sessionId trace) (hok : trace.any isOk = true)
    (hcases : StepCases parse store call uuid (.create input) reply store' phase) :
    Inside parse store' call.command.sessionId (trace ++ [(.create input, reply)]) phase := by
  refine inside_performed hexec nofun (fun reply => by cases reply <;> rfl)
    (fun error => by rw [thrown, hphase]) hcases ?_
    fun _ _ hreturned => by simp [returned, hphase] at hreturned
  intro phase hreturned hexecuting'
  rw [returned, hphase] at hreturned
  cases hreturned
  exact ⟨hexecuting', by simp [hok]⟩

theorem inside_updatingExposure {execution : RFQExecutionRecord} {exec : ExecutionResult}
    (hphase : call.phase = .updatingExposure loop ranked execution)
    (hexec : Executing store call.command.sessionId trace) (hok : trace.any isOk = true)
    (hcases : StepCases parse store call uuid (.updateExposureAfterExecution exec) reply
      store' phase) :
    Inside parse store' call.command.sessionId
      (trace ++ [(.updateExposureAfterExecution exec, reply)]) phase := by
  have hrequest : ∀ id status,
      RouterRequest.updateExposureAfterExecution exec ≠ .updateStatus id status :=
    nofun
  have hinside : Inside parse store' call.command.sessionId
      (trace ++ [(.updateExposureAfterExecution exec, reply)]) (exposureUpdated loop ranked) :=
    ⟨hexec.append reply hrequest hcases rfl, by simp [hok]⟩
  have hnext : phase = exposureUpdated loop ranked := by
    refine hcases.elim_done (P := fun _ _ phase => phase = exposureUpdated loop ranked)
      (by simp [returned, hphase]) ?_ ?_ ?_
    · intro phase hreturned
      simpa [returned, hphase, eq_comm] using hreturned
    · intro error
      rw [thrown, hphase]
    · intro error
      rw [thrown, hphase]
  rw [hnext]
  exact hinside

/-! ## The last write -/

/-- A write of a status that the table allows from EXECUTING, done or only thought lost. -/
theorem exits_of_written {status : RFQState} (hexec : Executing store sessionId trace)
    (hreply : reply = .done ∨ ∃ error, reply = .lost error)
    (hstatus : status = if trace.any isOk then .SETTLED else .FAILED)
    (hclosed : trace.any isOk = true ∨ Leaves parse trace) :
    ExitsByTable (store.updateStatus sessionId status) sessionId
        (trace ++ [(.updateStatus sessionId status, reply)]) ↔
      Leaves parse (trace ++ [(.updateStatus sessionId status, reply)]) := by
  have hallowed : canTransitionTo .EXECUTING status := by
    rw [canTransitionTo_of_EXECUTING, hstatus]
    split
    · exact .inl rfl
    · exact .inr rfl
  have hbreaks : breaks (.updateStatus sessionId status, reply) = false := by
    have hstatus : status = .SETTLED ∨ status = .FAILED := canTransitionTo_of_EXECUTING.mp hallowed
    rcases hreply with rfl | ⟨error, rfl⟩ <;> rcases hstatus with rfl | rfl <;> rfl
  have hok : (trace ++ [(RouterRequest.updateStatus sessionId status, reply)]).any isOk =
      trace.any isOk := by
    simp [isOk]
  refine iff_of_true ⟨?_, ?_⟩ ⟨?_, ?_⟩
  · rw [updateStatus_status, if_pos rfl, hexec.status, hok, hstatus]
    rfl
  · intro write hwrite
    rcases mem_append.mp hwrite with hold | hnew
    · exact hexec.legal write hold
    · rw [mem_singleton.mp hnew]
      exact ⟨.EXECUTING, hexec.status, hallowed⟩
  · rw [any_append, hexec.unbroken]
    simp [hbreaks]
  · rcases hclosed with hfilled | hleaves
    · exact .inl (hok.trans hfilled)
    · have hclosed := hleaves.closed
      simp only [any_append, any_cons, any_nil, isOk, isLookup, isStale, isFailure,
        Bool.or_false] at hclosed ⊢
      exact hclosed

theorem inside_written {status : RFQState} (written : Except String ExecuteRFQResult)
    (hexec : Executing store call.command.sessionId trace)
    (hstatus : status = if trace.any isOk then .SETTLED else .FAILED)
    (hclosed : trace.any isOk = true ∨ Leaves parse trace)
    (hsilent : ∀ answer, call.returned parse store uuid (some answer) = none)
    (hreturned : call.returned parse store uuid none = some (.releasing written))
    (hthrown : ∀ error, call.thrown error = .releasing (.error error))
    (hcases : StepCases parse store call uuid
      (.updateStatus call.command.sessionId status) reply store' phase) :
    Inside parse store' call.command.sessionId
      (trace ++ [(.updateStatus call.command.sessionId status, reply)]) phase := by
  refine hcases.elim_done (P := fun reply store' phase => Inside parse store' call.command.sessionId
      (trace ++ [(.updateStatus call.command.sessionId status, reply)]) phase) hsilent ?_ ?_ ?_
  · intro phase hphase
    cases hreturned.symm.trans hphase
    exact exits_of_written hexec (.inl rfl) hstatus hclosed
  · intro error
    rw [hthrown]
    exact exits_of_written hexec (.inr ⟨error, rfl⟩) hstatus hclosed
  · intro error
    rw [hthrown]
    refine exits_of_stuck hexec.status (not_leaves_of_breaks ?_)
    rw [hstatus]
    split <;> rfl

theorem inside_settling {result : ExecuteRFQResult} (hphase : call.phase = .settling result)
    (hexec : Executing store call.command.sessionId trace) (hok : trace.any isOk = true)
    (hcases : StepCases parse store call uuid
      (.updateStatus call.command.sessionId .SETTLED) reply store' phase) :
    Inside parse store' call.command.sessionId
      (trace ++ [(.updateStatus call.command.sessionId .SETTLED, reply)]) phase := by
  refine inside_written (.ok result) hexec ?_ (.inl hok) ?_ ?_ ?_ hcases
  · rw [if_pos hok]
  · simp [returned, hphase]
  · simp only [returned, hphase]
  · intro error
    rw [thrown, hphase]

theorem inside_failing (hphase : call.phase = .failing)
    (hexec : Executing store call.command.sessionId trace) (hok : trace.any isOk = false)
    (hleaves : Leaves parse trace) (hcases : StepCases parse store call uuid
      (.updateStatus call.command.sessionId .FAILED) reply store' phase) :
    Inside parse store' call.command.sessionId
      (trace ++ [(.updateStatus call.command.sessionId .FAILED, reply)]) phase := by
  refine inside_written (noValidQuotes call.command.sessionId) hexec ?_ (.inr hleaves) ?_ ?_
    ?_ hcases
  · rw [hok]
    rfl
  · simp [returned, hphase]
  · simp only [returned, hphase]
  · intro error
    rw [thrown, hphase]

theorem exits_of_released (store' : RouterStore)
    (hexits : ExitsByTable store sessionId trace ↔ Leaves parse trace)
    (hstatus : store'.status sessionId = store.status sessionId)
    (hwrites : store'.statusWrites = store.statusWrites) (id : String) :
    ExitsByTable store' sessionId (trace ++ [(.releaseLock id, reply)]) ↔
      Leaves parse (trace ++ [(.releaseLock id, reply)]) := by
  have hleaves : Leaves parse (trace ++ [(.releaseLock id, reply)]) ↔ Leaves parse trace := by
    constructor
    · rintro ⟨hunbroken, hclosed⟩
      simp only [any_append, any_cons, any_nil, breaks, isOk, isLookup, isStale,
        isFailure, Bool.or_false] at hunbroken hclosed
      exact ⟨hunbroken, hclosed⟩
    · rintro ⟨hunbroken, hclosed⟩
      refine ⟨?_, ?_⟩ <;> simp only [any_append, any_cons, any_nil, breaks, isOk, isLookup, isStale,
          isFailure, Bool.or_false]
      · exact hunbroken
      · exact hclosed
  have hok : (trace ++ [(RouterRequest.releaseLock id, reply)]).any isOk = trace.any isOk := by
    simp [isOk]
  rw [hleaves, ← hexits]
  constructor
  · rintro ⟨hexit, hlegal⟩
    exact ⟨by rw [← hstatus, hexit, hok], hwrites ▸ hlegal⟩
  · rintro ⟨hexit, hlegal⟩
    exact ⟨by rw [hstatus, hexit, hok], hwrites.symm ▸ hlegal⟩

theorem inside_releasing {result : Except String ExecuteRFQResult}
    (hphase : call.phase = .releasing result)
    (hexits : ExitsByTable store call.command.sessionId trace ↔ Leaves parse trace)
    (hcases : StepCases parse store call uuid (.releaseLock call.command.sessionId) reply
      store' phase) :
    Inside parse store' call.command.sessionId
      (trace ++ [(.releaseLock call.command.sessionId, reply)]) phase := by
  have hthrown (error : String) : call.thrown error = .rejected error := by
    rw [thrown, hphase]
  refine hcases.elim_done (P := fun reply store' phase => Inside parse store' call.command.sessionId
      (trace ++ [(.releaseLock call.command.sessionId, reply)]) phase)
    (by simp [returned, hphase]) ?_ ?_ ?_
  · intro phase hreturned
    rw [returned, hphase] at hreturned
    cases hreturned
    cases result <;>
      exact exits_of_released (store.releaseLock call.command.sessionId) hexits rfl rfl _
  · intro error
    rw [hthrown]
    exact exits_of_released (store.releaseLock call.command.sessionId) hexits rfl rfl _
  · intro error
    rw [hthrown]
    exact exits_of_released store hexits rfl rfl _

/-- **Inside.** What holds at each place of a call holds at the next. -/
theorem inside_step (hinside : Inside parse store call.command.sessionId trace call.phase)
    (hrequest : call.request = some request)
    (hcases : StepCases parse store call uuid request reply store' phase) :
    Inside parse store' call.command.sessionId (trace ++ [(request, reply)]) phase := by
  unfold RouterCall.request at hrequest
  generalize hphase : call.phase = place at hinside hrequest
  cases place with
  | findingSession => exact hinside.elim
  | locking session => exact hinside.elim
  | entering session => exact hinside.elim
  | findingQuote loop ranked =>
    obtain ⟨hexec, hnotes, _⟩ := hinside
    cases hrequest
    exact inside_findingQuote hphase hexec hnotes hcases
  | executing loop ranked quoteRecord =>
    obtain ⟨hexec, hnotes, hlookup⟩ := hinside
    cases hrequest
    exact inside_executing hphase hexec hnotes hlookup hcases
  | persistingFailure loop ranked quoteRecord reason =>
    obtain ⟨hexec, hnotes, hlookup⟩ := hinside
    cases hrequest
    exact inside_persistingFailure hphase hexec hnotes hlookup hcases
  | creating loop ranked quoteRecord =>
    obtain ⟨hexec, hok⟩ := hinside
    cases hrequest
    exact inside_creating hphase hexec hok hcases
  | updatingExposure loop ranked execution =>
    obtain ⟨hexec, hok⟩ := hinside
    cases hrequest
    exact inside_updatingExposure hphase hexec hok hcases
  | settling result =>
    obtain ⟨hexec, hok⟩ := hinside
    cases hrequest
    exact inside_settling hphase hexec hok hcases
  | failing =>
    obtain ⟨hexec, hok, hleaves⟩ := hinside
    cases hrequest
    exact inside_failing hphase hexec hok hleaves hcases
  | releasing result =>
    cases hrequest
    exact inside_releasing hphase hinside hcases
  | finished result => cases hrequest
  | rejected error => cases hrequest

/-! ## The way in -/

/-- What holds of a call on its own: what it has read up to the way in, and from there on either
that it never entered or that it is inside. -/
def Course (parseDate : String → Option ℤ) (store : RouterStore) (call : RouterCall)
    (trace : RouterTrace) : Prop :=
  let sessionId := call.command.sessionId
  match call.phase with
  | .findingSession => store.statusWrites = [] ∧ trace = []
  | .locking session =>
    store.statusWrites = [] ∧ trace = [(.findById sessionId, .done)] ∧
      store.status sessionId = some session.status
  | .entering session =>
    store.statusWrites = [] ∧
      trace = [(.findById sessionId, .done), (.acquireLock sessionId call.lockOwner, .done)] ∧
      store.status sessionId = some session.status ∧ session.status = RFQState.ACCEPTED.text
  | phase => trace.any isEntry = false ∨ Inside parseDate store sessionId trace phase

theorem course_past (hpast : phase.past = true) : Course parse store (call.goTo phase) trace ↔
      (trace.any isEntry = false ∨ Inside parse store call.command.sessionId trace phase) := by
  cases phase with
  | findingSession => cases hpast
  | locking session => cases hpast
  | entering session => cases hpast
  | _ => exact Iff.rfl

theorem course_findingSession (hphase : call.phase = .findingSession)
    (hwrites : store.statusWrites = [])
    (hcases : StepCases parse store call uuid (.findById call.command.sessionId) reply store'
      phase) :
    Course parse store' (call.goTo phase) [(.findById call.command.sessionId, reply)] := by
  have hthrown (error : String) : call.thrown error = .rejected error := by
    rw [thrown, hphase]
  refine hcases.elim_done (P := fun reply store' phase => Course parse store' (call.goTo phase)
      [(.findById call.command.sessionId, reply)])
    (by simp [returned, hphase]) ?_ ?_ ?_
  · intro phase hreturned
    rw [returned, hphase] at hreturned
    cases hreturned
    cases hfound : store.findById call.command.sessionId with
    | none => exact .inl rfl
    | some session =>
      refine ⟨hwrites, rfl, ?_⟩
      show (store.findById call.command.sessionId).map (·.status) = some session.status
      rw [hfound, Option.map_some]
  · intro error
    rw [hthrown]
    exact .inl rfl
  · intro error
    rw [hthrown]
    exact .inl rfl

theorem course_locking {session : RFQSessionRecord} (hphase : call.phase = .locking session)
    (hwrites : store.statusWrites = [])
    (hstatus : store.status call.command.sessionId = some session.status)
    (hcases : StepCases parse store call uuid
      (.acquireLock call.command.sessionId call.lockOwner) reply store' phase) :
    Course parse store' (call.goTo phase) [(.findById call.command.sessionId, .done),
        (.acquireLock call.command.sessionId call.lockOwner, reply)] := by
  have hthrown (error : String) : call.thrown error = .rejected error := by
    rw [thrown, hphase]
  have hframe := @perform_status store uuid .done
    (.acquireLock call.command.sessionId call.lockOwner) nofun
  refine hcases.elim_done (P := fun reply store' phase => Course parse store' (call.goTo phase)
      [(.findById call.command.sessionId, .done),
        (.acquireLock call.command.sessionId call.lockOwner, reply)])
    (by simp [returned, hphase]) ?_ ?_ ?_
  · intro phase hreturned
    rw [returned, hphase] at hreturned
    cases hreturned
    split
    next => exact .inl rfl
    next =>
      cases hpast : (transitioning session.status .EXECUTING (.entering session)
          (startLoop call.command session)).past with
      | true => exact (course_past hpast).mpr (.inl rfl)
      | false =>
        obtain ⟨hwriting, state, htext, hcan⟩ := transitioning_entry
          (show (startLoop call.command session).past = true from nextQuote_past _ _) hpast
        rw [hwriting]
        refine ⟨hframe.2.trans hwrites, rfl, (hframe.1 _).trans hstatus, ?_⟩
        rw [htext, canTransitionTo_EXECUTING.mp hcan]
  · intro error
    rw [hthrown]
    exact .inl rfl
  · intro error
    rw [hthrown]
    exact .inl rfl

theorem course_entering {session : RFQSessionRecord} (hphase : call.phase = .entering session)
    (hwrites : store.statusWrites = [])
    (hstatus : store.status call.command.sessionId = some session.status)
    (haccepted : session.status = RFQState.ACCEPTED.text) (hcases : StepCases parse store call uuid
      (.updateStatus call.command.sessionId .EXECUTING) reply store' phase) :
    Course parse store' (call.goTo phase) [(.findById call.command.sessionId, .done),
        (.acquireLock call.command.sessionId call.lockOwner, .done),
        (.updateStatus call.command.sessionId .EXECUTING, reply)] := by
  have hthrown (error : String) : call.thrown error = .releasing (.error error) := by
    rw [thrown, hphase]
  have hentered : (store.updateStatus call.command.sessionId .EXECUTING).status
      call.command.sessionId = some RFQState.EXECUTING.text := by
    rw [updateStatus_status, if_pos rfl, hstatus, Option.map_some]
  refine hcases.elim_done (P := fun reply store' phase => Course parse store' (call.goTo phase)
      [(.findById call.command.sessionId, .done),
        (.acquireLock call.command.sessionId call.lockOwner, .done),
        (.updateStatus call.command.sessionId .EXECUTING, reply)])
    (by simp [returned, hphase]) ?_ ?_ ?_
  · intro phase hreturned
    rw [returned, hphase] at hreturned
    cases hreturned
    refine (course_past (nextQuote_past _ _)).mpr (.inr (inside_nextQuote ?_ ?_ ?_))
    · refine ⟨hentered, fun write hwrite => ?_, rfl⟩
      have hwrite : write ∈ store.statusWrites ++
          [⟨call.command.sessionId, store.status call.command.sessionId, .EXECUTING⟩] := hwrite
      rw [hwrites, nil_append] at hwrite
      rw [mem_singleton.mp hwrite]
      exact ⟨.ACCEPTED, by rw [hstatus, haccepted], rfl⟩
    · refine ⟨haccepted, rfl, ?_, rfl, ?_⟩
      · intro attempt hattempt
        cases hattempt
      · exact iff_of_true nofun ⟨rfl, rfl⟩
    · exact iff_of_false (Nat.lt_irrefl 0) (by simp [isLookup])
  · intro error
    rw [hthrown]
    exact .inr (exits_of_stuck hentered fun hleaves => by cases hleaves.unbroken)
  · intro error
    rw [hthrown]
    exact .inl rfl

theorem course_step_past (hpast : call.phase.past = true) (hcourse : trace.any isEntry = false ∨
      Inside parse store call.command.sessionId trace call.phase)
    (hrequest : call.request = some request)
    (hcases : StepCases parse store call uuid request reply store' phase) :
    Course parse store' (call.goTo phase) (trace ++ [(request, reply)]) := by
  rw [course_past (hcases.past hpast)]
  rcases hcourse with hnever | hinside
  · left
    have hentry : isEntry (request, reply) = false := by
      unfold RouterCall.request at hrequest
      simp only at hrequest
      split at hrequest
      case h_3 hphase => rw [hphase] at hpast; cases hpast
      all_goals cases hrequest <;> rfl
    rw [any_append, hnever]
    simp [hentry]
  · exact .inr (inside_step hinside hrequest hcases)

theorem course_step (hcourse : Course parse store call trace)
    (hrequest : call.request = some request)
    (hcases : StepCases parse store call uuid request reply store' phase) :
    Course parse store' (call.goTo phase) (trace ++ [(request, reply)]) := by
  cases hphase : call.phase with
  | findingSession =>
    rw [Course, hphase] at hcourse
    obtain ⟨hwrites, rfl⟩ := hcourse
    rw [RouterCall.request, hphase] at hrequest
    cases hrequest
    exact course_findingSession hphase hwrites hcases
  | locking session =>
    rw [Course, hphase] at hcourse
    obtain ⟨hwrites, rfl, hstatus⟩ := hcourse
    rw [RouterCall.request, hphase] at hrequest
    cases hrequest
    exact course_locking hphase hwrites hstatus hcases
  | entering session =>
    rw [Course, hphase] at hcourse
    obtain ⟨hwrites, rfl, hstatus, haccepted⟩ := hcourse
    rw [RouterCall.request, hphase] at hrequest
    cases hrequest
    exact course_entering hphase hwrites hstatus haccepted hcases
  | _ =>
    rw [Course, hphase] at hcourse
    exact course_step_past (by rw [hphase]; rfl) (by rw [hphase]; exact hcourse) hrequest hcases

end Executing

/-! ## Every call -/

variable {parse : String → Option ℤ}

theorem runAct_course {run run' : RouterRun} {action : String × Reply RouterAnswer}
    (hcourse : Course parse run.store run.call run.trace)
    (h : runAct parse run action = some run') :
    Course parse run'.store run'.call run'.trace ∧ run'.call.command = run.call.command := by
  unfold runAct at h
  split at h
  next => cases h
  next request hrequest =>
    obtain ⟨⟨store, call⟩, hstep, heq⟩ := Option.map_eq_some_iff.mp h
    cases heq
    obtain ⟨hcall, request', hrequest', hcases⟩ := routerStep_cases hstep
    cases hrequest.symm.trans hrequest'
    have hnext := course_step hcourse hrequest hcases
    rw [← hcall] at hnext
    exact ⟨hnext, by rw [hcall]; rfl⟩

/-- **Exits.** A call that has moved its session to EXECUTING and is over has left it SETTLED or
FAILED, as it should be and by the table, exactly when its trace is one that leaves. -/
theorem exits_iff {sessions : List RFQSessionRecord} {locks : List (String × String)}
    {executions : List RFQExecutionRecord} {command : ExecuteRFQCommand} {lockOwner : String}
    {run : RouterRun} (hrun : Reaches (runAct parseDate)
      (RouterRun.start sessions locks executions command lockOwner) run)
    (hended : run.ended) (hentered : run.trace.any isEntry = true) :
    ExitsByTable run.store command.sessionId run.trace ↔ Leaves parseDate run.trace := by
  have hstart : Course parseDate ⟨sessions, locks, executions, [], []⟩
      (RouterCall.start command lockOwner) [] := ⟨rfl, rfl⟩
  have hinv : Course parseDate run.store run.call run.trace ∧ run.call.command = command := by
    refine hrun.invariant (P := fun run : RouterRun =>
      Course parseDate run.store run.call run.trace ∧ run.call.command = command)
      ⟨hstart, rfl⟩ ?_
    intro run action next ⟨hcourse, hcommand⟩ _ hstep
    obtain ⟨hcourse', hcommand'⟩ := runAct_course hcourse hstep
    exact ⟨hcourse', hcommand'.trans hcommand⟩
  obtain ⟨hcourse, rfl⟩ := hinv
  have hinside {phase : RouterPhase} (hor : run.trace.any isEntry = false ∨
      Inside parseDate run.store run.call.command.sessionId run.trace phase) :
      Inside parseDate run.store run.call.command.sessionId run.trace phase := by
    refine hor.resolve_left fun hnever => ?_
    rw [hentered] at hnever
    cases hnever
  unfold RouterRun.ended RouterCall.request at hended
  simp only at hended
  split at hended
  case h_12 hphase =>
    rw [Course, hphase] at hcourse
    exact hinside hcourse
  case h_13 hphase =>
    rw [Course, hphase] at hcourse
    exact hinside hcourse
  all_goals cases hended

/-! ## Two calls -/

/-- A session that was accepted, and a command with two quotes for it. -/
def twoQuotes : RouterRun :=
  RouterRun.start [⟨"session", "market", "taker", .buy, "ACCEPTED", none⟩] [] []
    ⟨"session", [⟨"gone", none⟩, ⟨"live", none⟩], true⟩ "owner"

def foundLive : Reply RouterAnswer := .answered (.quote (some ⟨"row", "lp", 1 / 2, 10, 1000⟩) 0)

def replied (replies : List (Reply RouterAnswer)) : List (String × Reply RouterAnswer) :=
  replies.map fun reply => ("execution", reply)

/-- The first quote is gone, the second executes; the risk engine fails, which is swallowed. -/
theorem secondQuote_settles : ∃ run, Reaches (runAct fun _ => none) twoQuotes run ∧
    ExitsByTable run.store "session" run.trace := by
  have hplayed : (play (runAct fun _ => none) (fun _ _ => True)
      (replied [.done, .done, .done, .answered (.quote none 0), foundLive,
        .answered (.gateway .ok), .done, .refused "risk", .done, .done]) twoQuotes).map
      (fun run => (run.call.request.isNone, run.trace.any isEntry, run.trace.any breaks,
        run.trace.any isOk)) = some (true, true, false, true) := by
    decide +kernel
  obtain ⟨run, hplay, hnotes⟩ := Option.map_eq_some_iff.mp hplayed
  simp only [Prod.mk.injEq] at hnotes
  obtain ⟨hended, hentered, hunbroken, hok⟩ := hnotes
  have hrun := Run.of_play _ hplay
  exact ⟨run, hrun, (exits_iff hrun (Option.isNone_iff_eq_none.mp hended) hentered).mpr
    ⟨hunbroken, .inl hok⟩⟩

/-- **A session left in EXECUTING.** The gateway fails for both quotes, the call returns that it is
not ok, and the session is neither SETTLED nor FAILED. -/
theorem left_executing : ¬ ∀ (parseDate : String → Option ℤ) (sessions : List RFQSessionRecord)
    (locks : List (String × String)) (executions : List RFQExecutionRecord)
    (command : ExecuteRFQCommand) (lockOwner : String) (run : RouterRun),
    Reaches (runAct parseDate) (RouterRun.start sessions locks executions command lockOwner) run →
    run.ended → run.trace.any isEntry = true →
    ExitsByTable run.store command.sessionId run.trace := by
  intro hexits
  have hplayed : (play (runAct fun _ => none) (fun _ _ => True)
      (replied [.done, .done, .done, foundLive, .answered (.gateway (.failed "VENUE_DOWN")), .done,
        foundLive, .answered (.gateway (.failed "VENUE_DOWN")), .done, .done]) twoQuotes).map
      (fun run => (run.call.request.isNone, run.trace.any isEntry, run.store.status "session")) =
        some (true, true, some "EXECUTING") := by
    decide +kernel
  obtain ⟨run, hplay, hnotes⟩ := Option.map_eq_some_iff.mp hplayed
  simp only [Prod.mk.injEq] at hnotes
  obtain ⟨hended, hentered, hstatus⟩ := hnotes
  have hexit := hexits _ _ _ _ _ _ run (Run.of_play _ hplay)
    (Option.isNone_iff_eq_none.mp hended) hentered
  have htext := hstatus.symm.trans hexit.status
  split at htext <;> exact absurd htext (by decide)

end LotusRfq.Rfq
