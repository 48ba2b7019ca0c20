import LotusRfq.Orders.Orchestrator

/-!
# LotusRfq — what the orchestrator asks for

Every operation follows one protocol: it calls `submit` only after its own `startSubmit` succeeded,
it starts a submit only from states that are open, and whatever it writes is right for the state of
the order it had in hand: a filled order stays filled, a sent one stays sent.

* **`obeys_code`** — all operations obey the protocol.
-/

namespace LotusRfq.Orders

open Processes

def isSent (state : ExecutionOrderState) : Bool :=
  state ∈ [ExecutionOrderState.SUBMITTING, .SUBMITTED, .FILLED, .FAILED]

structure Sound (seen written : ExecutionOrderState) : Prop where
  filled : seen = .FILLED → written = .FILLED
  sent : isSent seen = true → isSent written = true

/-- In the protocol a program is at `true` between `startSubmit` and `submit`. -/
def orderProtocol : Protocol OrderRequest OrderRequest.Answer Bool where
  allows
    | entitled, .startSubmit allowedStates =>
      entitled = false ∧ ∀ state ∈ allowedStates, isTerminalOrPendingSubmit state = false
    | entitled, .beginSubmit => entitled = true
    | _, .saveOrder seen order => Sound seen order.state
    | _, _ => True
  answers
    | .startSubmit _, submitting => ∀ order ∈ submitting, order.state = .SUBMITTING
    | .findOrder, _ | .saveOrder _ _, _ | .beginSubmit, _ | .endSubmit, _ | .clock, _
    | .elapse _, _ => True
  next
    | _, .startSubmit _, submitting => submitting.isSome
    | _, .beginSubmit, _ => false
    | entitled, .findOrder, _ => entitled
    | entitled, .saveOrder _ _, _ => entitled
    | entitled, .endSubmit, _ => entitled
    | entitled, .clock, _ => entitled
    | entitled, .elapse _, _ => entitled

/-- What a program obeys that starts and ends without having started a submit. -/
abbrev Obedient {α : Type} (code : OrderCode α) : Prop :=
  Obeys orderProtocol (fun entitled _ => entitled = false) false code

variable {config : OrchestratorConfig} {order : ExecutionOrderRecord} {patch : OrderPatch}

theorem obeys_updateOrder (h : Sound order.state patch.state) :
    Obedient (updateOrder order patch) :=
  obeys_request_bind trivial fun _ _ => obeys_request_bind trivial fun _ _ =>
    obeys_request_bind h fun _ _ => obeys_request trivial fun _ _ => rfl

theorem obeys_update (h : Sound order.state patch.state) :
    Obedient (do let _ ← updateOrder order patch) :=
  obeys_bind (obeys_updateOrder h) fun _ _ hend => hend

theorem sound_of_open {seen written : ExecutionOrderState} (h : isSent seen = false) :
    Sound seen written where
  filled := by rintro rfl; cases h
  sent := by
    intro hsent
    rw [h] at hsent
    cases hsent

theorem isSent_of_open {state : ExecutionOrderState} (h : isTerminalOrPendingSubmit state = false) :
    isSent state = false := by
  cases state <;> first | rfl | cases h

theorem sound_filled (seen : ExecutionOrderState) : Sound seen .FILLED := ⟨fun _ => rfl, fun _ => rfl⟩

theorem obeys_clearTerminalFillNoise : Obedient (clearTerminalFillNoise order) :=
  obeys_ite (fun _ => obeys_pure rfl) fun _ => obeys_updateOrder (sound_filled order.state)

theorem obeys_expireOrder (h : isSent order.state = false) : Obedient (expireOrder order) :=
  obeys_update (sound_of_open h)

theorem obeys_blockOrder (blockers : List ExecutionOrderBlocker) (h : isSent order.state = false) :
    Obedient (blockOrder order blockers) :=
  obeys_update (sound_of_open h)

theorem obeys_recoverInterruptedSubmit : Obedient (recoverInterruptedSubmit order) := by
  refine obeys_ite (fun _ => obeys_pure rfl) fun hstate => ?_
  have hsubmitting : order.state = .SUBMITTING := not_not.mp fun hne => hstate (.inl hne)
  refine obeys_request_bind trivial fun _ _ => obeys_ite (fun _ => obeys_pure rfl) fun _ => ?_
  refine obeys_bind (obeys_updateOrder ⟨fun hfilled => ?_, fun _ => rfl⟩) fun _ _ hend => ?_
  · rw [hsubmitting] at hfilled
    cases hfilled
  · exact obeys_pure hend

theorem obeys_updateFromReport {state : ExecutionOrderState} {nextPollAt : ℕ → Option ℕ}
    {report : BundleReport} (hsent : isSent state = true) :
    Obedient (updateFromReport state nextPollAt report) := by
  refine obeys_request_bind trivial fun latest _ => obeys_ite (fun _ => ?_) fun hopen => ?_
  · exact obeys_bind obeys_clearTerminalFillNoise fun _ _ hend => hend
  · refine obeys_request_bind trivial fun _ _ => obeys_update ⟨fun hfilled => ?_, fun _ => hsent⟩
    exact not_not.mp fun hne => hopen ⟨hfilled, hne⟩

theorem obeys_updateFromSignedStatus (status : BundleReport) :
    Obedient (updateFromSignedStatus order status) := by
  refine obeys_updateFromReport ?_
  cases status.status <;> rfl

theorem obeys_updateFromSubmitResult (result : BundleReport) :
    Obedient (updateFromSubmitResult result) := by
  refine obeys_updateFromReport ?_
  cases result.status <;> rfl

theorem obeys_status (answers : StatusAnswers) : Obedient (status config answers) := by
  refine obeys_request_bind trivial fun order _ => obeys_bind obeys_recoverInterruptedSubmit ?_
  rintro entitled (_ | recovered) rfl
  · -- nothing was recovered
    refine obeys_bind (M := fun entitled _ => entitled = false) ?_ ?_
    · exact obeys_ite (fun _ => obeys_clearTerminalFillNoise) fun _ => obeys_pure rfl
    · rintro entitled currentOrder rfl
      refine obeys_ite (fun hexpired => obeys_expireOrder ?_) fun _ => obeys_ite (fun _ => ?_)
        fun _ => obeys_pure rfl
      · exact decide_eq_false hexpired.2
      · cases answers.executionStatus with
        | none => exact obeys_pure rfl
        | some status => exact obeys_updateFromSignedStatus status
  · exact obeys_pure rfl

theorem obeys_runSubmitInBackground {result : Except SubmitError BundleReport}
    (h : order.state ≠ .FILLED) : Obedient (runSubmitInBackground order result) := by
  cases result with
  | ok result => exact obeys_updateFromSubmitResult result
  | error error => exact obeys_update ⟨fun hfilled => absurd hfilled h, fun _ => rfl⟩

theorem obeys_submitOrderAsync (answers : PlaceAnswers) {allowedStates : List ExecutionOrderState}
    (h : ∀ state ∈ allowedStates, isTerminalOrPendingSubmit state = false) :
    Obedient (submitOrderAsync config answers allowedStates) := by
  refine obeys_ite (fun _ => obeys_pure rfl) fun _ => obeys_request_bind ⟨rfl, h⟩ ?_
  rintro (_ | submitting) hstarted
  · exact obeys_status answers.status
  · -- from here the operation may call `submit`
    have hsubmitting : submitting.state = .SUBMITTING := hstarted submitting rfl
    refine obeys_request_bind rfl fun begun _ => obeys_ite (fun _ => ?_) fun _ => obeys_pure rfl
    refine obeys_bind (obeys_runSubmitInBackground ?_) ?_
    · rw [hsubmitting]
      decide
    · rintro entitled _ rfl
      exact obeys_request trivial fun _ _ => rfl

theorem obeys_place (answers : PlaceAnswers) : Obedient (place config answers) := by
  refine obeys_request_bind trivial fun order _ => obeys_ite (fun _ => obeys_status _) fun hopen => ?_
  have hfree : isSent order.state = false := isSent_of_open (Bool.eq_false_iff.mpr hopen)
  cases loadFreshQuote order answers.quote with
  | none => exact obeys_expireOrder hfree
  | some quote =>
    refine obeys_ite (fun _ => obeys_blockOrder _ hfree) fun _ => ?_
    cases answers.fokBlocker with
    | some blocker => exact obeys_blockOrder _ hfree
    | none =>
      refine obeys_ite (fun _ => obeys_pure rfl) fun _ => obeys_ite (fun _ => ?_) fun _ =>
        obeys_ite (fun _ => obeys_update (sound_of_open hfree)) fun _ =>
          obeys_submitOrderAsync answers (by decide)
      exact obeys_request_bind trivial fun _ _ => obeys_update (sound_of_open hfree)

theorem obeys_submitSignatures (answers : PlaceAnswers) :
    Obedient (submitSignatures config answers) := by
  refine obeys_request_bind trivial fun order _ => obeys_ite (fun _ => ?_) fun hsigned => ?_
  · exact obeys_ite (fun _ => obeys_status _) fun _ => obeys_pure rfl
  · have hfree : isSent order.state = false := by
      rw [not_not.mp hsigned]
      rfl
    cases loadFreshQuote order answers.quote with
    | none => exact obeys_expireOrder hfree
    | some quote =>
      refine obeys_ite (fun _ => obeys_blockOrder _ hfree) fun _ => ?_
      cases answers.fokBlocker with
      | some blocker => exact obeys_blockOrder _ hfree
      | none => exact obeys_submitOrderAsync answers (by decide)

/-- **Every operation obeys the protocol.** -/
theorem obeys_code (config : OrchestratorConfig) (operation : OrderOperation) :
    Obeys orderProtocol (fun _ _ => True) false (operation.code config) := by
  have hobedient : Obedient (operation.code config) := by
    cases operation with
    | place answers => exact obeys_place answers
    | submitSignatures answers => exact obeys_submitSignatures answers
    | status answers => exact obeys_status answers
    | elapse milliseconds => exact obeys_request trivial fun _ _ => rfl
  exact hobedient.weaken fun _ _ _ => trivial

theorem answers_handle (e : OrderRequest) (s : OrderState) :
    orderProtocol.answers e (handle e s).1 := by
  cases e with
  | startSubmit allowedStates =>
    show ∀ order ∈ (handle (.startSubmit allowedStates) s).1, order.state = .SUBMITTING
    intro order horder
    rw [handle] at horder
    split at horder
    next => cases horder; rfl
    next => cases horder
  | _ => trivial

end LotusRfq.Orders
