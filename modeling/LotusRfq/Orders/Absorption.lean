import LotusRfq.Orders.Decisions

/-!
# LotusRfq — filled orders stay filled

What an operation writes is right for the state it saw. By the time the write lands the order may
have been sent, or filled: the write is *timely* when that had been seen, or does no harm.

* **`step_keeps_iff`** — a step keeps what was filled filled, and what was sent sent, exactly when
  it is timely;
* **`pairwise_keeps_iff`** — so do runs;
* **`absorbed_of_timely`** — filled orders stay filled, and orders that were sent never expire and
  are never blocked, in every timely run.
-/

namespace LotusRfq.Orders

open Processes Transitions

/-- A write that lands on a filled or a sent order was decided on one, or leaves it filled or
sent. -/
def Timely (s : OrderState) : OrderRequest → Prop
  | .saveOrder seen order =>
    (s.row.state = .FILLED → seen = .FILLED ∨ order.state = .FILLED) ∧
      (isSent s.row.state = true → isSent seen = true ∨ isSent order.state = true)
  | _ => True

instance (s : OrderState) (e : OrderRequest) : Decidable (Timely s e) := by
  unfold Timely
  split <;> infer_instance

/-- Filled orders stay filled, sent ones sent. -/
def Keeps (s t : OrderSystem) : Prop :=
  (s.shared.row.state = .FILLED → t.shared.row.state = .FILLED) ∧
    (isSent s.shared.row.state = true → isSent t.shared.row.state = true)

/-- Filled orders stay filled, and those that are being submitted neither expire nor are blocked. -/
def Absorbs (s t : OrderSystem) : Prop :=
  (s.shared.row.state = .FILLED → t.shared.row.state = .FILLED) ∧
    (s.shared.row.state = .SUBMITTING ∨ s.shared.row.state = .SUBMITTED →
      t.shared.row.state ≠ .EXPIRED ∧ t.shared.row.state ≠ .BLOCKED_ACTION_REQUIRED)

theorem Keeps.trans {s t u : OrderSystem} (h : Keeps s t) (h' : Keeps t u) : Keeps s u :=
  ⟨fun hs => h'.1 (h.1 hs), fun hs => h'.2 (h.2 hs)⟩

theorem Keeps.absorbs {s t : OrderSystem} (h : Keeps s t) : Absorbs s t := by
  refine ⟨h.1, fun hs => ?_⟩
  have hsent : isSent s.shared.row.state = true := by
    rcases hs with hs | hs <;> rw [hs] <;> rfl
  have hstays := h.2 hsent
  constructor
  · intro hexpired
    rw [hexpired] at hstays
    cases hstays
  · intro hblocked
    rw [hblocked] at hstays
    cases hstays

/-- The operations under way obey the protocol. -/
abbrev Decided (s : OrderSystem) : Prop := Supervised orderProtocol (fun _ _ => True) s

theorem decided_of_idle {s : OrderSystem} (h : s.running = []) : Decided s :=
  ⟨[], trivial, by rw [h]; exact .nil⟩

section

variable {config : OrchestratorConfig} {s t : OrderSystem} {action : Action OrderOperation}
  (hs : Decided s) (h : orderStep config s action = some t)

include hs h

theorem decided_step : Decided t := by
  refine hs.step (G := fun _ _ => True) (obeys_code config) answers_handle (fun _ _ _ => trivial)
    (fun _ _ _ _ _ _ _ _ _ => trivial) ?_ h
  cases action with
  | start operation => trivial
  | advance i => exact fun _ _ => trivial

/-- **One step.** -/
theorem step_keeps_iff : Keeps s t ↔ Asks Timely s action := by
  cases action with
  | start operation =>
    cases h
    exact ⟨fun _ => trivial, fun _ => ⟨id, id⟩⟩
  | advance i =>
    simp only [orderStep, step] at h
    split at h
    next e next hat =>
      cases h
      obtain ⟨places, entitled, -, -, hallowed, -⟩ := hs.place hat
      have hasks : Asks (O := OrderOperation) Timely s (.advance i) ↔ Timely s.shared e := by
        simp [Asks, asked, hat]
      rw [hasks]
      cases e with
      | saveOrder seen order =>
        have hsound : Sound seen order.state := by cases entitled <;> exact hallowed
        show (s.shared.row.state = .FILLED → order.state = .FILLED) ∧
            (isSent s.shared.row.state = true → isSent order.state = true) ↔
          (s.shared.row.state = .FILLED → seen = .FILLED ∨ order.state = .FILLED) ∧
            (isSent s.shared.row.state = true → isSent seen = true ∨ isSent order.state = true)
        constructor
        · rintro ⟨hfilled, hsent⟩
          exact ⟨fun hrow => .inr (hfilled hrow), fun hrow => .inr (hsent hrow)⟩
        · -- what was seen is kept by the decision
          rintro ⟨hfilled, hsent⟩
          exact ⟨fun hrow => (hfilled hrow).elim hsound.filled id,
            fun hrow => (hsent hrow).elim hsound.sent id⟩
      | startSubmit allowedStates =>
        refine ⟨fun _ => trivial, fun _ => ?_⟩
        by_cases hmem : s.shared.row.state ∈ allowedStates
        · -- an open order is neither filled nor sent
          have hfree : isSent s.shared.row.state = false := isSent_of_open (hallowed.2 _ hmem)
          refine ⟨fun hfilled => ?_, fun hsent => ?_⟩
          · rw [hfilled] at hfree
            cases hfree
          · rw [hfree] at hsent
            cases hsent
        · have hsame : (handle (.startSubmit allowedStates) s.shared).2 = s.shared := by
            simp only [handle, if_neg hmem]
          exact ⟨fun hrow => by rw [← hrow]; exact congrArg (·.row.state) hsame,
            fun hrow => by rw [← hrow]; exact congrArg (fun u => isSent u.row.state) hsame⟩
      | beginSubmit =>
        have hsame : (handle .beginSubmit s.shared).2.row = s.shared.row := by
          simp only [handle]
          split <;> rfl
        refine ⟨fun _ => trivial, fun _ => ⟨fun hrow => ?_, fun hrow => ?_⟩⟩
        · rw [← hrow]
          exact congrArg (·.state) hsame
        · rw [← hrow]
          exact congrArg (fun row => isSent row.state) hsame
      | _ => exact ⟨fun _ => trivial, fun _ => ⟨id, id⟩⟩
    next => cases h

end

/-- **Whole runs** keep what is filled and what is sent exactly when every write is timely. -/
theorem pairwise_keeps_iff (config : OrchestratorConfig) {s : OrderSystem} (hs : s.running = [])
    (actions : List (Action OrderOperation)) :
    (states (orderStep config) actions s).Pairwise Keeps ↔
      EachStep (orderStep config) (fun s action _ => Asks Timely s action) actions s := by
  rw [pairwise_states_iff (R := Keeps) Keeps.trans]
  refine eachStep_iff (P := Decided) ?_ ?_ (decided_of_idle hs)
  · intro s action t hdecided hstep _
    exact decided_step hdecided hstep
  · intro s action t hdecided hstep
    exact step_keeps_iff hdecided hstep

/-- **Absorption.** In every run of timely writes, from every state to every later one. -/
theorem absorbed_of_timely (config : OrchestratorConfig) {s : OrderSystem} (hs : s.running = [])
    (actions : List (Action OrderOperation))
    (htimely : EachStep (orderStep config) (fun s action _ => Asks Timely s action) actions s) :
    (states (orderStep config) actions s).Pairwise Absorbs :=
  ((pairwise_keeps_iff config hs actions).mpr htimely).imp Keeps.absorbs

/-! ### A submit that fails late -/

def awaitingSignature : OrderSystem :=
  ⟨⟨⟨some "quote-1", none, .NEEDS_SIGNATURE, .SIGN, [], none, none, 0, 0⟩, 0, false, 0, 0⟩, []⟩

/-- The answers around a submit that ends with `submit`. -/
def signedWith (submit : Except SubmitError BundleReport) : PlaceAnswers where
  quote := some ⟨true⟩
  sellGuard := []
  fokBlocker := none
  readiness := .READY_TO_PLACE
  readinessBlockers := []
  submit
  status := ⟨some ⟨true⟩, none⟩

/-- The order is refreshed, and found filled, before `submit` has answered; then `left` requests are
still to come. -/
def filledMeanwhile (submit : Except SubmitError BundleReport) (left : ℕ) :
    List (Action OrderOperation) :=
  .start (.submitSignatures (signedWith submit)) :: List.replicate 3 (.advance 0) ++
    .start (.status ⟨some ⟨true⟩, some ⟨"quote-1", .FILLED, none, []⟩⟩) ::
      List.replicate 8 (.advance 1) ++
    List.replicate left (.advance 0)

/-- `submit` throws after its venues were reached: the filled order fails. -/
theorem awaitingSignature_unfilled : ¬ ∀ config s, s.running = [] → ∀ actions,
    (states (orderStep config) actions s).Pairwise Absorbs := by
  intro h
  have hpairs := h ⟨true⟩ awaitingSignature rfl
    (filledMeanwhile (.error ⟨"STATUS_NOT_SAVED", "Execution status could not be saved."⟩) 5)
  have hfilled : ((states (orderStep ⟨true⟩) (filledMeanwhile
      (.error ⟨"STATUS_NOT_SAVED", "Execution status could not be saved."⟩) 5)
        awaitingSignature).map (·.shared.row.state)).Pairwise
          fun before after => before = .FILLED → after = .FILLED :=
    List.pairwise_map.mpr (hpairs.imp fun habsorbs => habsorbs.1)
  exact absurd hfilled (by decide +kernel)

theorem absorbed_of_timely_signed : awaitingSignature.running = [] ∧
    EachStep (orderStep ⟨true⟩) (fun s action _ => Asks Timely s action)
      (filledMeanwhile (.ok ⟨"quote-1", .SUBMITTED, none, []⟩) 2) awaitingSignature ∧
    (states (orderStep ⟨true⟩) (filledMeanwhile (.ok ⟨"quote-1", .SUBMITTED, none, []⟩) 2)
      awaitingSignature).Pairwise Absorbs := by
  have htimely : EachStep (orderStep ⟨true⟩) (fun s action _ => Asks Timely s action)
      (filledMeanwhile (.ok ⟨"quote-1", .SUBMITTED, none, []⟩) 2) awaitingSignature :=
    eachStep_of_play (by decide +kernel)
  exact ⟨rfl, htimely, absorbed_of_timely ⟨true⟩ rfl _ htimely⟩

end LotusRfq.Orders
