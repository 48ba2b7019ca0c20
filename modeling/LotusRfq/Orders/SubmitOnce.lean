import LotusRfq.Orders.Decisions
import Mathlib.Data.List.Count

/-!
# LotusRfq — one submit for an order

`startSubmit` lets one submit through as long as the order stays where it leads. The other writes
put a whole row there that was read before, with the state that the operation decided on: one that
is late can make the order open again.

* **`SubmitInvariant.step`** — starts, and programs between `startSubmit` and `submit`;
* **`submitted_atMostOnce`** — one submit, in every run in which no write reopens a started order.
-/

namespace LotusRfq.Orders

open Processes Transitions

/-- No submit was started, or one was and the order is not open. -/
def SubmitInvariant (s : OrderState) (places : List Bool) : Prop :=
  s.submitted + places.count true ≤ s.started ∧ s.started ≤ 1 ∧
    (s.started = 1 → isTerminalOrPendingSubmit s.row.state = true)

/-- A write to an order whose submit was started leaves it closed. -/
def LeavesClosed (s : OrderState) : OrderRequest → Prop
  | .saveOrder _ order => s.started ≠ 0 → isTerminalOrPendingSubmit order.state = true
  | _ => True

instance (s : OrderState) (e : OrderRequest) : Decidable (LeavesClosed s e) := by
  induction e using OrderRequest.casesOn <;> (dsimp only [LeavesClosed]; infer_instance)

theorem count_set {places : List Bool} {i : ℕ} {entitled : Bool}
    (hplace : places[i]? = some entitled) (next : Bool) :
    (places.set i next).count true + entitled.toNat = places.count true + next.toNat := by
  have hset := countP_set_place hplace (fun place => place == true) next
  simpa [List.count] using hset

theorem SubmitInvariant.step {s : OrderState} {places : List Bool} (h : SubmitInvariant s places)
    {i : ℕ} {entitled : Bool} {e : OrderRequest} (hplace : places[i]? = some entitled)
    (hallowed : orderProtocol.allows entitled e) (hguard : LeavesClosed s e) :
    SubmitInvariant (handle e s).2
      (places.set i (orderProtocol.next entitled e (handle e s).1)) := by
  obtain ⟨hcount, hstarted, hclosed⟩ := h
  cases e with
  | saveOrder seen order =>
    -- the guard is for this case
    show SubmitInvariant { s with row := saved order s.row } (places.set i entitled)
    rw [set_place hplace]
    refine ⟨hcount, hstarted, fun hone => hguard ?_⟩
    have hone' : s.started = 1 := hone
    omega
  | startSubmit allowedStates =>
    obtain ⟨hfree, hopen⟩ := hallowed
    subst hfree
    by_cases hmem : s.row.state ∈ allowedStates
    · -- the order is open, so this is the first start
      have hfirst : s.started = 0 := by
        by_contra hne
        have hone := hclosed (by omega)
        rw [hopen _ hmem] at hone
        cases hone
      have hset := count_set hplace true
      simp only [handle, if_pos hmem]
      refine ⟨?_, ?_, fun _ => rfl⟩
      · show s.submitted + (places.set i true).count true ≤ s.started + 1
        simp only [Bool.toNat_false, Bool.toNat_true] at hset
        omega
      · show s.started + 1 ≤ 1
        omega
    · simp only [handle, if_neg hmem]
      show SubmitInvariant s (places.set i false)
      rw [set_place hplace]
      exact ⟨hcount, hstarted, hclosed⟩
  | beginSubmit =>
    have hset := count_set hplace false
    have hentitled : entitled = true := hallowed
    subst hentitled
    simp only [Bool.toNat_false, Bool.toNat_true] at hset
    by_cases hflight : s.submitInFlight = true
    · simp only [handle, if_pos hflight]
      show SubmitInvariant s (places.set i false)
      exact ⟨by omega, hstarted, hclosed⟩
    · simp only [handle, if_neg hflight]
      refine ⟨?_, hstarted, hclosed⟩
      show s.submitted + 1 + (places.set i false).count true ≤ s.started
      omega
  | _ =>
    show SubmitInvariant _ (places.set i entitled)
    rw [set_place hplace]
    exact ⟨hcount, hstarted, hclosed⟩

/-- An order whose submit nobody has started, and no operation under way. -/
structure Unsubmitted (s : OrderSystem) : Prop where
  started : s.shared.started = 0
  submitted : s.shared.submitted = 0
  running : s.running = []

theorem Unsubmitted.supervised {s : OrderSystem} (h : Unsubmitted s) :
    Supervised orderProtocol SubmitInvariant s := by
  refine ⟨[], ⟨?_, ?_, fun hone => ?_⟩, ?_⟩
  · rw [h.submitted]
    exact Nat.zero_le _
  · rw [h.started]
    exact Nat.zero_le 1
  · rw [h.started] at hone
    cases hone
  · rw [h.running]
    exact .nil

/-- **At most one submit**, in every run in which no write reopens the order after its submit was
started. -/
theorem submitted_atMostOnce (config : OrchestratorConfig) {s t : OrderSystem} (hs : Unsubmitted s)
    (hrun : Run (orderStep config) (Asks LeavesClosed) s t) : t.shared.submitted ≤ 1 := by
  obtain ⟨places, ⟨hcount, hstarted, -⟩, -⟩ := supervised_of_run (I := SubmitInvariant)
    (obeys_code config) answers_handle (fun state places h => by
      rw [SubmitInvariant, List.count_append]
      exact ⟨by simpa using h.1, h.2⟩)
    (fun state places i q e hI hplace hallowed hguard => hI.step hplace hallowed hguard)
    hs.supervised hrun
  omega

/-! ### Placed twice, signed twice -/

/-- An order that is ready, for a quote that needs a signature. -/
def unsigned : OrderSystem :=
  ⟨⟨⟨some "quote-1", none, .READY_TO_PLACE, .PLACE_ORDER, [], none, none, 0, 0⟩, 0, false, 0, 0⟩, []⟩

theorem unsigned_unsubmitted : Unsubmitted unsigned := ⟨rfl, rfl, rfl⟩

/-- Nothing blocks the order, and its submit is accepted. -/
def signable : PlaceAnswers where
  quote := some ⟨true⟩
  sellGuard := []
  fokBlocker := none
  readiness := .READY_TO_PLACE
  readinessBlockers := []
  submit := .ok ⟨"quote-1", .SUBMITTED, none, []⟩
  status := ⟨some ⟨true⟩, none⟩

def placedAndSigned : List (Action OrderOperation) :=
  .start (.place signable) :: List.replicate 5 (.advance 0) ++
    .start (.submitSignatures signable) :: List.replicate 10 (.advance 1)

/-- Placed once more in between; that operation writes what it decided on when all is done. -/
def placedTwice : List (Action OrderOperation) :=
  .start (.place signable) :: List.replicate 5 (.advance 0) ++
    .start (.place signable) :: List.replicate 3 (.advance 1) ++
    .start (.submitSignatures signable) :: List.replicate 10 (.advance 2) ++
    .advance 1 :: .start (.submitSignatures signable) :: List.replicate 3 (.advance 3)

/-- The late write asks for the signature again, and the second signature is submitted too. -/
theorem unsigned_submittedTwice : ¬ ∀ config s t, Unsubmitted s → Reaches (orderStep config) s t →
    t.shared.submitted ≤ 1 := by
  intro h
  have hplay : (play (orderStep ⟨true⟩) (fun _ _ => True) placedTwice unsigned).isSome := by
    decide +kernel
  have honce := h ⟨true⟩ unsigned _ unsigned_unsubmitted (Run.of_isSome _ hplay)
  exact absurd honce (by decide +kernel +revert)

theorem submitted_atMostOnce_signed : ∃ t, Unsubmitted unsigned ∧
    Run (orderStep ⟨true⟩) (Asks LeavesClosed) unsigned t ∧ t.shared.row.state = .SUBMITTED ∧
    t.shared.started = 1 ∧ t.shared.submitted ≤ 1 := by
  have hplay : (play (orderStep ⟨true⟩) (Asks LeavesClosed) placedAndSigned unsigned).isSome := by
    decide +kernel
  exact ⟨_, unsigned_unsubmitted, Run.of_isSome _ hplay, by decide +kernel +revert,
    by decide +kernel +revert,
    submitted_atMostOnce ⟨true⟩ unsigned_unsubmitted (Run.of_isSome _ hplay)⟩

end LotusRfq.Orders
