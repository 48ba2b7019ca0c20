import Mathlib.Data.List.Basic

/-!
# LotusRfq — the states of an execution

The table of the transitions of an execution. A transition that the table does not have throws.

* **`canTransitionTo_COMPLETED`** — only a settled execution may complete;
* **`terminal_iff`** — an execution has ended when the table has no way on.
-/

namespace LotusRfq.Execution

inductive ExecutionStateV0 where
  | CREATED
  | PREFLIGHT_CHECKING
  | PREFLIGHT_FAILED
  | READY_TO_SUBMIT
  | SUBMITTED
  | PARTIAL_FILL
  | FILLED_PENDING_SETTLEMENT
  | SETTLEMENT_VERIFIED
  | GHOST_FILL_SUSPECTED
  | GHOST_FILL_CONFIRMED
  | REROUTING
  | REROUTED
  | FAILED_CLOSED
  | COMPLETED
  | CANCELLED
  deriving DecidableEq

def ExecutionStateV0.text : ExecutionStateV0 → String
  | .CREATED => "CREATED"
  | .PREFLIGHT_CHECKING => "PREFLIGHT_CHECKING"
  | .PREFLIGHT_FAILED => "PREFLIGHT_FAILED"
  | .READY_TO_SUBMIT => "READY_TO_SUBMIT"
  | .SUBMITTED => "SUBMITTED"
  | .PARTIAL_FILL => "PARTIAL_FILL"
  | .FILLED_PENDING_SETTLEMENT => "FILLED_PENDING_SETTLEMENT"
  | .SETTLEMENT_VERIFIED => "SETTLEMENT_VERIFIED"
  | .GHOST_FILL_SUSPECTED => "GHOST_FILL_SUSPECTED"
  | .GHOST_FILL_CONFIRMED => "GHOST_FILL_CONFIRMED"
  | .REROUTING => "REROUTING"
  | .REROUTED => "REROUTED"
  | .FAILED_CLOSED => "FAILED_CLOSED"
  | .COMPLETED => "COMPLETED"
  | .CANCELLED => "CANCELLED"

def transitions : ExecutionStateV0 → List ExecutionStateV0
  | .CREATED => [.PREFLIGHT_CHECKING, .CANCELLED]
  | .PREFLIGHT_CHECKING => [.PREFLIGHT_FAILED, .READY_TO_SUBMIT]
  | .PREFLIGHT_FAILED => [.FAILED_CLOSED, .CANCELLED]
  | .READY_TO_SUBMIT => [.SUBMITTED, .FAILED_CLOSED, .CANCELLED]
  | .SUBMITTED => [.PARTIAL_FILL, .FILLED_PENDING_SETTLEMENT, .FAILED_CLOSED]
  | .PARTIAL_FILL => [.FILLED_PENDING_SETTLEMENT, .REROUTING, .FAILED_CLOSED]
  | .FILLED_PENDING_SETTLEMENT =>
    [.SETTLEMENT_VERIFIED, .GHOST_FILL_SUSPECTED, .GHOST_FILL_CONFIRMED, .FAILED_CLOSED]
  | .SETTLEMENT_VERIFIED => [.COMPLETED]
  | .GHOST_FILL_SUSPECTED => [.GHOST_FILL_CONFIRMED, .REROUTING, .FAILED_CLOSED]
  | .GHOST_FILL_CONFIRMED => [.REROUTING, .FAILED_CLOSED]
  | .REROUTING => [.REROUTED, .FAILED_CLOSED]
  | .REROUTED => [.SUBMITTED, .FAILED_CLOSED]
  | .FAILED_CLOSED => []
  | .COMPLETED => []
  | .CANCELLED => []

def canTransitionTo (state next : ExecutionStateV0) : Bool := (transitions state).contains next

def ExecutionStateV0.terminal : ExecutionStateV0 → Bool
  | .FAILED_CLOSED | .COMPLETED | .CANCELLED => true
  | _ => false

theorem canTransitionTo_COMPLETED {state : ExecutionStateV0} :
    canTransitionTo state .COMPLETED = true ↔ state = .SETTLEMENT_VERIFIED := by
  cases state <;> decide

theorem terminal_iff {state : ExecutionStateV0} :
    state.terminal = true ↔ ∀ next, canTransitionTo state next = false := by
  constructor
  · intro h next
    cases state <;> first | rfl | cases h
  · intro h
    have hclosed := h .FAILED_CLOSED
    have hready := h .READY_TO_SUBMIT
    have hchecking := h .PREFLIGHT_CHECKING
    have hcompleted := h .COMPLETED
    revert hclosed hready hchecking hcompleted
    cases state <;> decide

end LotusRfq.Execution
