import Mathlib.Data.List.Basic

/-!
# LotusRfq — the states of an execution record

`VALID_TRANSITIONS` and `canTransitionExecutionState`. A transition that the table does not have
throws.
-/

namespace LotusRfq.Control

inductive ExecutionState where
  | CREATED
  | CHECKED
  | QUOTED
  | AWAITING_APPROVAL
  | APPROVED
  | EXECUTING
  | PARTIALLY_FILLED
  | FILLED
  | FAILED
  | SYNC_PENDING
  | SETTLED
  | RECONCILING
  deriving DecidableEq

def VALID_TRANSITIONS : ExecutionState → List ExecutionState
  | .CREATED => [.CHECKED, .FAILED]
  | .CHECKED => [.QUOTED, .FAILED]
  | .QUOTED => [.AWAITING_APPROVAL, .APPROVED, .FAILED]
  | .AWAITING_APPROVAL => [.APPROVED, .FAILED, .RECONCILING]
  | .APPROVED => [.EXECUTING, .FAILED]
  | .EXECUTING => [.PARTIALLY_FILLED, .FILLED, .FAILED, .SYNC_PENDING]
  | .PARTIALLY_FILLED => [.EXECUTING, .FILLED, .FAILED, .SYNC_PENDING, .RECONCILING]
  | .FILLED => [.SYNC_PENDING, .SETTLED, .RECONCILING]
  | .FAILED => [.RECONCILING]
  | .SYNC_PENDING => [.FILLED, .SETTLED, .FAILED, .RECONCILING]
  | .SETTLED => []
  | .RECONCILING => [.EXECUTING, .FAILED, .SETTLED, .SYNC_PENDING]

def canTransitionExecutionState (current : Option ExecutionState) (next : ExecutionState) : Bool :=
  match current with
  | none => next = .CREATED
  | some current => (VALID_TRANSITIONS current).contains next

end LotusRfq.Control
