/-!
# LotusRfq — the states of an RFQ session

The table of the transitions of a session. A session's status is a text, and a text that is no
state has no transitions; nor has a session that has ended.

* **`canTransitionTo_EXECUTING`** — only an accepted session may start to execute;
* **`terminal_iff`** — a session has ended when the table has no way on.
-/

namespace LotusRfq.Rfq

inductive RFQState where
  | CREATED
  | BROADCAST
  | COLLECTING_QUOTES
  | RANKING
  | AWAITING_USER
  | ACCEPTED
  | EXECUTING
  | SETTLED
  | FAILED
  | EXPIRED
  deriving DecidableEq

def RFQ_STATES : List RFQState :=
  [.CREATED, .BROADCAST, .COLLECTING_QUOTES, .RANKING, .AWAITING_USER, .ACCEPTED, .EXECUTING,
    .SETTLED, .FAILED, .EXPIRED]

/-- The state as the `status` column has it. -/
def RFQState.text : RFQState → String
  | .CREATED => "CREATED"
  | .BROADCAST => "BROADCAST"
  | .COLLECTING_QUOTES => "COLLECTING_QUOTES"
  | .RANKING => "RANKING"
  | .AWAITING_USER => "AWAITING_USER"
  | .ACCEPTED => "ACCEPTED"
  | .EXECUTING => "EXECUTING"
  | .SETTLED => "SETTLED"
  | .FAILED => "FAILED"
  | .EXPIRED => "EXPIRED"

def asRFQState (value : String) : Option RFQState :=
  RFQ_STATES.find? fun state => state.text = value

def VALID_TRANSITIONS : RFQState → List RFQState
  | .CREATED => [.BROADCAST, .FAILED, .EXPIRED]
  | .BROADCAST => [.COLLECTING_QUOTES, .FAILED, .EXPIRED]
  | .COLLECTING_QUOTES => [.RANKING, .FAILED, .EXPIRED]
  | .RANKING => [.AWAITING_USER, .FAILED, .EXPIRED]
  | .AWAITING_USER => [.ACCEPTED, .FAILED, .EXPIRED]
  | .ACCEPTED => [.EXECUTING, .FAILED, .EXPIRED]
  | .EXECUTING => [.SETTLED, .FAILED]
  | .SETTLED => []
  | .FAILED => []
  | .EXPIRED => []

def canTransitionTo (currentState nextState : RFQState) : Bool :=
  (VALID_TRANSITIONS currentState).contains nextState

def RFQState.terminal : RFQState → Bool
  | .SETTLED | .FAILED | .EXPIRED => true
  | _ => false

@[simp] theorem asRFQState_text (state : RFQState) : asRFQState state.text = some state := by
  cases state <;> decide

variable {state : RFQState}

theorem text_of_asRFQState {value : String} (h : asRFQState value = some state) :
    value = state.text := by
  have htext := List.find?_some h
  exact (of_decide_eq_true htext).symm

theorem text_injective {state' : RFQState} (h : state.text = state'.text) : state = state' := by
  have hfound := asRFQState_text state
  rw [h, asRFQState_text, Option.some.injEq] at hfound
  exact hfound.symm

theorem canTransitionTo_EXECUTING : canTransitionTo state .EXECUTING ↔ state = .ACCEPTED := by
  cases state <;> decide

theorem terminal_iff : state.terminal ↔ VALID_TRANSITIONS state = [] := by
  cases state <;> decide

theorem canTransitionTo_of_EXECUTING :
    canTransitionTo .EXECUTING state ↔ state = .SETTLED ∨ state = .FAILED := by
  cases state <;> decide

end LotusRfq.Rfq
