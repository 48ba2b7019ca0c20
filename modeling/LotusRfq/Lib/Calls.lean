import Mathlib.Tactic.TypeStar

/-!
# Calls that may fail

Code that awaits calls on shared state, one at a time. A call may fail without having taken
effect, and it may fail after it has: its reply is lost. What the code does next depends on
whether the call returned.

* **`Awaited.settle_elim`** — what holds after every reply, from what holds where the call took
  effect and where it did not.
-/

namespace Calls

/-- How an awaited call ends. Calls that are asked for an answer return with one. -/
inductive Reply (α : Type*) where
  | done
  | lost (error : String)
  | refused (error : String)
  | answered (answer : α)
  deriving DecidableEq

/-- An awaited call: the shared state once it has taken effect, and how the code goes on. The
exception handler is told whether the call took effect. -/
structure Awaited (σ β : Type*) where
  effect : σ
  onReturn : β
  onThrow : Bool → String → β

variable {σ β α : Type*}

/-- The call ends; one that takes no answer is given none. -/
def Awaited.settle (awaited : Awaited σ β) (state : σ) : Reply α → Option (σ × β)
  | .done => some (awaited.effect, awaited.onReturn)
  | .lost error => some (awaited.effect, awaited.onThrow true error)
  | .refused error => some (state, awaited.onThrow false error)
  | .answered _ => none

/-- What holds of a call that took effect and of one that did not holds of every reply. -/
theorem Awaited.settle_elim {P : σ → β → Prop} {awaited : Awaited σ β} {state state' : σ}
    {next : β} {reply : Reply α} (h : awaited.settle state reply = some (state', next))
    (hreturn : P awaited.effect awaited.onReturn)
    (hlost : ∀ error, P awaited.effect (awaited.onThrow true error))
    (hrefused : ∀ error, P state (awaited.onThrow false error)) : P state' next := by
  cases reply with
  | done => cases h; exact hreturn
  | lost error => cases h; exact hlost error
  | refused error => cases h; exact hrefused error
  | answered => cases h

end Calls
