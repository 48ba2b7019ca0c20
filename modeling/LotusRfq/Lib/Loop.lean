import Mathlib.Data.Nat.Notation

/-!
# Loops that may not end

A loop is a partial step function: `none` when it has ended, `some` with the next state
otherwise. A state may step to itself, so termination is a property to be proved.

* **`Ends`** — the loop ends, and in which state;
* **`terminates_next`** — termination is decided one round later;
* **`not_terminates_of_stuck`** — a round that changes nothing never ends.
-/

namespace Loop

variable {σ : Type*} (step : σ → Option σ)

/-- From the first state the loop ends in the second. -/
inductive Ends : σ → σ → Prop where
  | stop {s : σ} (hstep : step s = none) : Ends s s
  | next {s s' t : σ} (hstep : step s = some s') (hrest : Ends s' t) : Ends s t

def Terminates (s : σ) : Prop := ∃ t, Ends step s t

variable {step}

theorem ends_next {s s' t : σ} (hstep : step s = some s') : Ends step s t ↔ Ends step s' t := by
  constructor
  · intro h
    cases h with
    | stop hnone => simp [hstep] at hnone
    | next hstep' hrest =>
      rw [hstep, Option.some.injEq] at hstep'
      exact hstep' ▸ hrest
  · exact .next hstep

theorem terminates_next {s s' : σ} (hstep : step s = some s') :
    Terminates step s ↔ Terminates step s' := by
  unfold Terminates
  simp only [ends_next hstep]

theorem ends_stop {s t : σ} (hstep : step s = none) : Ends step s t ↔ t = s := by
  constructor
  · intro h
    cases h with
    | stop _ => rfl
    | next hsome _ => simp [hstep] at hsome
  · rintro rfl
    exact .stop hstep

theorem not_terminates_of_stuck {s : σ} (hstep : step s = some s) : ¬ Terminates step s := by
  rintro ⟨t, h⟩
  suffices hne : ∀ s₀ t₀, Ends step s₀ t₀ → s₀ ≠ s from hne s t h rfl
  intro s₀ t₀ h₀
  induction h₀ with
  | stop hnone => rintro rfl; simp [hstep] at hnone
  | next hsome _ ih =>
    rintro rfl
    rw [hstep, Option.some.injEq] at hsome
    exact ih hsome.symm

end Loop
