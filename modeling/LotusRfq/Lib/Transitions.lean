import Mathlib.Tactic.TypeStar

/-!
# Systems that take actions

A system is a partial step function: `step s a` is the state after action `a`, or `none` when
`s` cannot take it. A run takes actions one after another, each under a guard; the run of the
whole system is the one whose guard is `True`.

* **`Run.invariant`** — what every guarded action preserves holds all along a guarded run;
* **`Run.mono`** — a run under a guard is a run under every weaker one;
* **`Run.of_play`** — a list of actions that plays through is a run;
* **`exists_unguarded`** — one that does not play under a guard has a first action that breaks it;
* **`pairwise_states_iff`** — a transitive relation holds from every state to every later one when
  it holds at every step;
* **`eachStep_iff`** — along a list of actions, every step does what it should exactly when every
  action meets its guard.
-/

namespace Transitions

open List

variable {σ α : Type*} (step : σ → α → Option σ) (guard : σ → α → Prop)

/-- The states reached from `s` by actions that meet the guard where they are taken. -/
inductive Run (s : σ) : σ → Prop where
  | refl : Run s s
  | tail {t u : σ} (hrun : Run s t) (a : α) (hguard : guard t a) (hstep : step t a = some u) :
      Run s u

abbrev Reaches (s t : σ) : Prop := Run step (fun _ _ => True) s t

/-- Take the actions in turn; `none` when one is not possible or does not meet the guard. -/
def play [∀ s a, Decidable (guard s a)] : List α → σ → Option σ
  | [], s => some s
  | a :: as, s => if guard s a then (step s a).bind (play as) else none

variable {step guard}

variable {s t : σ} {P : σ → Prop} {actions : List α}

/-- **Invariant rule.** What holds at the start and is kept by every guarded action holds in
every state of the run. -/
theorem Run.invariant (h : Run step guard s t) (hs : P s)
    (hstep : ∀ t a u, P t → guard t a → step t a = some u → P u) : P t := by
  induction h with
  | refl => exact hs
  | tail _ a hguard hnext ih => exact hstep _ a _ ih hguard hnext

theorem Run.mono {guard' : σ → α → Prop} (hguard : ∀ s a, guard s a → guard' s a)
    (h : Run step guard s t) : Run step guard' s t := by
  induction h with
  | refl => exact .refl
  | tail _ a hg hnext ih => exact .tail ih a (hguard _ a hg) hnext

theorem Run.trans {u : σ} (hst : Run step guard s t) (htu : Run step guard t u) :
    Run step guard s u := by
  induction htu with
  | refl => exact hst
  | tail _ a hg hnext ih => exact .tail ih a hg hnext

theorem Run.of_play [∀ s a, Decidable (guard s a)] (actions : List α)
    (hplay : play step guard actions s = some t) : Run step guard s t := by
  induction actions generalizing s with
  | nil =>
    rw [play, Option.some.injEq] at hplay
    exact hplay ▸ .refl
  | cons a actions ih =>
    rw [play] at hplay
    split at hplay
    next hg =>
      cases hnext : step s a with
      | none => simp [hnext] at hplay
      | some u =>
        rw [hnext, Option.bind_some] at hplay
        exact (Run.tail .refl a hg hnext).trans (ih hplay)
    next => simp at hplay

theorem Run.of_isSome [∀ s a, Decidable (guard s a)] (actions : List α)
    (hplay : (play step guard actions s).isSome) :
    Run step guard s ((play step guard actions s).get hplay) :=
  .of_play actions (Option.some_get hplay).symm

/-- **The first action that does not meet the guard.** A list of actions that plays through, but
not under the guard, is a guarded run up to an action that breaks the guard, and a run from there. -/
theorem exists_unguarded [∀ s a, Decidable (guard s a)]
    (hplay : play step (fun _ _ => True) actions s = some t)
    (hguarded : play step guard actions s ≠ some t) :
    ∃ u a v, Run step guard s u ∧ ¬ guard u a ∧ step u a = some v ∧ Reaches step v t := by
  induction actions generalizing s with
  | nil => exact absurd hplay hguarded
  | cons a actions ih =>
    rw [play, if_pos trivial] at hplay
    obtain ⟨u, hstep, hrest⟩ := Option.bind_eq_some_iff.mp hplay
    by_cases hg : guard s a
    · rw [play, if_pos hg, hstep, Option.bind_some] at hguarded
      obtain ⟨v, b, w, hrun, hbreaks, hnext, hreach⟩ := ih hrest hguarded
      exact ⟨v, b, w, (Run.tail .refl a hg hstep).trans hrun, hbreaks, hnext, hreach⟩
    · exact ⟨s, a, u, .refl, hg, hstep, Run.of_play actions hrest⟩

/-- Every step that is taken when the actions are taken in turn is as `R` says. -/
def EachStep (step : σ → α → Option σ) (R : σ → α → σ → Prop) : List α → σ → Prop
  | [], _ => True
  | a :: as, s => ∀ t, step s a = some t → R s a t ∧ EachStep step R as t

/-- **Step by step.** Where a step from a good state is right exactly when its action meets the
guard, and leaves a good state when it is right, the steps along a list of actions are all right
exactly when the actions all meet their guards. All actions are as `Q` says. -/
theorem eachStep_iff_of_forall {Q : α → Prop} {R : σ → α → σ → Prop}
    (hkeep : ∀ s a t, P s → Q a → step s a = some t → R s a t → P t)
    (hright : ∀ s a t, P s → Q a → step s a = some t → (R s a t ↔ guard s a)) (hs : P s)
    (hactions : ∀ a ∈ actions, Q a) :
    EachStep step R actions s ↔ EachStep step (fun s a _ => guard s a) actions s := by
  induction actions generalizing s with
  | nil => exact Iff.rfl
  | cons a actions ih =>
    have ha := hactions a mem_cons_self
    have hlater : ∀ b ∈ actions, Q b := fun b hb => hactions b (mem_cons_of_mem a hb)
    refine forall_congr' fun t => forall_congr' fun hstep => ?_
    rw [hright s a t hs ha hstep]
    refine and_congr_right fun hguard => ih ?_ hlater
    exact hkeep s a t hs ha hstep ((hright s a t hs ha hstep).mpr hguard)

theorem eachStep_iff {R : σ → α → σ → Prop}
    (hkeep : ∀ s a t, P s → step s a = some t → R s a t → P t)
    (hright : ∀ s a t, P s → step s a = some t → (R s a t ↔ guard s a)) (hs : P s) :
    EachStep step R actions s ↔ EachStep step (fun s a _ => guard s a) actions s :=
  eachStep_iff_of_forall (Q := fun _ => True) (fun s a t hP _ => hkeep s a t hP)
    (fun s a t hP _ => hright s a t hP) hs fun _ _ => trivial

theorem eachStep_of_play [∀ s a, Decidable (guard s a)]
    (hplay : (play step guard actions s).isSome) :
    EachStep step (fun s a _ => guard s a) actions s := by
  induction actions generalizing s with
  | nil => trivial
  | cons a actions ih =>
    intro t hstep
    rw [play] at hplay
    split at hplay
    next hguard =>
      rw [hstep, Option.bind_some] at hplay
      exact ⟨hguard, ih hplay⟩
    next => cases hplay

/-- The states along a list of actions, up to the first that is not possible. -/
def states (step : σ → α → Option σ) : List α → σ → List σ
  | [], s => [s]
  | a :: as, s => s :: match step s a with
    | some t => states step as t
    | none => []

theorem mem_states_self (actions : List α) (s : σ) : s ∈ states step actions s := by
  cases actions with
  | nil => exact mem_singleton_self s
  | cons a actions => exact mem_cons_self

theorem forall_mem_states (hstep : ∀ s a t, P s → step s a = some t → P t) (hs : P s) :
    ∀ t ∈ states step actions s, P t := by
  induction actions generalizing s with
  | nil =>
    intro t ht
    rw [mem_singleton.mp ht]
    exact hs
  | cons a actions ih =>
    intro t ht
    rcases mem_cons.mp ht with rfl | hlater
    · exact hs
    · cases hnext : step s a with
      | none =>
        rw [hnext] at hlater
        cases hlater
      | some u =>
        rw [hnext] at hlater
        exact ih (hstep s a u hs hnext) t hlater

/-- **From every state to every later one.** -/
theorem pairwise_states_iff {R : σ → σ → Prop} (htrans : ∀ {s t u : σ}, R s t → R t u → R s u)
    (actions : List α) (s : σ) :
    (states step actions s).Pairwise R ↔ EachStep step (fun s _ t => R s t) actions s := by
  induction actions generalizing s with
  | nil => exact ⟨fun _ => trivial, fun _ => pairwise_singleton R s⟩
  | cons a actions ih =>
    rw [states]
    cases hstep : step s a with
    | none =>
      refine ⟨fun _ t ht => ?_, fun _ => pairwise_singleton R s⟩
      rw [hstep] at ht
      cases ht
    | some t =>
      rw [pairwise_cons, ih t]
      constructor
      · rintro ⟨hlater, hrest⟩ u hu
        rw [hstep, Option.some.injEq] at hu
        subst hu
        exact ⟨hlater t (mem_states_self actions t), hrest⟩
      · intro h
        obtain ⟨hnext, hrest⟩ := h t hstep
        refine ⟨fun u hu => ?_, hrest⟩
        have hpairs := (ih t).mpr hrest
        cases actions with
        | nil =>
          rw [mem_singleton.mp hu]
          exact hnext
        | cons b actions =>
          simp only [states] at hu hpairs
          rcases mem_cons.mp hu with rfl | hlater
          · exact hnext
          · exact htrans hnext ((pairwise_cons.mp hpairs).1 u hlater)

end Transitions
