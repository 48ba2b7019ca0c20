import LotusRfq.Lib.Processes

/-!
# Programs and the operations they run

A system that remembers which operation each of its programs was started for, so that a guard can
speak of the operations under way.

* **`Accounted.underWay`** — an operation whose program is not at an end is under way;
* **`accounted_of_run`** — what every guarded start and every guarded request keeps holds along a
  run.
-/

namespace Processes

open Transitions List

variable {σ E O Q : Type} {R : E → Type}

structure Labelled (O σ E : Type) (R : E → Type) where
  operations : List O
  system : System σ E R

/-- The operations whose programs have not ended. -/
def Labelled.underWay (s : Labelled O σ E R) : List O :=
  (s.operations.zip s.system.running).filterMap fun (operation, program) =>
    match program with
    | .ask _ _ => some operation
    | .ret _ => none

def labelledStep (code : O → Code E R Unit) (handle : (e : E) → σ → R e × σ)
    (s : Labelled O σ E R) (action : Action O) : Option (Labelled O σ E R) :=
  let operations := match action with
    | .start operation => s.operations ++ [operation]
    | .advance _ => s.operations
  (step code handle s.system action).map fun system => ⟨operations, system⟩

/-- A start under `B`, a request under `G`; both see the operations under way. -/
def Guarded (B : σ → List O → O → Prop) (G : σ → List O → E → Prop) (s : Labelled O σ E R) :
    Action O → Prop
  | .start operation => B s.system.shared s.underWay operation
  | .advance i => ∀ e ∈ asked s.system i, G s.system.shared s.underWay e

instance (B : σ → List O → O → Prop) (G : σ → List O → E → Prop)
    [∀ state underWay operation, Decidable (B state underWay operation)]
    [∀ state underWay e, Decidable (G state underWay e)] (s : Labelled O σ E R)
    (action : Action O) : Decidable (Guarded B G s action) :=
  match action with
  | .start operation => inferInstanceAs (Decidable (B _ _ operation))
  | .advance i => inferInstanceAs (Decidable (∀ e ∈ asked _ i, G _ _ e))

/-- Every program is somewhere in the protocol, at a place of its operation, and at its end where
`done` says. -/
def Accounted (p : Protocol E R Q) (label : Q → O) (done : Q → Prop) (I : σ → List Q → Prop)
    (s : Labelled O σ E R) : Prop :=
  ∃ places, I s.system.shared places ∧ places.map label = s.operations ∧
    List.Forall₂ (fun q program => Obeys p (fun q _ => done q) q program) places s.system.running

variable {code : O → Code E R Unit} {handle : (e : E) → σ → R e × σ} {s t : Labelled O σ E R}
  {p : Protocol E R Q} {label : Q → O} {done : Q → Prop} {I : σ → List Q → Prop}
  {B : σ → List O → O → Prop} {G : σ → List O → E → Prop}

theorem mem_underWay {places : List Q} (hlabels : places.map label = s.operations)
    (hobeys : List.Forall₂ (fun q program => Obeys p (fun q _ => done q) q program) places
      s.system.running) {q : Q} (hmem : q ∈ places) (hnot : ¬ done q) : label q ∈ s.underWay := by
  obtain ⟨i, hi, rfl⟩ := getElem_of_mem hmem
  have hi' : i < s.system.running.length := hobeys.length_eq ▸ hi
  have hplace := (List.forall₂_iff_get.mp hobeys).2 i hi hi'
  rw [get_eq_getElem, get_eq_getElem] at hplace
  refine mem_filterMap.mpr ⟨(label places[i], s.system.running[i]), ?_, ?_⟩
  · rw [← hlabels]
    have hlength : i < ((places.map label).zip s.system.running).length := by
      rw [length_zip, length_map]
      omega
    refine mem_iff_getElem.mpr ⟨i, hlength, ?_⟩
    rw [getElem_zip, getElem_map]
  · cases hprogram : s.system.running[i] with
    | ask e next => rfl
    | ret a =>
      rw [hprogram] at hplace
      exact absurd hplace hnot

section Run

variable {start : O → Q}
  (hcode : ∀ operation, Obeys p (fun q _ => done q) (start operation) (code operation))
  (hlabel : ∀ operation, label (start operation) = operation)
  (hnext : ∀ q e r, p.allows q e → label (p.next q e r) = label q)
  (hanswers : ∀ e state, p.answers e (handle e state).1)
  (hstart : ∀ state places underWay operation, I state places →
    (∀ q ∈ places, ¬ done q → label q ∈ underWay) → B state underWay operation →
    I state (places ++ [start operation]))
  (hstep : ∀ state places underWay (i : ℕ) q e, I state places →
    (∀ q ∈ places, ¬ done q → label q ∈ underWay) → places[i]? = some q → p.allows q e →
    G state underWay e → I (handle e state).2 (places.set i (p.next q e (handle e state).1)))
include hcode hlabel hnext hanswers hstart hstep

/-- **One step.** -/
theorem Accounted.step {action : Action O} (hs : Accounted p label done I s)
    (hguard : Guarded B G s action) (h : labelledStep code handle s action = some t) :
    Accounted p label done I t := by
  obtain ⟨places, hI, hlabels, hobeys⟩ := hs
  have hunder : ∀ q ∈ places, ¬ done q → label q ∈ s.underWay :=
    fun q hmem hnot => mem_underWay hlabels hobeys hmem hnot
  obtain ⟨system, hsystem, rfl⟩ := Option.map_eq_some_iff.mp h
  cases action with
  | start operation =>
    cases hsystem
    refine ⟨places ++ [start operation], hstart _ _ _ _ hI hunder hguard, ?_,
      rel_append hobeys (.cons (hcode operation) .nil)⟩
    rw [map_append, hlabels, map_singleton, hlabel]
  | advance i =>
    simp only [Processes.step] at hsystem
    split at hsystem
    next e next hat =>
      cases hsystem
      obtain ⟨q, hplace, hallowed, hobeys'⟩ := place_of_ask hobeys hat
      have hasked : asked s.system i = some e := by rw [asked, hat]
      refine ⟨_, hstep s.system.shared places _ i q e hI hunder hplace hallowed
        (hguard e hasked), ?_, hobeys' _ (hanswers e s.system.shared)⟩
      -- a program stays with its operation
      rw [map_set, hnext q e _ hallowed, ← hlabels]
      refine set_place ?_
      rw [getElem?_map, hplace, Option.map_some]
    next => cases hsystem

/-- **Along a run** under a guard. -/
theorem accounted_of_run (hs : Accounted p label done I s)
    (hrun : Run (labelledStep code handle) (Guarded B G) s t) : Accounted p label done I t :=
  hrun.invariant hs fun _ _ _ hs hguard h =>
    hs.step hcode hlabel hnext hanswers hstart hstep hguard h

end Run

end Processes
