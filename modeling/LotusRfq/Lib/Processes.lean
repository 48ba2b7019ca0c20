import LotusRfq.Lib.Transitions
import Mathlib.Data.List.Forall2

/-!
# Programs that run side by side

A program makes requests of a shared state, one at a time; what it asks for next depends on the
answers. Programs that run side by side have their requests answered in any order, and one that is
never answered again just stops.

A protocol says what a program may ask for, given what it has asked and been answered so far.

* **`obeys_bind`** — programs that obey a protocol, put together;
* **`Supervised.step`** — an invariant over the shared state and where every program is in its
  protocol, request by request;
* **`supervised_of_run`** — and along runs.

A program that is alone has its requests answered one after another (`Code.run`).
-/

namespace Processes

open Transitions List

variable {E : Type} {R : E → Type} {α β σ O Q : Type}

/-- A program whose request `e` is answered with an `R e`. -/
inductive Code (E : Type) (R : E → Type) (α : Type) where
  | ret (a : α)
  | ask (e : E) (next : R e → Code E R α)

protected def Code.bind : Code E R α → (α → Code E R β) → Code E R β
  | .ret a, f => f a
  | .ask e next, f => .ask e fun r => (next r).bind f

instance : Monad (Code E R) where
  pure := Code.ret
  bind := Code.bind

def request (e : E) : Code E R (R e) := .ask e .ret

/-! ## One program alone -/

/-- A program that is alone: what it ends with, and the state it leaves. -/
def Code.run (handle : (e : E) → σ → R e × σ) : Code E R α → σ → α × σ
  | .ret a, state => (a, state)
  | .ask e next, state => (next (handle e state).1).run handle (handle e state).2

variable {handle : (e : E) → σ → R e × σ}

@[simp] theorem run_pure (a : α) (state : σ) :
    (pure a : Code E R α).run handle state = (a, state) := rfl

@[simp] theorem run_request (e : E) (state : σ) : (request e).run handle state = handle e state :=
  rfl

@[simp] theorem run_bind (code : Code E R α) (f : α → Code E R β) (state : σ) :
    (code >>= f).run handle state =
      (f (code.run handle state).1).run handle (code.run handle state).2 := by
  induction code generalizing state with
  | ret a => rfl
  | ask e next ih => exact ih (handle e state).1 (handle e state).2

/-! ## Protocols -/

/-- What may be asked for where, what may be answered, and where that leads. -/
structure Protocol (E : Type) (R : E → Type) (Q : Type) where
  allows : Q → E → Prop
  answers : (e : E) → R e → Prop
  next : Q → (e : E) → R e → Q

variable {p : Protocol E R Q} {post : Q → α → Prop} {q : Q}

/-- From `q` the program asks only for what is allowed, and ends with `post`. -/
def Obeys (p : Protocol E R Q) (post : Q → α → Prop) : Q → Code E R α → Prop
  | q, .ret a => post q a
  | q, .ask e next => p.allows q e ∧ ∀ r, p.answers e r → Obeys p post (p.next q e r) (next r)

theorem obeys_pure {a : α} (h : post q a) : Obeys p post q (pure a) := h

variable {e : E} {code : Code E R α}

theorem obeys_request {post : Q → R e → Prop} (hallowed : p.allows q e)
    (h : ∀ r, p.answers e r → post (p.next q e r) r) : Obeys p post q (request e) :=
  ⟨hallowed, h⟩

theorem obeys_request_bind {f : R e → Code E R β} {post : Q → β → Prop} (hallowed : p.allows q e)
    (hf : ∀ r, p.answers e r → Obeys p post (p.next q e r) (f r)) :
    Obeys p post q (request e >>= f) :=
  ⟨hallowed, hf⟩

theorem obeys_bind {f : α → Code E R β} {M : Q → α → Prop} {post : Q → β → Prop}
    (hcode : Obeys p M q code) (hf : ∀ q a, M q a → Obeys p post q (f a)) :
    Obeys p post q (code >>= f) := by
  induction code generalizing q with
  | ret a => exact hf q a hcode
  | ask e next ih => exact ⟨hcode.1, fun r hr => ih r (hcode.2 r hr)⟩

theorem obeys_ite {c : Prop} [Decidable c] {code' : Code E R α} (h : c → Obeys p post q code)
    (h' : ¬ c → Obeys p post q code') : Obeys p post q (if c then code else code') := by
  split
  next hc => exact h hc
  next hc => exact h' hc

theorem Obeys.weaken {post' : Q → α → Prop} (h : Obeys p post q code)
    (hpost : ∀ q a, post q a → post' q a) : Obeys p post' q code := by
  induction code generalizing q with
  | ret a => exact hpost q a h
  | ask e next ih => exact ⟨h.1, fun r hr => ih r (h.2 r hr)⟩

/-! ### What a program has asked -/

/-- The requests of a part of a run, with their answers. -/
def Code.Traces : Code E R α → List ((e : E) × R e) → Prop
  | _, [] => True
  | .ret _, _ :: _ => False
  | .ask e next, event :: rest => ∃ r, event = ⟨e, r⟩ ∧ (next r).Traces rest

/-- Every request was allowed where it was made. -/
def Protocol.Follows (p : Protocol E R Q) : Q → List ((e : E) × R e) → Prop
  | _, [] => True
  | q, event :: rest => p.allows q event.1 ∧ p.Follows (p.next q event.1 event.2) rest

def Code.log (handle : (e : E) → σ → R e × σ) : Code E R α → σ → List ((e : E) × R e)
  | .ret _, _ => []
  | .ask e next, state =>
    ⟨e, (handle e state).1⟩ :: (next (handle e state).1).log handle (handle e state).2

theorem traces_log (handle : (e : E) → σ → R e × σ) (code : Code E R α) (state : σ) :
    code.Traces (code.log handle state) := by
  induction code generalizing state with
  | ret a => trivial
  | ask e next ih => exact ⟨_, rfl, ih _ _⟩

theorem Obeys.follows (h : Obeys p post q code) {log : List ((e : E) × R e)}
    (hlog : code.Traces log) (hanswers : ∀ event ∈ log, p.answers event.1 event.2) :
    p.Follows q log := by
  induction log generalizing q code with
  | nil => trivial
  | cons event rest ih =>
    cases code with
    | ret a => cases hlog
    | ask e next =>
      obtain ⟨r, rfl, hrest⟩ := hlog
      have hanswer := hanswers _ mem_cons_self
      exact ⟨h.1, ih (h.2 r hanswer) hrest fun event hevent =>
        hanswers event (mem_cons_of_mem _ hevent)⟩

/-! ## Side by side -/

structure System (σ E : Type) (R : E → Type) where
  shared : σ
  running : List (Code E R Unit)

inductive Action (O : Type) where
  | start (operation : O)
  | advance (i : ℕ)

/-- The next request of the program `i`. -/
def asked (s : System σ E R) (i : ℕ) : Option E :=
  match s.running[i]? with
  | some (.ask e _) => some e
  | _ => none

/-- A program starts, or its next request is answered. -/
def step (code : O → Code E R Unit) (handle : (e : E) → σ → R e × σ) (s : System σ E R) :
    Action O → Option (System σ E R)
  | .start operation => some { s with running := s.running ++ [code operation] }
  | .advance i =>
    match s.running[i]? with
    | some (.ask e next) =>
      some ⟨(handle e s.shared).2, s.running.set i (next (handle e s.shared).1)⟩
    | _ => none

/-- What is asked for is asked under `G`. -/
def Asks (G : σ → E → Prop) (s : System σ E R) : Action O → Prop
  | .start _ => True
  | .advance i => ∀ e ∈ asked s i, G s.shared e

instance (G : σ → E → Prop) [∀ state e, Decidable (G state e)] (s : System σ E R)
    (action : Action O) : Decidable (Asks G s action) := by
  unfold Asks
  cases action <;> infer_instance

variable {code : O → Code E R Unit} {handle : (e : E) → σ → R e × σ} {s t : System σ E R}

/-- Every program is somewhere in the protocol, and `I` holds of the shared state and of where. -/
def Supervised (p : Protocol E R Q) (I : σ → List Q → Prop) (s : System σ E R) : Prop :=
  ∃ places, I s.shared places ∧
    List.Forall₂ (fun q program => Obeys p (fun _ _ => True) q program) places s.running

section

variable {places : List Q} {i : ℕ} (hplace : places[i]? = some q)

include hplace

theorem set_place : places.set i q = places := by
  obtain ⟨hi, rfl⟩ := List.getElem?_eq_some_iff.mp hplace
  exact List.set_getElem_self hi

theorem getElem?_set_place (q' : Q) (j : ℕ) :
    (places.set i q')[j]? = if j = i then some q' else places[j]? := by
  have hi : i < places.length := (List.getElem?_eq_some_iff.mp hplace).1
  by_cases h : j = i
  · rw [h, if_pos rfl, List.getElem?_set_self hi]
  · rw [if_neg h, List.getElem?_set_ne (Ne.symm h)]

theorem countP_set_place (c : Q → Bool) (q' : Q) :
    (places.set i q').countP c + (c q).toNat = places.countP c + (c q').toNat := by
  induction places generalizing i with
  | nil => cases hplace
  | cons head places ih =>
    cases i with
    | zero =>
      cases hplace
      rw [set_cons_zero, countP_cons, countP_cons]
      cases c q <;> cases c q' <;> simp
    | succ i =>
      have hrest := ih (i := i) (by simpa using hplace)
      rw [set_cons_succ, countP_cons, countP_cons]
      omega

theorem not_of_countP_le_one {c : Q → Bool} (hone : places.countP c ≤ 1) (hq : c q = true)
    {q' place : Q} (hmem : place ∈ places.set i q') (hplaceq : c place = true) : place = q' := by
  induction places generalizing i with
  | nil => cases hplace
  | cons head places ih =>
    rw [countP_cons] at hone
    cases i with
    | zero =>
      cases hplace
      rcases mem_cons.mp hmem with rfl | hrest
      · rfl
      · have hpos : 0 < places.countP c := countP_pos_iff.mpr ⟨place, hrest, hplaceq⟩
        rw [if_pos hq] at hone
        omega
    | succ i =>
      have hat : places[i]? = some q := by simpa using hplace
      have hpos : 0 < places.countP c := countP_pos_iff.mpr ⟨q, mem_of_getElem? hat, hq⟩
      rcases mem_cons.mp hmem with rfl | hrest
      · rw [if_pos hplaceq] at hone
        omega
      · exact ih hat (by omega) hrest

end

theorem place_of_ask {post : Q → Unit → Prop} {places : List Q} {running : List (Code E R Unit)}
    (hobeys : List.Forall₂ (fun q program => Obeys p post q program) places running) {i : ℕ}
    {next : R e → Code E R Unit} (hat : running[i]? = some (.ask e next)) :
    ∃ q, places[i]? = some q ∧ p.allows q e ∧
      ∀ r, p.answers e r → List.Forall₂ (fun q program => Obeys p post q program)
        (places.set i (p.next q e r)) (running.set i (next r)) := by
  obtain ⟨hi, hprogram⟩ := List.getElem?_eq_some_iff.mp hat
  have hlength : i < places.length := hobeys.length_eq ▸ hi
  have hplace : Obeys p post places[i] running[i] := (List.forall₂_iff_get.mp hobeys).2 i hlength hi
  rw [hprogram] at hplace
  refine ⟨places[i], getElem?_eq_getElem hlength, hplace.1, fun r hr => ?_⟩
  -- the other programs stay where they are
  refine List.forall₂_iff_get.mpr ⟨by simp [hobeys.length_eq], fun j hj hj' => ?_⟩
  rw [get_eq_getElem, get_eq_getElem, getElem_set, getElem_set]
  split
  · exact hplace.2 r hr
  · exact (List.forall₂_iff_get.mp hobeys).2 j (by simpa using hj) (by simpa using hj')

theorem Supervised.place {I : σ → List Q → Prop} (h : Supervised p I s) {i : ℕ}
    {next : R e → Code E R Unit} (hat : s.running[i]? = some (.ask e next)) :
    ∃ places q, I s.shared places ∧ places[i]? = some q ∧ p.allows q e ∧
      ∀ r, p.answers e r → List.Forall₂ (fun q program => Obeys p (fun _ _ => True) q program)
        (places.set i (p.next q e r)) (s.running.set i (next r)) := by
  obtain ⟨places, hI, hobeys⟩ := h
  obtain ⟨q, hplace, hallowed, hnext⟩ := place_of_ask hobeys hat
  exact ⟨places, q, hI, hplace, hallowed, hnext⟩

section

variable {I : σ → List Q → Prop} {G : σ → E → Prop} {start : Q}
  (hcode : ∀ operation, Obeys p (fun _ _ => True) start (code operation))
  (hanswers : ∀ e state, p.answers e (handle e state).1)
  (hstart : ∀ state places, I state places → I state (places ++ [start]))
  (hstep : ∀ state places (i : ℕ) q e, I state places → places[i]? = some q → p.allows q e → G
    state e → I (handle e state).2 (places.set i (p.next q e (handle e state).1)))
  (hs : Supervised p I s)

include hcode hanswers hstart hstep hs

/-- **One step** keeps what every allowed request keeps. -/
theorem Supervised.step {action : Action O} (hguard : Asks G s action)
    (h : Processes.step code handle s action = some t) : Supervised p I t := by
  cases action with
  | start operation =>
    cases h
    obtain ⟨places, hI, hobeys⟩ := hs
    exact ⟨places ++ [start], hstart _ _ hI, rel_append hobeys (.cons (hcode operation) .nil)⟩
  | advance i =>
    simp only [Processes.step] at h
    split at h
    next e next hat =>
      cases h
      obtain ⟨places, q, hI, hplace, hallowed, hobeys⟩ := hs.place hat
      have hasked : asked s i = some e := by rw [asked, hat]
      exact ⟨_, hstep s.shared places i q e hI hplace hallowed (hguard e hasked),
        hobeys _ (hanswers e s.shared)⟩
    next => cases h

/-- **Along a run** under a guard. -/
theorem supervised_of_run (hrun : Run (Processes.step code handle) (Asks G) s t) :
    Supervised p I t :=
  hrun.invariant hs fun _ _ _ hs hguard h => hs.step hcode hanswers hstart hstep hguard h

end

end Processes
