import LotusRfq.Lib.Processes

/-!
# Programs that may throw

A program whose requests are answered or throw. What comes after a throw is not run, up to the next
`attempt`.

* **`ends_bind`**, **`ends_throws`**, **`ends_attempt`** — what a program that is alone ends with and
  leaves, composed along the program;
* **`obeys_program_bind`**, **`obeys_attempt`** — the same for protocols;
* **`stays_bind`**, **`obeys_stays_bind`** — parts of a program that leave it where it is in its
  protocol.
-/

namespace Processes

variable {ε E : Type} {A : E → Type} {α β σ Q : Type}

/-- A program whose request `e` is answered with an `A e`, or throws an `ε`. -/
abbrev Program (ε E : Type) (A : E → Type) (α : Type) : Type :=
  ExceptT ε (Code E fun e => Except ε (A e)) α

def call (e : E) : Program ε E A (A e) := ExceptT.mk (request e)

def attempt (program : Program ε E A α) : Program ε E A (Except ε α) :=
  ExceptT.mk (program.run >>= fun result => pure (.ok result))

/-! ## One program alone -/

def alone (handle : (e : E) → σ → Except ε (A e) × σ) (program : Program ε E A α) (state : σ) :
    Except ε α × σ :=
  Code.run handle program.run state

/-- Alone from `state`, the program ends as `post` says. -/
def Ends (handle : (e : E) → σ → Except ε (A e) × σ) (program : Program ε E A α) (state : σ)
    (post : Except ε α → σ → Prop) : Prop :=
  post (alone handle program state).1 (alone handle program state).2

/-- Alone from `state`, the program returns as `post` says. -/
abbrev Returns (handle : (e : E) → σ → Except ε (A e) × σ) (program : Program ε E A α) (state : σ)
    (post : α → σ → Prop) : Prop :=
  Ends handle program state fun result state' => ∃ a, result = .ok a ∧ post a state'

/-- Alone from `state`, the program throws as `post` says. -/
abbrev Throws (handle : (e : E) → σ → Except ε (A e) × σ) (program : Program ε E A α) (state : σ)
    (post : ε → σ → Prop) : Prop :=
  Ends handle program state fun result state' => ∃ e, result = .error e ∧ post e state'

variable {handle : (e : E) → σ → Except ε (A e) × σ} {program : Program ε E A α}
  {f : α → Program ε E A β} {state : σ}

variable {a : α} {e : ε} {post : Except ε α → σ → Prop}

theorem alone_bind_ok {state' : σ} (h : alone handle program state = (.ok a, state')) :
    alone handle (program >>= f) state = alone handle (f a) state' := by
  show Code.run handle (program >>= f).run state = _
  rw [ExceptT.run_bind, run_bind, show Code.run handle program.run state = _ from h]
  rfl

theorem alone_bind_error {state' : σ} (h : alone handle program state = (.error e, state')) :
    alone handle (program >>= f) state = (.error e, state') := by
  show Code.run handle (program >>= f).run state = _
  rw [ExceptT.run_bind, run_bind, show Code.run handle program.run state = _ from h]
  rfl

theorem alone_attempt : alone handle (attempt program) state =
    (.ok (alone handle program state).1, (alone handle program state).2) :=
  run_bind _ _ _

theorem ends_pure (h : post (.ok a) state) : Ends handle (pure a) state post := h

theorem ends_throw (h : post (.error e) state) : Ends handle (throw e) state post := h

theorem ends_call {e : E} {post : Except ε (A e) → σ → Prop}
    (h : post (handle e state).1 (handle e state).2) : Ends handle (call e) state post := h

theorem Ends.weaken {post' : Except ε α → σ → Prop} (h : Ends handle program state post)
    (hpost : ∀ result state', post result state' → post' result state') :
    Ends handle program state post' :=
  hpost _ _ h

theorem ends_bind {M : α → σ → Prop} {post : Except ε β → σ → Prop}
    (h : Returns handle program state M)
    (hf : ∀ a state', M a state' → Ends handle (f a) state' post) :
    Ends handle (program >>= f) state post := by
  obtain ⟨a, hresult, hM⟩ := h
  have hgo := hf a _ hM
  rw [Ends, ← alone_bind_ok (Prod.ext hresult rfl)] at hgo
  exact hgo

theorem ends_throws {post : Except ε β → σ → Prop}
    (h : Throws handle program state fun e state' => post (.error e) state') :
    Ends handle (program >>= f) state post := by
  obtain ⟨e, hresult, hpost⟩ := h
  rw [Ends, alone_bind_error (Prod.ext hresult rfl)]
  exact hpost

theorem ends_attempt {M : Except ε α → σ → Prop} {g : Except ε α → Program ε E A β}
    {post : Except ε β → σ → Prop} (h : Ends handle program state M)
    (hg : ∀ result state', M result state' → Ends handle (g result) state' post) :
    Ends handle (attempt program >>= g) state post := by
  have hgo := hg _ _ h
  rw [Ends, ← alone_bind_ok alone_attempt] at hgo
  exact hgo

/-! ## Protocols -/

variable {p : Protocol E (fun e => Except ε (A e)) Q} {q : Q}

theorem obeys_return {post : Q → Except ε α → Prop} (h : post q (.ok a)) :
    Obeys p post q (pure a : Program ε E A α).run := h

theorem obeys_throw {post : Q → Except ε α → Prop} (h : post q (.error e)) :
    Obeys p post q (throw e : Program ε E A α).run := h

theorem obeys_call {e : E} {post : Q → Except ε (A e) → Prop} (hallowed : p.allows q e)
    (h : ∀ r, p.answers e r → post (p.next q e r) r) : Obeys p post q (call e).run :=
  obeys_request hallowed h

theorem obeys_program_bind {M : Q → α → Prop} {post : Q → Except ε β → Prop}
    (h : Obeys p (fun q result => match result with
      | .ok a => M q a
      | .error e => post q (.error e)) q program.run)
    (hf : ∀ q a, M q a → Obeys p post q (f a).run) : Obeys p post q (program >>= f).run := by
  rw [ExceptT.run_bind]
  refine obeys_bind h fun q result hresult => ?_
  cases result with
  | ok a => exact hf q a hresult
  | error e => exact hresult

theorem obeys_attempt {M : Q → Except ε α → Prop} {g : Except ε α → Program ε E A β}
    {post : Q → Except ε β → Prop} (h : Obeys p M q program.run)
    (hg : ∀ q result, M q result → Obeys p post q (g result).run) :
    Obeys p post q (attempt program >>= g).run := by
  refine obeys_program_bind (M := M) ?_ hg
  exact obeys_bind h fun q result hresult => hresult

/-! ### Staying in place -/

variable {g : α → Program ε E A β}

/-- A program that is at its end where it was at its start. -/
def Stays (p : Protocol E (fun e => Except ε (A e)) Q) (program : Program ε E A α) : Prop :=
  ∀ q, Obeys p (fun q' _ => q' = q) q program.run

theorem stays_pure (a : α) : Stays p (pure a : Program ε E A α) := fun _ => rfl

theorem stays_throw (e : ε) : Stays p (throw e : Program ε E A α) := fun _ => rfl

theorem stays_call {e : E} (hallowed : ∀ q, p.allows q e) (hnext : ∀ q r, p.next q e r = q) :
    Stays p (call e : Program ε E A (A e)) :=
  fun q => obeys_call (hallowed q) fun r _ => hnext q r

theorem obeys_stays_bind {post : Q → Except ε β → Prop} (h : Stays p program)
    (herror : ∀ e, post q (.error e)) (hf : ∀ a, Obeys p post q (g a).run) :
    Obeys p post q (program >>= g).run := by
  rw [ExceptT.run_bind]
  refine obeys_bind (h q) ?_
  intro q' result hq'
  rw [hq']
  cases result with
  | ok a => exact hf a
  | error e => exact herror e

theorem stays_bind (h : Stays p program) (hg : ∀ a, Stays p (g a)) : Stays p (program >>= g) :=
  fun q => obeys_stays_bind h (fun _ => rfl) fun a => hg a q

theorem stays_attempt (h : Stays p program) : Stays p (attempt program) :=
  fun q => obeys_bind (h q) fun _ _ hq' => hq'

theorem stays_ite {c : Prop} [Decidable c] {program' : Program ε E A α} (h : Stays p program)
    (h' : Stays p program') : Stays p (if c then program else program') := by
  split
  · exact h
  · exact h'

end Processes
