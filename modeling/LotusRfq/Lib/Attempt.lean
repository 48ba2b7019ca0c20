import Mathlib.Data.List.Basic

/-!
# Code that may throw

Code with a state that an exception does not undo: what was changed before the throw stays
changed. A call is answered or throws; a write may also take effect and then throw, its reply
lost.

* **`go`** and its rules — what a run of such code ends with and leaves;
* **`Keeps`** — what holds of the state however the code ends, composed along the code;
* **`Ensures`** — what the code is sure to return and leave, composed along the code;
* **`writeEach_go`** — a loop of writes leaves the effects of the writes that landed, and
  returns when every one of them was answered;
* **`landed_eq_iff`** — every write of the loop landed exactly when all but the last were
  answered and the last one was not refused.
-/

namespace Attempts

open List

/-- Code over a state `σ` that returns or throws an `ε`. -/
abbrev Attempt (ε σ : Type) : Type → Type := ExceptT ε (StateM σ)

/-- How a write ends: answered, with its reply lost after it took effect, or without effect. -/
inductive WriteReply (ε : Type) where
  | done
  | lost (error : ε)
  | refused (error : ε)

variable {ε σ α β : Type}

def WriteReply.landed : WriteReply ε → Prop
  | .done => True
  | .lost _ => True
  | .refused _ => False

instance (reply : WriteReply ε) : Decidable reply.landed := by
  cases reply
  · exact isTrue trivial
  · exact isTrue trivial
  · exact isFalse id

def await (reply : Except ε α) : Attempt ε σ α :=
  match reply with
  | .ok answer => pure answer
  | .error error => throw error

def write (effect : σ → σ) (reply : WriteReply ε) : Attempt ε σ Unit :=
  match reply with
  | .done => modify effect
  | .lost error => do
    modify effect
    throw error
  | .refused error => throw error

/-- One write after the other; the first that throws ends the loop. -/
def writeEach (effect : α → σ → σ) : List (α × WriteReply ε) → Attempt ε σ Unit
  | [] => pure ()
  | (item, reply) :: writes => do
    write (effect item) reply
    writeEach effect writes

/-- The items of a loop of writes whose write takes effect. -/
def landed : List (α × WriteReply ε) → List α
  | [] => []
  | (item, .done) :: writes => item :: landed writes
  | (item, .lost _) :: _ => [item]
  | (_, .refused _) :: _ => []

/-! ## Runs -/

/-- A run: how the code ends and the state it leaves. -/
def go (code : Attempt ε σ α) (s : σ) : Except ε α × σ := code.run.run s

variable {code : Attempt ε σ α} {f : α → Attempt ε σ β} {s s' : σ} {a : α} {e : ε}

@[simp] theorem go_pure : go (pure a : Attempt ε σ α) s = (.ok a, s) := rfl

@[simp] theorem go_throw : go (throw e : Attempt ε σ α) s = (.error e, s) := rfl

@[simp] theorem go_get : go (get : Attempt ε σ σ) s = (.ok s, s) := rfl

@[simp] theorem go_set : go (set s' : Attempt ε σ PUnit) s = (.ok ⟨⟩, s') := rfl

variable {change : σ → σ} {reply : Except ε α} {c : Prop} {code' : Attempt ε σ α}

@[simp] theorem go_modify :
    go (modify change : Attempt ε σ PUnit) s = (.ok ⟨⟩, change s) := rfl

@[simp] theorem go_await : go (await reply : Attempt ε σ α) s = (reply, s) := by
  cases reply <;> rfl

theorem go_write_done : go (write change .done : Attempt ε σ Unit) s = (.ok (), change s) := rfl

theorem go_write_ok {reply : WriteReply ε} :
    (go (write change reply : Attempt ε σ Unit) s).1 = .ok () ↔ reply = .done := by
  cases reply with
  | done => exact ⟨fun _ => rfl, fun _ => rfl⟩
  | lost error => constructor <;> intro h <;> cases h
  | refused error => constructor <;> intro h <;> cases h

@[simp] theorem go_ite [Decidable c] :
    go (if c then code else code') s = if c then go code s else go code' s := by
  split <;> rfl

theorem go_bind_ok (h : go code s = (.ok a, s')) : go (code >>= f) s = go (f a) s' := by
  show (code >>= f).run.run s = _
  rw [ExceptT.run_bind, StateT.run_bind, show code.run.run s = _ from h]
  rfl

theorem go_bind_error (h : go code s = (.error e, s')) : go (code >>= f) s = (.error e, s') := by
  show (code >>= f).run.run s = _
  rw [ExceptT.run_bind, StateT.run_bind, show code.run.run s = _ from h]
  rfl

@[simp] theorem go_bind : go (code >>= f) s = match go code s with
    | (.ok a, s') => go (f a) s'
    | (.error e, s') => (.error e, s') := by
  rcases h : go code s with ⟨_ | a, s'⟩
  · exact go_bind_error h
  · exact go_bind_ok h

theorem ok_of_go_bind {b : β} (h : (go (code >>= f) s).1 = .ok b) :
    ∃ a s', go code s = (.ok a, s') ∧ (go (f a) s').1 = .ok b := by
  rcases hgo : go code s with ⟨e | a, s'⟩
  · rw [go_bind_error hgo] at h
    cases h
  · rw [go_bind_ok hgo] at h
    exact ⟨a, s', rfl, h⟩

@[simp] theorem go_map {f : α → β} : go (f <$> code) s = match go code s with
    | (.ok a, s') => (.ok (f a), s')
    | (.error e, s') => (.error e, s') := by
  rw [map_eq_pure_bind, go_bind]
  rcases go code s with ⟨_ | a, s'⟩ <;> rfl

@[simp] theorem go_tryCatch {handler : ε → Attempt ε σ α} :
    go (tryCatch code handler) s = match go code s with
    | (.ok a, s') => (.ok a, s')
    | (.error e, s') => go (handler e) s' := by
  show StateT.run (do
    match ← code.run with
    | .ok a => pure (.ok a)
    | .error e => (handler e).run) s = _
  rw [StateT.run_bind]
  rcases h : go code s with ⟨_ | a, s'⟩ <;> rw [show code.run.run s = _ from h] <;> rfl

/-! ## What the code keeps -/

/-- However the code ends, it keeps `P`. -/
def Keeps (P : σ → Prop) (code : Attempt ε σ α) : Prop := ∀ s, P s → P (go code s).2

variable {P : σ → Prop}

theorem keeps_pure : Keeps P (pure a : Attempt ε σ α) := fun _ h => h

theorem keeps_throw : Keeps P (throw e : Attempt ε σ α) := fun _ h => h

theorem keeps_await : Keeps P (await reply : Attempt ε σ α) := by
  intro s h
  rw [go_await]
  exact h

theorem keeps_modify (h : ∀ s, P s → P (change s)) :
    Keeps P (modify change : Attempt ε σ PUnit) := h

theorem keeps_bind (hcode : Keeps P code) (hf : ∀ a, Keeps P (f a)) : Keeps P (code >>= f) := by
  intro s h
  have hmid := hcode s h
  rw [go_bind]
  split <;> rename_i hgo <;> rw [hgo] at hmid
  · exact hf _ _ hmid
  · exact hmid

theorem keeps_get {f : σ → Attempt ε σ β} (h : ∀ s, P s → P (go (f s) s).2) :
    Keeps P (get >>= f) := h

theorem keeps_ite [Decidable c] (h : Keeps P code) (h' : Keeps P code') :
    Keeps P (if c then code else code') := by
  split
  · exact h
  · exact h'

theorem keeps_write {reply : WriteReply ε} (h : ∀ s, P s → P (change s)) :
    Keeps P (write change reply : Attempt ε σ Unit) := by
  cases reply
  · exact keeps_modify h
  · exact keeps_bind (keeps_modify h) fun _ => keeps_throw
  · exact keeps_throw

theorem keeps_writeEach {effect : α → σ → σ} {writes : List (α × WriteReply ε)}
    (h : ∀ item s, P s → P (effect item s)) : Keeps P (writeEach effect writes) := by
  induction writes with
  | nil => exact keeps_pure
  | cons head writes ih => exact keeps_bind (keeps_write (h _)) fun _ => ih

theorem keeps_mapM {items : List α} (h : ∀ item ∈ items, Keeps P (f item)) :
    Keeps P (items.mapM f) := by
  induction items with
  | nil => exact keeps_pure
  | cons item items ih =>
    rw [mapM_cons]
    refine keeps_bind (h item mem_cons_self) fun _ => keeps_bind (ih ?_) fun _ => keeps_pure
    exact fun other hother => h other (mem_cons_of_mem item hother)

/-! ## What the code is sure to do -/

/-- From a state with `P` the code returns, and `Q` holds of what it returns and leaves. -/
def Ensures (P : σ → Prop) (code : Attempt ε σ α) (Q : α → σ → Prop) : Prop :=
  ∀ s, P s → ∃ a s', go code s = (.ok a, s') ∧ Q a s'

section Ensures

variable {Q : α → σ → Prop} {R : β → σ → Prop}

theorem ensures_pure (h : ∀ s, P s → Q a s) : Ensures P (pure a : Attempt ε σ α) Q :=
  fun s hs => ⟨a, s, rfl, h s hs⟩

theorem Ensures.weaken {Q' : α → σ → Prop} (h : Ensures P code Q) (hQ : ∀ a s, Q a s → Q' a s) :
    Ensures P code Q' := by
  intro s hs
  obtain ⟨a, s', hgo, hend⟩ := h s hs
  exact ⟨a, s', hgo, hQ a s' hend⟩

theorem ensures_modify {Q : PUnit → σ → Prop} (h : ∀ s, P s → Q ⟨⟩ (change s)) :
    Ensures P (modify change : Attempt ε σ PUnit) Q :=
  fun s hs => ⟨⟨⟩, change s, rfl, h s hs⟩

theorem ensures_await (hreply : reply = .ok a) (h : ∀ s, P s → Q a s) :
    Ensures P (await reply : Attempt ε σ α) Q := by
  intro s hs
  rw [go_await, hreply]
  exact ⟨a, s, rfl, h s hs⟩

theorem ensures_bind (hcode : Ensures P code Q) (hf : ∀ a, Ensures (Q a) (f a) R) :
    Ensures P (code >>= f) R := by
  intro s hs
  obtain ⟨a, s', hgo, hmid⟩ := hcode s hs
  rw [go_bind_ok hgo]
  exact hf a s' hmid

theorem ensures_ite [Decidable c] (h : c → Ensures P code Q) (h' : ¬ c → Ensures P code' Q) :
    Ensures P (if c then code else code') Q := by
  split
  next hc => exact h hc
  next hc => exact h' hc

theorem Ensures.final (h : Ensures P code Q) {s : σ} (hs : P s) :
    ∃ a, (go code s).1 = .ok a ∧ Q a (go code s).2 := by
  obtain ⟨a, s', hgo, hend⟩ := h s hs
  rw [hgo]
  exact ⟨a, rfl, hend⟩

theorem ensures_mapM {items : List α} {K : α → β → Prop}
    (h : ∀ item ∈ items, Ensures P (f item) fun b s => P s ∧ K item b) :
    Ensures P (items.mapM f) fun bs s => P s ∧ List.Forall₂ K items bs := by
  induction items with
  | nil => exact ensures_pure fun s hs => ⟨hs, .nil⟩
  | cons item items ih =>
    rw [mapM_cons]
    refine ensures_bind (h item mem_cons_self) fun b s hb => ?_
    have hrest := ih fun other hother => h other (mem_cons_of_mem item hother)
    obtain ⟨bs, s', hgo, hP, hbs⟩ := hrest s hb.1
    rw [go_bind_ok hgo]
    exact ⟨b :: bs, s', rfl, hP, .cons hb.2 hbs⟩

end Ensures

/-! ## Loops of writes -/

variable {writes : List (α × WriteReply ε)}

theorem writeEach_go (effect : α → σ → σ) (writes : List (α × WriteReply ε)) (s : σ) :
    (go (writeEach effect writes) s).2 = (landed writes).foldl (fun s item => effect item s) s ∧
      ((go (writeEach effect writes) s).1 = .ok () ↔ ∀ w ∈ writes, w.2 = .done) := by
  induction writes generalizing s with
  | nil => exact ⟨rfl, by simp [writeEach]⟩
  | cons head writes ih =>
    obtain ⟨item, reply⟩ := head
    cases reply with
    | done =>
      have hgo : go (writeEach effect ((item, .done) :: writes)) s =
          go (writeEach effect writes) (effect item s) := rfl
      rw [hgo, landed, foldl_cons, (ih (effect item s)).1, (ih (effect item s)).2]
      exact ⟨rfl, by simp⟩
    | lost error =>
      refine ⟨rfl, ?_⟩
      have hgo : go (writeEach effect ((item, .lost error) :: writes)) s =
          (.error error, effect item s) := rfl
      simp [hgo]
    | refused error =>
      refine ⟨rfl, ?_⟩
      have hgo : go (writeEach effect ((item, .refused error) :: writes)) s =
          (.error error, s) := rfl
      simp [hgo]

theorem landed_isPrefix : landed writes <+: writes.map (·.1) := by
  induction writes with
  | nil => exact nil_prefix
  | cons head writes ih =>
    obtain ⟨item, reply⟩ := head
    cases reply with
    | done => exact (prefix_cons_inj item).mpr ih
    | lost error => exact (prefix_cons_inj item).mpr nil_prefix
    | refused error => exact nil_prefix

/-- A loop's writes all landed when all but the last were answered and the last one landed. -/
theorem landed_eq_iff : landed writes = writes.map (·.1) ↔
    (∀ w ∈ writes.dropLast, w.2 = .done) ∧ ∀ w ∈ writes.getLast?, w.2.landed := by
  induction writes with
  | nil => simp [landed]
  | cons head writes ih =>
    obtain ⟨item, reply⟩ := head
    cases writes with
    | nil => cases reply <;> simp [landed, WriteReply.landed]
    | cons next writes =>
      cases reply with
      | done =>
        rw [landed, map_cons, cons_inj_right, ih]
        simp
      | lost error => simp [landed]
      | refused error => simp [landed]

end Attempts
