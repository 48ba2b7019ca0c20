import LotusRfq.Lib.Transitions
import Mathlib.Data.List.Basic

/-!
# Transactions that take the lock of a row

A transaction inserts the row of its key, or finds it there and selects it for update. Either way it
holds the lock of the row from then on, and another one that wants it waits. What it makes of the
row is written when it commits; one that fails is rolled back. Statements of their own come in
between.

* **`Consistent.step`** — whoever holds a lock has seen the row as it is;
* **`step_effect`** — a step changes nothing, or is a whole transaction on the tables as they are;
* **`invariant_of_run`** — so runs may be looked at as if the transactions came one after another.
-/

namespace RowLocks

open Transitions List

variable {T C W V κ : Type} [DecidableEq κ]

inductive Phase (C V : Type) where
  | inserting (call : C)
  | selecting (call : C)
  | holding (call : C) (seen : Option V)
  | closed

def Phase.call : Phase C V → Option C
  | .inserting call => some call
  | .selecting call => some call
  | .holding call _ => some call
  | .closed => none

/-- The tables, the transactions that have begun, and what has been committed. -/
structure System (T C W V : Type) where
  tables : T
  phases : List (Phase C V)
  committed : List (C ⊕ W)

inductive Action (C W : Type) where
  | start (call : C)
  | insert (i : ℕ)
  | select (i : ℕ)
  | commit (i : ℕ)
  | rollback (i : ℕ)
  | post (statement : W)

/-- The row of a key, what a transaction writes that has seen it, and what a statement does. -/
structure Database (T C W V κ : Type) where
  key : C → κ
  find : κ → T → Option V
  write : C → Option V → T → T
  post : W → T → T

/-- A transaction writes the row of its key, and no row is ever deleted. -/
structure Database.Lawful (db : Database T C W V κ) : Prop where
  frame : ∀ {call seen tables k}, k ≠ db.key call →
    db.find k (db.write call seen tables) = db.find k tables
  kept : ∀ {call seen tables k}, (db.find k tables).isSome = true →
    (db.find k (db.write call seen tables)).isSome = true
  post : ∀ {statement tables k}, db.find k (db.post statement tables) = db.find k tables

variable (db : Database T C W V κ)

def isHeld (k : κ) (phases : List (Phase C V)) : Bool :=
  phases.any fun phase =>
    match phase with
    | .holding call _ => db.key call = k
    | _ => false

/-- Where the row is there, an insert does nothing and waits for nobody. -/
def step (s : System T C W V) : Action C W → Option (System T C W V)
  | .start call => some { s with phases := s.phases ++ [.inserting call] }
  | .insert i =>
    match s.phases[i]? with
    | some (.inserting call) =>
      match db.find (db.key call) s.tables with
      | some _ => some { s with phases := s.phases.set i (.selecting call) }
      | none =>
        if isHeld db (db.key call) s.phases then none
        else some { s with phases := s.phases.set i (.holding call none) }
    | _ => none
  | .select i =>
    match s.phases[i]? with
    | some (.selecting call) =>
      if isHeld db (db.key call) s.phases then none
      else
        match db.find (db.key call) s.tables with
        | some row => some { s with phases := s.phases.set i (.holding call (some row)) }
        | none =>
          -- the row is gone: the transaction commits without a change
          some { s with
            phases := s.phases.set i .closed
            committed := s.committed ++ [.inl call] }
    | _ => none
  | .commit i =>
    match s.phases[i]? with
    | some (.holding call seen) =>
      some ⟨db.write call seen s.tables, s.phases.set i .closed, s.committed ++ [.inl call]⟩
    | _ => none
  | .rollback i =>
    match s.phases[i]? with
    | some _ => some { s with phases := s.phases.set i .closed }
    | none => none
  | .post statement =>
    some { s with
      tables := db.post statement s.tables
      committed := s.committed ++ [.inr statement] }

/-- A transaction, or a statement, on the tables as they are. -/
def effect : C ⊕ W → T → T
  | .inl call, tables => db.write call (db.find (db.key call) tables) tables
  | .inr statement, tables => db.post statement tables

def commits (s : System T C W V) : Action C W → Option (C ⊕ W)
  | .commit i =>
    match s.phases[i]? with
    | some (.holding call _) => some (.inl call)
    | _ => none
  | .post statement => some (.inr statement)
  | _ => none

/-- Whoever holds a lock holds it alone and has seen the row as it is; who waits for a row waits for
one that is there. All transactions are as `P` says. -/
structure Consistent (P : C → Prop) (s : System T C W V) : Prop where
  seen : ∀ {i : ℕ} {call : C} {seen : Option V}, s.phases[i]? = some (.holding call seen) →
    seen = db.find (db.key call) s.tables
  alone : ∀ {i j : ℕ} {call call' : C} {seen seen' : Option V},
    s.phases[i]? = some (.holding call seen) → s.phases[j]? = some (.holding call' seen') →
      db.key call = db.key call' → i = j
  waits : ∀ {i : ℕ} {call : C}, s.phases[i]? = some (.selecting call) →
    (db.find (db.key call) s.tables).isSome = true
  calls : ∀ {i : ℕ} {phase : Phase C V}, s.phases[i]? = some phase → ∀ call ∈ phase.call, P call

/-- Every transaction that starts is as `P` says. -/
def Starts (P : C → Prop) (_ : System T C W V) (action : Action C W) : Prop :=
  ∀ call, action = .start call → P call

omit [DecidableEq κ] in
theorem Consistent.of_commits {db : Database T C W V κ} {P : C → Prop} {s : System T C W V}
    (hs : Consistent db P s) {action : Action C W} {call : C}
    (h : commits s action = some (.inl call)) : P call := by
  cases action with
  | commit i =>
    simp only [commits] at h
    split at h
    next call' seen hat =>
      cases h
      exact hs.calls hat call rfl
    next => cases h
  | post statement => cases h
  | _ => cases h

variable {db} {P : C → Prop} {s t : System T C W V}

theorem ne_of_not_isHeld {k : κ} {phases : List (Phase C V)} (h : ¬ isHeld db k phases = true)
    {i : ℕ} {call : C} {seen : Option V} (hat : phases[i]? = some (.holding call seen)) :
    db.key call ≠ k := by
  intro hkey
  refine h (any_eq_true.mpr ⟨_, mem_of_getElem? hat, ?_⟩)
  simpa using hkey

omit [DecidableEq κ] in
theorem getElem?_set_cases {α : Type} {l : List α} {i j : ℕ} {x y : α}
    (h : (l.set i x)[j]? = some y) : (i = j ∧ y = x) ∨ (i ≠ j ∧ l[j]? = some y) := by
  rw [getElem?_set] at h
  split at h
  next heq =>
    split at h
    · exact .inl ⟨heq, (Option.some.inj h).symm⟩
    · cases h
  next hne => exact .inr ⟨hne, h⟩

omit [DecidableEq κ] in
theorem consistent_of_phases_nil (h : s.phases = []) : Consistent db P s where
  seen hat := by simp [h] at hat
  alone hat := by simp [h] at hat
  waits hat := by simp [h] at hat
  calls hat := by simp [h] at hat

omit [DecidableEq κ] in
theorem Consistent.move (hs : Consistent db P s) {i : ℕ} {phase : Phase C V}
    (committed : List (C ⊕ W)) (hholding : ∀ call seen, phase = .holding call seen →
      seen = db.find (db.key call) s.tables ∧ ∀ (j : ℕ) call' seen',
        s.phases[j]? = some (.holding call' seen') → db.key call' ≠ db.key call)
    (hwaits : ∀ call, phase = .selecting call → (db.find (db.key call) s.tables).isSome = true)
    (hcalls : ∀ call ∈ phase.call, P call) :
    Consistent db P ⟨s.tables, s.phases.set i phase, committed⟩ where
  seen hat := by
    rcases getElem?_set_cases hat with ⟨-, heq⟩ | ⟨-, hold⟩
    · exact (hholding _ _ heq.symm).1
    · exact hs.seen hold
  alone hat hat' hkey := by
    rcases getElem?_set_cases hat with ⟨rfl, heq⟩ | ⟨-, hold⟩
    · rcases getElem?_set_cases hat' with ⟨rfl, -⟩ | ⟨-, hold'⟩
      · rfl
      · exact absurd hkey.symm ((hholding _ _ heq.symm).2 _ _ _ hold')
    · rcases getElem?_set_cases hat' with ⟨rfl, heq'⟩ | ⟨-, hold'⟩
      · exact absurd hkey ((hholding _ _ heq'.symm).2 _ _ _ hold)
      · exact hs.alone hold hold' hkey
  waits hat := by
    rcases getElem?_set_cases hat with ⟨-, heq⟩ | ⟨-, hold⟩
    · exact hwaits _ heq.symm
    · exact hs.waits hold
  calls hat := by
    rcases getElem?_set_cases hat with ⟨-, rfl⟩ | ⟨-, hold⟩
    · exact hcalls
    · exact hs.calls hold

omit [DecidableEq κ] in
theorem Consistent.commit (hdb : db.Lawful) (hs : Consistent db P s) {i : ℕ} {call : C}
    {seen : Option V} (hat : s.phases[i]? = some (.holding call seen)) (committed : List (C ⊕ W)) :
    Consistent db P ⟨db.write call seen s.tables, s.phases.set i .closed, committed⟩ where
  seen hat' := by
    rcases getElem?_set_cases hat' with ⟨-, ⟨⟩⟩ | ⟨hne, hold⟩
    -- the other transactions hold other rows
    have hkey := fun heq => hne (hs.alone hat hold heq)
    rw [hdb.frame (Ne.symm hkey)]
    exact hs.seen hold
  alone hat' hat'' hkey := by
    rcases getElem?_set_cases hat' with ⟨-, ⟨⟩⟩ | ⟨-, hold⟩
    rcases getElem?_set_cases hat'' with ⟨-, ⟨⟩⟩ | ⟨-, hold'⟩
    exact hs.alone hold hold' hkey
  waits hat' := by
    rcases getElem?_set_cases hat' with ⟨-, ⟨⟩⟩ | ⟨-, hold⟩
    exact hdb.kept (hs.waits hold)
  calls hat' := by
    rcases getElem?_set_cases hat' with ⟨-, rfl⟩ | ⟨-, hold⟩
    · rintro call ⟨⟩
    · exact hs.calls hold

omit [DecidableEq κ] in
theorem Consistent.post (hdb : db.Lawful) (hs : Consistent db P s) (statement : W)
    (committed : List (C ⊕ W)) :
    Consistent db P ⟨db.post statement s.tables, s.phases, committed⟩ where
  seen hat := by
    rw [hdb.post]
    exact hs.seen hat
  alone := hs.alone
  waits hat := by
    rw [hdb.post]
    exact hs.waits hat
  calls := hs.calls

omit [DecidableEq κ] in
theorem Consistent.start (hs : Consistent db P s) {call : C} (hcall : P call) :
    Consistent db P { s with phases := s.phases ++ [.inserting call] } := by
  have hold : ∀ {i : ℕ} {phase : Phase C V}, (s.phases ++ [.inserting call])[i]? = some phase →
      s.phases[i]? = some phase ∨ phase = .inserting call := by
    intro i phase hat
    rw [getElem?_append] at hat
    split at hat
    · exact .inl hat
    · exact .inr (mem_singleton.mp (mem_of_getElem? hat))
  refine ⟨fun hat => ?_, fun hat hat' hkey => ?_, fun hat => ?_, fun hat => ?_⟩
  · exact hs.seen ((hold hat).resolve_right (by rintro ⟨⟩))
  · exact hs.alone ((hold hat).resolve_right (by rintro ⟨⟩))
      ((hold hat').resolve_right (by rintro ⟨⟩)) hkey
  · exact hs.waits ((hold hat).resolve_right (by rintro ⟨⟩))
  · rcases hold hat with hbefore | rfl
    · exact hs.calls hbefore
    · rintro call' ⟨⟩
      exact hcall

/-- **One step** keeps the locks right. -/
theorem Consistent.step (hdb : db.Lawful) (hs : Consistent db P s) {action : Action C W}
    (hstart : Starts P s action) (h : RowLocks.step db s action = some t) : Consistent db P t := by
  cases action with
  | start call =>
    cases h
    exact hs.start (hstart call rfl)
  | insert i =>
    simp only [RowLocks.step] at h
    split at h
    next call hat =>
      have hcall := hs.calls hat call rfl
      split at h
      next row hrow =>
        cases h
        refine hs.move _ (by rintro _ _ ⟨⟩) (fun _ heq => ?_) (fun _ hmem => ?_)
        · cases heq
          rw [hrow]
          rfl
        · cases hmem
          exact hcall
      next hrow =>
        split at h
        next => cases h
        next hfree =>
          cases h
          refine hs.move _ (fun _ _ heq => ?_) (by rintro _ ⟨⟩) (fun _ hmem => ?_)
          · cases heq
            exact ⟨hrow.symm, fun _ _ _ hat' => ne_of_not_isHeld hfree hat'⟩
          · cases hmem
            exact hcall
    next => cases h
  | select i =>
    simp only [RowLocks.step] at h
    split at h
    next call hat =>
      have hcall := hs.calls hat call rfl
      split at h
      next => cases h
      next hfree =>
        split at h
        next row hrow =>
          cases h
          refine hs.move _ (fun _ _ heq => ?_) (by rintro _ ⟨⟩) (fun _ hmem => ?_)
          · cases heq
            exact ⟨hrow.symm, fun _ _ _ hat' => ne_of_not_isHeld hfree hat'⟩
          · cases hmem
            exact hcall
        next hrow =>
          -- the row is there
          have hsome := hs.waits hat
          rw [hrow] at hsome
          cases hsome
    next => cases h
  | commit i =>
    simp only [RowLocks.step] at h
    split at h
    next call seen hat =>
      cases h
      exact hs.commit hdb hat _
    next => cases h
  | rollback i =>
    simp only [RowLocks.step] at h
    split at h
    next =>
      cases h
      exact hs.move _ (by rintro _ _ ⟨⟩) (by rintro _ ⟨⟩) (by rintro _ ⟨⟩)
    next => cases h
  | post statement =>
    cases h
    exact hs.post hdb statement _

/-- **What a step does** to the tables: what it commits, if anything, as a whole. -/
theorem step_effect (hs : Consistent db P s) {action : Action C W}
    (h : RowLocks.step db s action = some t) :
    t.tables = (commits s action).elim s.tables (effect db · s.tables) ∧
      t.committed = s.committed ++ (commits s action).toList := by
  cases action with
  | start call =>
    cases h
    exact ⟨rfl, (append_nil _).symm⟩
  | insert i =>
    have hnone : commits s (.insert i : Action C W) = none := rfl
    rw [hnone]
    simp only [RowLocks.step] at h
    repeat' split at h
    all_goals cases h
    all_goals exact ⟨rfl, (append_nil _).symm⟩
  | select i =>
    simp only [RowLocks.step] at h
    split at h
    next call hat =>
      split at h
      next => cases h
      next =>
        split at h
        next =>
          cases h
          exact ⟨rfl, (append_nil _).symm⟩
        next hrow =>
          have hsome := hs.waits hat
          rw [hrow] at hsome
          cases hsome
    next => cases h
  | commit i =>
    simp only [RowLocks.step] at h
    split at h
    next call seen hat =>
      cases h
      have hcommits : commits s (.commit i : Action C W) = some (.inl call) := by
        rw [commits, hat]
      rw [hcommits, hs.seen hat]
      exact ⟨rfl, rfl⟩
    next => cases h
  | rollback i =>
    simp only [RowLocks.step] at h
    split at h
    next =>
      cases h
      exact ⟨rfl, (append_nil _).symm⟩
    next => cases h
  | post statement =>
    cases h
    exact ⟨rfl, rfl⟩

/-- **As if one after another**: what every transaction and every statement keeps, as a whole, holds
along every run. -/
theorem invariant_of_run {I : T → List (C ⊕ W) → Prop} (hdb : db.Lawful)
    (hcall : ∀ tables committed call, P call → I tables committed →
      I (effect db (.inl call) tables) (committed ++ [.inl call]))
    (hpost : ∀ tables committed statement, I tables committed →
      I (effect db (.inr statement) tables) (committed ++ [.inr statement]))
    (hs : Consistent db P s) (hI : I s.tables s.committed)
    (hrun : Run (RowLocks.step db) (Starts P) s t) : I t.tables t.committed := by
  refine (hrun.invariant (P := fun s => Consistent db P s ∧ I s.tables s.committed) ⟨hs, hI⟩ ?_).2
  rintro s action t ⟨hs, hI⟩ hstart h
  obtain ⟨htables, hcommitted⟩ := step_effect hs h
  refine ⟨hs.step hdb hstart h, ?_⟩
  rw [htables, hcommitted]
  cases hcommits : commits s action with
  | none => simpa using hI
  | some e =>
    cases e with
    | inl call => exact hcall _ _ call (hs.of_commits hcommits) hI
    | inr statement => exact hpost _ _ statement hI

end RowLocks
