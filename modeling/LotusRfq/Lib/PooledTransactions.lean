import LotusRfq.Lib.Transitions
import Mathlib.Data.List.Basic

/-!
# Transactions sent through a pool of connections

A pool runs every statement on some connection of its own choice, while a transaction belongs to
the connection its `BEGIN` ran on. A caller that sends `BEGIN`, its writes and `COMMIT` through the
pool, and `ROLLBACK` where one of them fails, has a transaction where the pool happens to choose
one connection for them all, and nobody else is given it in between.

The writes of a transaction are seen by nobody before they are committed. A statement that fails
aborts the transaction it is in; a `COMMIT` that fails, or finds the transaction aborted, rolls it
back.

* **`Held.step`** — what one step keeps, while the caller has its connection for itself;
* **`tables_of_run`** — so the call writes all it had to write, or nothing.
-/

namespace PooledTransactions

open Transitions

variable {W T : Type}

/-! ## Connections -/

/-- An open transaction: the writes it holds, and whether a statement in it has failed. -/
structure Transaction (W : Type) where
  writes : List W
  aborted : Bool

/-- The committed tables, and the transaction each connection is in. -/
structure Pool (W T : Type) where
  tables : T
  transaction : ℕ → Option (Transaction W)

/-- A statement; `elsewhere` is one on tables nobody here looks at. -/
inductive Command (W : Type) where
  | begin
  | write (w : W)
  | elsewhere
  | commit
  | rollback

def applyAll (apply : W → T → T) (writes : List W) (tables : T) : T :=
  writes.foldl (fun tables w => apply w tables) tables

theorem applyAll_of_mem {apply : W → T → T} {P : T → Prop} {writes : List W} {w : W}
    (hmem : w ∈ writes) (hw : ∀ tables, P (apply w tables))
    (hkeep : ∀ w tables, P tables → P (apply w tables)) (tables : T) :
    P (applyAll apply writes tables) := by
  have hlater : ∀ (writes : List W) (tables : T), P tables → P (applyAll apply writes tables) := by
    intro writes
    induction writes with
    | nil => exact fun _ h => h
    | cons w writes ih => exact fun tables h => ih _ (hkeep w tables h)
  obtain ⟨earlier, later, rfl⟩ := List.append_of_mem hmem
  rw [applyAll, List.foldl_append, List.foldl_cons]
  exact hlater later _ (hw _)

def Pool.put (pool : Pool W T) (c : ℕ) (transaction : Option (Transaction W)) : Pool W T :=
  { pool with transaction := Function.update pool.transaction c transaction }

/-- The writes a connection holds back. -/
def Pool.held (pool : Pool W T) (c : ℕ) : List W :=
  match pool.transaction c with
  | none => []
  | some transaction => transaction.writes

/-- A statement other than `COMMIT` and `ROLLBACK` within a transaction. -/
def within (pool : Pool W T) (c : ℕ) (transaction : Transaction W) (writes : List W)
    (fails : Bool) : Bool × Pool W T :=
  if transaction.aborted ∨ fails then (false, pool.put c (some { transaction with aborted := true }))
  else (true, pool.put c (some { transaction with writes := transaction.writes ++ writes }))

/-- Run a statement on a connection: whether it succeeds, and the pool it leaves. -/
def execute (apply : W → T → T) (pool : Pool W T) (c : ℕ) (command : Command W) (fails : Bool) :
    Bool × Pool W T :=
  match command, pool.transaction c with
  | .begin, none => if fails then (false, pool) else (true, pool.put c (some ⟨[], false⟩))
  -- no more than a warning, within a transaction
  | .begin, some transaction => within pool c transaction [] fails
  | .write w, none =>
    if fails then (false, pool) else (true, { pool with tables := apply w pool.tables })
  | .write w, some transaction => within pool c transaction [w] fails
  | .elsewhere, none => (!fails, pool)
  | .elsewhere, some transaction => within pool c transaction [] fails
  | .commit, none => (!fails, pool)
  | .commit, some transaction =>
    if fails then (false, pool.put c none)
    else if transaction.aborted then (true, pool.put c none)
    else
      (true, { pool.put c none with tables := applyAll apply transaction.writes pool.tables })
  | .rollback, _ => (!fails, pool.put c none)

/-! ## The caller and the other users -/

/-- How far the call is; `writing` says what is left to be written. -/
inductive Phase (W : Type) where
  | beginning
  | writing (rest : List W)
  | rollingBack
  | returned
  | threw
  deriving DecidableEq

def Phase.over : Phase W → Bool
  | .returned | .threw => true
  | _ => false

structure System (W T : Type) where
  pool : Pool W T
  phase : Phase W

/-- The statement the call sends next. -/
def Phase.command : Phase W → Option (Command W)
  | .beginning => some .begin
  | .writing (w :: _) => some (.write w)
  | .writing [] => some .commit
  | .rollingBack => some .rollback
  | .returned | .threw => none

/-- Where the call is after the statement; what fails is caught, rolled back and thrown again,
except for the `BEGIN` itself. -/
def Phase.advance (writes : List W) (succeeds : Bool) : Phase W → Phase W
  | .beginning => if succeeds then .writing writes else .threw
  | .writing (_ :: rest) => if succeeds then .writing rest else .rollingBack
  | .writing [] => if succeeds then .returned else .rollingBack
  | .rollingBack => .threw
  | phase => phase

/-- What another user sends: anything but a write to these tables. -/
inductive Elsewhere where
  | begin
  | statement
  | commit
  | rollback

def Elsewhere.command : Elsewhere → Command W
  | .begin => .begin
  | .statement => .elsewhere
  | .commit => .commit
  | .rollback => .rollback

/-- The next statement of the call, or one of another user, on a connection of the pool. -/
inductive Action where
  | own (c : ℕ) (fails : Bool)
  | other (c : ℕ) (command : Elsewhere) (fails : Bool)

def step (apply : W → T → T) (writes : List W) (s : System W T) : Action → Option (System W T)
  | .own c fails =>
    s.phase.command.map fun command =>
      let result := execute apply s.pool c command fails
      ⟨result.2, s.phase.advance writes result.1⟩
  | .other c command fails => some { s with pool := (execute apply s.pool c command.command fails).2 }

/-- The call runs on connection `c`, and nobody else does before it is over. -/
def Alone (c : ℕ) (s : System W T) : Action → Prop
  | .own d _ => d = c
  | .other d _ _ => s.phase.over = true ∨ d ≠ c

instance (c : ℕ) (s : System W T) (action : Action) : Decidable (Alone c s action) := by
  cases action <;> unfold Alone <;> infer_instance

/-! ## What a statement leaves alone -/

section

variable {apply : W → T → T} {writes : List W} {pool : Pool W T} {c d : ℕ} {fails : Bool}

@[simp] theorem put_tables (transaction : Option (Transaction W)) :
    (pool.put c transaction).tables = pool.tables := rfl

@[simp] theorem put_transaction_self (transaction : Option (Transaction W)) :
    (pool.put c transaction).transaction c = transaction := Function.update_self ..

theorem put_transaction_of_ne (h : d ≠ c) (transaction : Option (Transaction W)) :
    (pool.put c transaction).transaction d = pool.transaction d := Function.update_of_ne h ..

@[simp] theorem within_tables (transaction : Transaction W) (writes : List W) :
    (within pool c transaction writes fails).2.tables = pool.tables := by
  unfold within
  split <;> rfl

theorem within_transaction_of_ne (h : d ≠ c) (transaction : Transaction W) (writes : List W) :
    (within pool c transaction writes fails).2.transaction d = pool.transaction d := by
  unfold within
  split <;> exact put_transaction_of_ne h _

theorem execute_transaction_of_ne (h : d ≠ c) (command : Command W) :
    (execute apply pool c command fails).2.transaction d = pool.transaction d := by
  unfold execute
  split
  case h_1 => split <;> first | rfl | exact put_transaction_of_ne h _
  case h_2 | h_4 | h_6 => exact within_transaction_of_ne h _ _
  case h_3 => split <;> rfl
  case h_5 | h_7 => rfl
  case h_8 =>
    split
    · exact put_transaction_of_ne h _
    · split <;> exact put_transaction_of_ne h _
  case h_9 => exact put_transaction_of_ne h _

theorem held_of_ne (h : d ≠ c) (command : Command W) :
    (execute apply pool c command fails).2.held d = pool.held d := by
  unfold Pool.held
  rw [execute_transaction_of_ne h]

theorem execute_elsewhere_tables (hheld : pool.held c = []) (command : Elsewhere) :
    (execute apply pool c command.command fails).2.tables = pool.tables := by
  unfold Pool.held at hheld
  cases command <;> cases htransaction : pool.transaction c <;>
    simp only [Elsewhere.command, execute, htransaction, within_tables]
  case begin.none => cases fails <;> rfl
  case commit.some transaction =>
    rw [htransaction] at hheld
    cases fails <;> cases transaction.aborted
    case false.false =>
      show applyAll apply transaction.writes pool.tables = pool.tables
      rw [show transaction.writes = [] from hheld]
      rfl
    all_goals rfl
  all_goals rfl

theorem within_held (transaction : Transaction W) (hwrites : transaction.writes = []) :
    (within pool c transaction [] fails).2.held c = [] := by
  unfold within
  split <;> simp [Pool.held, hwrites]

theorem execute_elsewhere_held (hheld : pool.held c = []) (command : Elsewhere) :
    (execute apply pool c command.command fails).2.held c = [] := by
  have hopen := hheld
  unfold Pool.held at hopen
  cases htransaction : pool.transaction c with
  | none =>
    cases command with
    | begin => cases fails <;> simp [Elsewhere.command, execute, htransaction, Pool.held]
    | statement | commit | rollback =>
      simp [Elsewhere.command, execute, htransaction, Pool.held]
  | some transaction =>
    rw [htransaction] at hopen
    cases command with
    | begin | statement =>
      simp only [Elsewhere.command, execute, htransaction]
      exact within_held transaction hopen
    | commit =>
      simp only [Elsewhere.command, execute, htransaction]
      split
      · simp [Pool.held]
      · split <;> simp [Pool.held]
    | rollback => simp [Elsewhere.command, execute, Pool.held]

end

/-! ## A call that has its connection for itself -/

section

variable {apply : W → T → T} {writes : List W} {s t : System W T} {before : T} {c : ℕ}

/-- Where the tables are as the call goes on: they change with the `COMMIT`, and all at once. -/
def Stands (apply : W → T → T) (writes : List W) (before : T) (c : ℕ) (s : System W T) : Prop :=
  match s.phase with
  | .beginning => s.pool.tables = before ∧ s.pool.transaction c = none
  | .writing rest => s.pool.tables = before ∧ ∃ written, writes = written ++ rest ∧
      s.pool.transaction c = some ⟨written, false⟩
  | .rollingBack => s.pool.tables = before
  | .returned => s.pool.tables = applyAll apply writes before ∧ s.pool.held c = []
  | .threw => s.pool.tables = before ∧ s.pool.held c = []

structure Held (apply : W → T → T) (writes : List W) (before : T) (c : ℕ) (s : System W T) :
    Prop where
  others : ∀ d ≠ c, s.pool.held d = []
  stands : Stands apply writes before c s

theorem Stands.own {fails : Bool} (h : Stands apply writes before c s)
    (hstep : step apply writes s (.own c fails) = some t) : Stands apply writes before c t := by
  obtain ⟨pool, phase⟩ := s
  cases phase with
  | beginning =>
    obtain ⟨htables, hnone⟩ := h
    cases hstep
    cases fails
    · show Stands apply writes before c ⟨(execute apply pool c .begin false).2,
          Phase.advance writes (execute apply pool c .begin false).1 .beginning⟩
      have hbegin : execute apply pool c .begin false = (true, pool.put c (some ⟨[], false⟩)) := by
        simp only [execute, show pool.transaction c = none from hnone]
        rfl
      rw [hbegin]
      exact ⟨htables, [], rfl, put_transaction_self _⟩
    · have hbegin : execute apply pool c .begin true = (false, pool) := by
        simp only [execute, show pool.transaction c = none from hnone]
        rfl
      show Stands apply writes before c ⟨(execute apply pool c .begin true).2,
          Phase.advance writes (execute apply pool c .begin true).1 .beginning⟩
      rw [hbegin]
      refine ⟨htables, ?_⟩
      show pool.held c = []
      unfold Pool.held
      rw [show pool.transaction c = none from hnone]
  | writing rest =>
    obtain ⟨htables, written, hwrites, hopen⟩ := h
    replace htables : pool.tables = before := htables
    replace hopen : pool.transaction c = some ⟨written, false⟩ := hopen
    cases rest with
    | nil =>
      cases hstep
      rw [List.append_nil] at hwrites
      cases fails
      · show Stands apply writes before c ⟨(execute apply pool c .commit false).2,
            Phase.advance writes (execute apply pool c .commit false).1 (.writing [])⟩
        have hcommit : execute apply pool c .commit false =
            (true, { pool.put c none with tables := applyAll apply written pool.tables }) := by
          simp only [execute, hopen]
          rfl
        rw [hcommit]
        refine ⟨?_, ?_⟩
        · show applyAll apply written pool.tables = applyAll apply writes before
          rw [htables, hwrites]
        · show (pool.put c none).held c = []
          simp [Pool.held]
      · show Stands apply writes before c ⟨(execute apply pool c .commit true).2,
            Phase.advance writes (execute apply pool c .commit true).1 (.writing [])⟩
        have hcommit : execute apply pool c .commit true = (false, pool.put c none) := by
          simp only [execute, hopen]
          rfl
        rw [hcommit]
        exact htables
    | cons w rest =>
      cases hstep
      show Stands apply writes before c ⟨(execute apply pool c (.write w) fails).2,
          Phase.advance writes (execute apply pool c (.write w) fails).1 (.writing (w :: rest))⟩
      have hwrite : execute apply pool c (.write w) fails = within pool c ⟨written, false⟩ [w]
          fails := by
        simp only [execute, hopen]
      rw [hwrite]
      cases fails
      · refine ⟨htables, written ++ [w], ?_, put_transaction_self _⟩
        rw [hwrites, List.append_assoc]
        rfl
      · exact htables
  | rollingBack =>
    cases hstep
    refine ⟨h, ?_⟩
    show (pool.put c none).held c = []
    simp [Pool.held]
  | returned | threw => cases hstep

/-- A statement of another user: after the call on any connection, before that on another one. -/
theorem Stands.other {d : ℕ} {command : Elsewhere} {fails : Bool}
    (h : Held apply writes before c s) (hguard : Alone c s (.other d command fails))
    (hstep : step apply writes s (.other d command fails) = some t) :
    Stands apply writes before c t := by
  obtain ⟨pool, phase⟩ := s
  cases hstep
  by_cases hd : d = c
  · -- the call is over, and holds nothing on its connection
    subst hd
    have hover : phase.over = true := hguard.resolve_right (absurd rfl)
    have hstands := h.stands
    cases phase with
    | returned | threw =>
      have hheld : pool.held d = [] := hstands.2
      exact ⟨(execute_elsewhere_tables hheld command).trans hstands.1,
        execute_elsewhere_held hheld command⟩
    | beginning | writing | rollingBack => cases hover
  · have hheld : pool.held d = [] := h.others d hd
    have htables : (execute apply pool d command.command fails).2.tables = pool.tables :=
      execute_elsewhere_tables hheld command
    have hopen : (execute apply pool d command.command fails).2.transaction c =
        pool.transaction c := execute_transaction_of_ne (Ne.symm hd) _
    have hpool : (execute apply pool d command.command fails).2.held c = pool.held c :=
      held_of_ne (Ne.symm hd) _
    have hstands := h.stands
    unfold Stands at hstands ⊢
    cases phase with
    | beginning => exact ⟨htables.trans hstands.1, hopen.trans hstands.2⟩
    | writing rest =>
      obtain ⟨hbefore, written, hwrites, hsome⟩ := hstands
      exact ⟨htables.trans hbefore, written, hwrites, hopen.trans hsome⟩
    | rollingBack => exact htables.trans hstands
    | returned | threw => exact ⟨htables.trans hstands.1, hpool.trans hstands.2⟩

theorem Held.step {action : Action} (h : Held apply writes before c s) (hguard : Alone c s action)
    (hstep : step apply writes s action = some t) : Held apply writes before c t := by
  cases action with
  | own d fails =>
    obtain rfl : d = c := hguard
    refine ⟨?_, h.stands.own hstep⟩
    intro e he
    obtain ⟨command, -, rfl⟩ := Option.map_eq_some_iff.mp hstep
    exact (held_of_ne he command).trans (h.others e he)
  | other d command fails =>
    refine ⟨?_, Stands.other h hguard hstep⟩
    intro e he
    cases hstep
    by_cases hed : e = d
    · rw [hed]
      exact execute_elsewhere_held (hed ▸ h.others e he) command
    · exact (held_of_ne hed _).trans (h.others e he)

/-- **All or nothing.** A call that is given a connection out of a transaction, and has it for itself
until it is over, has written everything where it has returned, and nothing before or else. -/
theorem tables_of_run {pool : Pool W T} (hheld : ∀ d, pool.held d = [])
    (hnone : pool.transaction c = none)
    (hrun : Run (step apply writes) (Alone c) ⟨pool, .beginning⟩ t) : t.pool.tables =
      match t.phase with
      | .returned => applyAll apply writes pool.tables
      | _ => pool.tables := by
  have hend : Held apply writes pool.tables c t :=
    hrun.invariant ⟨fun d _ => hheld d, rfl, hnone⟩ fun _ _ _ h hguard hstep =>
      h.step hguard hstep
  have hstands := hend.stands
  unfold Stands at hstands
  cases hphase : t.phase <;> rw [hphase] at hstands
  case rollingBack => exact hstands
  all_goals exact hstands.1

end

end PooledTransactions
