import LotusRfq.Lib.Transitions
import Mathlib.Data.List.Perm.Subperm

/-!
# Calls that read once and then write

A call reads the tables, decides on the statements it will send, and sends them one by one. Any
number of calls are under way at a time, and their statements land in any order; a call that is
never heard of again just sends no more.

* **`step_start`**, **`step_advance`** — what a step does;
* **`posted_nodup`** — when every call that starts brings only values that are neither posted nor on
  their way, no value is ever posted twice.
-/

namespace Sessions

open Transitions

variable {T W C η ε : Type*}

/-- The tables, and for each call under way the statements it has still to send. -/
structure System (T W : Type*) where
  tables : T
  inFlight : List (List W)

inductive Action (C : Type*) where
  | start (call : C)
  | advance (i : ℕ)

/-- A call that the tables make throw leaves nothing. -/
def step (begin : C → T → Except ε (List W)) (apply : W → T → T) (s : System T W) :
    Action C → Option (System T W)
  | .start call =>
    match begin call s.tables with
    | .error _ => some s
    | .ok writes => some { s with inFlight := s.inFlight ++ [writes] }
  | .advance i =>
    match s.inFlight[i]? with
    | some (statement :: writes) => some ⟨apply statement s.tables, s.inFlight.set i writes⟩
    | _ => none

variable {begin : C → T → Except ε (List W)} {apply : W → T → T} {s t : System T W}

theorem step_start {call : C} (h : step begin apply s (.start call) = some t) :
    t = s ∨ ∃ writes, begin call s.tables = .ok writes ∧
      t = { s with inFlight := s.inFlight ++ [writes] } := by
  cases hbegin : begin call s.tables with
  | error error =>
    simp only [step, hbegin, Option.some.injEq] at h
    exact .inl h.symm
  | ok writes =>
    simp only [step, hbegin, Option.some.injEq] at h
    exact .inr ⟨writes, rfl, h.symm⟩

theorem step_advance {i : ℕ} (h : step begin apply s (.advance i) = some t) :
    ∃ statement writes, s.inFlight[i]? = some (statement :: writes) ∧
      t = ⟨apply statement s.tables, s.inFlight.set i writes⟩ := by
  simp only [step] at h
  split at h
  next statement writes hcall => exact ⟨statement, writes, hcall, (Option.some.inj h).symm⟩
  next => cases h

/-! ## Values that are posted once -/

/-- The values that the calls under way will still post. -/
def pending (posts : W → Option η) (inFlight : List (List W)) : List η :=
  inFlight.flatMap fun writes => writes.filterMap posts

theorem pending_advance {posts : W → Option η} {inFlight : List (List W)} {i : ℕ} {statement : W}
    {writes : List W} (h : inFlight[i]? = some (statement :: writes)) :
    (pending posts inFlight).Perm
      ((posts statement).toList ++ pending posts (inFlight.set i writes)) := by
  obtain ⟨hi, hcall⟩ := List.getElem?_eq_some_iff.mp h
  have hsplit : inFlight = inFlight.take i ++ (statement :: writes) :: inFlight.drop (i + 1) := by
    rw [← hcall, List.getElem_cons_drop, List.take_append_drop]
  have hset : inFlight.set i writes = inFlight.take i ++ writes :: inFlight.drop (i + 1) :=
    List.set_eq_take_append_cons_drop.trans (if_pos hi)
  have hhead : (statement :: writes).filterMap posts =
      (posts statement).toList ++ writes.filterMap posts := by
    cases hposts : posts statement with
    | none => rw [List.filterMap_cons_none hposts]; rfl
    | some value => rw [List.filterMap_cons_some hposts]; rfl
  rw [hset]
  conv_lhs => rw [hsplit]
  unfold pending
  rw [List.flatMap_append, List.flatMap_cons, List.flatMap_append, List.flatMap_cons, hhead,
    List.append_assoc]
  exact List.perm_append_comm_assoc _ _ _

/-- A call that goes on starts with a value that is neither posted nor on its way. -/
def StartsWithNew (begin : C → T → Except ε (List W)) (value : C → η) (posts : W → Option η)
    (posted : T → List η) (s : System T W) : Action C → Prop
  | .start call => (begin call s.tables).isOk →
      value call ∉ posted s.tables ∧ value call ∉ pending posts s.inFlight
  | .advance _ => True

instance [DecidableEq η] (value : C → η) (posts : W → Option η) (posted : T → List η)
    (s : System T W) (action : Action C) :
    Decidable (StartsWithNew begin value posts posted s action) := by
  unfold StartsWithNew
  cases action <;> infer_instance

/-- **No value is posted twice.** A call posts its own value, a statement posts at most once, in
tables that meet `K`, and no statement breaks `K`. -/
theorem posted_nodup {value : C → η} {posts : W → Option η} {posted : T → List η} {K : T → Prop}
    (hrun : Run (step begin apply) (StartsWithNew begin value posts posted) s t)
    (hvalue : ∀ call tables writes, begin call tables = .ok writes →
      writes.filterMap posts = [value call])
    (hkeep : ∀ statement tables, K tables → K (apply statement tables))
    (hposts : ∀ statement tables, K tables →
      (posted (apply statement tables)).Subperm (posted tables ++ (posts statement).toList))
    (hs : K s.tables) (hnodup : (posted s.tables ++ pending posts s.inFlight).Nodup) :
    K t.tables ∧ (posted t.tables ++ pending posts t.inFlight).Nodup := by
  refine hrun.invariant (P := fun s => K s.tables ∧
    (posted s.tables ++ pending posts s.inFlight).Nodup) ⟨hs, hnodup⟩ ?_
  intro s a t hinv hguard hstep
  obtain ⟨hK, hs⟩ := hinv
  cases a with
  | start call =>
    rcases step_start hstep with rfl | ⟨writes, hbegin, rfl⟩
    · exact ⟨hK, hs⟩
    · refine ⟨hK, ?_⟩
      obtain ⟨hposted, hflying⟩ := hguard (by rw [hbegin]; rfl)
      have hpending : pending posts (s.inFlight ++ [writes]) =
          pending posts s.inFlight ++ [value call] := by
        simp [pending, hvalue call s.tables writes hbegin]
      show (posted s.tables ++ pending posts (s.inFlight ++ [writes])).Nodup
      rw [hpending, ← List.append_assoc, List.nodup_append]
      refine ⟨hs, List.pairwise_singleton _ _, ?_⟩
      intro old hold new hnew heq
      rw [heq, List.mem_singleton.mp hnew] at hold
      exact (List.mem_append.mp hold).elim hposted hflying
  | advance i =>
    obtain ⟨statement, writes, hcall, rfl⟩ := step_advance hstep
    refine ⟨hkeep statement s.tables hK, ?_⟩
    have hmoved : (posted s.tables ++ (posts statement).toList ++
        pending posts (s.inFlight.set i writes)).Nodup := by
      rw [List.append_assoc]
      exact ((pending_advance hcall).append_left _).nodup hs
    have hsub := (List.subperm_append_right (pending posts (s.inFlight.set i writes))).mpr
      (hposts statement s.tables hK)
    obtain ⟨values, hperm, hsublist⟩ := hsub
    exact hperm.nodup (hmoved.sublist hsublist)

end Sessions
